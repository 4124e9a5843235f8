import PageObjects.Command.Arguments
import PageObjects.Config.Source
import PageObjects.File.Stored
import PageObjects.Json.Printer
import PageObjects.Report.Output

namespace PageObjects

/-- What a command leaves behind. -/
structure Outcome where
  exitCode : Nat
  output : Option Text := none
  messages : List Text := []
  written : List (FilePath × Text) := []
  deriving DecidableEq, Repr

/-- What ends a command before it has an outcome. -/
inductive Breakdown where
  | file (error : FileError)
  | yaml (message : Text)
  | excess (error : Excess)
  | url (error : UrlError)
  deriving DecidableEq, Repr

def Breakdown.message : Breakdown → Text
  | file e => e.message
  | yaml message => message
  | excess e => e.message
  | url e => e.message

/-- How far the printed values are indented. -/
def indentOf (isCompact : Bool) : Option Nat := if isCompact then none else some 2

def errorMessage (t : Text) : Text := "Error: " ++ t

/-- Options that are loaded or refused, unless the command breaks down on the way. -/
def Breakdown.ofLoading : Except LoadError Config → Except Breakdown (Except ConfigError Config)
  | .ok c => .ok (.ok c)
  | .error (.config e) => .ok (.error e)
  | .error (.excess e) => .error (.excess e)
  | .error (.yaml message) => .error (.yaml message)

/-- The options from the file of a job. -/
def jobConfig (yaml : YamlReader) (stored : FilePath → Stored) (file : Option Text) :
    Except Breakdown (Except ConfigError Config) :=
  match file with
  | none => Breakdown.ofLoading (Config.load yaml none .null)
  | some t =>
    let p := FilePath.ofText t
    match readText stored p with
    | .ok content => Breakdown.ofLoading (Config.load yaml (some (p.toText, some content)) .null)
    | .error e =>
      if e.meansNothing then Breakdown.ofLoading (Config.load yaml (some (p.toText, none)) .null)
      else .error (.file e)

/-- The document of the script at a path, or why there is none. -/
def judge (stored : FilePath → Stored) (config : Config) (path : Text) :
    Except Breakdown (Except Text Json) :=
  let p := FilePath.ofText path
  match readText stored p with
  | .error e => .ok (.error ("could not read script: " ++ e.message))
  | .ok script =>
    match analyze config (some p.toText) script with
    | .ok d => .ok (.ok d.toJson)
    | .error (.url e) => .error (.url e)
    | .error (.excess e) => .error (.excess e)
    | .error (.script e) => .ok (.error e.message)

/-- A script with its document or the reason why there is none. -/
abbrev Verdict := Text × Except Text Json

def Verdict.document? (v : Verdict) : Option Json := v.2.toOption

/-- The documents of several scripts, by the paths that were given. -/
def documentsByPath (verdicts : List Verdict) : List (Text × Json) :=
  verdicts.foldl (fun fields v =>
    match v.document? with
    | some d => setEntry v.1 d fields
    | none => fields) []

/-- What is printed: the document of the only script, or all documents by their paths. -/
def printed? (verdicts : List Verdict) : Option Json :=
  match verdicts, documentsByPath verdicts with
  | _, [] => none
  | [v], _ => v.document?
  | _, fields => some (.object fields)

/-- Success, unless a script has no document. -/
def exitCodeOf (verdicts : List Verdict) : Nat :=
  if verdicts.all fun v => v.document?.isSome then 0 else 1

/-- The file in a folder for the document of a script. -/
def documentFile (folder : FilePath) (path : Text) : FilePath :=
  folder.child ((FilePath.ofText path).stem ++ ".pom.json")

/-- What is told about a script; with a folder, also where its document is. -/
def messageOf? (folder : Option FilePath) (v : Verdict) : Option Text :=
  match v.2, folder with
  | .error reason, _ => some (errorMessage (v.1 ++ ": " ++ reason))
  | .ok _, some f => some ("Analysis written to: " ++ (documentFile f v.1).toText)
  | .ok _, none => none

/-- The files for the documents; of two for one file the later stays. -/
def documentFiles (indent : Option Nat) (folder : FilePath) (verdicts : List Verdict) :
    List (FilePath × Text) :=
  verdicts.foldl (fun files v =>
    match v.document? with
    | some d => setEntry (documentFile folder v.1) (Json.print indent d) files
    | none => files) []

/-- What a job leaves behind once its scripts are judged. -/
def AnalysisJob.report (job : AnalysisJob) (verdicts : List Verdict) : Outcome :=
  let indent := indentOf job.isCompact
  let folder := job.outputFolder.map FilePath.ofText
  { exitCode := exitCodeOf verdicts
    output := if folder.isSome then none
      else (printed? verdicts).map fun v => Json.print indent v ++ ['\n']
    messages := verdicts.filterMap (messageOf? folder)
    written := match folder with
      | some f => documentFiles indent f verdicts
      | none => [] }

/-- Why the files of an outcome cannot be written. -/
def AnalysisJob.writeError? (stored : FilePath → Stored) (job : AnalysisJob) (o : Outcome) :
    Option FileError :=
  (job.outputFolder.map FilePath.ofText).bind fun folder =>
    o.written.findSome? fun (target, _) => PageObjects.writeError? stored folder target

def AnalysisJob.run (yaml : YamlReader) (stored : FilePath → Stored) (job : AnalysisJob) :
    Except Breakdown Outcome :=
  match jobConfig yaml stored job.configFile with
  | .error e => .error e
  | .ok (.error e) => .ok { exitCode := 2, messages := [errorMessage e.message] }
  | .ok (.ok config) => do
    let verdicts ← job.scripts.mapM fun path => do return (path, ← judge stored config path)
    let outcome := job.report verdicts
    match job.writeError? stored outcome with
    | some e => throw (.file e)
    | none => return outcome

/-- The assessment of one selector. -/
def classified (selector : Text) (verb : Option Text) : Json :=
  .object ((Selector.ofExpression selector).assess Strategy.preferred verb true).toFields

def Command.run (yaml : YamlReader) (stored : FilePath → Stored) :
    Command → Except Breakdown Outcome
  | analyze job => job.run yaml stored
  | classify selector verb =>
    match Selector.excess? selector with
    | some e => .error (.excess e)
    | none =>
      let document := Json.print (some 2) (classified selector verb)
      .ok { exitCode := 0, output := some (document ++ ['\n']) }

def Refusal.outcome : Refusal → Outcome
  | help => { exitCode := 1 }
  | misuse => { exitCode := 2 }

/-- What the arguments lead to, with what is stored at the paths they name. -/
def runArguments (yaml : YamlReader) (stored : FilePath → Stored) (args : List Text) :
    Except Breakdown Outcome :=
  match Command.ofArguments args with
  | .ok command => command.run yaml stored
  | .error refusal => .ok refusal.outcome

/-- The paths at which a command looks. -/
def Command.paths : Command → List FilePath
  | analyze job =>
    let folder := job.outputFolder.map FilePath.ofText
    (job.configFile.toList ++ job.scripts).map FilePath.ofText ++
      folder.toList ++ folder.toList.flatMap fun f => job.scripts.map (documentFile f)
  | classify _ _ => []

end PageObjects
