import PageObjects.Json.Basic
import PageObjects.Text.Digit

namespace PageObjects

/-- The analysis of scripts that is asked for. -/
structure AnalysisJob where
  scripts : List Text
  configFile : Option Text
  outputFolder : Option Text
  isCompact : Bool
  deriving DecidableEq, Repr

inductive Command where
  | analyze (job : AnalysisJob)
  | classify (selector : Text) (verb : Option Text)
  deriving DecidableEq, Repr

/-- Why there is no command: help is asked for, or the arguments make none. -/
inductive Refusal where
  | help | misuse
  deriving DecidableEq, Repr

inductive OptionName where
  | help | config | outputFolder | compact | verbose | verb
  deriving DecidableEq, Repr

/-- How an option is written. -/
structure OptionForm where
  name : OptionName
  spellings : List Text
  takesValue : Bool
  deriving DecidableEq, Repr

def helpForm : OptionForm := ⟨.help, ["-h", "--help"], false⟩

/-- A command's options, and whether it takes several operands. -/
structure Usage where
  options : List OptionForm
  takesMany : Bool
  deriving DecidableEq, Repr

namespace Usage

def analyze : Usage := ⟨[helpForm, ⟨.config, ["--config", "-c"], true⟩,
  ⟨.outputFolder, ["--output-dir", "-o"], true⟩, ⟨.compact, ["--compact"], false⟩,
  ⟨.verbose, ["--verbose", "-v"], false⟩], true⟩

def classify : Usage := ⟨[helpForm, ⟨.verb, ["--verb"], true⟩], false⟩

/-- What may stand before a command. -/
def lead : Usage := ⟨[helpForm], false⟩

end Usage

/-- A value joined to its option, with an equals sign or directly. -/
structure JoinedValue where
  hasSign : Bool
  text : Text
  deriving DecidableEq, Repr

/-- What an argument is by itself. -/
inductive Mark where
  | operand
  | divider
  | option (form : OptionForm) (isLong : Bool) (value : Option JoinedValue)
  | unknown
  deriving DecidableEq, Repr

def findForm? (forms : List OptionForm) (spelling : Text) : Option OptionForm :=
  forms.find? fun f => f.spellings.contains spelling

def isLongSpelling (t : Text) : Bool := "--".toList.isPrefixOf t

/-- The options that an argument may write: long ones by their beginning, and a short one with
whatever is joined to it. -/
def possibleOptions (forms : List OptionForm) (arg : Text) : List Mark :=
  let (before, behind) := Text.cutAt '=' arg
  forms.flatMap fun f => f.spellings.filterMap fun spelling =>
    if isLongSpelling arg then
      if before.isPrefixOf spelling then
        some (.option f true (behind.map fun v => ⟨true, v⟩))
      else none
    else if spelling == arg.take 2 then some (.option f false (some ⟨false, arg.drop 2⟩))
    else if arg.isPrefixOf spelling then some (.option f (isLongSpelling spelling) none)
    else none

/-- Whether what follows a minus sign makes a number. -/
def isNumeral (t : Text) : Bool :=
  let t := if t.getLast? = some '\n' then t.dropLast else t
  match Text.cutAt '.' t with
  | (whole, none) => !whole.isEmpty && whole.all isDecimal
  | (whole, some fraction) => whole.all isDecimal && !fraction.isEmpty && fraction.all isDecimal

/-- What an argument is that spells no option in full; nothing if it may be several options.
Negative numbers and texts with spaces are operands. -/
def Mark.ofBeginning? (forms : List OptionForm) (arg : Text) : Option Mark :=
  match possibleOptions forms arg with
  | [] => some (if isNumeral (arg.drop 1) || arg.contains ' ' then .operand else .unknown)
  | [m] => some m
  | _ => none

/-- What an argument that starts with a minus sign is. -/
def Mark.ofOption? (forms : List OptionForm) (arg : Text) : Option Mark :=
  match findForm? forms arg, Text.cutAt '=' arg with
  | some f, _ => some (.option f (isLongSpelling arg) none)
  | none, (before, some v) =>
    match findForm? forms before with
    | some f => some (.option f (isLongSpelling arg) (some ⟨true, v⟩))
    | none => Mark.ofBeginning? forms arg
  | none, _ => Mark.ofBeginning? forms arg

/-- What an argument is. A minus sign alone is an operand. -/
def Mark.of? (forms : List OptionForm) (arg : Text) : Option Mark :=
  if arg.head? = some '-' && arg != ['-'] then Mark.ofOption? forms arg else some .operand

/-- The arguments with what they are. Behind the divider all are operands. -/
def markAll? (forms : List OptionForm) : List Text → Option (List (Text × Mark))
  | [] => some []
  | arg :: rest =>
    if arg == ['-', '-'] then some ((arg, .divider) :: rest.map fun a => (a, .operand))
    else do
      let m ← Mark.of? forms arg
      return (arg, m) :: (← markAll? forms rest)

/-- The options that one argument writes: flags, and at the end perhaps an option with a value
that is joined to it or still to come. -/
structure OptionRun where
  flags : List OptionName := []
  valued : Option (OptionName × Option Text) := none
  hasSurplus : Bool := false
  deriving DecidableEq, Repr

namespace OptionRun

/-- An option with no value joined to it. -/
def single (form : OptionForm) : OptionRun :=
  if form.takesValue then { valued := some (form.name, none) } else { flags := [form.name] }

/-- A short option and what is joined to it: its value, or further short options. -/
def joined (forms : List OptionForm) (form : OptionForm) (hasSign : Bool) (t : Text) :
    Except Refusal OptionRun :=
  if form.takesValue then .ok { valued := some (form.name, some t) }
  else match t with
    | [] => .error .misuse
    | c :: r =>
      if hasSign || c == '-' then .error .misuse
      else match findForm? forms ['-', c] with
        | none => .ok { flags := [form.name], hasSurplus := true }
        | some next =>
          let further := match r with
            | [] => Except.ok (single next)
            | '=' :: v => joined forms next true v
            | d :: v => joined forms next false (d :: v)
          further.map fun run => { run with flags := form.name :: run.flags }
termination_by t.length

def ofOption (forms : List OptionForm) (form : OptionForm) (isLong : Bool) :
    Option JoinedValue → Except Refusal OptionRun
  | none => .ok (single form)
  | some v =>
    if !isLong then joined forms form v.hasSign v.text
    else if form.takesValue then .ok { valued := some (form.name, some v.text) }
    else .error .misuse

end OptionRun

/-- What has been found among the arguments, the last values first. Only the first operands in a
row are taken. An option may still await its value. -/
structure Gathered where
  operands : List Text := []
  takesMore : Bool := true
  flags : List OptionName := []
  values : List (OptionName × Text) := []
  awaiting : Option OptionName := none
  hasSurplus : Bool := false
  deriving DecidableEq, Repr

namespace Gathered

def addOperand (usage : Usage) (g : Gathered) (t : Text) : Gathered :=
  if g.takesMore && (usage.takesMany || g.operands.isEmpty) then
    { g with operands := g.operands ++ [t] }
  else { g with hasSurplus := true }

/-- The options of a run are there, and operands in front of it are all there are. -/
def addRun (g : Gathered) (run : OptionRun) : Gathered :=
  let h := { g with
    flags := g.flags ++ run.flags
    hasSurplus := g.hasSurplus || run.hasSurplus
    takesMore := g.operands.isEmpty }
  match run.valued with
  | none => h
  | some (name, some v) => { h with values := (name, v) :: h.values }
  | some (name, none) => { h with awaiting := some name }

/-- Help is given as soon as it is asked for and no value is awaited. -/
def unlessHelp (g : Gathered) : Except Refusal Gathered :=
  if g.awaiting.isNone && g.flags.contains .help then .error .help else .ok g

/-- Adds one argument. Only an operand is the value that an option awaits. -/
def add (usage : Usage) (g : Gathered) : Text × Mark → Except Refusal Gathered
  | (t, mark) =>
    match g.awaiting, mark with
    | some name, .operand =>
      unlessHelp { g with awaiting := none, values := (name, t) :: g.values }
    | some _, _ => .error .misuse
    | none, .operand => .ok (g.addOperand usage t)
    | none, .divider => .ok { g with hasSurplus := g.hasSurplus || !g.takesMore }
    | none, .unknown => .ok { g with hasSurplus := true, takesMore := g.operands.isEmpty }
    | none, .option form isLong value =>
      (OptionRun.ofOption usage.options form isLong value).bind fun run => unlessHelp (g.addRun run)

/-- Everything that the arguments of a command hold; none of it may be left over. -/
def ofArguments (usage : Usage) (args : List Text) : Except Refusal Gathered :=
  match markAll? usage.options args with
  | none => .error .misuse
  | some marked => do
    let g ← marked.foldlM (add usage) {}
    if g.operands.isEmpty || g.hasSurplus || g.awaiting.isSome then .error .misuse else return g

/-- The value of an option; an empty one counts as none. -/
def value? (g : Gathered) (name : OptionName) : Option Text :=
  (valueAt? name g.values).filter fun v => !v.isEmpty

end Gathered

namespace Command

def ofAnalyze (args : List Text) : Except Refusal Command := do
  let g ← Gathered.ofArguments .analyze args
  return .analyze {
    scripts := g.operands
    configFile := g.value? .config
    outputFolder := g.value? .outputFolder
    isCompact := g.flags.contains .compact }

def ofClassify (args : List Text) : Except Refusal Command := do
  let g ← Gathered.ofArguments .classify args
  return .classify (g.operands.headD []) (valueAt? .verb g.values)

/-- A command by its name, with its arguments. -/
def ofName? (name : Text) (args : List Text) : Option (Except Refusal Command) :=
  match String.ofList name with
  | "analyze" => some (ofAnalyze args)
  | "classify" => some (ofClassify args)
  | _ => none

/-- What comes of arguments that do not start with a command: help, if it is asked for before
anything is wrong. -/
def leadRefusal : List Text → Refusal
  | [] => .misuse
  | arg :: rest =>
    if arg == ['-', '-'] then .misuse
    else match Mark.of? Usage.lead.options arg with
      | some .unknown => leadRefusal rest
      | some (.option form isLong value) =>
        match OptionRun.ofOption Usage.lead.options form isLong value with
        | .ok _ => .help
        | .error e => e
      | some .operand =>
        match ofName? arg rest with
        | some (.error .help) => .help
        | _ => .misuse
      | _ => .misuse

/-- The command that the arguments ask for. A path in front asks for an analysis. -/
def ofArguments : List Text → Except Refusal Command
  | [] => .error .help
  | arg :: rest =>
    match ofName? arg rest with
    | some command => command
    | none =>
      if arg.head? = some '-' then .error (leadRefusal (arg :: rest)) else ofAnalyze (arg :: rest)

end Command

end PageObjects
