import PageObjects.Proofs.Command.Written

namespace PageObjects

/-- What comes of the script at a path by itself: a document, or the reason why there is none, which
lies in its file or in its text. -/
inductive Judged (stored : FilePath → Stored) (config : Config) (path : Text) :
    Except Text Json → Prop
  | analyzed {script : Text} {d : Document} (read : readText stored (.ofText path) = .ok script)
      (result : analyze config (some (FilePath.ofText path).toText) script = .ok d) :
      Judged stored config path (.ok d.toJson)
  | unreadable {e : FileError} (read : readText stored (.ofText path) = .error e) :
      Judged stored config path (.error ("could not read script: " ++ e.message))
  | refused {script : Text} {e : ScriptError} (read : readText stored (.ofText path) = .ok script)
      (result : analyze config (some (FilePath.ofText path).toText) script = .error (.script e)) :
      Judged stored config path (.error e.message)

theorem judge_eq_ok_iff {stored : FilePath → Stored} {config : Config} {path : Text}
    {result : Except Text Json} :
    judge stored config path = .ok result ↔ Judged stored config path result := by
  constructor
  · intro h
    unfold judge at h
    dsimp only at h
    split at h
    next e read =>
      rw [← Except.ok.inj h]
      exact .unreadable read
    next script read =>
      split at h
      next d analyzed =>
        rw [← Except.ok.inj h]
        exact .analyzed read analyzed
      next => cases h
      next => cases h
      next e refused =>
        rw [← Except.ok.inj h]
        exact .refused read refused
  · intro h
    unfold judge
    dsimp only
    cases h with
    | analyzed read analyzed => rw [read]; dsimp only; rw [analyzed]
    | unreadable read => rw [read]
    | refused read refused => rw [read]; dsimp only; rw [refused]

/-- The scripts that have documents, with these. -/
def documentsOf (result : Text → Except Text Json) (scripts : List Text) : List (Text × Json) :=
  scripts.filterMap fun path => (result path).toOption.map fun d => (path, d)

/-- What is told of a script, if it has no document. -/
def complaint? (result : Text → Except Text Json) (path : Text) : Option Text :=
  match result path with
  | .ok _ => none
  | .error reason => some (errorMessage (path ++ ": " ++ reason))

/-- What a job without a folder leaves behind: the document of the only script, or a mapping from the
paths to the documents in the order of the scripts, or nothing where there is no document; one
message for each script without a document; and an exit code that tells whether there is such a
script. -/
structure AnalysisJob.PrintsEach (job : AnalysisJob) (result : Text → Except Text Json)
    (o : Outcome) : Prop where
  nothing : documentsOf result job.scripts = [] → o.output = none
  single : ∀ path d, job.scripts = [path] → result path = .ok d →
    o.output = some (Json.print (indentOf job.isCompact) d ++ ['\n'])
  several : job.scripts.length ≠ 1 → documentsOf result job.scripts ≠ [] →
    o.output = some (Json.print (indentOf job.isCompact)
      (.object (documentsOf result job.scripts)) ++ ['\n'])
  messages : o.messages = job.scripts.filterMap (complaint? result)
  succeeds : (∀ path ∈ job.scripts, ∃ d, result path = .ok d) → o.exitCode = 0
  fails : (∃ path ∈ job.scripts, ∃ reason, result path = .error reason) → o.exitCode = 1
  written : o.written = []

section Results

variable {result : Text → Except Text Json} {scripts : List Text}

theorem documentsOf_cons_ok {path : Text} {d : Json} (judged : result path = .ok d) :
    documentsOf result (path :: scripts) = (path, d) :: documentsOf result scripts := by
  rw [documentsOf, List.filterMap_cons, judged]
  rfl

theorem documentsOf_cons_error {path reason : Text} (judged : result path = .error reason) :
    documentsOf result (path :: scripts) = documentsOf result scripts := by
  rw [documentsOf, List.filterMap_cons, judged]
  rfl

theorem complaint?_ok {path : Text} {d : Json} (judged : result path = .ok d) :
    complaint? result path = none := by
  rw [complaint?, judged]

theorem complaint?_error {path reason : Text} (judged : result path = .error reason) :
    complaint? result path = some (errorMessage (path ++ ": " ++ reason)) := by
  rw [complaint?, judged]

theorem keys_documentsOf_sublist :
    ((documentsOf result scripts).map Prod.fst).Sublist scripts := by
  induction scripts with
  | nil => exact .slnil
  | cons path scripts ih =>
    cases judged : result path with
    | error reason =>
      rw [documentsOf_cons_error judged]
      exact ih.cons path
    | ok d =>
      rw [documentsOf_cons_ok judged]
      exact ih.cons_cons path

/-- Different scripts do not take each other's place. -/
theorem documentsByPath_judgedBy (distinct : scripts.Nodup) :
    documentsByPath (judgedBy result scripts) = documentsOf result scripts := by
  have keys : (([] ++ documentsOf result scripts).map Prod.fst).Nodup :=
    keys_documentsOf_sublist.nodup distinct
  have inOrder := setEntries_of_nodup keys
  rw [List.nil_append] at inOrder
  rw [← inOrder, documentsByPath, judgedBy, List.foldl_map, setEntries, documentsOf,
    List.foldl_filterMap]
  congr 1
  funext fields path
  dsimp only [Verdict.document?]
  cases result path <;> rfl

theorem messages_judgedBy (scripts : List Text) :
    (judgedBy result scripts).filterMap (messageOf? none) =
      scripts.filterMap (complaint? result) := by
  rw [judgedBy, List.filterMap_map]
  congr 1
  funext path
  unfold messageOf? complaint?
  dsimp only [Function.comp_apply]
  cases result path <;> rfl

theorem exitCodeOf_judgedBy_of_all (all : ∀ path ∈ scripts, ∃ d, result path = .ok d) :
    exitCodeOf (judgedBy result scripts) = 0 := by
  refine if_pos (List.all_eq_true.mpr ?_)
  intro v hv
  obtain ⟨path, there, rfl⟩ := List.mem_map.mp hv
  obtain ⟨d, judged⟩ := all path there
  simp [Verdict.document?, judged, Except.toOption]

theorem exitCodeOf_judgedBy_of_exists
    (failing : ∃ path ∈ scripts, ∃ reason, result path = .error reason) :
    exitCodeOf (judgedBy result scripts) = 1 := by
  refine if_neg ?_
  intro all
  obtain ⟨path, there, reason, judged⟩ := failing
  have this := List.all_eq_true.mp all (path, result path) (List.mem_map_of_mem there)
  simp [Verdict.document?, judged, Except.toOption] at this

theorem printed?_single (path : Text) {d : Json} (judged : result path = .ok d) :
    printed? (judgedBy result [path]) = some d := by
  rw [judgedBy, List.map_singleton, judged]
  rfl

theorem printed?_several (distinct : scripts.Nodup) (count : scripts.length ≠ 1)
    (full : documentsOf result scripts ≠ []) :
    printed? (judgedBy result scripts) = some (.object (documentsOf result scripts)) := by
  rw [← documentsByPath_judgedBy distinct] at full ⊢
  unfold printed?
  split
  next empty => exact absurd empty full
  next one _ =>
    have size := congrArg List.length one
    rw [judgedBy, List.length_map] at size
    exact absurd size count
  next => rfl

variable {job : AnalysisJob}

theorem printsEach_report (noFolder : job.outputFolder = none) (distinct : job.scripts.Nodup) :
    job.PrintsEach result (job.report (judgedBy result job.scripts)) := by
  have output : (job.report (judgedBy result job.scripts)).output =
      (printed? (judgedBy result job.scripts)).map fun v =>
        Json.print (indentOf job.isCompact) v ++ ['\n'] := by
    rw [AnalysisJob.report, noFolder]
    rfl
  have documents : documentsByPath (judgedBy result job.scripts) = documentsOf result job.scripts :=
    documentsByPath_judgedBy distinct
  constructor
  · intro nothing
    rw [output, printed?.eq_def, documents, nothing]
    rfl
  · intro path d only judged
    rw [output, only, printed?_single path judged, Option.map_some]
  · intro count full
    rw [output, printed?_several distinct count full, Option.map_some]
  · rw [AnalysisJob.report, noFolder]
    exact messages_judgedBy job.scripts
  · intro all
    exact exitCodeOf_judgedBy_of_all all
  · intro failing
    exact exitCodeOf_judgedBy_of_exists failing
  · rw [AnalysisJob.report, noFolder]
    rfl

end Results

/-- A script that has no document does not keep the others from theirs: where every script, by
itself, has a document or a reason for having none in its file or its text, the job prints all
documents there are and tells the reasons for the others. -/
theorem failures_stay_apart {yaml : YamlReader} {stored : FilePath → Stored} {job : AnalysisJob}
    {config : Config}
    (noFolder : job.outputFolder = none)
    (configured : jobConfig yaml stored job.configFile = .ok (.ok config))
    (distinct : job.scripts.Nodup)
    (each : ∀ path ∈ job.scripts, ∃ result, Judged stored config path result) :
    ∃ result : Text → Except Text Json,
      (∀ path ∈ job.scripts, Judged stored config path (result path)) ∧
      ∃ o, job.run yaml stored = .ok o ∧ job.PrintsEach result o := by
  choose! result judged using each
  have writable : job.writeError? stored (job.report (judgedBy result job.scripts)) = none := by
    rw [AnalysisJob.writeError?, noFolder]
    rfl
  exact ⟨result, judged, job.report (judgedBy result job.scripts),
    run_of_judged configured (fun path hp => judge_eq_ok_iff.mpr (judged path hp)) writable,
    printsEach_report noFolder distinct⟩

/-- A visit of the login beside a script without statements. -/
def visitAndBlank : FilePath → Stored :=
  storedScripts [("login.spec.ts", "page.goto('/login');"), ("blank.spec.ts", "  ")]

/-- The job for both, with a script between them that is not there. -/
def visitAndBlankJob : AnalysisJob :=
  ⟨["login.spec.ts", "gone.spec.ts", "blank.spec.ts"], none, none, true⟩

theorem failures_stay_apart_visitAndBlank : ∃ d o,
    Judged visitAndBlank {} "login.spec.ts" (.ok d) ∧
    visitAndBlankJob.run Yaml.read visitAndBlank = .ok o ∧
    o.output = some (Json.print none (.object [("login.spec.ts", d)]) ++ ['\n']) ∧
    o.messages = [
      errorMessage (("gone.spec.ts: could not read script: " : Text) ++
        "[Errno 2] No such file or directory: 'gone.spec.ts'"),
      errorMessage "blank.spec.ts: Script is empty"] ∧
    o.exitCode = 1 := by
  have found : ∀ path ∈ visitAndBlankJob.scripts,
      (judge visitAndBlank {} path).toOption.any (fun _ => true) = true := by
    decide +kernel
  have each : ∀ path ∈ visitAndBlankJob.scripts, ∃ result, Judged visitAndBlank {} path result := by
    intro path hp
    obtain ⟨result, judged, -⟩ := exists_ok_of_any (found path hp)
    exact ⟨result, judge_eq_ok_iff.mp judged⟩
  have noFolder : visitAndBlankJob.outputFolder = none := rfl
  have configured : jobConfig Yaml.read visitAndBlank visitAndBlankJob.configFile =
      .ok (.ok {}) := by
    decide +kernel
  obtain ⟨result, judged, o, run, prints⟩ := failures_stay_apart noFolder configured
    (by decide +kernel) each
  have login : ∃ d, result "login.spec.ts" = .ok d := by
    have document : (judge visitAndBlank {} "login.spec.ts").toOption.any
        (·.toOption.isSome) = true := by
      decide +kernel
    rw [judge_eq_ok_iff.mpr (judged "login.spec.ts" (by decide))] at document
    cases h : result "login.spec.ts" with
    | ok d => exact ⟨d, rfl⟩
    | error reason => rw [h] at document; cases document
  have refused : ∀ path ∈ visitAndBlankJob.scripts, ∀ reason,
      (judge visitAndBlank {} path).toOption.any
        (fun r => match r with | .ok _ => false | .error told => told == reason) = true →
      result path = .error reason := by
    intro path hp reason h
    rw [judge_eq_ok_iff.mpr (judged path hp)] at h
    cases same : result path with
    | ok d => rw [same] at h; cases h
    | error told => rw [same] at h; exact congrArg Except.error (beq_iff_eq.mp h)
  have gone := refused "gone.spec.ts" (by decide) ("could not read script: " ++
    (FileError.absent (.ofText "gone.spec.ts")).message) (by decide +kernel)
  have blank := refused "blank.spec.ts" (by decide) "Script is empty" (by decide +kernel)
  obtain ⟨d, login⟩ := login
  have documents : documentsOf result visitAndBlankJob.scripts =
      [(("login.spec.ts" : Text), d)] := by
    rw [visitAndBlankJob, documentsOf_cons_ok login, documentsOf_cons_error gone,
      documentsOf_cons_error blank]
    rfl
  refine ⟨d, o, login ▸ judged "login.spec.ts" (by decide), run, ?_, ?_, ?_⟩
  · have output := prints.several (by decide) (by rw [documents]; exact List.cons_ne_nil _ _)
    rw [documents] at output
    exact output
  · rw [prints.messages, visitAndBlankJob, List.filterMap_cons_none (complaint?_ok login),
      List.filterMap_cons_some (complaint?_error gone),
      List.filterMap_cons_some (complaint?_error blank), List.filterMap_nil]
    decide +kernel
  · exact prints.fails ⟨"blank.spec.ts", by decide, _, blank⟩

end PageObjects
