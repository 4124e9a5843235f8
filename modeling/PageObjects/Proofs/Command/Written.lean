import Mathlib.Data.List.Dedup
import PageObjects.Command.Outcome
import PageObjects.Proofs.Entries
import PageObjects.Proofs.Outcome

namespace PageObjects

/-- What the file for the document of a script is named by. -/
def scriptStem (path : Text) : Text := (FilePath.ofText path).stem

/-- The file in a folder for the documents of scripts with a stem. -/
def stemFile (folder : FilePath) (stem : Text) : FilePath := folder.child (stem ++ ".pom.json")

theorem map_documentFile (folder : FilePath) (scripts : List Text) :
    scripts.map (documentFile folder) = (scripts.map scriptStem).map (stemFile folder) := by
  rw [List.map_map]
  rfl

theorem stemFile_injective (folder : FilePath) : Function.Injective (stemFile folder) := by
  intro stem other h
  have parts : folder.parts ++ [stem ++ ".pom.json".toList] =
      folder.parts ++ [other ++ ".pom.json".toList] := congrArg FilePath.parts h
  exact List.append_cancel_right (List.cons.inj (List.append_cancel_left parts)).1

/-- A folder that is missing, or holds nothing where documents go. -/
def IsFree (stored : FilePath → Stored) (folder : FilePath) : Prop :=
  stored folder = .absent ∨
    stored folder = .folder ∧ ∀ path, stored (documentFile folder path) = .absent

theorem IsFree.writeError?_eq_none {stored : FilePath → Stored} {folder : FilePath}
    (free : IsFree stored folder) (path : Text) :
    writeError? stored folder (documentFile folder path) = none := by
  rcases free with missing | ⟨there, empty⟩
  · rw [writeError?, missing]
  · rw [writeError?, there]
    simp only [empty path]

theorem mapM_eq_ok {ε α β : Type} {f : α → Except ε β} {g : α → β} {as : List α}
    (h : ∀ a ∈ as, f a = .ok (g a)) : as.mapM f = .ok (as.map g) := by
  induction as with
  | nil => rfl
  | cons a as ih =>
    obtain ⟨first, others⟩ := List.forall_mem_cons.mp h
    rw [List.mapM_cons, first, ih others]
    rfl

/-- The scripts with what comes of each. -/
def judgedBy (result : Text → Except Text Json) (scripts : List Text) : List Verdict :=
  scripts.map fun path => (path, result path)

/-- A job whose scripts are all judged, and whose files can be written, leaves its report behind. -/
theorem run_of_judged {yaml : YamlReader} {stored : FilePath → Stored} {job : AnalysisJob}
    {config : Config} {result : Text → Except Text Json}
    (configured : jobConfig yaml stored job.configFile = .ok (.ok config))
    (judged : ∀ path ∈ job.scripts, judge stored config path = .ok (result path))
    (writable : job.writeError? stored (job.report (judgedBy result job.scripts)) = none) :
    job.run yaml stored = .ok (job.report (judgedBy result job.scripts)) := by
  have verdicts : (job.scripts.mapM fun path => do return (path, ← judge stored config path)) =
      (.ok (judgedBy result job.scripts) : Except Breakdown (List Verdict)) := by
    refine mapM_eq_ok ?_
    intro path hp
    rw [judged path hp]
    rfl
  rw [AnalysisJob.run, configured]
  simp only [verdicts]
  simp only [bind, Except.bind, writable]
  rfl

section Documents

variable {yaml : YamlReader} {stored : FilePath → Stored} {job : AnalysisJob} {folder : FilePath}
  {document : Text → Json}

/-- The scripts with their documents. -/
def judgedAs (document : Text → Json) (scripts : List Text) : List Verdict :=
  scripts.map fun path => (path, .ok (document path))

/-- The files that are written for scripts, one after another. -/
def filesFor (indent : Option Nat) (folder : FilePath) (document : Text → Json)
    (scripts : List Text) : List (FilePath × Text) :=
  scripts.map fun path => (documentFile folder path, Json.print indent (document path))

theorem documentFiles_judgedAs (indent : Option Nat) (scripts : List Text) :
    documentFiles indent folder (judgedAs document scripts) =
      setEntries [] (filesFor indent folder document scripts) := by
  rw [documentFiles, judgedAs, filesFor, setEntries, List.foldl_map, List.foldl_map]
  rfl

theorem exitCodeOf_judgedAs (scripts : List Text) :
    exitCodeOf (judgedAs document scripts) = 0 := by
  refine if_pos (List.all_eq_true.mpr ?_)
  intro v hv
  obtain ⟨path, -, rfl⟩ := List.mem_map.mp hv
  rfl

theorem messages_judgedAs (scripts : List Text) :
    (judgedAs document scripts).filterMap (messageOf? (some folder)) =
      scripts.map fun path => "Analysis written to: " ++ (documentFile folder path).toText := by
  rw [judgedAs, List.filterMap_map, ← List.filterMap_eq_map]
  rfl

theorem keys_filesFor (indent : Option Nat) (scripts : List Text) :
    (filesFor indent folder document scripts).map Prod.fst = scripts.map (documentFile folder) := by
  rw [filesFor, List.map_map]
  rfl

theorem nodup_setEntries_filesFor (indent : Option Nat) (scripts : List Text) :
    ((setEntries [] (filesFor indent folder document scripts)).map Prod.fst).Nodup :=
  nodup_keys_setEntries List.nodup_nil

theorem mem_keys_setEntries_filesFor (indent : Option Nat) {scripts : List Text}
    {file : FilePath} :
    file ∈ (setEntries [] (filesFor indent folder document scripts)).map Prod.fst ↔
      file ∈ scripts.map (documentFile folder) := by
  rw [mem_keys_setEntries, keys_filesFor, List.map_nil]
  simp only [List.not_mem_nil, or_false]

/-- There is one file for each stem. -/
theorem length_setEntries_filesFor (indent : Option Nat) (scripts : List Text) :
    (setEntries [] (filesFor indent folder document scripts)).length =
      (scripts.map scriptStem).dedup.length := by
  have distinct : ((setEntries [] (filesFor indent folder document scripts)).map Prod.fst).Nodup :=
    nodup_setEntries_filesFor indent scripts
  have same := (List.perm_ext_iff_of_nodup distinct
    (List.nodup_dedup (scripts.map (documentFile folder)))).mpr fun file =>
      (mem_keys_setEntries_filesFor indent).trans List.mem_dedup.symm
  have size := same.length_eq
  rw [map_documentFile, List.dedup_map_of_injective (stemFile_injective folder), List.length_map,
    List.length_map] at size
  exact size

theorem mem_setEntries_filesFor_of_last (indent : Option Nat) {before behind : List Text}
    {path : Text} (last : scriptStem path ∉ behind.map scriptStem) :
    (documentFile folder path, Json.print indent (document path)) ∈
      setEntries [] (filesFor indent folder document (before ++ path :: behind)) := by
  rw [filesFor, List.map_append, List.map_cons]
  refine mem_setEntries_of_last ?_
  rw [← filesFor, keys_filesFor, map_documentFile]
  exact (List.mem_map_of_injective (stemFile_injective folder)).not.mpr last

/-- With the documents of all scripts, a job writes them one after another. -/
theorem run_judgedAs {config : Config} (into : job.outputFolder.map FilePath.ofText = some folder)
    (configured : jobConfig yaml stored job.configFile = .ok (.ok config))
    (free : IsFree stored folder)
    (judged : ∀ path ∈ job.scripts, judge stored config path = .ok (.ok (document path))) :
    job.run yaml stored = .ok (job.report (judgedAs document job.scripts)) := by
  refine run_of_judged configured judged ?_
  rw [AnalysisJob.writeError?, into, Option.bind_some, List.findSome?_eq_none_iff]
  rintro ⟨file, content⟩ hf
  have there : file ∈ (setEntries [] (filesFor (indentOf job.isCompact) folder document
      job.scripts)).map Prod.fst := by
    rw [AnalysisJob.report, into] at hf
    dsimp only at hf
    rw [← documentFiles_judgedAs]
    exact List.mem_map_of_mem hf
  obtain ⟨path, -, rfl⟩ := List.mem_map.mp ((mem_keys_setEntries_filesFor _).mp there)
  exact free.writeError?_eq_none path

/-- What a job leaves behind that has written all documents into a folder: success, a message for
each script, and one file for each stem, with the document of the last script that has it. So every
script keeps its document exactly if no two scripts have one stem. -/
structure AnalysisJob.WritesByStem (job : AnalysisJob) (folder : FilePath)
    (document : Text → Json) (o : Outcome) : Prop where
  succeeds : o.exitCode = 0
  silent : o.output = none
  tells : o.messages = job.scripts.map fun path =>
    "Analysis written to: " ++ (documentFile folder path).toText
  distinct : (o.written.map Prod.fst).Nodup
  size : o.written.length = (job.scripts.map scriptStem).dedup.length
  last : ∀ before path behind, job.scripts = before ++ path :: behind →
    scriptStem path ∉ behind.map scriptStem →
    (documentFile folder path, Json.print (indentOf job.isCompact) (document path)) ∈ o.written
  full_iff : o.written.length = job.scripts.length ↔ (job.scripts.map scriptStem).Nodup
  full : (job.scripts.map scriptStem).Nodup → ∀ path ∈ job.scripts,
    (documentFile folder path, Json.print (indentOf job.isCompact) (document path)) ∈ o.written

theorem writesByStem_report (into : job.outputFolder.map FilePath.ofText = some folder) :
    job.WritesByStem folder document (job.report (judgedAs document job.scripts)) := by
  have written : (job.report (judgedAs document job.scripts)).written =
      setEntries [] (filesFor (indentOf job.isCompact) folder document job.scripts) := by
    rw [← documentFiles_judgedAs, AnalysisJob.report, into]
  have last : ∀ before path behind, job.scripts = before ++ path :: behind →
      scriptStem path ∉ behind.map scriptStem →
      (documentFile folder path, Json.print (indentOf job.isCompact) (document path)) ∈
        (job.report (judgedAs document job.scripts)).written := by
    intro before path behind whole last
    rw [written, whole]
    exact mem_setEntries_filesFor_of_last _ last
  have size : (job.report (judgedAs document job.scripts)).written.length =
      (job.scripts.map scriptStem).dedup.length := by
    rw [written, length_setEntries_filesFor]
  refine ⟨exitCodeOf_judgedAs _, ?_, ?_, ?_, size, last, ?_, ?_⟩
  · rw [AnalysisJob.report, into]
    rfl
  · rw [AnalysisJob.report, into]
    exact messages_judgedAs job.scripts
  · rw [written]
    exact nodup_setEntries_filesFor _ _
  · have total : (job.scripts.map scriptStem).length = job.scripts.length := List.length_map _
    rw [size, ← total]
    constructor
    · intro whole
      rw [← List.dedup_eq_self]
      exact (List.dedup_sublist _).eq_of_length whole
    · intro distinct
      rw [distinct.dedup]
  · intro distinct path hp
    obtain ⟨before, behind, whole⟩ := List.append_of_mem hp
    refine last before path behind whole ?_
    rw [whole, List.map_append, List.map_cons] at distinct
    exact (List.nodup_cons.mp (List.nodup_append.mp distinct).2.1).1

/-- Where all scripts have documents and a folder is free for them, the documents are written into
it by the stems of the scripts. -/
theorem documents_written_by_stem {args : List Text} {config : Config} {name : Text}
    (asked : Command.ofArguments args = .ok (.analyze job)) (into : job.outputFolder = some name)
    (configured : jobConfig yaml stored job.configFile = .ok (.ok config))
    (free : IsFree stored (FilePath.ofText name))
    (judged : ∀ path ∈ job.scripts, judge stored config path = .ok (.ok (document path))) :
    ∃ o, runArguments yaml stored args = .ok o ∧
      job.WritesByStem (FilePath.ofText name) document o := by
  have folder : job.outputFolder.map FilePath.ofText = some (FilePath.ofText name) := by
    rw [into, Option.map_some]
  refine ⟨job.report (judgedAs document job.scripts), ?_, writesByStem_report folder⟩
  rw [runArguments, asked]
  exact run_judgedAs folder configured free judged

end Documents

/-- Scripts by their paths, with nothing else stored. -/
def storedScripts (scripts : List (Text × Text)) : FilePath → Stored :=
  storedAmong (scripts.map fun (path, script) =>
    (FilePath.ofText path, script.map fun c => c.toNat.toUInt8))

theorem exists_judged_of_any {stored : FilePath → Stored} {config : Config} {path : Text}
    {p : Json → Bool} (h : (judge stored config path).toOption.any (·.toOption.any p) = true) :
    ∃ d, judge stored config path = .ok (.ok d) ∧ p d = true := by
  obtain ⟨verdict, judged, holds⟩ := exists_ok_of_any h
  obtain ⟨d, rfl, holds⟩ := exists_ok_of_any holds
  exact ⟨d, judged, holds⟩

/-- A visit of the login and one of the cart, in scripts with stems of their own. -/
def twoVisits : FilePath → Stored := storedScripts
  [("login.spec.ts", "page.goto('/login');"), ("cart.spec.ts", "page.goto('/cart');")]

/-- The job for both visits. -/
def twoVisitsJob : AnalysisJob := ⟨["login.spec.ts", "cart.spec.ts"], none, some "out", true⟩

theorem documents_written_by_stem_twoVisits : ∃ o document,
    runArguments Yaml.read twoVisits
      ["analyze", "login.spec.ts", "cart.spec.ts", "-o", "out", "--compact"] = .ok o ∧
    o.written.length = 2 ∧
    (FilePath.ofText "out/login.spec.pom.json", Json.print none (document "login.spec.ts")) ∈
      o.written ∧
    twoVisitsJob.WritesByStem (FilePath.ofText "out") document o := by
  have asked : Command.ofArguments
      ["analyze", "login.spec.ts", "cart.spec.ts", "-o", "out", "--compact"] =
        .ok (.analyze twoVisitsJob) := by
    decide +kernel
  have visits : ∀ path ∈ twoVisitsJob.scripts, ∃ document,
      judge twoVisits {} path = .ok (.ok document) := by
    have found : ∀ path ∈ twoVisitsJob.scripts,
        (judge twoVisits {} path).toOption.any (·.toOption.any fun _ => true) = true := by
      decide +kernel
    intro path hp
    obtain ⟨document, judged, -⟩ := exists_judged_of_any (found path hp)
    exact ⟨document, judged⟩
  choose! document judged using visits
  have configured : jobConfig Yaml.read twoVisits twoVisitsJob.configFile = .ok (.ok {}) := by
    decide +kernel
  obtain ⟨o, run, writes⟩ := documents_written_by_stem asked rfl configured
    (.inl (by decide +kernel)) judged
  have stems : (twoVisitsJob.scripts.map scriptStem).Nodup := by decide +kernel
  refine ⟨o, document, run, writes.full_iff.mpr stems, ?_, writes⟩
  have file : FilePath.ofText "out/login.spec.pom.json" =
      documentFile (FilePath.ofText "out") "login.spec.ts" := by
    decide +kernel
  rw [file]
  exact writes.full stems _ List.mem_cons_self

/-- A visit of the login and one of the cart, in scripts with one stem. -/
def sameStemVisits : FilePath → Stored := storedScripts
  [("login.spec.ts", "page.goto('/login');"), ("login.spec.js", "page.goto('/cart');")]

/-- Of two scripts with one stem the first loses its document, though success is told of both. -/
theorem document_lost_sameStemVisits : ∃ first second o,
    judge sameStemVisits {} "login.spec.ts" = .ok (.ok first) ∧
    judge sameStemVisits {} "login.spec.js" = .ok (.ok second) ∧
    IsFree sameStemVisits (FilePath.ofText "out") ∧
    runArguments Yaml.read sameStemVisits
      ["analyze", "login.spec.ts", "login.spec.js", "-o", "out", "--compact"] = .ok o ∧
    o.exitCode = 0 ∧ o.messages.length = 2 ∧ o.written.length = 1 ∧
    ∀ file ∈ o.written, file.2 ≠ Json.print none first := by
  have both : ∀ path ∈ (["login.spec.ts", "login.spec.js"] : List Text),
      (judge sameStemVisits {} path).toOption.any (·.toOption.any fun _ => true) = true := by
    decide +kernel
  obtain ⟨first, judgedFirst, -⟩ := exists_judged_of_any (both "login.spec.ts" (by decide))
  obtain ⟨second, judgedSecond, -⟩ := exists_judged_of_any (both "login.spec.js" (by decide))
  have ran : (runArguments Yaml.read sameStemVisits
      ["analyze", "login.spec.ts", "login.spec.js", "-o", "out", "--compact"]).toOption.any
      (fun o => o.exitCode == 0 && o.messages.length == 2 && o.written.length == 1 &&
        (judge sameStemVisits {} "login.spec.ts").toOption.all (·.toOption.all fun d =>
          o.written.all fun file => file.2 != Json.print none d)) = true := by
    decide +kernel
  obtain ⟨o, run, left⟩ := exists_ok_of_any ran
  simp only [judgedFirst, Bool.and_eq_true, beq_iff_eq, Except.toOption, Option.all_some,
    List.all_eq_true, bne_iff_ne] at left
  obtain ⟨⟨⟨success, told⟩, files⟩, other⟩ := left
  exact ⟨first, second, o, judgedFirst, judgedSecond, .inl (by decide +kernel), run, success, told,
    files, other⟩

end PageObjects
