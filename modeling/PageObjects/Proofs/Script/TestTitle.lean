import PageObjects.Proofs.Locator.Block
import PageObjects.Proofs.Script.SelectorFirst
import PageObjects.Proofs.Script.TrailingComment
import PageObjects.Script.Extract

namespace PageObjects

open Text

/-- The start of the function that does what a test does. -/
def testBody : Text := "async (\x7b page \x7d) => \x7b"

/-- The arguments of a test declaration up to the end of its line. -/
def testArguments (v : Text) : Text := quote v ++ ',' :: ' ' :: testBody

/-- A line that declares a test and opens its block. -/
def testLine (v : Text) : Text := "test(" ++ testArguments v

/-- The title that a test is given by its line. -/
def rawTitle (v : Text) : Text := (v.flatMap escapeChar).takeWhile (· ≠ '\'')

section Title

variable {mark : Char} {t : Text}

theorem cutAt_of_mem (h : mark ∈ t) : ∃ r, cutAt mark t = (t.takeWhile (· ≠ mark), some r) := by
  induction t with
  | nil => cases h
  | cons c t ih =>
    rw [cutAt, List.takeWhile_cons]
    by_cases own : c = mark
    · exact ⟨t, by simp [own]⟩
    · have later : mark ∈ t := (List.mem_cons.mp h).resolve_left (Ne.symm own)
      obtain ⟨r, cut⟩ := ih later
      exact ⟨r, by simp [own, cut]⟩

theorem takeWhile_ne_append (s r : Text) :
    (s ++ mark :: r).takeWhile (· ≠ mark) = s.takeWhile (· ≠ mark) := by
  induction s with
  | nil => simp
  | cons c s ih =>
    rw [List.cons_append, List.takeWhile_cons, List.takeWhile_cons, ih]

theorem testArguments_eq (v : Text) : testArguments v =
    '\'' :: (v.flatMap escapeChar ++ '\'' :: ',' :: ' ' :: testBody) := by
  rw [testArguments, quote_eq, List.cons_append, List.append_assoc]
  rfl

theorem testTitle?_testLine (v : Text) : testTitle? (testLine v) = some (rawTitle v) := by
  have closes : '\'' ∈ v.flatMap escapeChar ++ '\'' :: ',' :: ' ' :: testBody := by simp
  obtain ⟨r, cut⟩ := cutAt_of_mem closes
  rw [takeWhile_ne_append] at cut
  have word : dropAnyPrefix? ["test", "it"] (testLine v) = some ('(' :: testArguments v) := rfl
  have modifier : dropAnyPrefix? [".only", ".skip", ".fixme", ".fail", ".slow"]
      ('(' :: testArguments v) = none := rfl
  have mark : isQuote '\'' = true := rfl
  rw [testTitle?, word]
  simp only [Option.bind_eq_bind, Option.bind_some, modifier, Option.getD_none]
  rw [afterMark?_self (by decide), Option.bind_some, testArguments_eq, trimStart_cons (by decide)]
  simp only [mark, if_true, cut]
  rfl

/-- What is doubled or escaped makes a text longer. -/
theorem length_flatMap_escapeChar (v : Text) :
    v.length + v.count '\\' ≤ (v.flatMap escapeChar).length := by
  induction v with
  | nil => exact Nat.le_refl 0
  | cons c r ih =>
    rw [List.flatMap_cons, List.length_append, List.length_cons, List.count_cons]
    rcases escapeChar_cases c with ⟨single, backslash, -⟩ | ⟨d, pair, -⟩
    · rw [single, List.length_singleton, if_neg (by simpa using backslash)]
      omega
    · rw [pair, List.length_cons, List.length_singleton]
      split <;> omega

theorem quote_mem_escapeChar_iff {c : Char} : '\'' ∈ escapeChar c ↔ c = '\'' := by
  constructor
  · intro there
    by_contra other
    rw [escapeChar, if_neg other] at there
    split at there
    next => simp at there
    next => split at there <;> simp [Ne.symm other] at there
  · rintro rfl
    decide

/-- A title is the text that was quoted if no quotation mark and no backslash is in it. -/
theorem rawTitle_eq_self_iff {v : Text} (feed : '\n' ∉ v) :
    rawTitle v = v ↔ '\'' ∉ v ∧ '\\' ∉ v := by
  have whole (unquoted : '\'' ∉ v) : rawTitle v = v.flatMap escapeChar := by
    refine List.takeWhile_eq_self_iff.mpr fun d hd => ?_
    obtain ⟨c, hc, own⟩ := List.mem_flatMap.mp hd
    refine decide_eq_true ?_
    rintro rfl
    exact unquoted (quote_mem_escapeChar_iff.mp own ▸ hc)
  constructor
  · intro same
    have unquoted : '\'' ∉ v := by
      intro there
      rw [← same] at there
      simpa using List.mem_takeWhile_imp there
    have length := length_flatMap_escapeChar v
    rw [← whole unquoted, same] at length
    have noBackslash : v.count '\\' = 0 := by omega
    exact ⟨unquoted, List.count_eq_zero.mp noBackslash⟩
  · rintro ⟨unquoted, backslash⟩
    have plain : ∀ c ∈ v, escapeChar c = [c] := by
      intro c hc
      have other : ∀ {d : Char}, d ∉ v → c ≠ d := fun missing same => missing (same ▸ hc)
      rw [escapeChar, if_neg (other backslash), if_neg (other unquoted), if_neg (other feed)]
    rw [whole unquoted, List.flatMap_congr plain, List.flatMap_singleton']

end Title

section Line

variable {v line : Text}

theorem opensBlock_arrow (t : Text) : opensBlock (t ++ " => \x7b") = true := by
  have last : (trimEnd (t ++ " => \x7b")).reverse = '\x7b' :: (t ++ " => ").reverse := by
    simp [trimEnd, dropEndWhile, isBlank]
  have arrow : trimEnd (t ++ " => ") = t ++ " =>" := by
    simp [trimEnd, dropEndWhile, isBlank]
  have ends : ("=>" : Text) <:+ t ++ " =>" := ⟨t ++ [' '], by simp⟩
  rw [opensBlock, last]
  show (endsWithAny ["=>", ")"] (trimEnd (t ++ " => ").reverse.reverse) || _) = true
  rw [List.reverse_reverse, arrow, endsWithAny, List.any_cons, List.isSuffixOf_iff_suffix.mpr ends]
  rfl

/-- Where no slash stands in code, there is no comment. -/
theorem beforeComment?_of_avoids {region : Region} {depth : Int} {back t : Text} {slash : Bool}
    (calm : Avoids (fun _ c => c == '/') region depth t) :
    beforeComment? region back slash t = none := by
  induction t generalizing region depth back slash with
  | nil => rfl
  | cons c r ih =>
    obtain ⟨own, later⟩ := calm
    have waits : startsComment region back slash c = false := by
      rw [startsComment]
      cases covered : region.covers c with
      | true => rfl
      | false => simp [own covered]
    rw [beforeComment?_cons, waits, if_neg Bool.false_ne_true]
    exact ih later

theorem avoids_testArguments {p : Int → Char → Bool} {depth : Int}
    (behind : Avoids p .code depth (',' :: ' ' :: testBody)) :
    Avoids p .code depth (testArguments v) :=
  (settled_quote v).avoids_append.mpr ⟨avoids_quote p depth v, behind⟩

theorem stripComment_testLine (v : Text) : stripComment (testLine v) = testLine v := by
  have calm : Avoids (fun _ c => c == '/') .code 0 (testLine v) :=
    avoids_append.mpr ⟨by decide, avoids_testArguments (by decide)⟩
  rw [stripComment, beforeComment?_of_avoids calm, Option.getD_none]

/-- A test declaration ends on its line, whatever follows. -/
theorem logicalLines_testLine (own : trim line = testLine v) (n : Nat) (rest : List Text) :
    logicalLines n (line :: rest) = ⟨n, n, testLine v⟩ :: logicalLines (n + 1) rest := by
  have filled : isIdleLine line = false := by
    rw [isIdleLine, own]
    rfl
  have other : List.isPrefixOf "/*" (trim line) = false := by
    rw [own]
    rfl
  have text : (startJoining n line).text = testLine v := by
    rw [startJoining, own]
    exact stripComment_testLine v
  have shape : testLine v = "test(" ++ quote v ++ ", async (\x7b page \x7d)" ++ " => \x7b" := by
    rw [testLine, testArguments, ← List.append_assoc, List.append_assoc (_ ++ _)]
    rfl
  have closed : (startJoining n line).isOpen n = false := by
    rw [Joining.isOpen, text, shape, opensBlock_arrow]
    rfl
  have stays : (startJoining n line).run n rest = (startJoining n line, rest) :=
    Joining.run_of_stops fun isOpen => absurd isOpen (by simp [closed])
  rw [logicalLines_code filled other, stays, linesFromStatement, text]
  rfl

theorem structuralRole?_testLine (v : Text) :
    structuralRole? (testLine v) = some .testDeclaration := by
  have start : ("test(" : Text) <+: testLine v := List.prefix_append _ _
  have among : ∀ leads : List Text, (∀ lead ∈ leads, ¬ lead <+: ("test(" : Text) ∧
      ¬ ("test(" : Text) <+: lead) → ∀ lead ∈ leads, ¬ lead <+: testLine v :=
    fun leads apart lead own => not_prefix_of_apart start (apart lead own)
  have comment := startsWithAny_eq_false (among ["//", "/*", "*"] (by decide))
  have imports : isImport (testLine v) = false := by
    rw [isImport, startsWithAny_eq_false (among ["import ", "export "] (by decide)),
      afterDeclaration?, dropAnyPrefix?_eq_none (among declarationWords (by decide))]
    rfl
  rw [structuralRole?, comment, imports, testTitle?_testLine]
  rfl

theorem trim_append_testBody {t : Text} (filled : t ≠ [])
    (front : ∀ c ∈ t.head?, isBlank c = false) :
    trim (t ++ ',' :: ' ' :: testBody) = t ++ ',' :: ' ' :: testBody := by
  refine trim_eq_self ?_ ?_
  · rwa [List.head?_append_of_ne_nil _ filled]
  · rw [List.getLast?_append_of_ne_nil _ (List.cons_ne_nil _ _)]
    rintro c ⟨⟩
    rfl

theorem trim_testArguments (v : Text) : trim (testArguments v) = testArguments v := by
  refine trim_append_testBody (List.cons_ne_nil _ _) ?_
  rintro c ⟨⟩
  rfl

theorem trim_testLine (v : Text) : trim (testLine v) = testLine v := by
  rw [testLine, testArguments, ← List.append_assoc]
  refine trim_append_testBody (List.cons_ne_nil _ _) ?_
  rintro c ⟨⟩
  rfl

theorem classifyLine_testLine (scope : Scope) (v : Text) : classifyLine scope (testLine v) =
    ({ kind := .structural, role := some .testDeclaration, title := some (rawTitle v) },
      scope) := by
  simp only [classifyLine, trim_testLine, structuralRole?_testLine, testTitle?_testLine, if_true]

theorem parse_testLine (v : Text) :
    Chain.parse (testLine v) = ⟨[], [⟨"test", some (testArguments v)⟩], []⟩ := by
  have level : ∀ u, u <+: testArguments v → 0 ≤ bracketDelta u := by
    intro u hu
    have sinks : Avoids sinksAt .code 0 (testArguments v) := avoids_testArguments (by decide)
    have above := (avoids_sinksAt_iff.mp ⟨Int.le_refl 0, sinks⟩) u hu
    rwa [Int.zero_add] at above
  have word : isIdentifier "test" = true := by decide
  have stop : ∀ c ∈ ('(' :: testArguments v).head?, isIdentifierPart c = false := by
    rintro c ⟨⟩
    rfl
  have name : readIdentifier? (testLine v) = some (("test" : Text), '(' :: testArguments v) :=
    readIdentifier?_append word stop
  have step : Chain.readStep? ⟨[], [], []⟩ (testLine v) =
      some (⟨[], [⟨"test", some (testArguments v)⟩], []⟩, []) := by
    rw [Chain.readStep?, name]
    dsimp only
    rw [trimStart_cons (by decide)]
    simp only [cutAtCloser_eq_none level, Chain.addCall, trim_testArguments, List.nil_append]
  rw [Chain.parse, trim_testLine, Chain.readOn, step]
  rfl

theorem splitArguments_testArguments (v : Text) :
    splitArguments (testArguments v) = [quote v, testBody] := by
  have solid : Solid isComma (quote v) := ⟨settled_quote v, avoids_quote _ _ v⟩
  have comma : IsPlain ',' := isPlain_of_isComma rfl
  have cut : topLevelPieces isComma .code 0 (testArguments v) =
      quote v :: topLevelPieces isComma .code 0 (' ' :: testBody) :=
    solid.topLevelPieces_cut rfl comma
  have rest : topLevelPieces isComma .code 0 (' ' :: testBody) = [' ' :: testBody] := by decide
  have trimmed : trim (' ' :: testBody) = testBody := by decide
  have filled : (quote v).isEmpty = false := rfl
  rw [splitArguments, splitTopLevel, cut, rest, List.map_cons, List.map_singleton,
    Literal.trim_quote, trimmed, List.filter_cons_of_pos (by rw [filled]; rfl)]
  rfl

theorem isLineBreak_escapeChar {c d : Char} (oneLine : isLineBreak d = false)
    (h : c ∈ escapeChar d) : isLineBreak c = false := by
  rcases escapeChar_cases d with ⟨single, -⟩ | ⟨e, pair, visible⟩
  · rw [single, List.mem_singleton] at h
    exact h ▸ oneLine
  · have shown : isBlank c = false := by
      rw [pair] at h
      rcases List.mem_cons.mp h with rfl | h
      · decide
      · exact List.mem_singleton.mp h ▸ visible
    exact Bool.eq_false_iff.mpr fun ends => Bool.eq_false_iff.mp shown (isBlank_of_isLineBreak ends)

theorem isLineBreak_testLine (oneLine : ∀ c ∈ v, isLineBreak c = false) :
    ∀ c ∈ testLine v, isLineBreak c = false := by
  have front : ∀ c ∈ ("test('" : Text), isLineBreak c = false := others_of_any rfl
  have back : ∀ c ∈ '\'' :: ',' :: ' ' :: testBody, isLineBreak c = false := others_of_any rfl
  have whole : testLine v =
      "test('" ++ (v.flatMap escapeChar ++ '\'' :: ',' :: ' ' :: testBody) := by
    rw [testLine, testArguments_eq]
    rfl
  intro c hc
  rw [whole, List.mem_append, List.mem_append] at hc
  rcases hc with hc | hc | hc
  · exact front c hc
  · obtain ⟨d, hd, own⟩ := List.mem_flatMap.mp hc
    exact isLineBreak_escapeChar (oneLine d hd) own
  · exact back c hc

end Line

/-- The line that declares a test gives it what stands between the quotation marks as a title, which
is the text that was quoted only if it needs no escapes, though that is what the first argument of
the call is read as. -/
theorem testTitle_as_written {v : Text} (oneLine : ∀ c ∈ v, isLineBreak c = false)
    (noEscape : ¬ ['\\', 'n'] <:+: v) :
    (∀ script, lines (testLine v ++ '\n' :: script) = testLine v :: lines script) ∧
    (∀ (state : Extraction) (n : Nat) (line : Text) (rest : List Text), trim line = testLine v →
      ∃ s next, statementsFrom state (logicalLines n (line :: rest)) =
          s :: statementsFrom next (logicalLines (n + 1) rest) ∧
        s.line = n ∧ s.endLine = n ∧ s.kind = .structural ∧ s.role = some .testDeclaration ∧
        s.title = some (rawTitle v)) ∧
    (rawTitle v = v ↔ '\'' ∉ v ∧ '\\' ∉ v) ∧
    ∃ call first, (Chain.parse (testLine v)).segments = [call] ∧
      call.arguments.head? = some first ∧ Literal.string? first = some v := by
  have feed : '\n' ∉ v := fun there => absurd (oneLine _ there) (by decide)
  refine ⟨lines_append (isLineBreak_testLine oneLine), ?_, rawTitle_eq_self_iff feed, ?_⟩
  · intro state n line rest own
    rw [logicalLines_testLine own, statementsFrom, Extraction.step, classifyLine_testLine]
    exact ⟨_, _, rfl, rfl, rfl, rfl, rfl, rfl⟩
  · refine ⟨⟨"test", some (testArguments v)⟩, quote v, ?_, ?_, ?_⟩
    · rw [parse_testLine]
    · rw [Segment.arguments, Option.getD_some, splitArguments_testArguments, List.head?_cons]
    · exact (Literal.quoted_readBack v).2.2.2.mpr noEscape

theorem testTitle_as_written_payNow :
    (∀ c ∈ ("pays (now)" : Text), isLineBreak c = false) ∧
      ¬ ['\\', 'n'] <:+: ("pays (now)" : Text) ∧
      (rawTitle "pays (now)" = "pays (now)" ↔
        '\'' ∉ ("pays (now)" : Text) ∧ '\\' ∉ ("pays (now)" : Text)) ∧
      ∃ call first, (Chain.parse (testLine "pays (now)")).segments = [call] ∧
        call.arguments.head? = some first ∧ Literal.string? first = some "pays (now)" := by
  have oneLine : ∀ c ∈ ("pays (now)" : Text), isLineBreak c = false := others_of_any rfl
  have noEscape : ¬ ['\\', 'n'] <:+: ("pays (now)" : Text) := by decide
  have read := testTitle_as_written oneLine noEscape
  exact ⟨oneLine, noEscape, read.2.2.1, read.2.2.2⟩

/-- A quotation mark in its name ends the title of a test, and its escape is left there. -/
theorem testTitle_cut_short :
    (∀ c ∈ ("it's" : Text), isLineBreak c = false) ∧ ¬ ['\\', 'n'] <:+: ("it's" : Text) ∧
      (Statement.ofText (testLine "it's")).map (fun s => (s.role, s.title)) =
        [(some StructuralRole.testDeclaration, some ("it\\" : Text))] ∧
      Literal.string? (quote "it's") = some "it's" := by
  refine ⟨others_of_any rfl, ?_⟩
  decide +kernel

end PageObjects
