import Mathlib.Data.List.TakeWhile
import PageObjects.Proofs.Script.Coverage
import PageObjects.Proofs.Text.Spacing

namespace PageObjects

theorem skips_of_dropWhile {lines rest : List Text} {next : Text}
    (more : lines.dropWhile isIdleLine = next :: rest) :
    lines = lines.takeWhile isIdleLine ++ next :: rest ∧
      (∀ line ∈ lines.takeWhile isIdleLine, isIdleLine line = true) ∧ isIdleLine next = false := by
  have filled := List.head?_dropWhile_not isIdleLine lines
  rw [more] at filled
  refine ⟨?_, fun line hl => List.mem_takeWhile_imp hl, filled⟩
  rw [← more, List.takeWhile_append_dropWhile]

namespace Joining

variable {start : Nat} {j : Joining} {xs lines rest : List Text} {next : Text}

theorem run_of_stops (stops : j.isOpen start = true →
    ∀ next ∈ (lines.dropWhile isIdleLine).head?, j.takes next = false) :
    run start j lines = (j, lines) := by
  unfold run
  split
  next isOpen =>
    split
    next => rfl
    next next rest more =>
      have refuses : j.takes next = false := stops isOpen next (by rw [more]; rfl)
      rw [refuses]
      rfl
  next => rfl

theorem run_of_takes (isOpen : j.isOpen start = true) (idle : ∀ line ∈ xs, isIdleLine line = true)
    (filled : isIdleLine next = false) (takes : j.takes next = true) :
    run start j (xs ++ next :: rest) = run start (j.extend xs.length next) rest := by
  have other : ¬ isIdleLine next = true := by simp [filled]
  have skipped : (xs ++ next :: rest).takeWhile isIdleLine = xs := by
    rw [List.takeWhile_append_of_pos idle, List.takeWhile_cons_of_neg other, List.append_nil]
  have left : (xs ++ next :: rest).dropWhile isIdleLine = next :: rest := by
    rw [List.dropWhile_append_of_pos idle, List.dropWhile_cons_of_neg other]
  rw [run, if_pos isOpen, skipped]
  split
  next noMore =>
    rw [left] at noMore
    cases noMore
  next first behind found =>
    obtain ⟨rfl, rfl⟩ := List.cons.inj (found.symm.trans left)
    rw [if_pos takes]

/-- Joining the lines of a first part either ends there, or comes to lines of which none belongs to
the statement and goes on from them. -/
theorem run_append (start : Nat) (j : Joining) (xs : List Text) :
    (∀ ys, run start j (xs ++ ys) = ((run start j xs).1, (run start j xs).2 ++ ys)) ∨
      (∀ line ∈ (run start j xs).2, isIdleLine line = true) ∧
        ∀ ys, run start j (xs ++ ys) = run start (run start j xs).1 ((run start j xs).2 ++ ys) := by
  fun_induction run start j xs with
  | case1 j xs _ idle => exact .inr ⟨List.dropWhile_eq_nil_iff.mp idle, fun ys => rfl⟩
  | case2 j xs isOpen next rest more takes ih =>
    -- the next line of the statement is in the first part, and whatever follows is out of sight
    obtain ⟨whole, idle, filled⟩ := skips_of_dropWhile more
    have step : ∀ ys, run start j (xs ++ ys) =
        run start (j.extend (xs.takeWhile isIdleLine).length next) (rest ++ ys) := by
      intro ys
      have again : xs ++ ys = xs.takeWhile isIdleLine ++ next :: (rest ++ ys) := by
        rw [← List.cons_append, ← List.append_assoc, ← whole]
      rw [again]
      exact run_of_takes isOpen idle filled takes
    simp only [step]
    exact ih
  | case3 j xs isOpen next rest more refuses =>
    refine .inl fun ys => run_of_stops fun _ other h => ?_
    rw [List.dropWhile_append, more] at h
    obtain rfl : next = other := Option.some.inj h
    exact Bool.eq_false_iff.mpr refuses
  | case4 j xs closed => exact .inl fun ys => run_of_stops fun isOpen => absurd isOpen closed

end Joining

theorem commentLines_append_cases (xs : List Text) :
    (∀ ys, commentLines (xs ++ ys) = ((commentLines xs).1, (commentLines xs).2 ++ ys)) ∨
      (∀ line ∈ xs, Text.includes "*/" line = false) ∧
        ∀ ys, commentLines (xs ++ ys) = (xs ++ (commentLines ys).1, (commentLines ys).2) := by
  induction xs with
  | nil => exact .inr ⟨nofun, fun ys => rfl⟩
  | cons line xs ih =>
    by_cases closes : Text.includes "*/" line = true
    · left
      intro ys
      rw [List.cons_append, commentLines, if_pos closes, commentLines, if_pos closes]
    · rcases ih with within | ⟨unclosed, beyond⟩
      · left
        intro ys
        rw [List.cons_append, commentLines, if_neg closes, within ys, commentLines, if_neg closes]
      · right
        refine ⟨List.forall_mem_cons.mpr ⟨Bool.eq_false_iff.mpr closes, unclosed⟩, ?_⟩
        intro ys
        rw [List.cons_append, commentLines, if_neg closes, beyond ys]
        rfl

theorem exists_commentLines_cons (line : Text) (rest : List Text) :
    ∃ inner behind, commentLines (line :: rest) = (line :: inner, behind) := by
  rw [commentLines]
  split
  next => exact ⟨[], rest, rfl⟩
  next => exact ⟨_, _, rfl⟩

/-- The logical lines from a statement on whose lines are joined. -/
def linesFromStatement (start : Nat) (joined : Joining × List Text) : List LogicalLine :=
  ⟨start, joined.1.last, joined.1.text⟩ :: logicalLines (joined.1.last + 1) joined.2

def linesFromComment (start : Nat) (block : List Text × List Text) : List LogicalLine :=
  ⟨start, start + block.1.length - 1, Text.joinWith [' '] (block.1.map Text.trim)⟩ ::
    logicalLines (start + block.1.length) block.2

section Step

variable {n : Nat} {line : Text} {rest : List Text}

theorem logicalLines_blank (blank : isBlankLine line = true) (n : Nat) (rest : List Text) :
    logicalLines n (line :: rest) = logicalLines (n + 1) rest := by
  rw [logicalLines]
  exact if_pos blank

theorem logicalLines_comment (filled : isBlankLine line = false)
    (opens : List.isPrefixOf "/*" (Text.trim line) = true) (n : Nat) (rest : List Text) :
    logicalLines n (line :: rest) = linesFromComment n (commentLines (line :: rest)) := by
  have taken : 0 < (commentLines (line :: rest)).1.length := length_commentLines_pos line rest
  have next : n + (commentLines (line :: rest)).1.length - 1 + 1 =
      n + (commentLines (line :: rest)).1.length := by omega
  rw [logicalLines, linesFromComment, ← next]
  exact (if_neg (Bool.eq_false_iff.mp filled)).trans (if_pos opens)

theorem logicalLines_note (filled : isBlankLine line = false)
    (other : List.isPrefixOf "/*" (Text.trim line) = false)
    (note : List.isPrefixOf "//" (Text.trim line) = true) (n : Nat) (rest : List Text) :
    logicalLines n (line :: rest) = ⟨n, n, Text.trim line⟩ :: logicalLines (n + 1) rest := by
  rw [logicalLines]
  exact (if_neg (Bool.eq_false_iff.mp filled)).trans
    ((if_neg (Bool.eq_false_iff.mp other)).trans (if_pos note))

theorem logicalLines_code (filled : isIdleLine line = false)
    (other : List.isPrefixOf "/*" (Text.trim line) = false) (n : Nat) (rest : List Text) :
    logicalLines n (line :: rest) = linesFromStatement n ((startJoining n line).run n rest) := by
  obtain ⟨written, code⟩ := Bool.or_eq_false_iff.mp filled
  rw [logicalLines]
  exact (if_neg (Bool.eq_false_iff.mp written)).trans
    ((if_neg (Bool.eq_false_iff.mp other)).trans (if_neg (Bool.eq_false_iff.mp code)))

/-- Induction along the logical lines. -/
@[elab_as_elim]
theorem logicalLines_induction {motive : Nat → List Text → Prop} (nil : ∀ n, motive n [])
    (blank : ∀ n line rest, isBlankLine line = true → motive (n + 1) rest →
      motive n (line :: rest))
    (comment : ∀ n line rest, isBlankLine line = false →
      List.isPrefixOf "/*" (Text.trim line) = true →
      motive (n + (commentLines (line :: rest)).1.length) (commentLines (line :: rest)).2 →
      motive n (line :: rest))
    (note : ∀ n line rest, isBlankLine line = false →
      List.isPrefixOf "/*" (Text.trim line) = false →
      List.isPrefixOf "//" (Text.trim line) = true → motive (n + 1) rest → motive n (line :: rest))
    (code : ∀ n line rest, isIdleLine line = false →
      List.isPrefixOf "/*" (Text.trim line) = false →
      motive (((startJoining n line).run n rest).1.last + 1) ((startJoining n line).run n rest).2 →
      motive n (line :: rest))
    (n : Nat) (lines : List Text) : motive n lines := by
  fun_induction logicalLines n lines with
  | case1 n => exact nil n
  | case2 n line rest _ empty ih => exact blank n line rest empty ih
  | case3 n line rest _ filled opens block last ih =>
    have taken : 0 < block.1.length := length_commentLines_pos line rest
    have next : last + 1 = n + block.1.length := by omega
    rw [next] at ih
    exact comment n line rest (Bool.eq_false_iff.mpr filled) opens ih
  | case4 n line rest _ filled other slashes ih =>
    exact note n line rest (Bool.eq_false_iff.mpr filled) (Bool.eq_false_iff.mpr other) slashes ih
  | case5 n line rest _ filled other slashes joined ih =>
    have idle : isIdleLine line = false :=
      Bool.or_eq_false_iff.mpr ⟨Bool.eq_false_iff.mpr filled, Bool.eq_false_iff.mpr slashes⟩
    exact code n line rest idle (Bool.eq_false_iff.mpr other) ih

/-- Whether the logical lines of a first part of the lines are those of all lines up to there. -/
def CutsAt (n : Nat) (before after : List Text) : Prop :=
  logicalLines n (before ++ after) =
    logicalLines n before ++ logicalLines (n + before.length) after

/-- Lines that belong to no statement are read one by one, whatever comes behind them. -/
theorem cutsAt_idle (n : Nat) {idle : List Text} (h : ∀ line ∈ idle, isIdleLine line = true)
    (after : List Text) : CutsAt n idle after := by
  induction idle generalizing n with
  | nil =>
    have nothing : logicalLines n [] = [] := by rw [logicalLines]
    rw [CutsAt, nothing]
    rfl
  | cons line idle ih =>
    obtain ⟨own, later⟩ := List.forall_mem_cons.mp h
    have rest := ih (n + 1) later
    have place : n + (line :: idle).length = n + 1 + idle.length := by
      simp only [List.length_cons]
      omega
    rw [CutsAt] at rest ⊢
    rw [place, List.cons_append]
    by_cases blank : isBlankLine line = true
    · rw [logicalLines_blank blank, logicalLines_blank blank, rest]
    · have filled : isBlankLine line = false := Bool.eq_false_iff.mpr blank
      have note : List.isPrefixOf "//" (Text.trim line) = true :=
        (Bool.or_eq_true_iff.mp own).resolve_left blank
      have other : List.isPrefixOf "/*" (Text.trim line) = false := by
        obtain ⟨r, hr⟩ := List.isPrefixOf_iff_prefix.mp note
        rw [← hr]
        rfl
      rw [logicalLines_note filled other note, logicalLines_note filled other note, rest]
      rfl

end Step

/-- The place that reading comes to behind the first lines of a script. -/
inductive Reading (n : Nat) (before : List Text) : Prop where
  | between (eq : ∀ ys, CutsAt n before ys)
  | joining (done : List LogicalLine) (start : Nat) (j : Joining) (idle : List Text)
      (skips : ∀ line ∈ idle, isIdleLine line = true)
      (count : j.last + 1 + idle.length = n + before.length)
      (eq : ∀ ys, logicalLines n (before ++ ys) =
        done ++ linesFromStatement start (j.run start (idle ++ ys)))
  | comment (done : List LogicalLine) (front : List Text) (line : Text) (inner : List Text)
      (whole : before = front ++ line :: inner)
      (opens : List.isPrefixOf "/*" (Text.trim line) = true)
      (unclosed : ∀ l ∈ line :: inner, Text.includes "*/" l = false)
      (eq : ∀ ys, logicalLines n (before ++ ys) =
        done ++ linesFromComment (n + front.length)
          (line :: inner ++ (commentLines ys).1, (commentLines ys).2))

section Place

variable {n start : Nat} {before idle after : List Text} {done : List LogicalLine} {j : Joining}

theorem Reading.reading_append (front : List Text) (first : List LogicalLine)
    (eq : ∀ ys, logicalLines n (front ++ (before ++ ys)) =
      first ++ logicalLines (n + front.length) (before ++ ys))
    (h : Reading (n + front.length) before) : Reading n (front ++ before) := by
  cases h with
  | between cut =>
    refine .between fun ys => ?_
    have own := eq []
    have later := cut ys
    rw [CutsAt] at later
    rw [List.append_nil] at own
    rw [CutsAt, List.append_assoc, eq, later, own, List.append_assoc, List.length_append,
      Nat.add_assoc]
  | joining done start j idle skips count rest =>
    have place : j.last + 1 + idle.length = n + (front ++ before).length := by
      rw [List.length_append, count, Nat.add_assoc]
    refine .joining (first ++ done) start j idle skips place fun ys => ?_
    rw [List.append_assoc, eq, rest, List.append_assoc]
  | comment done own line inner whole opens unclosed rest =>
    refine .comment (first ++ done) (front ++ own) line inner (by rw [whole, List.append_assoc])
      opens unclosed fun ys => ?_
    rw [List.append_assoc, eq, rest, List.append_assoc, List.length_append, Nat.add_assoc]

/-- Behind a statement that does not take the next line, reading stands between statements. -/
theorem cutsAt_of_stops (skips : ∀ line ∈ idle, isIdleLine line = true)
    (count : j.last + 1 + idle.length = n + before.length)
    (eq : ∀ ys, logicalLines n (before ++ ys) =
      done ++ linesFromStatement start (j.run start (idle ++ ys)))
    (stops : j.isOpen start = true →
      ∀ next ∈ (after.dropWhile isIdleLine).head?, j.takes next = false) :
    CutsAt n before after := by
  have ends : ∀ ys : List Text, (j.isOpen start = true →
      ∀ next ∈ (ys.dropWhile isIdleLine).head?, j.takes next = false) →
      logicalLines n (before ++ ys) =
        done ++ ⟨start, j.last, j.text⟩ :: logicalLines (j.last + 1) (idle ++ ys) := by
    intro ys stops
    have left : (idle ++ ys).dropWhile isIdleLine = ys.dropWhile isIdleLine :=
      List.dropWhile_append_of_pos skips
    rw [eq, Joining.run_of_stops (by rw [left]; exact stops)]
    rfl
  have own := ends [] (by simp)
  have rest : CutsAt (j.last + 1) idle after := cutsAt_idle _ skips after
  rw [List.append_nil, List.append_nil] at own
  rw [CutsAt] at rest
  rw [CutsAt, ends after stops, rest, own, count, List.append_assoc]
  rfl

end Place

/-- Whatever has been read, what is behind it is read from one of these places. -/
theorem reading_of_lines (n : Nat) (before : List Text) : Reading n before := by
  induction n, before using logicalLines_induction with
  | nil n => exact .between (cutsAt_idle n (List.forall_mem_nil _))
  | blank n line rest empty ih =>
    exact .reading_append [line] [] (fun ys => logicalLines_blank empty n _) ih
  | comment n line rest filled opens ih =>
    have step : ∀ ys, logicalLines n (line :: rest ++ ys) =
        linesFromComment n (commentLines (line :: rest ++ ys)) :=
      fun ys => logicalLines_comment filled opens n (rest ++ ys)
    rcases commentLines_append_cases (line :: rest) with within | ⟨unclosed, beyond⟩
    · have whole := commentLines_append (line :: rest)
      rw [← whole]
      refine .reading_append _ [⟨n, n + (commentLines (line :: rest)).1.length - 1,
        Text.joinWith [' '] ((commentLines (line :: rest)).1.map Text.trim)⟩] ?_ ih
      intro ys
      rw [← List.append_assoc, whole, step, within]
      rfl
    · refine .comment [] [] line rest rfl opens unclosed fun ys => ?_
      rw [step, beyond]
      rfl
  | note n line rest filled other slashes ih =>
    exact .reading_append [line] [⟨n, n, Text.trim line⟩]
      (fun ys => logicalLines_note filled other slashes n _) ih
  | code n line rest filled other ih =>
    have step : ∀ ys, logicalLines n (line :: rest ++ ys) =
        linesFromStatement n ((startJoining n line).run n (rest ++ ys)) :=
      fun ys => logicalLines_code filled other n (rest ++ ys)
    obtain ⟨k, fits, last, left⟩ := Joining.exists_run_eq n (startJoining n line) rest
    have last : ((startJoining n line).run n rest).1.last = n + k := last
    rcases Joining.run_append n (startJoining n line) rest with within | ⟨idle, beyond⟩
    · -- the statement ends here, so that all other lines of the first part are read anew
      have whole : line :: rest =
          line :: rest.take k ++ ((startJoining n line).run n rest).2 := by
        rw [left, List.cons_append, List.take_append_drop]
      have place : ((startJoining n line).run n rest).1.last + 1 =
          n + (line :: rest.take k).length := by
        simp only [List.length_cons, List.length_take]
        omega
      rw [place] at ih
      rw [whole]
      refine .reading_append _ [⟨n, ((startJoining n line).run n rest).1.last,
        ((startJoining n line).run n rest).1.text⟩] ?_ ih
      intro ys
      rw [← List.append_assoc, ← whole, step, within, ← place]
      rfl
    · refine .joining [] n ((startJoining n line).run n rest).1
        ((startJoining n line).run n rest).2 idle ?_ fun ys => ?_
      · rw [left, last, List.length_drop, List.length_cons]
        omega
      · rw [step, beyond]
        rfl

theorem exists_linesFromComment_eq {line : Text}
    (opens : List.isPrefixOf "/*" (Text.trim line) = true) (n : Nat) (inner rest : List Text) :
    ∃ l, linesFromComment n (line :: inner, rest) =
        l :: logicalLines (n + inner.length + 1) rest ∧
      l.first = n ∧ l.last = n + inner.length ∧ List.isPrefixOf "/*" l.text = true := by
  have last : n + (line :: inner).length - 1 = n + inner.length := rfl
  refine ⟨⟨n, n + inner.length, Text.joinWith [' '] ((line :: inner).map Text.trim)⟩, ?_, rfl, rfl,
    ?_⟩
  · rw [linesFromComment, last]
    rfl
  · have front : Text.trim line <+: Text.joinWith [' '] ((line :: inner).map Text.trim) := by
      cases inner with
      | nil => exact ⟨[], by rw [List.append_nil, List.map_singleton, Text.joinWith_singleton]⟩
      | cons l inner =>
        rw [List.map_cons, List.map_cons, Text.joinWith_cons_cons, List.append_assoc]
        exact List.prefix_append _ _
    exact List.isPrefixOf_iff_prefix.mpr ((List.isPrefixOf_iff_prefix.mp opens).trans front)

end PageObjects
