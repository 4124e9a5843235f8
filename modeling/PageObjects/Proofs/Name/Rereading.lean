import PageObjects.Proofs.Name.Identifier
import PageObjects.Proofs.Text.Spacing

namespace PageObjects

namespace Text

/-- The kind of the character that a text starts with. -/
def headKind? (t : Text) : Option LetterKind := t.head?.bind letterKind?

/-- A run of characters of one kind. -/
structure IsRun (kind : LetterKind) (w : Text) : Prop where
  filled : w ≠ []
  same : ∀ c ∈ w, letterKind? c = some kind

/-- The word that is read off a text, and what stands behind it. -/
inductive ReadsWord : Text → Text → Prop
  | beforeCapitalized {w r : Text} {c d : Char} (run : IsRun .capital w)
      (big : letterKind? c = some .capital) (small : letterKind? d = some .small) :
      ReadsWord w (c :: d :: r)
  | capitalized {c : Char} {w r : Text} (big : letterKind? c = some .capital)
      (run : IsRun .small w) (ends : headKind? r ≠ some .small) : ReadsWord (c :: w) r
  | small {w r : Text} (run : IsRun .small w) (ends : headKind? r ≠ some .small) : ReadsWord w r
  | capitals {w r : Text} (run : IsRun .capital w) (ends : headKind? r ≠ some .capital)
      (lone : headKind? r ≠ some .small) : ReadsWord w r
  | digits {w r : Text} (run : IsRun .digit w) (ends : headKind? r ≠ some .digit) : ReadsWord w r

/-- The words that are read off a text from the left; characters of no kind are passed over. -/
inductive ReadsWords : Text → List Text → Prop
  | done : ReadsWords [] []
  | skip {c : Char} {r : Text} {ws : List Text} (kindless : letterKind? c = none)
      (rest : ReadsWords r ws) : ReadsWords (c :: r) ws
  | word {t w r : Text} {ws : List Text} (split : t = w ++ r) (first : ReadsWord w r)
      (rest : ReadsWords r ws) : ReadsWords t (w :: ws)

section Reading

variable {c d : Char} {t w r : Text} {ws : List Text} {kind : LetterKind}

/-- A character stands in one word with its own kind, a capital only if the next one starts no word,
and a capital also with a small letter. -/
theorem joinsNext_iff (hc : letterKind? c = some kind) : joinsNext c (d :: r) = true ↔
    (letterKind? d = some kind ∧ (kind = .capital → headKind? r ≠ some .small)) ∨
      (kind = .capital ∧ letterKind? d = some .small) := by
  cases hd : letterKind? d with
  | none => simp [joinsNext, hc, hd]
  | some other => cases kind <;> cases other <;> simp [joinsNext, headKind?, hc, hd]

/-- Where neither its own kind goes on nor a small letter follows a capital, a word ends. -/
theorem joinsNext_eq_false (hc : letterKind? c = some kind) (ends : headKind? r ≠ some kind)
    (lone : kind = .capital → headKind? r ≠ some .small) : joinsNext c r = false := by
  cases r with
  | nil => rfl
  | cons d r =>
    refine Bool.eq_false_iff.mpr fun joins => ?_
    rcases (joinsNext_iff hc).mp joins with ⟨own, -⟩ | ⟨big, small⟩
    · exact ends own
    · exact lone big small

theorem wordRuns_of_joinsNext (hc : letterKind? c = some kind) (joins : joinsNext c r = true)
    (rest : wordRuns r = w :: ws) : wordRuns (c :: r) = (c :: w) :: ws := by
  rw [wordRuns, if_neg (by simp [hc]), if_pos joins, rest]

theorem wordRuns_of_not_joinsNext (hc : letterKind? c = some kind)
    (apart : joinsNext c r = false) : wordRuns (c :: r) = [c] :: wordRuns r := by
  rw [wordRuns, if_neg (by simp [hc]), if_neg (by simp [apart])]

/-- A run is a word if its last character stands apart from what follows. -/
theorem IsRun.wordRuns_append (run : IsRun kind w)
    (lone : kind = .capital → headKind? r ≠ some .small)
    (apart : ∀ c, letterKind? c = some kind → joinsNext c r = false) :
    wordRuns (w ++ r) = w :: wordRuns r := by
  obtain ⟨filled, same⟩ := run
  induction w with
  | nil => exact absurd rfl filled
  | cons c w ih =>
    obtain ⟨hc, same⟩ := List.forall_mem_cons.mp same
    cases w with
    | nil => exact wordRuns_of_not_joinsNext hc (apart c hc)
    | cons d w =>
      have behind : kind = .capital → headKind? (w ++ r) ≠ some .small := by
        cases w with
        | nil => exact lone
        | cons e w =>
          rintro rfl small
          have big : letterKind? e = some .capital := same e (by simp)
          rw [List.cons_append, headKind?, List.head?_cons, Option.bind_some, big] at small
          cases small
      have joins : joinsNext c (d :: (w ++ r)) = true :=
        (joinsNext_iff hc).mpr (.inl ⟨same d List.mem_cons_self, behind⟩)
      exact wordRuns_of_joinsNext hc joins (ih (List.cons_ne_nil d w) same)

theorem ReadsWord.wordRuns_append (h : ReadsWord w r) : wordRuns (w ++ r) = w :: wordRuns r := by
  cases h with
  | beforeCapitalized run big small =>
    refine run.wordRuns_append (fun _ => ?_) fun e he => Bool.eq_false_iff.mpr fun joins => ?_
    · rw [headKind?, List.head?_cons, Option.bind_some, big]
      exact nofun
    · rcases (joinsNext_iff he).mp joins with ⟨-, lone⟩ | ⟨-, small'⟩
      · exact lone rfl small
      · rw [big] at small'
        cases small'
  | @capitalized c w _ big run ends =>
    have rest : wordRuns (w ++ r) = w :: wordRuns r :=
      run.wordRuns_append nofun fun e he => joinsNext_eq_false he ends nofun
    obtain ⟨filled, same⟩ := run
    obtain ⟨d, v, rfl⟩ := List.exists_cons_of_ne_nil filled
    have joins : joinsNext c (d :: (v ++ r)) = true :=
      (joinsNext_iff big).mpr (.inr ⟨rfl, same d List.mem_cons_self⟩)
    exact wordRuns_of_joinsNext big joins rest
  | small run ends =>
    exact run.wordRuns_append nofun fun e he => joinsNext_eq_false he ends nofun
  | capitals run ends lone =>
    exact run.wordRuns_append (fun _ => lone) fun e he => joinsNext_eq_false he ends fun _ => lone
  | digits run ends =>
    exact run.wordRuns_append nofun fun e he => joinsNext_eq_false he ends nofun

theorem ReadsWords.wordRuns_eq (h : ReadsWords t ws) : wordRuns t = ws := by
  induction h with
  | done => rfl
  | skip kindless _ ih => rw [wordRuns, if_pos (by simp [kindless]), ih]
  | word split first _ ih => rw [split, first.wordRuns_append, ih]

theorem isRun_singleton (hc : letterKind? c = some kind) : IsRun kind [c] :=
  ⟨List.cons_ne_nil c [], List.forall_mem_singleton.mpr hc⟩

theorem IsRun.cons (run : IsRun kind w) (hc : letterKind? c = some kind) : IsRun kind (c :: w) :=
  ⟨List.cons_ne_nil c w, List.forall_mem_cons.mpr ⟨hc, run.same⟩⟩

theorem IsRun.headKind?_append (run : IsRun kind w) (r : Text) :
    headKind? (w ++ r) = some kind := by
  obtain ⟨c, v, rfl⟩ := List.exists_cons_of_ne_nil run.filled
  exact run.same c List.mem_cons_self

theorem headKind?_ne_of_apart (hc : letterKind? c = some kind) (noCapital : kind ≠ .capital)
    (apart : joinsNext c r = false) : headKind? r ≠ some kind := by
  cases r with
  | nil => exact nofun
  | cons d r =>
    intro own
    rw [(joinsNext_iff hc).mpr (.inl ⟨own, fun big => absurd big noCapital⟩)] at apart
    cases apart

/-- A character that stands apart from what follows is a word by itself. -/
theorem readsWord_singleton (hc : letterKind? c = some kind) (apart : joinsNext c r = false) :
    ReadsWord [c] r := by
  have run := isRun_singleton hc
  cases kind with
  | small => exact .small run (headKind?_ne_of_apart hc nofun apart)
  | digit => exact .digits run (headKind?_ne_of_apart hc nofun apart)
  | capital =>
    cases r with
    | nil => exact .capitals run nofun nofun
    | cons d r =>
      have joins := mt (joinsNext_iff (d := d) (r := r) hc).mpr (Bool.eq_false_iff.mp apart)
      rw [not_or] at joins
      by_cases big : letterKind? d = some .capital
      · have small : headKind? r = some .small := by
          by_contra other
          exact joins.1 ⟨big, fun _ => other⟩
        cases r with
        | nil => cases small
        | cons e r => exact .beforeCapitalized run big small
      · exact .capitals run big fun small => joins.2 ⟨rfl, small⟩

theorem kinds_of_joinsNext_cons {other : LetterKind} (hc : letterKind? c = some kind)
    (hd : letterKind? d = some other) (joins : joinsNext c (d :: r) = true) :
    (other = kind ∧ (kind = .capital → headKind? r ≠ some .small)) ∨
      (kind = .capital ∧ other = .small) := by
  have kinds := (joinsNext_iff hc).mp joins
  rwa [hd, Option.some.injEq, Option.some.injEq] at kinds

/-- A character that is joined to a word makes a longer word. -/
theorem ReadsWord.cons (h : ReadsWord (d :: w) r) (hc : letterKind? c = some kind)
    (joins : joinsNext c (d :: (w ++ r)) = true) : ReadsWord (c :: d :: w) r := by
  cases h with
  | beforeCapitalized run big small =>
    obtain ⟨rfl, -⟩ | ⟨-, ⟨⟩⟩ := kinds_of_joinsNext_cons hc (run.same d List.mem_cons_self) joins
    exact .beforeCapitalized (run.cons hc) big small
  | capitalized big run ends =>
    -- a capital before a capitalized word is a word by itself
    obtain ⟨rfl, lone⟩ | ⟨-, ⟨⟩⟩ := kinds_of_joinsNext_cons hc big joins
    exact absurd (run.headKind?_append r) (lone rfl)
  | small run ends =>
    obtain ⟨rfl, -⟩ | ⟨rfl, -⟩ := kinds_of_joinsNext_cons hc (run.same d List.mem_cons_self) joins
    · exact .small (run.cons hc) ends
    · exact .capitalized hc run ends
  | capitals run ends lone =>
    obtain ⟨rfl, -⟩ | ⟨-, ⟨⟩⟩ := kinds_of_joinsNext_cons hc (run.same d List.mem_cons_self) joins
    exact .capitals (run.cons hc) ends lone
  | digits run ends =>
    obtain ⟨rfl, -⟩ | ⟨-, ⟨⟩⟩ := kinds_of_joinsNext_cons hc (run.same d List.mem_cons_self) joins
    exact .digits (run.cons hc) ends

theorem readsWords_wordRuns (t : Text) : ReadsWords t (wordRuns t) := by
  induction t with
  | nil => exact .done
  | cons c r ih =>
    cases hc : letterKind? c with
    | none =>
      rw [wordRuns, if_pos (by simp [hc])]
      exact .skip hc ih
    | some kind =>
      cases joins : joinsNext c r with
      | false =>
        rw [wordRuns_of_not_joinsNext hc joins]
        exact .word rfl (readsWord_singleton hc joins) ih
      | true =>
        cases r with
        | nil => cases joins
        | cons d r =>
          have hd : ¬(letterKind? d).isNone = true := by
            rcases (joinsNext_iff hc).mp joins with ⟨same, -⟩ | ⟨-, small⟩ <;> simp [*]
          obtain ⟨w, ws, runs⟩ : ∃ w ws, wordRuns (d :: r) = (d :: w) :: ws :=
            exists_wordRuns_cons hd
          rw [runs] at ih
          rw [wordRuns_of_joinsNext hc joins runs]
          cases ih with
          | skip kindless => exact absurd (Option.isNone_iff_eq_none.mpr kindless) hd
          | word split first rest =>
            rw [split] at joins ⊢
            exact .word rfl (first.cons hc joins) rest

/-- The words of a text are what is read off it form by form. -/
theorem readsWords_iff : ReadsWords t ws ↔ ws = wordRuns t := by
  constructor
  · exact fun h => h.wordRuns_eq.symm
  · rintro rfl
    exact readsWords_wordRuns t

end Reading

end Text

theorem letterKind?_of_isUpper {c : Char} (h : c.isUpper = true) :
    letterKind? c = some .capital := by
  rw [letterKind?, if_pos h]

theorem letterKind?_of_isLower {c : Char} (h : c.isLower = true) :
    letterKind? c = some .small := by
  rw [letterKind?, if_neg (Char.not_isUpper_of_isLower h), if_pos h]

theorem letterKind?_of_isDecimal {c : Char} (h : isDecimal c = true) :
    letterKind? c = some .digit := by
  have noLetter := not_isAlpha_of_isDecimal h
  rw [letterKind?, if_neg (mt isAlpha_of_isUpper noLetter), if_neg (mt isAlpha_of_isLower noLetter),
    if_pos h]

namespace Text

/-- A word without capitals: small letters or digits. -/
def IsPlainWord (w : Text) : Prop := IsRun .small w ∨ IsRun .digit w

section Names

variable {t w : Text} {ws : List Text}

theorem isPlainWord_of_mem_words (h : w ∈ words t) : IsPlainWord w := by
  obtain ⟨run, hr, rfl⟩ := List.mem_map.mp h
  obtain ⟨filled, letters | digits⟩ := isWord_of_mem_wordRuns hr
  · refine .inl ⟨by simpa using filled, fun c hc => ?_⟩
    obtain ⟨d, hd, rfl⟩ := List.mem_map.mp hc
    exact letterKind?_of_isLower (d.isLower_toLower_eq_isAlpha.trans (letters d hd))
  · refine .inr ⟨by simpa using filled, fun c hc => ?_⟩
    obtain ⟨d, hd, rfl⟩ := List.mem_map.mp hc
    rw [toLower_of_isDecimal (digits d hd)]
    exact letterKind?_of_isDecimal (digits d hd)

/-- Plain words are read off one by one where something of no kind stands between them. -/
theorem IsPlainWord.readsWord (h : IsPlainWord w) {r : Text} (ends : headKind? r = none) :
    ReadsWord w r := by
  rcases h with small | digits
  · exact .small small (ends ▸ nofun)
  · exact .digits digits (ends ▸ nofun)

theorem readsWords_joinWith (plain : ∀ w ∈ ws, IsPlainWord w) :
    ReadsWords (joinWith ['-'] ws) ws := by
  induction ws with
  | nil => exact .done
  | cons w ws ih =>
    obtain ⟨first, plain⟩ := List.forall_mem_cons.mp plain
    cases ws with
    | nil =>
      rw [joinWith_singleton]
      exact .word (List.append_nil w).symm (first.readsWord rfl) .done
    | cons v ws =>
      have hyphen : letterKind? '-' = none := by decide +kernel
      rw [joinWith_cons_cons, List.append_assoc]
      exact .word rfl (first.readsWord hyphen) (.skip hyphen (ih plain))

theorem IsRun.map_toLower {kind : LetterKind} (run : IsRun kind w) (noCapital : kind ≠ .capital) :
    w.map Char.toLower = w := by
  refine (List.map_congr_left fun c hc => ?_).trans (List.map_id w)
  refine Char.toLower_eq_of_not_isUpper fun big => noCapital ?_
  exact Option.some.inj ((run.same c hc).symm.trans (letterKind?_of_isUpper big))

theorem IsPlainWord.map_toLower (h : IsPlainWord w) : w.map Char.toLower = w := by
  rcases h with small | digits
  · exact small.map_toLower nofun
  · exact digits.map_toLower nofun

/-- Plain words with hyphens between them are read back. -/
theorem words_joinWith (plain : ∀ w ∈ ws, IsPlainWord w) : words (joinWith ['-'] ws) = ws := by
  rw [words, (readsWords_joinWith plain).wordRuns_eq]
  exact (List.map_congr_left fun w hw => (plain w hw).map_toLower).trans (List.map_id ws)

theorem words_kebab (t : Text) : words (kebab t) = (words t).take maxNameWords :=
  words_joinWith fun _ hw => isPlainWord_of_mem_words (List.mem_of_mem_take hw)

theorem kebab_kebab (t : Text) : kebab (kebab t) = kebab t := by
  rw [kebab, words_kebab, List.take_take, Nat.min_self, ← kebab]

/-- At least two small letters. -/
structure IsLongWord (w : Text) : Prop where
  long : 2 ≤ w.length
  run : IsRun .small w

theorem isLongWord_of_letters (h : 2 ≤ w.length ∧ ∀ c ∈ w, 'a' ≤ c ∧ c ≤ 'z') : IsLongWord w := by
  refine ⟨h.1, ?_, fun c hc => letterKind?_of_isLower ?_⟩
  · exact List.ne_nil_of_length_pos (Nat.lt_of_lt_of_le Nat.two_pos h.1)
  · rw [Char.isLower, Bool.and_eq_true, decide_eq_true_eq, decide_eq_true_eq]
    exact h.2 c hc

namespace IsLongWord

theorem isAlpha (h : IsLongWord w) {c : Char} (hc : c ∈ w) : c.isAlpha = true :=
  letterKind?_eq_some (h.run.same c hc)

theorem isWord (h : IsLongWord w) : IsWord w := ⟨h.run.filled, .inl fun _ hc => h.isAlpha hc⟩

/-- Only the first letter of a capitalized word is a capital, and small letters follow. -/
theorem exists_capitalize (h : IsLongWord w) : ∃ c v, capitalize w = c :: v ∧
    letterKind? c = some .capital ∧ IsRun .small v ∧ (capitalize w).map Char.toLower = w := by
  obtain ⟨c, d, v, rfl⟩ : ∃ c d v, w = c :: d :: v := by
    match w, h.long with
    | c :: d :: v, _ => exact ⟨c, d, v, rfl⟩
  have rest : IsRun .small (d :: v) :=
    ⟨List.cons_ne_nil d v, fun e he => h.run.same e (List.mem_cons_of_mem c he)⟩
  have own : capitalize (c :: d :: v) = c.toUpper :: d :: v := by
    rw [capitalize_of_isNameChar fun e he => h.isWord.isNameChar he, rest.map_toLower nofun]
  have big : c.toUpper.isUpper = true :=
    c.isUpper_toUpper_eq_isAlpha.trans (h.isAlpha List.mem_cons_self)
  refine ⟨c.toUpper, d :: v, own, letterKind?_of_isUpper big, rest, ?_⟩
  rw [own, List.map_cons, Char.toLower_toUpper_eq_toLower, ← List.map_cons]
  exact h.run.map_toLower nofun

theorem readsWord_capitalize (h : IsLongWord w) {r : Text} (ends : headKind? r ≠ some .small) :
    ReadsWord (capitalize w) r := by
  obtain ⟨c, v, own, big, run, -⟩ := h.exists_capitalize
  rw [own]
  exact .capitalized big run ends

theorem map_toLower_capitalize (h : IsLongWord w) : (capitalize w).map Char.toLower = w := by
  obtain ⟨c, v, -, -, -, same⟩ := h.exists_capitalize
  exact same

end IsLongWord

section Long

variable (long : ∀ w ∈ ws, IsLongWord w)

include long

theorem headKind?_capitalized : headKind? (ws.flatMap capitalize) ≠ some .small := by
  cases ws with
  | nil => exact nofun
  | cons w ws =>
    obtain ⟨c, v, own, big, -⟩ := (long w List.mem_cons_self).exists_capitalize
    rw [List.flatMap_cons, own, List.cons_append, headKind?, List.head?_cons, Option.bind_some, big]
    exact nofun

/-- Capitalized words are told apart by their capitals. -/
theorem readsWords_capitalized : ReadsWords (ws.flatMap capitalize) (ws.map capitalize) := by
  induction ws with
  | nil => exact .done
  | cons w ws ih =>
    obtain ⟨first, others⟩ := List.forall_mem_cons.mp long
    exact .word rfl (first.readsWord_capitalize (headKind?_capitalized others)) (ih others)

theorem map_capitalized : (ws.map capitalize).map (fun w => w.map Char.toLower) = ws := by
  rw [List.map_map]
  exact (List.map_congr_left fun w hw => (long w hw).map_toLower_capitalize).trans (List.map_id ws)

theorem words_pascal (few : ws.length ≤ maxNameWords) : words (pascal ws) = ws := by
  rw [pascal, List.take_of_length_le few, words, (readsWords_capitalized long).wordRuns_eq,
    map_capitalized long]

theorem words_camel (few : ws.length ≤ maxNameWords) : words (camel ws) = ws := by
  cases ws with
  | nil => rfl
  | cons w ws =>
    obtain ⟨first, others⟩ := List.forall_mem_cons.mp long
    have small : w.map Char.toLower = w := first.run.map_toLower nofun
    have reads : ReadsWords (w ++ ws.flatMap capitalize) (w :: ws.map capitalize) :=
      .word rfl (.small first.run (headKind?_capitalized others)) (readsWords_capitalized others)
    rw [camel_cons fun v hv => (long v hv).isWord, small,
      List.take_of_length_le (Nat.le_of_succ_le_succ few), words, reads.wordRuns_eq, List.map_cons,
      small, map_capitalized others]

end Long

/-- Names keep their words. What is written with hyphens has the first four words of the text, and
is written so again; at most four words of two small letters or more are read back from the other
two styles. -/
theorem names_keep_words (t : Text) (ws : List Text) :
    words (kebab t) = (words t).take 4 ∧ kebab (kebab t) = kebab t ∧
      (ws.length ≤ 4 → (∀ w ∈ ws, 2 ≤ w.length ∧ ∀ c ∈ w, 'a' ≤ c ∧ c ≤ 'z') →
        words (camel ws) = ws ∧ words (pascal ws) = ws) := by
  refine ⟨words_kebab t, kebab_kebab t, fun few letters => ?_⟩
  have long : ∀ w ∈ ws, IsLongWord w := fun w hw => isLongWord_of_letters (letters w hw)
  exact ⟨words_camel long few, words_pascal long few⟩

/-- A title with capitals in a row, digits and more than four words. -/
def crowdedTitle : Text := "HTMLParser v2: add2Cart"

theorem names_keep_words_crowdedTitle :
    words crowdedTitle = ["html", "parser", "v", "2", "add", "2", "cart"] ∧
      words (kebab crowdedTitle) = ["html", "parser", "v", "2"] ∧
      camel ["sign", "in", "now"] = ("signInNow" : Text) ∧
      words ("signInNow" : Text) = ["sign", "in", "now"] ∧
      words ("SignInNow" : Text) = ["sign", "in", "now"] := by
  have read : words crowdedTitle = ["html", "parser", "v", "2", "add", "2", "cart"] := by
    decide +kernel
  have joined : camel ["sign", "in", "now"] = ("signInNow" : Text) := by decide +kernel
  have capitalized : pascal ["sign", "in", "now"] = ("SignInNow" : Text) := by decide +kernel
  obtain ⟨kept, -, styles⟩ := names_keep_words crowdedTitle ["sign", "in", "now"]
  have back := styles (by decide) (by simp)
  rw [joined, capitalized] at back
  refine ⟨read, ?_, joined, back⟩
  rw [kept, read]
  rfl

/-- Single letters are not told apart. -/
example : words (camel ["to", "a", "b"]) = ["to", "ab"] := by decide +kernel

end Names

end Text

end PageObjects
