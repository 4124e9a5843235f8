import PageObjects.Proofs.Script.Pieces
import PageObjects.Proofs.Text.Spacing
import PageObjects.Script.Literal

namespace PageObjects

/-- How a character is written between single quotes. -/
def escapeChar (c : Char) : Text :=
  if c = '\\' then ['\\', '\\']
  else if c = '\'' then ['\\', '\'']
  else if c = '\n' then ['\\', 'n']
  else [c]

theorem quote_eq (t : Text) : quote t = '\'' :: (t.flatMap escapeChar ++ ['\'']) := rfl

namespace Text

variable {a b m x : Char} {new r t : Text}

theorem replacePair_pair : replacePair a b new (a :: b :: r) = new ++ replacePair a b new r := by
  rw [replacePair, if_pos ⟨rfl, rfl⟩]

theorem replacePair_cons (h : x = a → r.head? ≠ some b) :
    replacePair a b new (x :: r) = x :: replacePair a b new r := by
  cases r with
  | nil => rfl
  | cons y r =>
    rw [replacePair, if_neg]
    rintro ⟨rfl, rfl⟩
    exact h rfl rfl

theorem head?_replacePair (a b m x : Char) (r : Text) :
    (replacePair a b [m] (x :: r)).head? = some x ∨
      (replacePair a b [m] (x :: r)).head? = some m := by
  by_cases h : x = a ∧ r.head? = some b
  · obtain ⟨rfl, hr⟩ := h
    obtain ⟨r, rfl⟩ := List.head?_eq_some_iff.mp hr
    rw [replacePair_pair]
    exact .inr rfl
  · rw [replacePair_cons fun hx hr => h ⟨hx, hr⟩]
    exact .inl rfl

theorem replacePair_short (h : ∀ x y r, t = x :: y :: r → False) : replacePair a b new t = t := by
  cases t with
  | nil => rfl
  | cons x t =>
    cases t with
    | nil => rfl
    | cons y r => exact absurd rfl (h x y r)

theorem mem_of_mem_replacePair {c : Char} (hc : c ∈ replacePair a b [m] t) : c = m ∨ c ∈ t := by
  induction t using replacePair.induct a b with
  | case1 x y r pair ih =>
    obtain ⟨rfl, rfl⟩ := pair
    rw [replacePair_pair] at hc
    rcases List.mem_cons.mp hc with rfl | hc
    · exact .inl rfl
    · exact (ih hc).imp_right fun hc => List.mem_cons_of_mem _ (List.mem_cons_of_mem _ hc)
  | case2 x y r other ih =>
    rw [replacePair, if_neg other] at hc
    rcases List.mem_cons.mp hc with rfl | hc
    · exact .inr List.mem_cons_self
    · exact (ih hc).imp_right (List.mem_cons_of_mem _)
  | case3 t short =>
    rw [replacePair_short short] at hc
    exact .inr hc

/-- What holds of any two neighbours holds of them after a replacement, if the new character can
stand behind all and before whatever the pair could stand before. -/
theorem isChain_replacePair {R : Char → Char → Prop} (before : ∀ x, R x m)
    (behind : ∀ z, R b z → R m z) (h : t.IsChain R) : (replacePair a b [m] t).IsChain R := by
  have next : ∀ {x : Char} {r : Text}, (x :: r).IsChain R → ∀ z ∈ (replacePair a b [m] r).head?,
      R x z := by
    intro x r h z hz
    cases r with
    | nil => cases hz
    | cons y r =>
      rcases head?_replacePair a b m y r with same | new
      · rw [same] at hz
        obtain rfl := Option.some.inj hz
        exact (List.isChain_cons_cons.mp h).1
      · rw [new] at hz
        obtain rfl := Option.some.inj hz
        exact before x
  induction t using replacePair.induct a b with
  | case1 x y r pair ih =>
    obtain ⟨rfl, rfl⟩ := pair
    obtain ⟨-, h⟩ := List.isChain_cons_cons.mp h
    rw [replacePair_pair]
    exact List.isChain_cons.mpr ⟨fun z hz => behind z (next h z hz), ih (List.isChain_cons.mp h).2⟩
  | case2 x y r other ih =>
    rw [replacePair, if_neg other]
    exact List.isChain_cons.mpr ⟨next h, ih (List.isChain_cons.mp h).2⟩
  | case3 t short =>
    rw [replacePair_short short]
    exact h

/-- A pair is gone when it has been replaced. -/
theorem isChain_replacePair_self (first : m ≠ a) (second : m ≠ b) (t : Text) :
    (replacePair a b [m] t).IsChain fun x y => ¬ (x = a ∧ y = b) := by
  induction t using replacePair.induct a b with
  | case1 x y r pair ih =>
    obtain ⟨rfl, rfl⟩ := pair
    rw [replacePair_pair]
    exact List.isChain_cons.mpr ⟨fun z _ h => first h.1, ih⟩
  | case2 x y r other ih =>
    rw [replacePair, if_neg other]
    refine List.isChain_cons.mpr ⟨fun z hz => ?_, ih⟩
    rcases head?_replacePair a b m y r with same | new
    · rw [same] at hz
      obtain rfl := Option.some.inj hz
      exact other
    · rw [new] at hz
      obtain rfl := Option.some.inj hz
      exact fun h => second h.2
  | case3 t short =>
    rw [replacePair_short short]
    cases t with
    | nil => exact .nil
    | cons x t =>
      cases t with
      | nil => exact .singleton x
      | cons y r => exact absurd rfl (short x y r)

/-- Where a pair does not occur, nothing is replaced. -/
theorem replacePair_eq_self (h : t.IsChain fun x y => ¬ (x = a ∧ y = b)) :
    replacePair a b new t = t := by
  induction t with
  | nil => rfl
  | cons x r ih =>
    obtain ⟨next, h⟩ := List.isChain_cons.mp h
    rw [replacePair_cons fun hx hr => next b hr ⟨hx, rfl⟩, ih h]

/-- Where the pair does not stand across the border of two texts, each is replaced by itself. -/
theorem replacePair_append {s : Text} (apart : s.getLast? = some a → t.head? ≠ some b) :
    replacePair a b new (s ++ t) = replacePair a b new s ++ replacePair a b new t := by
  induction s using replacePair.induct a b with
  | case1 x y r pair ih =>
    obtain ⟨rfl, rfl⟩ := pair
    have rest : r.getLast? = some x → t.head? ≠ some y := by
      cases r with
      | nil => exact nofun
      | cons z r => exact apart
    rw [List.cons_append, List.cons_append, replacePair_pair, replacePair_pair, ih rest,
      List.append_assoc]
  | case2 x y r other ih =>
    rw [replacePair, if_neg other, List.cons_append, List.cons_append, replacePair, if_neg other,
      ← List.cons_append, ih apart, List.cons_append]
  | case3 s short =>
    rw [replacePair_short short]
    cases s with
    | nil => rfl
    | cons x s =>
      cases s with
      | cons y r => exact absurd rfl (short x y r)
      | nil => exact replacePair_cons fun same => apart (congrArg some same)

theorem isChain_iff_not_infix :
    (t.IsChain fun x y => ¬ (x = a ∧ y = b)) ↔ ¬ [a, b] <:+: t := by
  induction t with
  | nil => simp
  | cons x r ih =>
    rw [List.isChain_cons, ih, List.infix_cons_iff, not_or]
    refine and_congr_left fun _ => ?_
    cases r with
    | nil => simp
    | cons y r => simp [List.cons_prefix_cons, eq_comm]

theorem replacePair_of_notMem (h : a ∉ t) : replacePair a b new t = t :=
  replacePair_eq_self <| isChain_iff_not_infix.mpr fun pair => h (pair.subset List.mem_cons_self)

/-- A replacement that begins as the pair does but goes on in another way is always seen. -/
theorem replacePair_eq_self_iff (other : m ≠ b) :
    replacePair a b [a, m] t = t ↔ ¬ [a, b] <:+: t := by
  rw [← isChain_iff_not_infix]
  refine ⟨fun h => ?_, replacePair_eq_self⟩
  induction t using replacePair.induct a b with
  | case1 x y r pair ih =>
    obtain ⟨rfl, rfl⟩ := pair
    rw [replacePair_pair] at h
    have heads := (List.cons.inj ((List.cons_inj_right _).mp h)).1
    exact absurd heads other
  | case2 x y r apart ih =>
    rw [replacePair, if_neg apart] at h
    exact List.isChain_cons_cons.mpr ⟨apart, ih ((List.cons_inj_right _).mp h)⟩
  | case3 t short =>
    cases t with
    | nil => exact .nil
    | cons x t =>
      cases t with
      | nil => exact .singleton x
      | cons y r => exact absurd rfl (short x y r)

end Text

/-- A text with line feeds written as given and with its backslashes doubled, but for those before
the characters of a class. -/
def halfEscaped (alone : Char → Bool) (lineFeed : Text) : Text → Text
  | [] => []
  | c :: r =>
    (if c = '\\' then if r.head?.any alone then ['\\'] else ['\\', '\\']
      else if c = '\n' then lineFeed else [c]) ++ halfEscaped alone lineFeed r

theorem head?_flatMap_escapeChar (t : Text) : (t.flatMap escapeChar).head? ≠ some '\'' := by
  cases t with
  | nil => exact nofun
  | cons c r =>
    rw [List.flatMap_cons, escapeChar]
    split
    next => simp
    next =>
      split
      next => simp
      next quote => split <;> simp [quote]

section HalfEscaped

open Text

variable {alone : Char → Bool} {lineFeed : Text}

theorem halfEscaped_backslash (r : Text) : halfEscaped alone lineFeed ('\\' :: r) =
    (if r.head?.any alone then ['\\'] else ['\\', '\\']) ++ halfEscaped alone lineFeed r := by
  rw [halfEscaped, if_pos rfl]

theorem halfEscaped_lineFeed (r : Text) : halfEscaped alone lineFeed ('\n' :: r) =
    lineFeed ++ halfEscaped alone lineFeed r := by
  rw [halfEscaped, if_neg (by decide), if_pos rfl]

theorem halfEscaped_other {c : Char} (backslash : c ≠ '\\') (feed : c ≠ '\n') (r : Text) :
    halfEscaped alone lineFeed (c :: r) = c :: halfEscaped alone lineFeed r := by
  rw [halfEscaped, if_neg backslash, if_neg feed]
  rfl

theorem replacePair_quotes (v : Text) : replacePair '\\' '\'' ['\''] (v.flatMap escapeChar) =
    halfEscaped (fun _ => false) ['\\', 'n'] v := by
  induction v with
  | nil => rfl
  | cons c r ih =>
    have start := head?_flatMap_escapeChar r
    rw [List.flatMap_cons]
    by_cases backslash : c = '\\'
    · subst c
      have two : escapeChar '\\' ++ r.flatMap escapeChar =
          '\\' :: '\\' :: r.flatMap escapeChar := rfl
      rw [two, replacePair_cons (by simp), replacePair_cons fun _ => start, ih,
        halfEscaped_backslash]
      simp
    by_cases quote : c = '\''
    · subst c
      have pair : escapeChar '\'' ++ r.flatMap escapeChar =
          '\\' :: '\'' :: r.flatMap escapeChar := rfl
      rw [pair, replacePair_pair, ih, halfEscaped_other backslash (by decide)]
      rfl
    by_cases feed : c = '\n'
    · subst c
      have pair : escapeChar '\n' ++ r.flatMap escapeChar =
          '\\' :: 'n' :: r.flatMap escapeChar := rfl
      rw [pair, replacePair_cons (by simp), replacePair_cons (by simp), ih, halfEscaped_lineFeed]
      rfl
    · have single : escapeChar c = [c] := by
        rw [escapeChar, if_neg backslash, if_neg quote, if_neg feed]
      rw [single, List.singleton_append, replacePair_cons fun h => absurd h backslash, ih,
        halfEscaped_other backslash feed]

theorem head?_halfEscaped {q : Char} {t : Text} (filled : lineFeed ≠ [])
    (feed : lineFeed.head? ≠ some q) (own : t.head? ≠ some q) :
    (halfEscaped alone lineFeed t).head? ≠ some q := by
  cases t with
  | nil => exact own
  | cons c r =>
    rw [halfEscaped]
    split
    next backslash =>
      rw [backslash] at own
      split <;> exact own
    next =>
      split
      next => rwa [List.head?_append_of_ne_nil _ filled]
      next => exact own

/-- Undoing the escapes of one more quotation mark leaves single the backslashes before it. -/
theorem replacePair_halfEscaped {q : Char} (backslash : q ≠ '\\') (letter : q ≠ 'n')
    (feed : q ≠ '\n') (fresh : alone q = false) (v : Text) :
    replacePair '\\' q [q] (halfEscaped alone ['\\', 'n'] v) =
      halfEscaped (fun c => alone c || c == q) ['\\', 'n'] v := by
  have start : ∀ {t : Text}, t.head? ≠ some q →
      (halfEscaped alone ['\\', 'n'] t).head? ≠ some q := fun own =>
    head?_halfEscaped (List.cons_ne_nil _ _) (fun h => backslash (Option.some.inj h).symm) own
  have other : ∀ {c : Char} (t : Text), c ≠ q →
      replacePair '\\' q [q] ('\\' :: c :: t) = '\\' :: replacePair '\\' q [q] (c :: t) :=
    fun _ h => replacePair_cons fun _ same => h (Option.some.inj same)
  induction v with
  | nil => rfl
  | cons c r ih =>
    by_cases hc : c = '\\'
    · subst c
      rw [halfEscaped_backslash, halfEscaped_backslash]
      by_cases next : r.head? = some q
      · obtain ⟨r, rfl⟩ := List.head?_eq_some_iff.mp next
        rw [halfEscaped_other backslash feed] at ih ⊢
        rw [replacePair_cons fun h => absurd h backslash] at ih
        simp only [List.head?_cons, Option.any_some, fresh, Bool.false_or, beq_self_eq_true,
          Bool.false_eq_true, if_false, if_true, List.cons_append, List.nil_append]
        rw [other _ backslash.symm, replacePair_pair, ← ih]
        rfl
      · have same : r.head?.any (fun c => alone c || c == q) = r.head?.any alone := by
          cases r with
          | nil => rfl
          | cons d r =>
            have apart : (d == q) = false := beq_false_of_ne fun h => next (congrArg some h)
            simp [apart]
        rw [same]
        split
        next =>
          rw [List.singleton_append, replacePair_cons fun _ => start next, ih]
          rfl
        next =>
          rw [List.cons_append, List.singleton_append, other _ backslash.symm,
            replacePair_cons fun _ => start next, ih]
          rfl
    by_cases hn : c = '\n'
    · subst c
      rw [halfEscaped_lineFeed, halfEscaped_lineFeed, List.cons_append, List.singleton_append,
        other _ letter.symm, replacePair_cons fun h => absurd h (by decide), ih]
      rfl
    · rw [halfEscaped_other hc hn, halfEscaped_other hc hn,
        replacePair_cons fun h => absurd h hc, ih]

/-- Undoes the escapes of line feeds and then those of backslashes. -/
def undoLast (t : Text) : Text :=
  replacePair '\\' '\\' ['\\'] (replacePair '\\' 'n' ['\n'] t)

theorem undoLast_cons {c : Char} (h : c ≠ '\\') (t : Text) :
    undoLast (c :: t) = c :: undoLast t := by
  rw [undoLast, replacePair_cons fun e => absurd e h, replacePair_cons fun e => absurd e h]
  rfl

theorem undoLast_lineFeed (t : Text) : undoLast ('\\' :: 'n' :: t) = '\n' :: undoLast t := by
  rw [undoLast, replacePair_pair, List.singleton_append, replacePair_cons (by simp)]
  rfl

theorem undoLast_lone {c : Char} (letter : c ≠ 'n') (backslash : c ≠ '\\') (t : Text) :
    undoLast ('\\' :: c :: t) = '\\' :: undoLast (c :: t) := by
  have next : (replacePair '\\' 'n' ['\n'] (c :: t)).head? ≠ some '\\' := by
    rw [replacePair_cons fun e => absurd e backslash]
    simpa using backslash
  rw [undoLast, replacePair_cons (by simpa using letter), replacePair_cons fun _ => next]
  rfl

theorem undoLast_double {t : Text} (letter : t.head? ≠ some 'n') :
    undoLast ('\\' :: '\\' :: t) = '\\' :: undoLast t := by
  rw [undoLast, replacePair_cons (by simp), replacePair_cons fun _ => letter, replacePair_pair]
  rfl

/-- The second of two backslashes before a letter n is taken for the escape of a line feed. -/
theorem undoLast_double_letter (t : Text) :
    undoLast ('\\' :: '\\' :: 'n' :: t) = '\\' :: '\n' :: undoLast t := by
  rw [undoLast, replacePair_cons (by simp), replacePair_pair, List.singleton_append,
    replacePair_cons (by simp), replacePair_cons (by simp)]
  rfl

theorem undoLast_halfEscaped (letter : alone 'n' = false) (backslash : alone '\\' = false)
    (feed : alone '\n' = false) (v : Text) :
    undoLast (halfEscaped alone ['\\', 'n'] v) = replacePair '\\' 'n' ['\\', '\n'] v := by
  induction v using replacePair.induct '\\' 'n' with
  | case1 x y r pair ih =>
    obtain ⟨rfl, rfl⟩ := pair
    rw [replacePair_pair, halfEscaped_backslash, halfEscaped_other (by decide) (by decide),
      List.head?_cons, Option.any_some, letter]
    exact (undoLast_double_letter _).trans (congrArg (fun t => '\\' :: '\n' :: t) ih)
  | case2 x y r other ih =>
    rw [replacePair, if_neg other, ← ih]
    by_cases hx : x = '\\'
    · subst x
      have own : y ≠ 'n' := fun h => other ⟨rfl, h⟩
      rw [halfEscaped_backslash, List.head?_cons, Option.any_some]
      cases hy : alone y with
      | true =>
        have plain : y ≠ '\\' ∧ y ≠ '\n' := by
          constructor
          · rintro rfl
            simp [backslash] at hy
          · rintro rfl
            simp [feed] at hy
        rw [if_pos rfl, halfEscaped_other plain.1 plain.2]
        exact undoLast_lone own plain.1 _
      | false =>
        have start : (halfEscaped alone ['\\', 'n'] (y :: r)).head? ≠ some 'n' :=
          head?_halfEscaped (List.cons_ne_nil _ _) (by decide) (by simpa using own)
        exact undoLast_double start
    by_cases hn : x = '\n'
    · subst x
      rw [halfEscaped_lineFeed]
      exact undoLast_lineFeed _
    · rw [halfEscaped_other hx hn]
      exact undoLast_cons hx _
  | case3 t short =>
    rw [replacePair_short short]
    cases t with
    | nil => rfl
    | cons x t =>
      cases t with
      | cons y r => exact absurd rfl (short x y r)
      | nil =>
        by_cases hx : x = '\\'
        · subst x
          rfl
        by_cases hn : x = '\n'
        · subst x
          rfl
        · rw [halfEscaped_other hx hn]
          exact undoLast_cons hx _

end HalfEscaped

namespace Literal

open Text

/-- What escaping and unescaping leave of a text: behind a backslash, a letter n comes back as a line
feed. -/
theorem unescape_flatMap_escapeChar (v : Text) :
    unescape (v.flatMap escapeChar) = replacePair '\\' 'n' ['\\', '\n'] v := by
  rw [unescape, replacePair_quotes,
    replacePair_halfEscaped (by decide) (by decide) (by decide) rfl,
    replacePair_halfEscaped (by decide) (by decide) (by decide) rfl]
  exact undoLast_halfEscaped (by decide) (by decide) (by decide) v

/-- No letter n follows a backslash in what has been read: that pair stands for a line feed. -/
theorem isChain_unescape (t : Text) :
    (unescape t).IsChain fun x y => ¬ (x = '\\' ∧ y = 'n') := by
  rw [unescape]
  refine isChain_replacePair (fun x h => absurd h.2 (by decide)) (fun z h => h) ?_
  exact isChain_replacePair_self (by decide) (by decide) _

theorem unescape_flatMap_escapeChar_unescape (t : Text) :
    unescape ((unescape t).flatMap escapeChar) = unescape t := by
  rw [unescape_flatMap_escapeChar, replacePair_eq_self (isChain_unescape t)]

end Literal

section Quote

theorem escapeChar_cases (c : Char) : escapeChar c = [c] ∧ c ≠ '\\' ∧ c ≠ '\'' ∧ c ≠ '\n' ∨
    ∃ d, escapeChar c = ['\\', d] ∧ isBlank d = false := by
  rw [escapeChar]
  split
  next => exact .inr ⟨'\\', rfl, by decide⟩
  next backslash =>
    split
    next => exact .inr ⟨'\'', rfl, by decide⟩
    next quote =>
      split
      next => exact .inr ⟨'n', rfl, by decide⟩
      next feed => exact .inl ⟨rfl, backslash, quote, feed⟩

/-- Characters within single quotes, as they are written there, are read within these quotes. -/
theorem after_escapeChar (c : Char) :
    (Region.string '\'').after (escapeChar c) = .string '\'' := by
  rcases escapeChar_cases c with ⟨single, backslash, quote, -⟩ | ⟨d, pair, -⟩
  · rw [single, Region.after_cons, Region.next, if_neg backslash, if_neg quote, Region.after_nil]
  · rw [pair]
    rfl

theorem sumCode_escapeChar (c : Char) :
    sumCode bracketStep (.string '\'') (escapeChar c) = 0 := by
  rcases escapeChar_cases c with ⟨single, -⟩ | ⟨d, pair, -⟩
  · rw [single]
    rfl
  · rw [pair]
    rfl

theorem avoids_escapeChar (p : Int → Char → Bool) (depth : Int) (c : Char) :
    Avoids p (.string '\'') depth (escapeChar c) := by
  rcases escapeChar_cases c with ⟨single, -⟩ | ⟨d, pair, -⟩
  · rw [single]
    exact ⟨nofun, trivial⟩
  · rw [pair]
    exact ⟨nofun, nofun, trivial⟩

theorem after_flatMap_escapeChar (v : Text) :
    (Region.string '\'').after (v.flatMap escapeChar) = .string '\'' := by
  induction v with
  | nil => rfl
  | cons c r ih => rw [List.flatMap_cons, Region.after_append, after_escapeChar, ih]

theorem sumCode_flatMap_escapeChar (v : Text) :
    sumCode bracketStep (.string '\'') (v.flatMap escapeChar) = 0 := by
  induction v with
  | nil => rfl
  | cons c r ih =>
    rw [List.flatMap_cons, sumCode_append, after_escapeChar, sumCode_escapeChar, ih]
    rfl

theorem avoids_flatMap_escapeChar (p : Int → Char → Bool) (depth : Int) (v : Text) :
    Avoids p (.string '\'') depth (v.flatMap escapeChar) := by
  induction v with
  | nil => trivial
  | cons c r ih =>
    rw [List.flatMap_cons]
    refine avoids_append.mpr ⟨avoids_escapeChar p depth c, ?_⟩
    rwa [after_escapeChar, sumCode_escapeChar, Int.add_zero]

theorem settled_quote (v : Text) : Settled (quote v) := by
  have opened : Region.code.next '\'' = .string '\'' := rfl
  constructor
  · rw [quote_eq, Region.after_cons, opened, Region.after_append, after_flatMap_escapeChar]
    rfl
  · rw [bracketDelta, quote_eq, sumCode_bracketStep_cons, opened, sumCode_append,
      after_flatMap_escapeChar, sumCode_flatMap_escapeChar]
    rfl

/-- A quoted text says nothing outside of strings. -/
theorem avoids_quote (p : Int → Char → Bool) (depth : Int) (v : Text) :
    Avoids p .code depth (quote v) := by
  have opened : Region.code.next '\'' = .string '\'' := rfl
  have level : codeStep .code '\'' = 0 := rfl
  rw [quote_eq]
  refine ⟨nofun, ?_⟩
  rw [opened, level, Int.add_zero]
  refine avoids_append.mpr ⟨avoids_flatMap_escapeChar p depth v, ?_⟩
  rw [after_flatMap_escapeChar]
  exact ⟨nofun, trivial⟩

theorem closesAtEnd_cons {q c : Char} {region : Region} {r : Text} (filled : r ≠ []) :
    Literal.closesAtEnd q region (c :: r) =
      (region.covers c && Literal.closesAtEnd q (region.next c) r) := by
  cases r with
  | nil => exact absurd rfl filled
  | cons d r => rfl

theorem closesAtEnd_flatMap_escapeChar (v : Text) :
    Literal.closesAtEnd '\'' (.string '\'') (v.flatMap escapeChar ++ ['\'']) = true := by
  induction v with
  | nil => rfl
  | cons c r ih =>
    have filled : r.flatMap escapeChar ++ ['\''] ≠ [] := by simp
    rw [List.flatMap_cons, List.append_assoc]
    rcases escapeChar_cases c with ⟨single, backslash, quote, -⟩ | ⟨d, pair, -⟩
    · rw [single, List.singleton_append, closesAtEnd_cons filled, Region.next, if_neg backslash,
        if_neg quote, ih]
      rfl
    · rw [pair, List.cons_append, List.singleton_append, closesAtEnd_cons (List.cons_ne_nil _ _),
        closesAtEnd_cons filled]
      exact ih

theorem isSingleString_quote (v : Text) : Literal.isSingleString (quote v) = true :=
  closesAtEnd_flatMap_escapeChar v

open Text

theorem mem_unescape {c : Char} {t : Text} (hc : c ∈ Literal.unescape t) :
    c = '\\' ∨ c = '\n' ∨ c = '\x60' ∨ c = '"' ∨ c = '\'' ∨ c ∈ t := by
  rw [Literal.unescape] at hc
  rcases mem_of_mem_replacePair hc with h | hc
  · exact .inl h
  rcases mem_of_mem_replacePair hc with h | hc
  · exact .inr (.inl h)
  rcases mem_of_mem_replacePair hc with h | hc
  · exact .inr (.inr (.inl h))
  rcases mem_of_mem_replacePair hc with h | hc
  · exact .inr (.inr (.inr (.inl h)))
  rcases mem_of_mem_replacePair hc with h | hc
  · exact .inr (.inr (.inr (.inr (.inl h))))
  · exact .inr (.inr (.inr (.inr (.inr hc))))

theorem isChain_replacePair_spaces {b m : Char} {t : Text} (other : m ≠ ' ')
    (h : t.IsChain fun x y => ¬ (x = ' ' ∧ y = ' ')) :
    (replacePair '\\' b [m] t).IsChain fun x y => ¬ (x = ' ' ∧ y = ' ') :=
  isChain_replacePair (fun _ h => other h.2) (fun _ _ h => other h.1) h

/-- A text whose blanks are spaces and line feeds, no two of the spaces being neighbours. -/
structure IsSpaced (t : Text) : Prop where
  blanks : ∀ c ∈ t, isBlank c = true → c = ' ' ∨ c = '\n'
  single : t.IsChain fun x y => ¬ (x = ' ' ∧ y = ' ')

theorem Text.Tidy.isSpaced {t : Text} (h : Tidy t) : IsSpaced t :=
  ⟨fun c hc blank => .inl (h.spaces c hc blank), h.single⟩

/-- A spaced text is tidy when its line feeds, and maybe others, are written behind backslashes. -/
theorem IsSpaced.tidy_flatMap {f : Char → Text} {v : Text} (h : IsSpaced v)
    (written : ∀ c ∈ v, f c = [c] ∧ c ≠ '\n' ∨ ∃ d, f c = ['\\', d] ∧ isBlank d = false) :
    Tidy (v.flatMap f) := by
  obtain ⟨blanks, single⟩ := h
  induction v with
  | nil => exact .nil
  | cons c r ih =>
    obtain ⟨own, blanks⟩ := List.forall_mem_cons.mp blanks
    obtain ⟨next, single⟩ := List.isChain_cons.mp single
    obtain ⟨first, others⟩ := List.forall_mem_cons.mp written
    obtain ⟨later, chained⟩ := ih others blanks single
    rw [List.flatMap_cons]
    rcases first with ⟨same, feed⟩ | ⟨d, pair, filled⟩
    · rw [same]
      refine ⟨List.forall_mem_append.mpr ⟨?_, later⟩, List.isChain_cons.mpr ⟨?_, chained⟩⟩
      · intro d hd blank
        obtain rfl := List.mem_singleton.mp hd
        exact (own blank).resolve_right feed
      · rintro d hd ⟨rfl, rfl⟩
        cases r with
        | nil => cases hd
        | cons e r =>
          rw [List.flatMap_cons] at hd
          rcases others e List.mem_cons_self with ⟨same, -⟩ | ⟨d, pair, -⟩
          · rw [same] at hd
            obtain rfl := Option.some.inj hd
            exact next _ rfl ⟨rfl, rfl⟩
          · rw [pair] at hd
            cases Option.some.inj hd
    · rw [pair]
      refine ⟨List.forall_mem_append.mpr ⟨?_, later⟩, ?_⟩
      · intro e he blank
        rcases List.mem_cons.mp he with rfl | he
        · cases blank
        · obtain rfl := List.mem_singleton.mp he
          rw [filled] at blank
          cases blank
      · refine List.isChain_append.mpr ⟨?_, chained, ?_⟩
        · exact List.isChain_pair.mpr fun h => absurd h.1 (by decide)
        · rintro e he f - ⟨rfl, -⟩
          obtain rfl := Option.some.inj he
          cases filled

theorem neat_quote {v : Text} (h : IsSpaced v) : Neat (quote v) := by
  have inner : Tidy (v.flatMap escapeChar) := h.tidy_flatMap fun c _ =>
    (escapeChar_cases c).imp_left fun ⟨same, _, _, feed⟩ => ⟨same, feed⟩
  rw [quote_eq]
  refine ⟨⟨?_, ?_⟩, List.cons_ne_nil _ _, ?_, ?_⟩
  · rw [List.forall_mem_cons, List.forall_mem_append, List.forall_mem_singleton]
    exact ⟨nofun, inner.spaces, nofun⟩
  · refine List.isChain_cons.mpr ⟨fun c _ h => absurd h.1 (by decide), ?_⟩
    refine List.isChain_append.mpr ⟨inner.single, .singleton _, ?_⟩
    rintro c - d hd ⟨-, rfl⟩
    cases Option.some.inj hd
  · intro c hc
    obtain rfl := Option.some.inj hc
    rfl
  · intro c hc
    rw [← List.cons_append, List.getLast?_concat] at hc
    obtain rfl := Option.some.inj hc
    rfl

/-- What is read of a tidy string is spaced, so that it is neat again when it is quoted. -/
theorem isSpaced_unescape {t : Text} (h : Tidy t) : IsSpaced (Literal.unescape t) := by
  constructor
  · intro c hc blank
    rcases mem_unescape hc with rfl | rfl | rfl | rfl | rfl | hc
    · cases blank
    · exact .inr rfl
    · cases blank
    · cases blank
    · cases blank
    · exact .inl (h.spaces c hc blank)
  · rw [Literal.unescape]
    iterate 5 refine isChain_replacePair_spaces (by decide) ?_
    exact h.single

end Quote

namespace Literal

open Text

theorem trim_quote (v : Text) : Text.trim (quote v) = quote v := by
  refine trim_eq_self ?_ ?_
  · intro c hc
    obtain rfl := Option.some.inj hc
    rfl
  · intro c hc
    rw [quote_eq, ← List.cons_append, List.getLast?_concat] at hc
    obtain rfl := Option.some.inj hc
    rfl

/-- A quoted text is read as what is unescaped of it. -/
theorem read?_quote (v : Text) :
    read? (quote v) = some (.text (unescape (v.flatMap escapeChar))) := by
  have inside : ((quote v).drop 1).dropLast = v.flatMap escapeChar := by
    rw [quote_eq, List.drop_one, List.tail_cons, List.dropLast_concat]
  have mark : ¬ ((quote v).head? = some '\x60' ∧ includes "$\x7b" (quote v) = true) := by
    rintro ⟨h, -⟩
    cases Option.some.inj h
  rw [read?, trim_quote, if_pos (isSingleString_quote v), scalar?,
    if_pos (isSingleString_quote v), if_neg mark, inside]

theorem string?_quote (v : Text) :
    string? (quote v) = some (unescape (v.flatMap escapeChar)) := by
  rw [string?, read?_quote]

theorem string?_quote_unescape (t : Text) :
    string? (quote (unescape t)) = some (unescape t) := by
  rw [string?_quote, unescape_flatMap_escapeChar_unescape]

/-- Every quoted text is read as a string, with a line feed for each letter n behind a backslash. So
it is read as it was exactly if there is no such letter. -/
theorem quoted_readBack (v : Text) :
    read? (quote v) = some (.text (replacePair '\\' 'n' ['\\', '\n'] v)) ∧
      string? (quote v) = some (replacePair '\\' 'n' ['\\', '\n'] v) ∧
      (read? (quote v) = some (.text v) ↔ ¬ ['\\', 'n'] <:+: v) ∧
      (string? (quote v) = some v ↔ ¬ ['\\', 'n'] <:+: v) := by
  have value := unescape_flatMap_escapeChar v
  have read := read?_quote v
  have string := string?_quote v
  rw [value] at read string
  have same := replacePair_eq_self_iff (t := v) (a := '\\') (b := 'n') (m := '\n') (by decide)
  refine ⟨read, string, ?_, ?_⟩
  · rw [read, Option.some_inj, Literal.text.injEq, same]
  · rw [string, Option.some_inj, same]

/-- A path with a backslash before a letter n is read with a line feed in it. -/
theorem quoted_path_not_readBack :
    quote "C:\\new" = "'C:\\\\new'" ∧ string? (quote "C:\\new") = some "C:\\\new" ∧
      ¬ ∀ v, read? (quote v) = some (.text v) ∧ string? (quote v) = some v := by
  have read : string? (quote "C:\\new") = some "C:\\\new" := by
    rw [string?_quote]
    rfl
  refine ⟨rfl, read, ?_⟩
  intro all
  have same := read.symm.trans (all "C:\\new").2
  exact absurd (Option.some.inj same) (by decide)

theorem scalar?_of_isSingleString {t value : Text} (single : isSingleString t = true)
    (h : scalar? t = some (.text value)) : value = unescape (t.drop 1).dropLast := by
  rw [scalar?, if_pos single] at h
  split at h
  next => cases h
  next => exact (Literal.text.inj (Option.some.inj h)).symm

theorem number?_ne_text (t value : Text) : number? t ≠ some (.text value) := by
  intro h
  rw [number?.eq_def] at h
  -- by the sign, the digits and the fraction
  repeat' split at h
  all_goals simp at h

theorem head?_of_scalar? {t value : Text} (single : isSingleString t = false)
    (h : scalar? t = some (.text value)) : t.head? = some '/' := by
  rw [scalar?, if_neg (by simp [single])] at h
  split at h
  next n hn =>
    rw [h] at hn
    exact absurd hn (number?_ne_text t value)
  next =>
    iterate 3
      split at h
      next => cases h
    split at h
    next pattern =>
      rw [patternParts?.eq_def] at pattern
      split at pattern
      next => rfl
      next => cases pattern
    next => cases h

/-- A string is read as what is unescaped between its quotes, and else it is a regular
expression. -/
theorem cases_of_string? {t value : Text} (trimmed : Text.trim t = t) (h : string? t = some value) :
    t.head? = some '/' ∨
      isSingleString t = true ∧ value = unescape (t.drop 1).dropLast := by
  have read : read? t = some (.text value) := by
    rw [string?] at h
    split at h
    next u hu => rw [hu, Option.some.inj h]
    next => cases h
  rw [read?, trimmed] at read
  by_cases single : isSingleString t = true
  · rw [if_pos single] at read
    exact .inr ⟨single, scalar?_of_isSingleString single read⟩
  · rw [if_neg single] at read
    split at read
    next v hv =>
      rw [read] at hv
      exact .inl (head?_of_scalar? (Bool.eq_false_iff.mpr single) hv)
    next =>
      split at read
      next => cases read
      next items _ =>
        obtain ⟨list, -, same⟩ := Option.map_eq_some_iff.mp read
        cases same

/-- A text that starts with neither a quote nor a slash is no string. -/
theorem string?_eq_none {t : Text} (trimmed : Text.trim t = t)
    (front : ∀ c ∈ t.head?, isQuote c = false ∧ c ≠ '/') : string? t = none := by
  by_contra isString
  obtain ⟨value, read⟩ := Option.ne_none_iff_exists'.mp isString
  rcases cases_of_string? trimmed read with slash | ⟨single, -⟩
  · exact (front '/' slash).2 rfl
  · cases t with
    | nil => cases single
    | cons c r =>
      have quote := (Bool.and_eq_true_iff.mp single).1
      rw [(front c rfl).1] at quote
      cases quote

end Literal

end PageObjects
