import PageObjects.Text.Word

namespace PageObjects

namespace Text

/-- The first place, from the left, at which `read?` succeeds on what follows. It is given the
character before the place. -/
def search? {α : Type} (read? : Option Char → Text → Option α) (before : Option Char) :
    Text → Option α
  | [] => read? before []
  | c :: r =>
    match read? before (c :: r) with
    | some x => some x
    | none => search? read? (some c) r

/-- The first success of a pattern that does not look at what stands before it. -/
def find? {α : Type} (read? : Text → Option α) (t : Text) : Option α :=
  search? (fun _ r => read? r) none t

/-- Whether a pattern matches somewhere. -/
def occurs {α : Type} (read? : Text → Option α) (t : Text) : Bool := (find? read? t).isSome

/-- What follows the blanks and the given character. -/
def afterMark? (mark : Char) (t : Text) : Option Text :=
  match trimStart t with
  | c :: r => if c = mark then some r else none
  | [] => none

/-- What follows one of the words, if no word character is next. -/
def afterWord? (words : List Text) (t : Text) : Option Text :=
  (dropAnyPrefix? words t).filter fun r => !(r.head?.any isWord)

/-- Whether a text ends with one of the words, and no word character stands before it. -/
def endsWithWord (words : List Text) (t : Text) : Bool :=
  words.any fun w => w.isSuffixOf t && !((t.take (t.length - w.length)).getLast?.any isWord)

/-- What the quotation marks at the start of a text enclose, and what follows them. -/
def quotedBy? (mark : Char) : Text → Option (Text × Text)
  | c :: r =>
    if c = mark then
      match cutAt mark r with
      | (inner, some rest) => some (inner, rest)
      | _ => none
    else none
  | [] => none

/-- A text in double or single quotes at the start of a text, and what follows it. -/
def quoted? (t : Text) : Option (Text × Text) := (quotedBy? '"' t).or (quotedBy? '\'' t)

/-- The characters at the start of a text that are all of one class, at least one of them, and
what follows them. -/
def run? (p : Char → Bool) (t : Text) : Option (Text × Text) :=
  let run := t.takeWhile p
  if run.isEmpty then none else some (run, t.dropWhile p)

theorem length_dropWhile_le (p : Char → Bool) (t : Text) : (t.dropWhile p).length ≤ t.length :=
  (List.dropWhile_suffix p).length_le

theorem length_of_afterMark? {mark : Char} {t rest : Text} (h : afterMark? mark t = some rest) :
    rest.length < t.length := by
  rw [afterMark?] at h
  have hle := length_dropWhile_le isBlank t
  split at h
  · rename_i c r heq
    split at h
    · obtain rfl := Option.some.inj h
      have := congrArg List.length heq
      simp only [trimStart, List.length_cons] at this
      omega
    · simp at h
  · simp at h

theorem length_of_cutAt {c : Char} {t inner rest : Text} (h : cutAt c t = (inner, some rest)) :
    rest.length < t.length := by
  induction t generalizing inner with
  | nil => simp [cutAt] at h
  | cons x r ih =>
    rw [cutAt] at h
    simp only [List.length_cons]
    split at h
    · obtain ⟨_, hrest⟩ := Prod.mk.inj h
      obtain rfl := Option.some.inj hrest
      omega
    · obtain ⟨_, hrest⟩ := Prod.mk.inj h
      have := ih (Prod.ext rfl hrest)
      omega

theorem length_of_quotedBy? {mark : Char} {t inner rest : Text}
    (h : quotedBy? mark t = some (inner, rest)) : rest.length < t.length := by
  rw [quotedBy?.eq_def] at h
  split at h
  · split at h
    · split at h
      · rename_i heq
        obtain ⟨_, rfl⟩ := Prod.mk.inj (Option.some.inj h)
        have := length_of_cutAt heq
        simp only [List.length_cons]
        omega
      · simp at h
    · simp at h
  · simp at h

theorem length_of_quoted? {t inner rest : Text} (h : quoted? t = some (inner, rest)) :
    rest.length < t.length := by
  rw [quoted?, Option.or_eq_some_iff] at h
  rcases h with h | ⟨_, h⟩ <;> exact length_of_quotedBy? h

theorem length_of_run? {p : Char → Bool} {t run rest : Text} (h : run? p t = some (run, rest)) :
    rest.length ≤ t.length := by
  rw [run?] at h
  split at h
  · simp at h
  · obtain ⟨_, rfl⟩ := Prod.mk.inj (Option.some.inj h)
    exact length_dropWhile_le p t

end Text

end PageObjects
