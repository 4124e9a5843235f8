import PageObjects.Proofs.Entries
import PageObjects.Proofs.Script.Parts

namespace PageObjects

open Text

theorem isBlank_of_mem_space : ∀ c ∈ [' '], isBlank c = true :=
  List.forall_mem_singleton.mpr rfl

theorem isComma_of_mem_space : ∀ c ∈ [' '], isComma c = false := List.forall_mem_singleton.mpr rfl

theorem isColon_of_mem_space : ∀ c ∈ [' '], isColon c = false := List.forall_mem_singleton.mpr rfl

theorem settled_space : Settled [' '] :=
  .of_plain fun c hc => isPlain_of_isBlank (isBlank_of_mem_space c hc)

/-- Parts are cut apart again when commas have been put between them. -/
theorem splitArguments_joinWith {ps : List Text} (parts : ∀ p ∈ ps, IsPart isComma p) :
    splitArguments (joinWith [',', ' '] ps) = ps :=
  splitTopLevel_joinWith rfl isPlain_comma isBlank_of_mem_space isComma_of_mem_space parts

theorem balanced_joinWith {ps : List Text} (parts : ∀ p ∈ ps, Balanced p) :
    Balanced (joinWith [',', ' '] ps) := by
  have pad : Balanced [',', ' '] := by decide
  cases ps with
  | nil => exact balanced_of_plain nofun
  | cons p ps =>
    exact joinWith_induction (fun s t hs ht => (hs.append pad).append ht) (List.cons_ne_nil p ps)
      parts

/-- What stands between the brackets of an object literal with the given entries. -/
def objectInside (entries : List Text) : Text :=
  if entries.isEmpty then [] else ' ' :: joinWith [',', ' '] entries ++ [' ']

def objectText (entries : List Text) : Text := '{' :: objectInside entries ++ ['}']

theorem objectText_eq (entries : List Text) : objectText entries =
    if entries.isEmpty then ['{', '}']
    else '{' :: ' ' :: joinWith [',', ' '] entries ++ [' ', '}'] := by
  rw [objectText, objectInside]
  split
  next => rfl
  next => simp

/-- The entries of an object literal are what it is cut into. -/
theorem splitArguments_objectInside {es : List Text} (parts : ∀ e ∈ es, IsPart isComma e) :
    splitArguments (objectInside es) = es := by
  cases es with
  | nil => rfl
  | cons e es =>
    have settled : Settled (joinWith [',', ' '] (e :: es)) :=
      joinWith_induction (fun s t hs ht => by
        have pad : Settled [',', ' '] := (Settled.singleton isPlain_comma).append settled_space
        exact (hs.append pad).append ht) (List.cons_ne_nil e es) fun p hp => (parts p hp).toSettled
    have apart : objectInside (e :: es) = [' '] ++ (joinWith [',', ' '] (e :: es) ++ [' ']) := rfl
    rw [splitArguments, apart, splitTopLevel_blanks isBlank_of_mem_space isComma_of_mem_space,
      settled.splitTopLevel_append_blanks isBlank_of_mem_space isComma_of_mem_space,
      ← splitArguments, splitArguments_joinWith parts]

/-- An entry of an object literal. -/
def entryText (key value : Text) : Text := key ++ ':' :: ' ' :: value

section Entry

variable {key value : Text}

theorem isPart_entryText (first : IsPart isComma key) (last : IsPart isComma value) :
    IsPart isComma (entryText key value) := by
  have colon : Solid isComma [':', ' '] := by
    have own : Solid isComma [':'] :=
      .of_plain (List.forall_mem_singleton.mpr isPlain_colon) (List.forall_mem_singleton.mpr rfl)
    have space : Solid isComma [' '] :=
      .of_plain (List.forall_mem_singleton.mpr (isPlain_of_isBlank rfl)) isComma_of_mem_space
    exact own.append space
  have whole : entryText key value = key ++ [':', ' '] ++ value := by simp [entryText]
  rw [whole]
  exact first.append colon last

theorem entryParts?_entryText (first : IsPart isColon key)
    (bare : stripWhile Literal.isKeyQuote key = key) (last : IsPart isColon value) :
    Literal.entryParts? (entryText key value) = some (key, value) := by
  have space : ' ' :: value = [' '] ++ value := rfl
  rw [Literal.entryParts?, entryText, first.splitTopLevel_append rfl isPlain_colon, space,
    splitTopLevel_blanks isBlank_of_mem_space isColon_of_mem_space, last.splitTopLevel_eq]
  dsimp only
  rw [first.trimmed, bare, joinWith_singleton, last.trimmed]

end Entry

/-- The entries of an object with one more part read. -/
def takeEntry (entries : List (Text × Literal)) (part : Text) : List (Text × Literal) :=
  match Literal.entryParts? part with
  | none => entries
  | some (key, raw) => setEntry key ((Literal.read? raw).getD (.text raw)) entries

/-- An object is read part by part. -/
theorem objectEntries_objectText {es : List Text} (parts : ∀ e ∈ es, IsPart isComma e) :
    Literal.objectEntries (objectText es) = es.foldl takeEntry [] := by
  have trimmed : trim (objectText es) = objectText es :=
    trim_between (s := ['{']) (t := ['}']) rfl (List.cons_ne_nil _ _) rfl (List.cons_ne_nil _ _) _
  have whole : objectText es = '{' :: (objectInside es ++ ['}']) := rfl
  unfold Literal.objectEntries
  rw [trimmed, whole]
  show (if (objectInside es ++ ['}']).getLast? = some '}' then _ else _) = _
  rw [if_pos List.getLast?_concat, List.dropLast_concat, splitArguments_objectInside parts]
  rfl

end PageObjects
