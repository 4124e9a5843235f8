import PageObjects.Json.Basic
import PageObjects.Proofs.Entries

namespace PageObjects

namespace Json

/-- What a value has inside: the items of a list, nothing for null, else the value itself. -/
def inside : Json → List Json
  | null => []
  | list items => items
  | j => [j]

/-- The values behind a path of keys. -/
def along : List Text → Json → List Json
  | [], j => [j]
  | key :: path, j => ((j.field? key).toList.flatMap inside).flatMap (along path)

variable {j : Json} {key : Text} {path : List Text} {α : Type}

theorem along_of_list {f : α → Json} {l : List α} (h : j.field? key = some (list (l.map f))) :
    along (key :: path) j = l.flatMap fun x => along path (f x) := by
  simp [along, h, inside, List.flatMap_map]

theorem along_of_object {fields : List (Text × Json)} (h : j.field? key = some (object fields)) :
    along (key :: path) j = along path (object fields) := by
  simp [along, h, inside]

theorem along_of_text {t : Text} (h : j.field? key = some (text t)) :
    along [key] j = [text t] := by
  simp [along, h, inside]

theorem along_of_texts {f : α → Text} {l : List α}
    (h : j.field? key = some (list (l.map fun x => text (f x)))) :
    along [key] j = l.map fun x => text (f x) := by
  rw [along_of_list h]
  exact List.flatMap_pure_eq_map _ l

theorem along_of_option {f : α → Json} {o : Option α} (h : j.field? key = some (ofOption f o)) :
    along (key :: path) j = o.toList.flatMap fun x => (inside (f x)).flatMap (along path) := by
  cases o with
  | none => simp [along, h, inside, ofOption]
  | some x => simp [along, h, ofOption]

def IsMapping (j : Json) : Prop := ∃ fields, j = object fields

/-- The value to which keys lead, if there is one. -/
def at? (j : Json) : List Text → Option Json
  | [] => some j
  | key :: path => (j.field? key).bind fun inner => inner.at? path

@[simp] theorem at?_object_cons (fields : List (Text × Json)) (key : Text) (path : List Text) :
    (object fields).at? (key :: path) = (valueAt? key fields).bind fun inner => inner.at? path := rfl

theorem at?_singleton (fields : List (Text × Json)) (key : Text) :
    (object fields).at? [key] = valueAt? key fields := Option.bind_fun_some _

/-- Keys lead to nothing in what is no mapping. -/
theorem at?_cons_of_not_isMapping {j : Json} (h : ¬ j.IsMapping) (key : Text) (path : List Text) :
    j.at? (key :: path) = none := by
  cases j with
  | object fields => exact absurd ⟨fields, rfl⟩ h
  | _ => rfl

end Json

end PageObjects
