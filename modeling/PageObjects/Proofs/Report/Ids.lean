import PageObjects.Proofs.Json.Path
import PageObjects.Report.Output

namespace PageObjects

def pageIds : List (List Text) := [["pages", "id"]]

def actionIds : List (List Text) := [["pages", "actions", "id"]]

def assertionIds : List (List Text) := [["pages", "assertions", "id"]]

def componentIds : List (List Text) := [["components", "id"]]

def selectorIds : List (List Text) := [["selector_analysis", "selectors", "id"]]

def sequenceIds : List (List Text) := [["action_sequences", "id"]]

/-- The methods of pages come first. -/
def methodIds : List (List Text) :=
  [["pages", "suggested_methods", "id"], ["components", "suggested_methods", "id"]]

/-- What stands at some places of a document, one place after the other. -/
def Document.idsAt (d : Document) (places : List (List Text)) : List Json :=
  places.flatMap fun place => d.toJson.along place

namespace Json

variable {key : Text} {path : List Text} {j : Json}

/-- Leaving out what is null leaves out nothing that stands anywhere. -/
theorem along_presentFields {fields : List (Text × Json)}
    (distinct : (fields.map Prod.fst).Nodup) :
    along (key :: path) (object (presentFields fields)) = along (key :: path) (object fields) := by
  have same : (valueAt? key (presentFields fields)).toList.flatMap inside =
      (valueAt? key fields).toList.flatMap inside := by
    induction fields with
    | nil => rfl
    | cons entry rest ih =>
      obtain ⟨k, v⟩ := entry
      obtain ⟨new, distinct⟩ := List.nodup_cons.mp distinct
      have ih := ih distinct
      rw [valueAt?]
      cases v with
      | null =>
        have left : presentFields ((k, null) :: rest) = presentFields rest := rfl
        rw [left, ih]
        split
        next hk => rw [valueAt?_eq_none_iff.mpr (hk ▸ new)]; rfl
        next => rfl
      | _ =>
        simp only [presentFields, List.filter_cons, if_true, valueAt?] at ih ⊢
        split
        next => rfl
        next => exact ih
  simp only [along, field?]
  rw [same]

theorem along_of_id {i : Id} (h : j.field? key = some (idText i)) : along [key] j = [idText i] :=
  along_of_text h

theorem along_of_ids {is : List Id} (h : j.field? key = some (ids is)) :
    along [key] j = is.map idText :=
  along_of_texts h

theorem along_of_id? {α : Type} {f : α → Id} {o : Option α}
    (h : j.field? key = some (ofOption (fun x => idText (f x)) o)) :
    along [key] j = (o.toList.map f).map idText := by
  rw [along_of_option h, List.map_map]
  exact List.flatMap_pure_eq_map _ _

/-- The ids in the items of a list are those of one item after the other. -/
theorem along_of_listed {α : Type} {f : α → Json} {g : α → List Id} {l : List α}
    (h : j.field? key = some (list (l.map f)))
    (each : ∀ x ∈ l, along path (f x) = (g x).map idText) :
    along (key :: path) j = (l.flatMap g).map idText := by
  rw [along_of_list h, List.map_flatMap]
  exact List.flatMap_congr each

/-- The ids of the items of a list. -/
theorem along_of_each {α : Type} {f : α → Json} {g : α → Id} {l : List α} {k : Text}
    (h : j.field? key = some (list (l.map f)))
    (each : ∀ x, (f x).field? k = some (idText (g x))) :
    along [key, k] j = (l.map g).map idText := by
  rw [along_of_listed (g := fun x => [g x]) h fun x _ => along_of_id (each x)]
  exact congrArg (List.map idText) (List.flatMap_pure_eq_map g l)

end Json

namespace Document

variable (d : Document)

theorem idsAt_pageIds : d.idsAt pageIds = (d.pages.map Page.id).map idText := by
  have pages : d.toJson.along ["pages", "id"] = (d.pages.map Page.id).map idText :=
    Json.along_of_each rfl fun _ => rfl
  rw [idsAt, pageIds, List.flatMap_singleton, pages]

theorem idsAt_actionIds :
    d.idsAt actionIds = ((d.pages.flatMap Page.actions).map Action.id).map idText := by
  have actions : d.toJson.along ["pages", "actions", "id"] =
      (d.pages.flatMap fun p => p.actions.map Action.id).map idText :=
    Json.along_of_listed rfl fun p _ => Json.along_of_each rfl fun _ => rfl
  rw [idsAt, actionIds, List.flatMap_singleton, actions]
  simp only [List.map_flatMap]

theorem idsAt_assertionIds :
    d.idsAt assertionIds = ((d.pages.flatMap Page.assertions).map Assertion.id).map idText := by
  have assertions : d.toJson.along ["pages", "assertions", "id"] =
      (d.pages.flatMap fun p => p.assertions.map Assertion.id).map idText :=
    Json.along_of_listed rfl fun p _ => Json.along_of_each rfl fun _ => rfl
  rw [idsAt, assertionIds, List.flatMap_singleton, assertions]
  simp only [List.map_flatMap]

theorem idsAt_componentIds :
    d.idsAt componentIds = (d.components.map Component.id).map idText := by
  have components : d.toJson.along ["components", "id"] =
      (d.components.map Component.id).map idText :=
    Json.along_of_each rfl fun _ => rfl
  rw [idsAt, componentIds, List.flatMap_singleton, components]

theorem idsAt_selectorIds :
    d.idsAt selectorIds = (d.registry.map fun e => Id.selector e.number).map idText := by
  have selectors : d.toJson.along ["selector_analysis", "selectors", "id"] =
      (d.registry.map fun e => Id.selector e.number).map idText :=
    (Json.along_of_object rfl).trans (Json.along_of_each rfl fun _ => rfl)
  rw [idsAt, selectorIds, List.flatMap_singleton, selectors]

theorem idsAt_sequenceIds : d.idsAt sequenceIds =
    (d.sequences.zipIdx.map fun entry => Id.sequence (entry.2 + 1)).map idText := by
  have sequences : d.toJson.along ["action_sequences", "id"] =
      (d.sequences.zipIdx.map fun entry => Id.sequence (entry.2 + 1)).map idText :=
    Json.along_of_each rfl fun _ => rfl
  rw [idsAt, sequenceIds, List.flatMap_singleton, sequences]

/-- All methods that are listed, those of pages first. -/
def listedMethods (d : Document) : List Method :=
  (d.pages.flatMap fun p => d.methodsOf p.id) ++ d.components.flatMap fun c => d.methodsOf c.id

theorem idsAt_methodIds : d.idsAt methodIds = (d.listedMethods.map Method.id).map idText := by
  have pages : d.toJson.along ["pages", "suggested_methods", "id"] =
      (d.pages.flatMap fun p => (d.methodsOf p.id).map Method.id).map idText :=
    Json.along_of_listed rfl fun p _ => Json.along_of_each rfl fun _ => rfl
  have components : d.toJson.along ["components", "suggested_methods", "id"] =
      (d.components.flatMap fun c => (d.methodsOf c.id).map Method.id).map idText :=
    Json.along_of_listed rfl fun c _ => Json.along_of_each rfl fun _ => rfl
  rw [idsAt, methodIds, List.flatMap_cons, List.flatMap_singleton, pages, components, listedMethods]
  simp only [List.map_append, List.map_flatMap]

end Document

end PageObjects
