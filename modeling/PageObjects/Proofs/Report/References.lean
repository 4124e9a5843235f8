import PageObjects.Proofs.Report.Defined

namespace PageObjects

/-- A place where ids refer to other things, and where these things say their ids. -/
abbrev Reference := List Text × List (List Text)

/-- References in the value of a field. -/
def under (key : Text) (references : List Reference) : List Reference :=
  references.map fun r => (key :: r.1, r.2)

def parameterReferences : List Reference := [(["action_ids"], actionIds)]

def actionReferences : List Reference :=
  (["selector_id"], selectorIds) :: (["component_usage", "component_id"], componentIds) ::
    under "parameters" parameterReferences

def assertionReferences : List Reference := [(["selector_id"], selectorIds)]

def methodReferences : List Reference :=
  (["action_ids"], actionIds) :: (["assertion_ids"], assertionIds) ::
    (["returns_page_id"], pageIds) :: (["delegates_to_component_id"], componentIds) ::
    under "parameters" parameterReferences

def usageReferences : List Reference :=
  [(["component_id"], componentIds), (["action_ids"], actionIds)]

def pageReferences : List Reference :=
  under "actions" actionReferences ++ under "assertions" assertionReferences ++
    under "suggested_methods" methodReferences ++ under "component_usages" usageReferences

def occurrenceReferences : List Reference := [(["page_id"], pageIds), (["action_ids"], actionIds)]

def componentReferences : List Reference :=
  (["appears_on_page_ids"], pageIds) :: (under "instances" occurrenceReferences ++
    under "suggested_methods" methodReferences)

def stepReferences : List Reference :=
  [(["page_id"], pageIds), (["method_id"], methodIds), (["assertion_id"], assertionIds),
    (["component_id"], componentIds)]

def registryReferences : List Reference :=
  under "fragile_selectors" [(["selector_id"], selectorIds)] ++
    under "duplicates" [(["selector_id"], selectorIds), (["item_ids"], actionIds ++ assertionIds)] ++
    under "selectors" [(["used_by"], actionIds ++ assertionIds)]

/-- Recommendations may be about things of all kinds. -/
def adviceReferences : List Reference :=
  [(["related_ids"], pageIds ++ actionIds ++ assertionIds ++ componentIds ++ selectorIds ++
    methodIds ++ sequenceIds)]

/-- All places of a document where ids refer to something. -/
def references : List Reference :=
  under "pages" pageReferences ++ under "components" componentReferences ++
    under "action_sequences" (under "steps" stepReferences) ++
    under "selector_analysis" registryReferences ++
    under "recommendations" (under "architectural" adviceReferences ++
      under "refactoring" adviceReferences ++ under "quality" adviceReferences)

/-- Where things of the kind of an id say their ids. -/
def Id.places : Id → List (List Text)
  | .page _ => pageIds
  | .action _ => actionIds
  | .assertion _ => assertionIds
  | .component _ => componentIds
  | .selector _ => selectorIds
  | .method _ => methodIds
  | .sequence _ => sequenceIds

namespace Document

/-- Whether what stands at some places of a value refers to things in the document. -/
def Resolves (d : Document) (references : List Reference) (j : Json) : Prop :=
  ∀ r ∈ references, ∀ v ∈ j.along r.1, v ∈ d.idsAt r.2

variable {d : Document}

theorem mem_idsAt_of_subset {places more : List (List Text)} (h : places ⊆ more) {v : Json}
    (hv : v ∈ d.idsAt places) : v ∈ d.idsAt more := by
  obtain ⟨place, hp, hv⟩ := List.mem_flatMap.mp hv
  exact List.mem_flatMap.mpr ⟨place, h hp, hv⟩

/-- What a document has says its id in it. -/
theorem mem_idsAt_places {i : Id} (h : d.Defines i) : idText i ∈ d.idsAt i.places := by
  have mem : ∀ {α : Type} {l : List α} {id : α → Id} {x : α}, x ∈ l →
      idText (id x) ∈ (l.map id).map idText := fun hx =>
    List.mem_map_of_mem (List.mem_map_of_mem hx)
  cases i with
  | page n =>
    obtain ⟨p, hp, rfl⟩ := h
    exact d.idsAt_pageIds ▸ mem hp
  | action n =>
    obtain ⟨p, hp, a, ha, rfl⟩ := h
    exact d.idsAt_actionIds ▸ mem (List.mem_flatMap.mpr ⟨p, hp, ha⟩)
  | assertion n =>
    obtain ⟨p, hp, a, ha, rfl⟩ := h
    exact d.idsAt_assertionIds ▸ mem (List.mem_flatMap.mpr ⟨p, hp, ha⟩)
  | component n =>
    obtain ⟨c, hc, rfl⟩ := h
    exact d.idsAt_componentIds ▸ mem hc
  | selector n =>
    obtain ⟨e, he, rfl⟩ := h
    exact d.idsAt_selectorIds ▸ mem he
  | method n =>
    obtain ⟨m, hm, rfl⟩ := h
    exact d.idsAt_methodIds ▸ mem hm
  | sequence n =>
    have numbers := map_succ_zipIdx d.sequences
    rw [Defines, ← numbers] at h
    obtain ⟨entry, he, rfl⟩ := List.mem_map.mp h
    exact d.idsAt_sequenceIds ▸ mem he

/-- An id of something in the document that says its id at one of some places. -/
def RefersTo (d : Document) (targets : List (List Text)) (i : Id) : Prop :=
  d.Defines i ∧ i.places ⊆ targets

theorem Defines.refersTo {i : Id} (h : d.Defines i) : d.RefersTo i.places i :=
  ⟨h, List.Subset.refl _⟩

theorem RefersTo.mem {targets : List (List Text)} {i : Id} (h : d.RefersTo targets i) :
    idText i ∈ d.idsAt targets :=
  mem_idsAt_of_subset h.2 (mem_idsAt_places h.1)

namespace Resolves

variable {references more : List Reference} {j : Json} {key : Text} {targets : List (List Text)}

theorem nil : d.Resolves [] j := fun _ hr => nomatch hr

theorem cons {r : Reference} (first : ∀ v ∈ j.along r.1, v ∈ d.idsAt r.2)
    (rest : d.Resolves references j) : d.Resolves (r :: references) j :=
  List.forall_mem_cons.mpr ⟨first, rest⟩

theorem append (h : d.Resolves references j) (hm : d.Resolves more j) :
    d.Resolves (references ++ more) j :=
  List.forall_mem_append.mpr ⟨h, hm⟩

theorem under_list {α : Type} {f : α → Json} {l : List α}
    (h : j.field? key = some (.list (l.map f))) (each : ∀ x ∈ l, d.Resolves references (f x)) :
    d.Resolves (under key references) j := by
  intro r hr v hv
  obtain ⟨q, hq, rfl⟩ := List.mem_map.mp hr
  rw [Json.along_of_list h] at hv
  obtain ⟨x, hx, hv⟩ := List.mem_flatMap.mp hv
  exact each x hx q hq v hv

theorem under_object {fields : List (Text × Json)} (h : j.field? key = some (.object fields))
    (inner : d.Resolves references (.object fields)) : d.Resolves (under key references) j := by
  intro r hr v hv
  obtain ⟨q, hq, rfl⟩ := List.mem_map.mp hr
  rw [Json.along_of_object h] at hv
  exact inner q hq v hv

/-- What is null refers to nothing. -/
theorem resolves_presentFields {fields : List (Text × Json)}
    (distinct : (fields.map Prod.fst).Nodup)
    (keyed : ∀ r ∈ references, r.1 ≠ []) (h : d.Resolves references (.object fields)) :
    d.Resolves references (.object (presentFields fields)) := by
  intro r hr v hv
  obtain ⟨key, path, hp⟩ := List.exists_cons_of_ne_nil (keyed r hr)
  rw [hp, Json.along_presentFields distinct, ← hp] at hv
  exact h r hr v hv

end Resolves

section Fields

variable {j : Json} {key : Text} {path : List Text} {targets : List (List Text)}

theorem mem_idsAt_of_id {i : Id} (h : j.field? key = some (idText i))
    (refers : d.RefersTo targets i) : ∀ v ∈ j.along [key], v ∈ d.idsAt targets := by
  intro v hv
  rw [Json.along_of_id h] at hv
  rw [List.mem_singleton.mp hv]
  exact refers.mem

theorem mem_idsAt_of_listed {α : Type} {f : α → Id} {l : List α}
    (h : j.field? key = some (.list (l.map fun x => idText (f x))))
    (each : ∀ x ∈ l, d.RefersTo targets (f x)) : ∀ v ∈ j.along [key], v ∈ d.idsAt targets := by
  intro v hv
  rw [Json.along_of_texts h] at hv
  obtain ⟨x, hx, rfl⟩ := List.mem_map.mp hv
  exact (each x hx).mem

theorem mem_idsAt_of_ids {is : List Id} (h : j.field? key = some (ids is))
    (each : ∀ i ∈ is, d.RefersTo targets i) : ∀ v ∈ j.along [key], v ∈ d.idsAt targets :=
  mem_idsAt_of_listed (f := fun i => i) h each

theorem mem_idsAt_of_id? {α : Type} {f : α → Id} {o : Option α}
    (h : j.field? key = some (Json.ofOption (fun x => idText (f x)) o))
    (each : ∀ x, o = some x → d.RefersTo targets (f x)) :
    ∀ v ∈ j.along [key], v ∈ d.idsAt targets := by
  intro v hv
  rw [Json.along_of_id? h] at hv
  obtain ⟨i, hi, rfl⟩ := List.mem_map.mp hv
  obtain ⟨x, hx, rfl⟩ := List.mem_map.mp hi
  exact (each x (Option.mem_toList.mp hx)).mem

theorem mem_idsAt_of_missing (h : (j.field? key).toList.flatMap Json.inside = []) :
    ∀ v ∈ j.along (key :: path), v ∈ d.idsAt targets := by
  intro v hv
  simp [Json.along, h] at hv

end Fields

end Document

section Records

variable {d : Document}

theorem Parameter.resolves {p : Parameter} (h : ∀ n ∈ p.actions, d.Defines (.action n)) :
    d.Resolves parameterReferences p.toJson := by
  refine .cons ?_ .nil
  exact Document.mem_idsAt_of_listed rfl fun n hn => (h n hn).refersTo

theorem selector_resolves {j : Json} {s : Option AssessedSelector}
    (h : j.field? "selector_id" = some (Json.ofOption (fun n => idText (.selector n))
      (s.bind fun s => d.registry.numberOf? s.raw))) :
    ∀ v ∈ j.along ["selector_id"], v ∈ d.idsAt selectorIds := by
  refine Document.mem_idsAt_of_id? h ?_
  intro n hn
  obtain ⟨t, -, ht⟩ := Option.bind_eq_some_iff.mp hn
  have defined : d.Defines (.selector n) := Registry.exists_of_numberOf? ht
  exact defined.refersTo

theorem Action.resolves {a : Action} {usages : List (Nat × Nat)}
    (used : ∀ u ∈ usages, d.Defines (.component u.2))
    (own : ∀ p ∈ a.parameters, ∀ n ∈ p.actions, d.Defines (.action n)) :
    d.Resolves actionReferences (a.toJson d.registry usages) := by
  rw [Action.toJson]
  refine .resolves_presentFields (of_decide_eq_true rfl) (of_decide_eq_true rfl) ?_
  refine .cons (selector_resolves rfl) (.cons ?_ ?_)
  · cases hv : valueAt? a.number usages with
    | none => exact Document.mem_idsAt_of_missing rfl
    | some n =>
      intro v hv
      rw [Json.along_of_object rfl] at hv
      exact Document.mem_idsAt_of_id rfl (used _ (mem_of_valueAt? ‹_›)).refersTo v hv
  · exact .under_list rfl fun p hp => p.resolves (own p hp)

theorem Assertion.resolves (a : Assertion) :
    d.Resolves assertionReferences (a.toJson d.registry) := by
  rw [Assertion.toJson]
  refine .resolves_presentFields (of_decide_eq_true rfl) (of_decide_eq_true rfl) ?_
  exact .cons (selector_resolves rfl) .nil

theorem Method.DefinedIn.resolves {m : Method} (h : m.DefinedIn d) :
    d.Resolves methodReferences m.toJson := by
  have actions : ∀ i ∈ m.actions.map Id.action, d.RefersTo actionIds i := by
    intro i hi
    obtain ⟨n, hn, rfl⟩ := List.mem_map.mp hi
    exact (h.actions n hn).refersTo
  have assertions : ∀ i ∈ m.assertions.map Id.assertion, d.RefersTo assertionIds i := by
    intro i hi
    obtain ⟨n, hn, rfl⟩ := List.mem_map.mp hi
    exact (h.assertions n hn).refersTo
  rw [Method.toJson]
  refine .resolves_presentFields (of_decide_eq_true rfl) (of_decide_eq_true rfl) ?_
  refine .cons (Document.mem_idsAt_of_ids rfl actions)
    (.cons (Document.mem_idsAt_of_ids rfl assertions) (.cons ?_ (.cons ?_ ?_)))
  · exact Document.mem_idsAt_of_id? rfl fun n hn => (h.returns n hn).refersTo
  · exact Document.mem_idsAt_of_id? rfl fun n hn => (h.component n hn).refersTo
  · exact .under_list rfl fun p hp => p.resolves fun n hn => h.actions n (h.parameters p hp hn)

theorem Occurrence.DefinedIn.resolves {o : Occurrence} (h : o.DefinedIn d) :
    d.Resolves occurrenceReferences o.toJson := by
  refine .cons ?_ (.cons ?_ .nil)
  · exact Document.mem_idsAt_of_id rfl h.page.refersTo
  · refine Document.mem_idsAt_of_listed rfl ?_
    intro n hn
    obtain ⟨a, ha, rfl⟩ := List.mem_map.mp hn
    obtain ⟨p, hp, hpa⟩ := h.actions a ha
    have defined : d.Defines (.action a.number) := ⟨p, hp, a, hpa, rfl⟩
    exact defined.refersTo

theorem Step.DefinedIn.resolves {s : Step} (h : s.DefinedIn d) (order : Nat) :
    d.Resolves stepReferences (s.toJson order) := by
  obtain ⟨page, target, line⟩ := s
  refine .cons (Document.mem_idsAt_of_id rfl h.page.refersTo) ?_
  cases target with
  | method n component =>
    obtain ⟨method, left⟩ := h.method n component rfl
    refine .cons (Document.mem_idsAt_of_id rfl method.refersTo) (.cons ?_ (.cons ?_ .nil))
    · cases component with
      | none => exact Document.mem_idsAt_of_missing rfl
      | some c => exact Document.mem_idsAt_of_missing rfl
    · cases component with
      | none => exact Document.mem_idsAt_of_missing rfl
      | some c => exact Document.mem_idsAt_of_id rfl (left c rfl).refersTo
  | item i =>
    obtain ⟨defined, n, rfl⟩ := h.item i rfl
    refine .cons (Document.mem_idsAt_of_missing rfl) (.cons ?_ (.cons ?_ .nil))
    · exact Document.mem_idsAt_of_id rfl defined.refersTo
    · exact Document.mem_idsAt_of_missing rfl

end Records

end PageObjects
