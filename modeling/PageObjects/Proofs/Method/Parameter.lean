import PageObjects.Method.Basic
import PageObjects.Proofs.Entries

namespace PageObjects

namespace Parameter

def key (p : Parameter) : Text := parameterKey p.name

/-- A parameter apart from the actions that use it. -/
def unused (p : Parameter) : Parameter := { p with actions := [] }

/-- Parameters apart from the actions that use them, by their keys. -/
def byKey (parameters : List Parameter) : List (Text × Parameter) :=
  parameters.map fun p => (p.key, p.unused)

/-- The first parameter with a key. -/
def firstWith? (key : Text) (parameters : List Parameter) : Option Parameter :=
  parameters.find? fun p => p.key = key

theorem valueAt?_byKey (key : Text) (parameters : List Parameter) :
    valueAt? key (byKey parameters) = (firstWith? key parameters).map unused := by
  induction parameters with
  | nil => rfl
  | cons p rest ih =>
    have step : byKey (p :: rest) = (p.key, p.unused) :: byKey rest := rfl
    rw [step, valueAt?, ih, firstWith?, firstWith?, List.find?_cons]
    by_cases own : p.key = key
    · simp [own]
    · simp [own]

end Parameter

open Parameter

/-- Apart from actions, merging a parameter adds it if its key is new, and changes nothing else. -/
theorem unused_mergeParameter (merged : List (Text × Parameter)) (p : Parameter) :
    ((mergeParameter merged p).map fun (k, q) => (k, q.unused)) =
      addEntry p.key p.unused (merged.map fun (k, q) => (k, q.unused)) := by
  have found : valueAt? p.key (merged.map fun (k, q) => (k, q.unused)) =
      (valueAt? p.key merged).map unused := valueAt?_map unused p.key merged
  rw [mergeParameter, addEntry, found]
  dsimp only
  cases old : valueAt? (parameterKey p.name) merged with
  | none =>
    have new : valueAt? p.key merged = none := old
    rw [new, List.map_append]
    rfl
  | some q =>
    have there : valueAt? p.key merged = some q := old
    rw [there] at found
    rw [there, ← setEntry_map unused]
    exact setEntry_of_valueAt? found

theorem unused_foldl_mergeParameter (merged : List (Text × Parameter))
    (parameters : List Parameter) :
    ((parameters.foldl mergeParameter merged).map fun (k, q) => (k, q.unused)) =
      (byKey parameters).foldl (fun found (key, value) => addEntry key value found)
        (merged.map fun (k, q) => (k, q.unused)) := by
  induction parameters generalizing merged with
  | nil => rfl
  | cons p rest ih =>
    rw [List.foldl_cons, ih, unused_mergeParameter]
    rfl

/-- Merged parameters, apart from actions, are the first ones of each key in their order. -/
theorem byKey_mergeParameters (actions : List Action) :
    byKey (mergeParameters actions) = firstEntries (byKey (actions.flatMap Action.parameters)) := by
  have firsts := unused_foldl_mergeParameter [] (actions.flatMap Action.parameters)
  rw [foldl_addEntry] at firsts
  simp only [List.map_nil, List.nil_append, List.not_mem_nil, not_false_iff, decide_true,
    List.filter_true] at firsts
  rw [← firsts, byKey, mergeParameters, List.map_map]
  refine List.map_congr_left ?_
  rintro ⟨k, q⟩ merged
  have first : (k, q.unused) ∈ firstEntries (byKey (actions.flatMap Action.parameters)) := by
    rw [← firsts]
    exact List.mem_map_of_mem merged
  obtain ⟨p, -, same⟩ := List.mem_map.mp (mem_of_valueAt? (mem_firstEntries_iff.mp first))
  obtain ⟨rfl, bare⟩ := Prod.mk.inj same
  have own : p.unused.key = q.unused.key := congrArg key bare
  exact Prod.ext own.symm rfl

/-- What merging makes of parameters that are passed: one of each key, which is the first of its key
apart from the actions that use it. -/
structure Merges (passed merged : List Parameter) : Prop where
  distinct : (merged.map key).Nodup
  found : ∀ p ∈ passed, ∃ q ∈ merged, q.key = p.key
  first : ∀ q ∈ merged, ∃ p, firstWith? q.key passed = some p ∧ q = { p with actions := q.actions }

theorem merges_mergeParameters (actions : List Action) :
    Merges (actions.flatMap Action.parameters) (mergeParameters actions) := by
  have keys : ∀ parameters : List Parameter,
      (byKey parameters).map Prod.fst = parameters.map key := by
    simp [byKey]
  have firsts := byKey_mergeParameters actions
  refine ⟨?_, ?_, ?_⟩
  · rw [← keys, firsts]
    exact nodup_keys_firstEntries _
  · intro p hp
    have there : p.key ∈ (mergeParameters actions).map key := by
      rw [← keys, firsts, mem_keys_firstEntries, keys]
      exact List.mem_map_of_mem hp
    exact List.mem_map.mp there
  · intro q hq
    have there : (q.key, q.unused) ∈ byKey (mergeParameters actions) :=
      List.mem_map.mpr ⟨q, hq, rfl⟩
    rw [firsts, mem_firstEntries_iff, valueAt?_byKey] at there
    obtain ⟨p, hp, same⟩ := Option.map_eq_some_iff.mp there
    have whole : q = { q.unused with actions := q.actions } := rfl
    rw [← same] at whole
    exact ⟨p, hp, whole⟩

namespace Merges

variable {passed merged : List Parameter}

theorem exists_first (h : Merges passed merged) {q : Parameter} (hq : q ∈ merged) :
    ∃ first, firstWith? q.key passed = some first ∧ q.isInput = first.isInput := by
  obtain ⟨first, hf, own⟩ := h.first q hq
  exact ⟨first, hf, by rw [own]⟩

/-- An input stays one exactly if the first parameter with its key is one. -/
theorem isInput_iff (h : Merges passed merged) {p : Parameter} (hp : p ∈ passed) :
    (∃ q ∈ merged, q.key = p.key ∧ q.isInput = true) ↔
      ∃ first, firstWith? p.key passed = some first ∧ first.isInput = true := by
  constructor
  · rintro ⟨q, hq, same, input⟩
    obtain ⟨first, hf, kept⟩ := h.exists_first hq
    exact ⟨first, same ▸ hf, kept ▸ input⟩
  · rintro ⟨first, hf, input⟩
    obtain ⟨q, hq, same⟩ := h.found p hp
    obtain ⟨other, ho, kept⟩ := h.exists_first hq
    rw [same, hf] at ho
    cases Option.some.inj ho
    exact ⟨q, hq, same, kept.trans input⟩

end Merges

end PageObjects
