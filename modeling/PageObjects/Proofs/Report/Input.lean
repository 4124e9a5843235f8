import PageObjects.Proofs.Method.Parameter
import PageObjects.Proofs.Report.MethodName

namespace PageObjects

open Parameter

namespace Document

/-- The actions that a method groups. -/
def actionsOf (d : Document) (m : Method) : List Action :=
  m.actions.filterMap fun n => (d.pages.flatMap Page.actions).find? fun a => a.number = n

/-- The parameters of the actions that a method groups. -/
def passedTo (d : Document) (m : Method) : List Parameter :=
  (d.actionsOf m).flatMap Action.parameters

end Document

/-- Where numbers are distinct, they find their own actions. -/
theorem find?_number {actions : List Action} (distinct : (actions.map Action.number).Nodup)
    {a : Action} (ha : a ∈ actions) : actions.find? (fun b => b.number = a.number) = some a := by
  cases found : actions.find? fun b => b.number = a.number with
  | none =>
    have missed := List.find?_eq_none.mp found a ha
    simp at missed
  | some b =>
    have same : b.number = a.number := by simpa using List.find?_some found
    rw [List.inj_on_of_nodup_map distinct (List.mem_of_find?_eq_some found) ha same]

theorem filterMap_find?_number {actions chosen : List Action}
    (distinct : (actions.map Action.number).Nodup) (inside : chosen ⊆ actions) :
    (chosen.map Action.number).filterMap (fun n => actions.find? fun b => b.number = n) =
      chosen := by
  rw [List.filterMap_map]
  have own : ∀ a ∈ chosen, ((fun n => actions.find? fun b => b.number = n) ∘ Action.number) a =
      Option.some a := fun a ha => find?_number distinct (inside ha)
  rw [List.filterMap_congr own, List.filterMap_some]

/-- A method has the actions of its draft, and their parameters as one list. -/
theorem Document.MadeOf.exists_actionsOf {config : Config} {d : Document} {spans : List PageSpan}
    {own shared : List (Id × List Method)} (h : d.MadeOf config spans own shared) {m : Method}
    (hm : m ∈ d.allMethods) : (d.actionsOf m).map Action.number = m.actions ∧
      m.parameters = mergeParameters (d.actionsOf m) := by
  obtain ⟨entry, he, hm⟩ := List.mem_flatMap.mp hm
  obtain ⟨usages, owner, makes, seen⟩ := h.exists_owner he
  obtain ⟨e, drafted, naming, n, rfl⟩ := makes.exists_draft hm
  have distinct : ((d.pages.flatMap Page.actions).map Action.number).Nodup := by
    rw [h.binds.actionNumbers]
    exact List.nodup_range'
  have inside : e.actions ⊆ d.pages.flatMap Page.actions := by
    intro a ha
    obtain ⟨p, hp, ha⟩ := seen a (Draft.mem_of_mem_ofItems _ _ drafted (Draft.mem_actions.mp ha))
    exact List.mem_flatMap.mpr ⟨p, hp, ha⟩
  have all : d.actionsOf
      { e.toMethod owner.1.id naming owner.1.page owner.1.next with number := n } = e.actions :=
    filterMap_find?_number distinct inside
  rw [all]
  exact ⟨rfl, rfl⟩

/-- Every value that the actions of a method pass on has one parameter of the method, which is the
first one of its key. So an input stays one exactly if the first value of its key is an input. -/
theorem analyze_merges {config : Config} {name : Option Text} {script : Text} {d : Document}
    (h : analyze config name script = .ok d) {m : Method} (hm : m ∈ d.allMethods) :
    (d.actionsOf m).map Action.number = m.actions ∧
    Merges (d.passedTo m) m.parameters ∧
    ∀ p ∈ d.passedTo m, (∃ q ∈ m.parameters, q.key = p.key ∧ q.isInput = true) ↔
      ∃ first, firstWith? p.key (d.passedTo m) = some first ∧ first.isInput = true := by
  obtain ⟨-, spans, own, shared, made⟩ := exists_madeOf h
  obtain ⟨numbers, parameters⟩ := made.exists_actionsOf hm
  have merges : Merges (d.passedTo m) m.parameters := by
    rw [parameters]
    exact merges_mergeParameters (d.actionsOf m)
  exact ⟨numbers, merges, fun p hp => merges.isInput_iff hp⟩

/-- A field that is filled before it is cleared. -/
def filledField : Text :=
  "await page.fill('#email', 'ann@example.org');\nawait page.fill('#email', '');"

theorem analyze_merges_filledField :
    ∃ d, analyze {} none filledField = .ok d ∧ ∃ m ∈ d.allMethods,
      m.parameters.map (fun q => (q.isInput, q.actions)) = [(true, [1, 2])] ∧
      Merges (d.passedTo m) m.parameters := by
  have found : (analyze {} none filledField).toOption.any (fun d => d.allMethods.any fun m =>
      decide (m.parameters.map (fun q => (q.isInput, q.actions)) = [(true, [1, 2])])) = true := by
    decide +kernel
  obtain ⟨d, h, found⟩ := exists_ok_of_any found
  simp only [List.any_eq_true, decide_eq_true_eq] at found
  obtain ⟨m, hm, used⟩ := found
  exact ⟨d, h, m, hm, used, (analyze_merges h hm).2.1⟩

/-- A field that is cleared before it is filled. -/
def clearedField : Text :=
  "await page.fill('#email', '');\nawait page.fill('#email', 'ann@example.org');"

/-- The value of a field that is cleared before is no input of the method. -/
theorem input_lost_clearedField :
    ∃ d, analyze {} none clearedField = .ok d ∧ ∃ m ∈ d.allMethods, ∃ p ∈ d.passedTo m,
      p.isInput = true ∧ ∀ q ∈ m.parameters, q.key = p.key → q.isInput = false := by
  have found : (analyze {} none clearedField).toOption.any (fun d => d.allMethods.any fun m =>
      (d.passedTo m).any fun p => decide (p.isInput = true ∧
        ∀ q ∈ m.parameters, q.key = p.key → q.isInput = false)) = true := by
    decide +kernel
  obtain ⟨d, h, found⟩ := exists_ok_of_any found
  simp only [List.any_eq_true, decide_eq_true_eq] at found
  exact ⟨d, h, found⟩

end PageObjects
