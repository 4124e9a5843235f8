import Mathlib.Data.List.Basic
import PageObjects.Component.Selection
import PageObjects.Proofs.Plain.Item

namespace PageObjects

namespace Action

variable (a : Action)

@[simp] theorem raw_plain : a.plain.raw = a.raw := by
  simp [raw, Function.comp_def]

@[simp] theorem details_plain : a.plain.details = a.details := by
  simp [details, Function.comp_def]

@[simp] theorem typeWords_plain : a.plain.typeWords = a.typeWords := by
  simp [typeWords]

@[simp] theorem hasLandmark_plain : a.plain.hasLandmark = a.hasLandmark := by
  simp [hasLandmark]

@[simp] theorem isPatternItem_plain : a.plain.isPatternItem = a.isPatternItem := by
  simp [isPatternItem]

@[simp] theorem looseKey_plain : a.plain.looseKey = a.looseKey := by
  simp [looseKey]

@[simp] theorem exactKey_plain : a.plain.exactKey = a.exactKey := by
  simp [exactKey]

@[simp] theorem isTransparent_plain : a.plain.isTransparent = a.isTransparent := rfl

end Action

@[simp] theorem ComponentType.ofActions_plain (actions : List Action) :
    ofActions (actions.map Action.plain) = ofActions actions := by
  simp [ofActions, List.flatMap_map, Function.comp_def]

@[simp] theorem Action.tellsType_plain (a : Action) : a.plain.tellsType = a.tellsType := by
  have one : ComponentType.ofActions [a.plain] = ComponentType.ofActions [a] :=
    ComponentType.ofActions_plain [a]
  simp [tellsType, one]

/-- A run over mapped inputs from a mapped state ends in the mapped state. -/
theorem foldl_map_of_comm {σ α : Type} (f : σ → σ) (g : α → α) {step : σ → α → σ}
    (comm : ∀ s x, step (f s) (g x) = f (step s x)) (l : List α) (s : σ) :
    (l.map g).foldl step (f s) = f (l.foldl step s) := by
  induction l generalizing s with
  | nil => rfl
  | cons x rest ih => rw [List.map_cons, List.foldl_cons, comm, ih, List.foldl_cons]

def Occurrence.plain (o : Occurrence) : Occurrence :=
  { o with actions := o.actions.map Action.plain }

namespace Occurrence

variable (o : Occurrence)

@[simp] theorem page_plain : o.plain.page = o.page := rfl

@[simp] theorem actions_plain : o.plain.actions = o.actions.map Action.plain := rfl

@[simp] theorem firstLine_plain : o.plain.firstLine = o.firstLine := by
  simp [firstLine, Function.comp_def]

@[simp] theorem numbers_plain : o.plain.numbers = o.numbers := by
  simp [numbers, Function.comp_def]

end Occurrence

theorem nonEmptyList_map {α β : Type} (f : α → β) (l : List α) :
    nonEmptyList (l.map f) = (nonEmptyList l).map (List.map f) := by
  cases l <;> rfl

theorem runsFrom_plain (run actions : List Action) :
    runsFrom (run.map Action.plain) (actions.map Action.plain) =
      (runsFrom run actions).map (List.map Action.plain) := by
  induction actions generalizing run with
  | nil => exact nonEmptyList_map Action.plain run
  | cons a rest ih =>
    have longer := ih (run ++ [a])
    have fresh := ih []
    rw [List.map_append] at longer
    rw [List.map_cons, runsFrom, runsFrom, Action.isPatternItem_plain, Action.isTransparent_plain]
    by_cases item : a.isPatternItem
    · rw [if_pos item, if_pos item]
      exact longer
    · rw [if_neg item, if_neg item]
      by_cases transparent : a.isTransparent
      · rw [if_pos transparent, if_pos transparent]
        exact ih run
      · rw [if_neg transparent, if_neg transparent, List.map_append, nonEmptyList_map, ← fresh]
        rfl

@[simp] theorem Page.runs_plain (p : Page) :
    p.plain.runs = p.runs.map (List.map Action.plain) := by
  rw [runs, actions_plain]
  exact runsFrom_plain [] p.actions

theorem windows_map {α β : Type} (f : α → β) (l : List α) :
    windows (l.map f) = (windows l).map (List.map f) := by
  simp [windows, windowsOfLength, List.map_flatMap, Function.comp_def]

@[simp] theorem Page.occurrences_plain (p : Page) : p.plain.occurrences =
    p.occurrences.map fun o => (o.1, o.2.plain) := by
  have keyed : ∀ run : List Action, ((run.map Action.plain).map fun a => (a.looseKey, a)) =
      (run.map fun a => (a.looseKey, a)).map fun entry => (entry.1, entry.2.plain) := by
    intro run
    simp [Function.comp_def]
  rw [occurrences, occurrences, runs_plain, List.flatMap_map, List.map_flatMap]
  refine List.flatMap_congr fun run _ => ?_
  rw [keyed, windows_map, List.map_map, List.map_map]
  refine List.map_congr_left fun window _ => ?_
  simp [Occurrence.plain, Function.comp_def]

def Recurrence.plain (r : Recurrence) : Recurrence :=
  { r with byPage := r.byPage.map (List.map Occurrence.plain) }

namespace Recurrence

variable (r : Recurrence)

@[simp] theorem key_plain : r.plain.key = r.key := rfl

@[simp] theorem byPage_plain : r.plain.byPage = r.byPage.map (List.map Occurrence.plain) := rfl

@[simp] theorem pageCount_plain : r.plain.pageCount = r.pageCount := by
  simp [pageCount]

@[simp] theorem firstLine_plain : r.plain.firstLine = r.firstLine := by
  have heads : (r.byPage.map (List.map Occurrence.plain)).filterMap List.head? =
      (r.byPage.filterMap List.head?).map Occurrence.plain := by
    simp [List.filterMap_map, List.map_filterMap]
  simp [firstLine, heads, Function.comp_def]

@[simp] theorem precedesOrEq_plain (a b : Recurrence) :
    precedesOrEq a.plain b.plain = precedesOrEq a b := by
  rw [precedesOrEq, precedesOrEq, key_plain, key_plain, pageCount_plain, pageCount_plain,
    firstLine_plain, firstLine_plain]

end Recurrence

theorem recurrenceOf_plain (pages : List (List KeyedOccurrence)) (key : PatternKey) :
    recurrenceOf (pages.map (List.map fun o => (o.1, o.2.plain))) key =
      (recurrenceOf pages key).plain := by
  simp [recurrenceOf, Recurrence.plain, List.filter_map, Function.comp_def]

theorem recurrences_plain (required : Nat) (pages : List Page) :
    recurrences required (pages.map Page.plain) =
      (recurrences required pages).map Recurrence.plain := by
  have occurrences : (pages.map Page.plain).map Page.occurrences =
      (pages.map Page.occurrences).map (List.map fun o => (o.1, o.2.plain)) := by
    simp [Function.comp_def]
  have keys : (((pages.map Page.occurrences).map (List.map fun o =>
      (o.1, o.2.plain))).flatten.map fun o : KeyedOccurrence => o.1) =
      (pages.map Page.occurrences).flatten.map fun o => o.1 := by
    rw [← List.map_flatten, List.map_map]
    rfl
  have found : ∀ keys : List PatternKey,
      keys.map (recurrenceOf ((pages.map Page.occurrences).map (List.map fun o =>
        (o.1, o.2.plain)))) =
      (keys.map (recurrenceOf (pages.map Page.occurrences))).map Recurrence.plain := by
    intro keys
    rw [List.map_map (l := keys)]
    exact List.map_congr_left fun key _ => recurrenceOf_plain (pages.map Page.occurrences) key
  rw [recurrences, recurrences, occurrences, keys, found, List.filter_map, List.map_mergeSort
    (s := Recurrence.precedesOrEq) (r := Recurrence.precedesOrEq)]
  · simp only [Function.comp_def, Recurrence.pageCount_plain]
  · intro a _ b _
    exact (Recurrence.precedesOrEq_plain a b).symm

def ComponentDraft.plain (d : ComponentDraft) : ComponentDraft :=
  { d with instances := d.instances.map Occurrence.plain }

namespace ComponentDraft

variable (d : ComponentDraft)

@[simp] theorem type_plain : d.plain.type = d.type := rfl

@[simp] theorem instances_plain : d.plain.instances = d.instances.map Occurrence.plain := rfl

@[simp] theorem firstLine_plain : d.plain.firstLine = d.firstLine := by
  simp [firstLine, Function.comp_def]

@[simp] theorem title_plain : d.plain.title = d.title := by
  have first : ((d.plain.instances.head?.bind fun o => o.actions.head?).bind (·.selector)).bind
      (fun s => s.content?) = ((d.instances.head?.bind fun o => o.actions.head?).bind
        (·.selector)).bind fun s => s.content? := by
    rw [instances_plain]
    cases d.instances with
    | nil => rfl
    | cons o rest =>
      cases actions : o.actions with
      | nil => simp [actions]
      | cons a others => cases chosen : a.selector <;> simp [actions, chosen]
  rw [title, title, first, type_plain]

end ComponentDraft

def Choice.plain (c : Choice) : Choice := { c with drafts := c.drafts.map ComponentDraft.plain }

namespace Choice

variable (c : Choice)

@[simp] theorem isFree_plain (o : Occurrence) : c.plain.isFree o.plain = c.isFree o := by
  rw [isFree, isFree, Occurrence.numbers_plain]
  rfl

theorem accept_plain (d : ComponentDraft) : c.plain.accept d.plain = (c.accept d).plain := by
  simp [accept, plain, List.flatMap_map]

end Choice

section Instances

variable (instances : List Occurrence)

@[simp] theorem flatMap_actions_plain : (instances.map Occurrence.plain).flatMap (·.actions) =
    (instances.flatMap (·.actions)).map Action.plain := by
  simp [List.flatMap_map, List.map_flatMap]

@[simp] theorem linesOf_plain : linesOf (instances.map Occurrence.plain) = linesOf instances := by
  rw [linesOf, linesOf, flatMap_actions_plain, List.map_map]
  rfl

@[simp] theorem allExact_plain : allExact (instances.map Occurrence.plain) =
    allExact instances := by
  have keys : (instances.map Occurrence.plain).map (fun o => o.actions.map Action.exactKey) =
      instances.map fun o => o.actions.map Action.exactKey := by
    simp [Function.comp_def]
  rw [allExact, allExact, keys]

@[simp] theorem weakPattern_plain (confidence : Nat) :
    weakPattern (instances.map Occurrence.plain) confidence = weakPattern instances confidence := by
  have first : ((instances.map Occurrence.plain).head?.bind fun o => o.actions.head?) =
      (instances.head?.bind fun o => o.actions.head?).map Action.plain := by
    cases instances with
    | nil => rfl
    | cons o rest => simp
  have pages : (instances.map Occurrence.plain).map (·.page) = instances.map (·.page) := by
    simp [Function.comp_def]
  have raws : Action.raw ∘ Action.plain = Action.raw := funext Action.raw_plain
  rw [weakPattern, weakPattern, first, pages, linesOf_plain, Option.bind_map, Option.map_map, raws]
  rfl

end Instances

theorem Choice.tryPattern_plain (options : ComponentOptions) (required : Nat) (c : Choice)
    (r : Recurrence) : c.plain.tryPattern options required r.plain =
      (c.tryPattern options required r).plain := by
  have free : r.plain.byPage.filterMap (fun os => os.find? c.plain.isFree) =
      (r.byPage.filterMap fun os => os.find? c.isFree).map Occurrence.plain := by
    refine filterMap_map_of_comm (fun os => ?_) r.byPage
    rw [List.find?_map]
    exact congrArg _ (congrArg (os.find? ·) (funext c.isFree_plain))
  rw [tryPattern, tryPattern, free, List.length_map, flatMap_actions_plain,
    ComponentType.ofActions_plain, allExact_plain, Recurrence.key_plain]
  generalize r.byPage.filterMap (fun os => os.find? c.isFree) = instances
  dsimp only
  rw [weakPattern_plain]
  by_cases few : instances.length < required
  · rw [if_pos few, if_pos few]
  rw [if_neg few, if_neg few]
  by_cases off : !(ComponentType.ofActions (instances.flatMap (·.actions))).isEnabled options
  · rw [if_pos off, if_pos off]
  rw [if_neg off, if_neg off]
  split
  next => rfl
  next => exact c.accept_plain ⟨_, _, instances, _, false⟩

theorem recurringComponents_plain (options : ComponentOptions) (pages : List Page) :
    recurringComponents options (pages.map Page.plain) =
      (recurringComponents options pages).plain := by
  rw [recurringComponents, recurringComponents, recurrences_plain]
  exact foldl_map_of_comm Choice.plain Recurrence.plain
    (Choice.tryPattern_plain options options.required) _ {}

theorem stretchesFrom_map {α β : Type} (f : α → β) {p : β → Bool} {q : α → Bool}
    (same : ∀ x, p (f x) = q x) (stretch l : List α) :
    stretchesFrom p (stretch.map f) (l.map f) = (stretchesFrom q stretch l).map (List.map f) := by
  induction l generalizing stretch with
  | nil => exact nonEmptyList_map f stretch
  | cons x rest ih =>
    have longer := ih (stretch ++ [x])
    have fresh := ih []
    rw [List.map_append] at longer
    rw [List.map_cons, stretchesFrom, stretchesFrom, same]
    by_cases holds : q x
    · rw [if_pos holds, if_pos holds]
      exact longer
    · rw [if_neg holds, if_neg holds, List.map_append, nonEmptyList_map, ← fresh]
      rfl

theorem Page.landmarkStretches_plain (c : Choice) (p : Page) :
    p.plain.landmarkStretches c.plain = (p.landmarkStretches c).map Occurrence.plain := by
  have free : ∀ a : Action, (!c.plain.taken.contains a.plain.number && a.plain.tellsType) =
      (!c.taken.contains a.number && a.tellsType) := by
    intro a
    rw [Action.tellsType_plain]
    rfl
  have stretches : (fun run : List Action => stretchesFrom
      (fun a => !c.plain.taken.contains a.number && a.tellsType) [] (run.map Action.plain)) =
      fun run => (stretchesFrom (fun a => !c.taken.contains a.number && a.tellsType) [] run).map
        (List.map Action.plain) :=
    funext fun run => stretchesFrom_map Action.plain free [] run
  rw [landmarkStretches, landmarkStretches, runs_plain, List.flatMap_map, stretches,
    ← List.map_flatMap, List.filter_map, List.map_map, List.map_map]
  simp only [Function.comp_def, List.length_map]
  rfl

@[simp] theorem provisionalConfidence_plain (o : Occurrence) :
    provisionalConfidence o.plain = provisionalConfidence o := by
  simp [provisionalConfidence, Function.comp_def]

theorem Choice.tryStretch_plain (options : ComponentOptions) (pageName : Text) (c : Choice)
    (o : Occurrence) : c.plain.tryStretch options pageName o.plain =
      (c.tryStretch options pageName o).plain := by
  have lines : linesOf [o.plain] = linesOf [o] := linesOf_plain [o]
  rw [tryStretch, tryStretch, Occurrence.actions_plain, ComponentType.ofActions_plain,
    provisionalConfidence_plain, lines]
  by_cases off : !(ComponentType.ofActions o.actions).isEnabled options
  · rw [if_pos off, if_pos off]
  rw [if_neg off, if_neg off]
  split
  next => rfl
  next => exact c.accept_plain ⟨_, _, [o], true, true⟩

theorem Choice.addProvisional_plain (options : ComponentOptions) (c : Choice) (p : Page) :
    c.plain.addProvisional options p.plain = (c.addProvisional options p).plain := by
  rw [addProvisional, addProvisional, Page.landmarkStretches_plain]
  exact foldl_map_of_comm Choice.plain Occurrence.plain (Choice.tryStretch_plain options p.name) _ c

theorem chooseComponents_plain (options : ComponentOptions) (pages : List Page) :
    chooseComponents options (pages.map Page.plain) = (chooseComponents options pages).plain := by
  rw [chooseComponents, chooseComponents, recurringComponents_plain]
  exact foldl_map_of_comm Choice.plain Page.plain (Choice.addProvisional_plain options) pages _

def Component.plain (c : Component) : Component :=
  { c with instances := c.instances.map Occurrence.plain }

namespace Component

variable (c : Component)

@[simp] theorem toComponentDraft_plain : c.plain.toComponentDraft = c.toComponentDraft.plain := rfl

@[simp] theorem number_plain : c.plain.number = c.number := rfl

@[simp] theorem id_plain : c.plain.id = c.id := rfl

@[simp] theorem model_plain : c.plain.model = c.model.map Action.plain := by
  rw [model, model, toComponentDraft_plain, ComponentDraft.instances_plain]
  cases c.instances <;> rfl

end Component

theorem nameComponents_plain (drafts : List ComponentDraft) :
    nameComponents (drafts.map ComponentDraft.plain) =
      (nameComponents drafts).map Component.plain := by
  have sorted : (drafts.map ComponentDraft.plain).mergeSort (fun a b => a.firstLine ≤ b.firstLine) =
      (drafts.mergeSort fun a b => a.firstLine ≤ b.firstLine).map ComponentDraft.plain := by
    refine (List.map_mergeSort fun a _ b _ => ?_).symm
    rw [ComponentDraft.firstLine_plain, ComponentDraft.firstLine_plain]
  have titles : ComponentDraft.title ∘ ComponentDraft.plain = ComponentDraft.title :=
    funext ComponentDraft.title_plain
  rw [nameComponents, nameComponents, sorted, List.map_map, titles, List.zip_map_left,
    List.zipIdx_map, List.map_map, List.map_map]
  rfl

theorem findComponents_plain (options : ComponentOptions) (pages : List Page) :
    findComponents options (pages.map Page.plain) =
      ⟨(findComponents options pages).components.map Component.plain,
        (findComponents options pages).recommendations⟩ := by
  rw [findComponents, findComponents, chooseComponents_plain]
  exact congrArg (ComponentFindings.mk · _) (nameComponents_plain _)

@[simp] theorem usages_plain (components : List Component) :
    usages (components.map Component.plain) = usages components := by
  simp [usages, List.flatMap_map]

@[simp] theorem Component.templates_plain (c : Component) : c.plain.templates =
    c.templates.map fun t => { t with action := t.action.plain } := by
  have variant : ∀ i : Nat,
      c.plain.instances.filterMap (fun o => o.actions[i]?.map Action.raw) =
        c.instances.filterMap fun o => o.actions[i]?.map Action.raw := by
    intro i
    rw [toComponentDraft_plain, ComponentDraft.instances_plain, List.filterMap_map]
    simp [Function.comp_def]
  rw [templates, templates, model_plain, List.zipIdx_map, List.map_map, List.map_map]
  simp only [variant]
  rfl

end PageObjects
