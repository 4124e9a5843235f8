import PageObjects.Method.Suggestion
import PageObjects.Proofs.Plain.Draft

namespace PageObjects

@[simp] theorem mergeParameters_plain (actions : List Action) :
    mergeParameters (actions.map Action.plain) = mergeParameters actions := by
  simp [mergeParameters, List.flatMap_map]

@[simp] theorem Action.nounWords_plain (a : Action) : a.plain.nounWords = a.nounWords := by
  simp [nounWords]

@[simp] theorem verbWord_plain (standard : Text) (a : Option Action) :
    verbWord standard (a.map Action.plain) = verbWord standard a := by
  cases a <;> rfl

@[simp] theorem subjectWords_plain (a : Assertion) :
    Draft.subjectWords a.plain = Draft.subjectWords a := by
  rw [Draft.subjectWords, Draft.subjectWords, Assertion.selector_plain, Assertion.type_plain,
    Assertion.expected_plain]
  cases a.selector <;> rfl

namespace Draft

variable (d : Draft)

@[simp] theorem signals_plain (crossesPages : Bool) :
    d.plain.signals crossesPages = d.signals crossesPages := by
  simp [signals, List.flatMap_map, Function.comp_def]

@[simp] theorem complexity_plain (parameters : List Parameter) (signals : List ComplexitySignal) :
    d.plain.complexity parameters signals = d.complexity parameters signals := by
  simp [complexity]

@[simp] theorem returnsPage?_plain (page next : Option Page) :
    d.plain.returnsPage? (page.map Page.plain) (next.map Page.plain) =
      d.returnsPage? page next := by
  cases page with
  | none => rfl
  | some p =>
    cases next with
    | none => rfl
    | some n =>
      rw [Option.map_some, Option.map_some, returnsPage?, returnsPage?, actions_plain, List.any_map]
      rfl

@[simp] theorem toMethod_plain (owner : Id) (naming : Naming) (page next : Option Page) :
    d.plain.toMethod owner naming (page.map Page.plain) (next.map Page.plain) =
      d.toMethod owner naming page next := by
  simp [toMethod, Function.comp_def]

@[simp] theorem doesAny_plain (verbs : List Text) : d.plain.doesAny verbs = d.doesAny verbs := by
  simp [doesAny, Function.comp_def]

@[simp] theorem explicitName?_plain : d.plain.explicitName? = d.explicitName? := by
  rw [explicitName?, explicitName?, terminal?_plain, verbWord_plain,
    bind_selector_plain AssessedSelector.content?_plain]

@[simp] theorem urlName?_plain (urlWords : List Text) :
    d.plain.urlName? urlWords = d.urlName? urlWords := by
  have waits : (d.terminal?.map Action.plain).any (fun a => a.kind = .wait) =
      d.terminal?.any fun a => a.kind = .wait := by
    cases d.terminal? <;> rfl
  rw [urlName?, urlName?, doesAny_plain, doesAny_plain, terminal?_plain, verbWord_plain, waits]

@[simp] theorem verbNounName?_plain : d.plain.verbNounName? = d.verbNounName? := by
  rw [verbNounName?, verbNounName?, terminal?_plain]
  cases d.terminal? with
  | none => rfl
  | some a =>
    have chosen : a.plain.selector.isSome = a.selector.isSome := by simp
    rw [Option.map_some, Option.bind_some, Option.bind_some, chosen, Action.nounWords_plain]
    rfl

theorem actionName_plain (urlWords : List Text) (book : NameBook) :
    d.plain.actionName urlWords book = d.actionName urlWords book := by
  have names : d.plain.names urlWords = d.names urlWords := by
    rw [names, names, explicitName?_plain, urlName?_plain, verbNounName?_plain]
  rw [actionName, actionName, names, terminal?_plain, verbWord_plain]

theorem navigationName_plain (book : NameBook) :
    d.plain.navigationName book = d.navigationName book := by
  rw [navigationName, navigationName, actions_plain, List.head?_map]
  cases d.actions.head? <;> rfl

theorem checkName_plain (book : NameBook) : d.plain.checkName book = d.checkName book := by
  rw [checkName, checkName, assertions_plain, List.head?_map]
  cases d.assertions.head? with
  | none => rfl
  | some a =>
    rw [Option.map_some]
    simp only [subjectWords_plain, Option.map_some, Assertion.type_plain]

@[simp] theorem naming_plain (url : Option Text) (book : NameBook) :
    d.plain.naming url book = d.naming url book := by
  rw [naming, naming, kind_plain, navigationName_plain, checkName_plain]
  simp only [actionName_plain]

end Draft

@[simp] theorem namelessWarnings_plain (d : Draft) (m : Method) :
    namelessWarnings d.plain m = namelessWarnings d m := by
  simp [namelessWarnings]

def Owner.plain (o : Owner) : Owner :=
  { o with page := o.page.map Page.plain, next := o.next.map Page.plain }

theorem buildMethods_plain (owner : Owner) (book : NameBook) (drafts : List Draft) :
    buildMethods owner.plain book (drafts.map Draft.plain) = buildMethods owner book drafts := by
  induction drafts generalizing book with
  | nil => rfl
  | cons d rest ih =>
    rw [List.map_cons, buildMethods, buildMethods, Draft.naming_plain]
    refine bind_congr fun (naming, book) => ?_
    dsimp only
    rw [ih, Owner.plain, Draft.toMethod_plain]
    simp only [namelessWarnings_plain]

theorem methodsOf_plain (options : MethodOptions) (usages : List (Nat × Nat)) (owner : Owner)
    (items : List Item) : methodsOf options usages owner.plain (items.map Item.plain) =
      methodsOf options usages owner items := by
  rw [methodsOf, methodsOf, Draft.ofItems_plain, buildMethods_plain]

theorem methodsOfAll_plain (options : MethodOptions) (usages : List (Nat × Nat))
    (owners : List (Owner × List Item)) :
    methodsOfAll options usages
        (owners.map fun (owner, items) => (owner.plain, items.map Item.plain)) =
      methodsOfAll options usages owners := by
  induction owners with
  | nil => rfl
  | cons entry rest ih =>
    obtain ⟨owner, items⟩ := entry
    rw [List.map_cons, methodsOfAll, methodsOfAll, ih, methodsOf_plain]
    rfl

theorem pageOwners_plain (pages : List Page) : pageOwners (pages.map Page.plain) =
    (pageOwners pages).map fun (owner, items) => (owner.plain, items.map Item.plain) := by
  induction pages with
  | nil => rfl
  | cons page rest ih =>
    rw [List.map_cons, pageOwners, pageOwners, ih, List.map_cons, List.head?_map]
    rfl

/-- Plain pages and components have the methods of the pages and components themselves. -/
theorem suggestMethods_plain (options : MethodOptions) (pages : List Page)
    (components : List Component) :
    suggestMethods options (pages.map Page.plain) (components.map Component.plain) =
      suggestMethods options pages components := by
  have owners : (components.map Component.plain).map componentOwner =
      (components.map componentOwner).map fun (owner, items) =>
        (owner.plain, items.map Item.plain) := by
    rw [List.map_map, List.map_map]
    refine List.map_congr_left fun c _ => ?_
    simp [componentOwner, Owner.plain, Item.plain]
  rw [suggestMethods, suggestMethods, usages_plain, pageOwners_plain, owners, methodsOfAll_plain,
    methodsOfAll_plain]

end PageObjects
