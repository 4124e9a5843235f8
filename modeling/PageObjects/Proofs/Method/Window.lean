import PageObjects.Proofs.Component.Stretch
import PageObjects.Proofs.Method.Check
import PageObjects.Proofs.Method.Reference

namespace PageObjects

/-- Whether an action waits for a URL. -/
def Action.awaitsUrl (a : Action) : Bool := a.kind == .wait && a.verbIn ["waitForURL"]

namespace Item

variable (options : MethodOptions) (usages : List (Nat × Nat)) (kind : MethodKind)
  (component : Option Nat)

/-- Whether an item opens drafts of a kind, for a component if it is left to one. -/
def Opens : Item → Prop
  | .assertion _ => kind = .actions ∧ component = none
  | .action a =>
    match valueAt? a.number usages with
    | some c => kind = .delegation ∧ component = some c
    | none => component = none ∧
        kind = if a.kind = .navigation ∧ options.separateNavigation = true then .navigation
          else .actions

/-- Whether an item may follow in an open draft of a kind. -/
def Follows : Item → Prop
  | .assertion _ => True
  | .action a =>
    match valueAt? a.number usages with
    | some c => component = some c
    | none => a.kind = .wait ∨ a.kind ≠ .navigation ∧ kind = .actions

/-- Whether a draft is closed behind an item. -/
def Ends : Item → Prop
  | .assertion _ => False
  | .action a => valueAt? a.number usages = none ∧
      (a.awaitsUrl = true ∨ a.kind = .navigation ∧ options.separateNavigation = true)

variable {options usages}

theorem not_ends {a : Action} (waits : a.kind = .wait → ¬ a.verbIn ["waitForURL"] = true)
    (navigates : a.kind = .navigation → ¬ options.separateNavigation = true) :
    ¬ (action a).Ends options usages := by
  rintro ⟨-, awaits | ⟨kind, apart⟩⟩
  · obtain ⟨wait, verb⟩ := Bool.and_eq_true_iff.mp awaits
    exact waits (beq_iff_eq.mp wait) verb
  · exact navigates kind apart

end Item

/-- What the items of a draft are to it. -/
structure Draft.Windowed (options : MethodOptions) (usages : List (Nat × Nat)) (d : Draft) :
    Prop where
  opened : ∃ i rest, d.items = i :: rest ∧ i.Opens options usages d.kind d.component ∧
    ∀ j ∈ rest, j.Follows usages d.kind d.component
  ended : d.items.Pairwise fun i _ => ¬ i.Ends options usages

namespace Draft.Windowed

variable {options : MethodOptions} {usages : List (Nat × Nat)} {d d' : Draft} {item : Item}

theorem windowed_singleton (items : d.items = [item])
    (opens : item.Opens options usages d.kind d.component) : d.Windowed options usages where
  opened := ⟨item, [], items, opens, fun _ hj => absurd hj List.not_mem_nil⟩
  ended := by
    rw [items]
    exact List.pairwise_singleton _ _

theorem windowed_concat (h : d.Windowed options usages) (items : d'.items = d.items ++ [item])
    (kind : d'.kind = d.kind) (component : d'.component = d.component)
    (follows : item.Follows usages d.kind d.component)
    (unended : ∀ i ∈ d.items, ¬ i.Ends options usages) : d'.Windowed options usages := by
  constructor
  · obtain ⟨i, rest, whole, opens, others⟩ := h.opened
    rw [kind, component]
    refine ⟨i, rest ++ [item], by rw [items, whole, List.cons_append], opens, ?_⟩
    intro j hj
    rcases List.mem_append.mp hj with hj | hj
    · exact others j hj
    · rwa [List.mem_singleton.mp hj]
  · rw [items]
    exact List.pairwise_append.mpr
      ⟨h.ended, List.pairwise_singleton _ _, fun i hi _ _ => unended i hi⟩

end Draft.Windowed

namespace Grouping

variable {options : MethodOptions} {usages : List (Nat × Nat)} {item : Item} {g g' : Grouping}

/-- What an item does to the drafts: it opens one or follows in the open one, which stays open only
if the item does not end it, or it is in no draft and the open one is closed. -/
inductive Places (options : MethodOptions) (usages : List (Nat × Nat)) (item : Item)
    (g g' : Grouping) : Prop
  | opens {d : Draft} (drafts : g'.drafts = g.drafts ++ [d]) (items : d.items = [item])
      (fits : item.Opens options usages d.kind d.component)
      (stays : ∀ e, g'.current = some e → e = d ∧ ¬ item.Ends options usages)
  | follows {d d' : Draft} (current : g.current = some d) (drafts : g'.drafts = g.closed ++ [d'])
      (items : d'.items = d.items ++ [item]) (kind : d'.kind = d.kind)
      (component : d'.component = d.component) (fits : item.Follows usages d.kind d.component)
      (stays : ∀ e, g'.current = some e → e = d' ∧ ¬ item.Ends options usages)
  | skips (drafts : g'.drafts = g.drafts) (closed : g'.current = none)

namespace Places

theorem places_start {kind : MethodKind} {component : Option Nat}
    (fits : item.Opens options usages kind component) (stays : ¬ item.Ends options usages) :
    Places options usages item g (g.start kind item component) :=
  .opens (drafts_start g kind item component) rfl fits
    fun _ he => ⟨(Option.some.inj he).symm, stays⟩

/-- No draft is open once it is closed. -/
theorem of_current_close {P : Draft → Prop} : ∀ e, g.close.current = some e → P e := by
  intro e he
  cases he

theorem places_close_start {kind : MethodKind} {component : Option Nat}
    (fits : item.Opens options usages kind component) :
    Places options usages item g (g.start kind item component).close :=
  .opens ((drafts_close _).trans (drafts_start g kind item component)) rfl fits of_current_close

theorem places_extend {d d' : Draft} (current : g.current = some d)
    (same : d'.items = d.items ∧ d'.kind = d.kind ∧ d'.component = d.component)
    (fits : item.Follows usages d.kind d.component) (stays : ¬ item.Ends options usages) :
    Places options usages item g (g.extend d' item) :=
  .follows current rfl (congrArg (· ++ [item]) same.1) same.2.1 same.2.2 fits
    fun _ he => ⟨(Option.some.inj he).symm, stays⟩

end Places

theorem append_cases (options : MethodOptions) (g : Grouping) (item : Item) :
    (∃ d, g.current = some d ∧ g.append options item = g.extend d item) ∨
      g.append options item = g.start .actions item := by
  unfold append
  split
  next d h => exact .inl ⟨d, (open?_eq_some h).1, rfl⟩
  next => exact .inr rfl

section Append

variable (opens : item.Opens options usages .actions none)
  (follows : ∀ d : Draft, item.Follows usages d.kind d.component)
include opens follows

theorem places_append (stays : ¬ item.Ends options usages) :
    Places options usages item g (g.append options item) := by
  rcases append_cases options g item with ⟨d, current, he⟩ | he
  · rw [he]
    exact .places_extend current ⟨rfl, rfl, rfl⟩ (follows d) stays
  · rw [he]
    exact .places_start opens stays

theorem places_append_close : Places options usages item g (g.append options item).close := by
  rcases append_cases options g item with ⟨d, current, he⟩ | he
  · rw [he]
    exact .follows current (drafts_close _) rfl rfl rfl (follows d) Places.of_current_close
  · rw [he]
    exact .places_close_start opens

end Append

theorem places_addAssertion (a : Assertion) :
    Places options usages (.assertion a) g (g.addAssertion options a) := by
  unfold addAssertion
  split
  next => exact places_append ⟨rfl, rfl⟩ (fun _ => trivial) fun ends => ends
  next =>
    split
    next => exact .skips (drafts_close g) rfl
    next => exact .skips (drafts_close g) rfl

theorem places_addDelegated {a : Action} {component : Nat}
    (left : valueAt? a.number usages = some component) :
    Places options usages (.action a) g (g.addDelegated options component a) := by
  have stays : ¬ (Item.action a).Ends options usages := by
    rintro ⟨free, -⟩
    rw [left] at free
    cases free
  unfold addDelegated
  split
  next d hd =>
    obtain ⟨current, -, own⟩ := open?_eq_some hd
    refine .places_extend current ⟨rfl, rfl, rfl⟩ ?_ stays
    simpa [Item.Follows, left] using own
  next => exact .places_start (by simp [Item.Opens, left]) stays

/-- A wait stands in whatever draft is open. -/
theorem places_wait {a : Action} (free : valueAt? a.number usages = none) (wait : a.kind = .wait) :
    Places options usages (.action a) g
      (if a.verbIn ["waitForURL"] then (g.append options (.action a)).close
        else g.append options (.action a)) := by
  have opens : (Item.action a).Opens options usages .actions none := by
    simp [Item.Opens, free, wait]
  have follows : ∀ d : Draft, (Item.action a).Follows usages d.kind d.component := by
    intro d
    simp [Item.Follows, free, wait]
  split
  next => exact places_append_close opens follows
  next calm =>
    refine places_append opens follows (Item.not_ends (fun _ => calm) fun navigates => ?_)
    rw [wait] at navigates
    cases navigates

theorem places_addOwn {a : Action} (free : valueAt? a.number usages = none) :
    Places options usages (.action a) g (g.addOwn options a) := by
  unfold addOwn
  split
  next navigates =>
    split
    next apart => exact .places_close_start (by simp [Item.Opens, free, navigates, apart])
    next together =>
      refine .places_start (by simp [Item.Opens, free, together]) ?_
      refine Item.not_ends (fun wait => ?_) fun _ => together
      rw [navigates] at wait
      cases wait
  next wait => exact places_wait free wait
  next still acts =>
    have calm : a.kind ≠ .navigation := still
    have opens : (Item.action a).Opens options usages .actions none := by
      simp [Item.Opens, free, calm]
    have stays : ¬ (Item.action a).Ends options usages :=
      Item.not_ends (fun wait => absurd wait acts) fun navigates => absurd navigates calm
    split
    next => exact .places_start opens stays
    next d hd =>
      obtain ⟨current, -, kind⟩ := open?_eq_some hd
      have follows : (Item.action a).Follows usages d.kind d.component := by
        simp only [Item.Follows, free]
        exact .inr ⟨calm, of_decide_eq_true kind⟩
      split
      next => exact .places_extend current ⟨rfl, rfl, rfl⟩ follows stays
      next => exact .places_extend current ⟨rfl, rfl, rfl⟩ follows stays
      next => exact .places_start opens stays

theorem places_add (g : Grouping) (item : Item) :
    Places options usages item g (g.add options usages item) := by
  cases item with
  | assertion a => exact places_addAssertion a
  | action a =>
    simp only [add]
    split
    next component left => exact places_addDelegated left
    next free => exact places_addOwn free

/-- What grouping keeps: all drafts are windows, and no item of the open one ends it. -/
structure Windowed (options : MethodOptions) (usages : List (Nat × Nat)) (g : Grouping) : Prop where
  each : ∀ d ∈ g.drafts, d.Windowed options usages
  unended : ∀ d, g.current = some d → ∀ i ∈ d.items, ¬ i.Ends options usages

theorem Windowed.windowed_nothing : ({} : Grouping).Windowed options usages where
  each d hd := by cases hd
  unended d hd := by cases hd

theorem Places.windowed_of_places (h : Places options usages item g g')
    (old : g.Windowed options usages) :
    g'.Windowed options usages := by
  cases h with
  | @opens d drafts items fits stays =>
    constructor
    · rw [drafts]
      exact List.forall_mem_append.mpr
        ⟨old.each, List.forall_mem_singleton.mpr (.windowed_singleton items fits)⟩
    · intro e he i hi
      obtain ⟨rfl, goesOn⟩ := stays e he
      rw [items] at hi
      rwa [List.mem_singleton.mp hi]
  | @follows d d' current drafts items kind component fits stays =>
    have whole : g.drafts = g.closed ++ [d] := by simp [Grouping.drafts, current]
    have each := old.each
    rw [whole] at each
    obtain ⟨before, last⟩ := List.forall_mem_append.mp each
    have grown : d'.Windowed options usages :=
      (last d List.mem_cons_self).windowed_concat items kind component fits (old.unended d current)
    constructor
    · rw [drafts]
      exact List.forall_mem_append.mpr ⟨before, List.forall_mem_singleton.mpr grown⟩
    · intro e he i hi
      obtain ⟨rfl, goesOn⟩ := stays e he
      rw [items] at hi
      rcases List.mem_append.mp hi with hi | hi
      · exact old.unended d current i hi
      · rwa [List.mem_singleton.mp hi]
  | skips drafts closed =>
    constructor
    · rw [drafts]
      exact old.each
    · intro d hd
      rw [closed] at hd
      cases hd

theorem windowed_foldl (h : g.Windowed options usages) (items : List Item) :
    (items.foldl (Grouping.add options usages) g).Windowed options usages := by
  induction items generalizing g with
  | nil => exact h
  | cons item rest ih => exact ih ((places_add g item).windowed_of_places h)

end Grouping

theorem Draft.windowed_of_mem_ofItems {options : MethodOptions} {usages : List (Nat × Nat)}
    {items : List Item} {d : Draft} (h : d ∈ ofItems options usages items)
    (acts : d.kind ≠ .verification) : d.Windowed options usages := by
  rcases mem_drafts_or_checkDrafts options usages h with h | h
  · exact (Grouping.windowed_foldl .windowed_nothing items).each d h
  · obtain ⟨entry, -, rfl⟩ := List.mem_map.mp h
    exact absurd rfl acts

/-- A draft that has an action is an unbroken piece of the items that fits the options. -/
theorem Draft.window_of_action {options : MethodOptions} {usages : List (Nat × Nat)}
    {items : List Item} {d : Draft} {a : Action} (h : d ∈ ofItems options usages items)
    (ha : Item.action a ∈ d.items) :
    d.Windowed options usages ∧ d.items <:+: items ∧ options.Fits d.items := by
  rcases piece_or_checks h with ⟨acts, piece, fits⟩ | ⟨-, -, shape, all⟩
  · exact ⟨windowed_of_mem_ofItems h acts, piece, fits⟩
  · rw [all] at ha
    obtain ⟨b, -, other⟩ := List.mem_map.mp ha
    cases other

namespace Item.Opens

variable {options : MethodOptions} {usages : List (Nat × Nat)} {kind : MethodKind}
  {component : Option Nat} {i : Item} {c : Nat}

/-- Only an action that is left to a component opens a draft for one. -/
theorem left_of_delegation (h : i.Opens options usages kind component) (hk : kind = .delegation) :
    ∃ a c, i = .action a ∧ valueAt? a.number usages = some c ∧ component = some c := by
  cases i with
  | assertion a =>
    have own : kind = .actions := h.1
    rw [hk] at own
    cases own
  | action a =>
    cases left : valueAt? a.number usages with
    | some c =>
      simp only [Item.Opens, left] at h
      exact ⟨a, c, rfl, left, h.2⟩
    | none =>
      simp only [Item.Opens, left] at h
      rw [hk] at h
      split at h
      next => cases h.2
      next => cases h.2

theorem delegation_of_component (h : i.Opens options usages kind component)
    (hc : component = some c) : kind = .delegation := by
  cases i with
  | assertion a =>
    have own : component = none := h.2
    rw [hc] at own
    cases own
  | action a =>
    cases left : valueAt? a.number usages with
    | some c =>
      simp only [Item.Opens, left] at h
      exact h.1
    | none =>
      simp only [Item.Opens, left] at h
      rw [hc] at h
      cases h.1

theorem delegation_of_left {a : Action} (h : (action a).Opens options usages kind component)
    (left : valueAt? a.number usages = some c) : kind = .delegation ∧ component = some c := by
  simpa only [Item.Opens, left] using h

theorem navigation_of_apart {a : Action} (h : (action a).Opens options usages kind component)
    (free : valueAt? a.number usages = none) (navigates : a.kind = .navigation)
    (apart : options.separateNavigation = true) : kind = .navigation := by
  simp only [Item.Opens, free, navigates, apart, and_self, if_true] at h
  exact h.2

end Item.Opens

namespace Draft.Windowed

variable {options : MethodOptions} {usages : List (Nat × Nat)} {d : Draft}
  {before after : List Item} {a : Action} {c : Nat}

/-- Nothing stands behind an item that ends a draft. -/
theorem last_of_ends {i : Item} (h : d.Windowed options usages)
    (split : d.items = before ++ i :: after) (ends : i.Ends options usages) : after = [] := by
  have ended := h.ended
  rw [split] at ended
  have later := (List.pairwise_cons.mp (List.pairwise_append.mp ended).2.1).1
  refine List.eq_nil_iff_forall_not_mem.mpr fun j hj => later j hj ends

/-- An action that navigates follows in no draft. -/
theorem first_of_navigation (h : d.Windowed options usages)
    (split : d.items = before ++ .action a :: after) (free : valueAt? a.number usages = none)
    (navigates : a.kind = .navigation) :
    before = [] ∧ (Item.action a).Opens options usages d.kind d.component := by
  obtain ⟨i, rest, whole, opens, follow⟩ := h.opened
  rw [whole] at split
  cases before with
  | nil =>
    obtain ⟨rfl, -⟩ := List.cons.inj split
    exact ⟨rfl, opens⟩
  | cons b more =>
    have later : Item.action a ∈ rest := by
      rw [(List.cons.inj split).2]
      exact List.mem_append_right _ List.mem_cons_self
    have follows := follow _ later
    simp only [Item.Follows, free, navigates] at follows
    rcases follows with wait | ⟨calm, -⟩
    · cases wait
    · exact absurd rfl calm

/-- An action that is left to a component is in a draft for it. -/
theorem delegation_of_left (h : d.Windowed options usages) (ha : Item.action a ∈ d.items)
    (left : valueAt? a.number usages = some c) : d.kind = .delegation ∧ d.component = some c := by
  obtain ⟨i, rest, whole, opens, follow⟩ := h.opened
  rw [whole] at ha
  rcases List.mem_cons.mp ha with rfl | later
  · exact opens.delegation_of_left left
  · have own : d.component = some c := by simpa only [Item.Follows, left] using follow _ later
    exact ⟨opens.delegation_of_component own, own⟩

/-- A draft for a component has only actions that are left to it and waits. -/
theorem left_or_wait (h : d.Windowed options usages) (hk : d.kind = .delegation) :
    ∃ c, d.component = some c ∧ ∀ a, Item.action a ∈ d.items →
      valueAt? a.number usages = some c ∨ a.kind = .wait := by
  obtain ⟨i, rest, whole, opens, follow⟩ := h.opened
  obtain ⟨first, c, rfl, left, own⟩ := opens.left_of_delegation hk
  refine ⟨c, own, fun a ha => ?_⟩
  rw [whole] at ha
  rcases List.mem_cons.mp ha with same | later
  · cases same
    exact .inl left
  · have follows := follow _ later
    cases other : valueAt? a.number usages with
    | some c' =>
      simp only [Item.Follows, other, own] at follows
      exact .inl follows.symm
    | none =>
      simp only [Item.Follows, other, hk] at follows
      rcases follows with wait | ⟨-, acts⟩
      · exact .inr wait
      · cases acts

end Draft.Windowed

/-- What stands together in a method, given the items of its owner and those that the method has: a
wait for a URL is the last of them, a navigation the first or, kept apart, the only one, assertions
that are kept apart are not with actions or between them, and actions that are left to a component
are with others of this kind. -/
structure Method.Windowed (options : MethodOptions) (usages : List (Nat × Nat))
    (items held : List Item) (m : Method) : Prop where
  among : held.Sublist items
  actions : m.actions = (held.filterMap Item.action?).map Action.number
  assertions : m.assertions = (held.filterMap Item.assertion?).map Assertion.number
  awaits : ∀ before a after, held = before ++ .action a :: after → a.awaitsUrl = true → after = []
  navigates : ∀ before a after, held = before ++ .action a :: after → a.kind = .navigation →
    before = [] ∧ (options.separateNavigation = true → after = [] ∧ m.kind = .navigation)
  unmixed : options.separateAssertions = true →
    ∀ a b, Item.action a ∈ held → Item.assertion b ∉ held
  between : options.separateAssertions = true → ∀ a b c, Item.action a ∈ held →
    Item.action c ∈ held → Item.assertion b ∈ items → ¬ (a.line < b.line ∧ b.line < c.line)
  delegated : ∀ a c, Item.action a ∈ held → valueAt? a.number usages = some c →
    m.kind = .delegation ∧ m.component = some c
  delegates : m.kind = .delegation → ∃ c, m.component = some c ∧
    (∀ a, Item.action a ∈ held → valueAt? a.number usages = some c ∨ a.kind = .wait) ∧
    ∀ b, Item.assertion b ∈ held → options.separateAssertions = false

section Method

variable {options : MethodOptions} {usages : List (Nat × Nat)} {items : List Item} {d : Draft}

theorem Draft.windowed_toMethod (lines : LinesIncrease items)
    (own : ∀ a, Item.action a ∈ items → valueAt? a.number usages ≠ none → a.kind = .interaction)
    (h : d ∈ Draft.ofItems options usages items) (owner : Id) (naming : Naming)
    (page next : Option Page) :
    (d.toMethod owner naming page next).Windowed options usages items d.items := by
  -- so navigations and waits are left to no component
  have free : ∀ a, Item.action a ∈ d.items → a.kind ≠ .interaction →
      valueAt? a.number usages = none := by
    intro a ha other
    by_contra used
    exact other (own a (mem_of_mem_ofItems options usages h ha) used)
  have inside : ∀ {before a after}, d.items = before ++ Item.action a :: after →
      Item.action a ∈ d.items := by
    intro before a after split
    rw [split]
    exact List.mem_append_right _ List.mem_cons_self
  constructor
  case among =>
    rcases piece_or_checks h with ⟨-, piece, -⟩ | ⟨-, -, shape, all⟩
    · exact piece.sublist
    · rw [all]
      exact recurringChecks_sublist items shape
  case actions => rfl
  case assertions => rfl
  case awaits =>
    intro before a after split awaits
    obtain ⟨window, -⟩ := window_of_action h (inside split)
    have wait : a.kind = .wait := beq_iff_eq.mp (Bool.and_eq_true_iff.mp awaits).1
    have unused := free a (inside split) (by rw [wait]; decide)
    exact window.last_of_ends split ⟨unused, .inl awaits⟩
  case navigates =>
    intro before a after split navigates
    obtain ⟨window, -⟩ := window_of_action h (inside split)
    have unused := free a (inside split) (by rw [navigates]; decide)
    obtain ⟨first, opens⟩ := window.first_of_navigation split unused navigates
    refine ⟨first, fun apart => ⟨?_, opens.navigation_of_apart unused navigates apart⟩⟩
    exact window.last_of_ends split ⟨unused, .inr ⟨navigates, apart⟩⟩
  case unmixed =>
    intro apart a b ha hb
    obtain ⟨-, -, fits⟩ := window_of_action h ha
    exact fits.assertion_notMem apart b hb
  case between =>
    -- the draft is an unbroken piece, so it would have the assertion as well
    intro apart a b c ha hc hb ⟨low, high⟩
    obtain ⟨-, piece, fits⟩ := window_of_action h ha
    have there : Item.assertion b ∈ d.items :=
      lines.mem_of_between piece ha hc hb (Nat.le_of_lt low) (Nat.le_of_lt high)
    exact fits.assertion_notMem apart b there
  case delegated =>
    intro a c ha left
    exact (window_of_action h ha).1.delegation_of_left ha left
  case delegates =>
    intro left
    have kind : d.kind = .delegation := left
    rcases piece_or_checks h with ⟨acts, -, fits⟩ | ⟨check, -⟩
    · obtain ⟨c, component, others⟩ := (windowed_of_mem_ofItems h acts).left_or_wait kind
      refine ⟨c, component, others, fun b hb => Bool.eq_false_iff.mpr fun apart => ?_⟩
      exact fits.assertion_notMem apart b hb
    · rw [check] at kind
      cases kind

/-- Methods of a page whose items are in the order of their lines are windows of these, and what is
left to a component is in a method for it. -/
theorem methods_windowed {p : Page} {next : Option Page} {methods : List Method}
    {warnings : List Warning} (lines : LinesIncrease p.items)
    (own : ∀ a ∈ p.actions, valueAt? a.number usages ≠ none → a.kind = .interaction)
    (h : methodsOf options usages (p.owner next) p.items = .ok (methods, warnings)) :
    (∀ m ∈ methods, ∃ held, m.Windowed options usages p.items held) ∧
    ∀ a ∈ p.actions, ∀ c, valueAt? a.number usages = some c →
      ∃ m ∈ methods, m.kind = .delegation ∧ m.component = some c ∧ a.number ∈ m.actions := by
  have own' : ∀ a, Item.action a ∈ p.items → valueAt? a.number usages ≠ none →
      a.kind = .interaction := fun a ha => own a (List.mem_filterMap.mpr ⟨_, ha, rfl⟩)
  constructor
  · intro m hm
    obtain ⟨d, hd, naming, rfl⟩ := exists_draft_of_mem_methodsOf h hm
    exact ⟨d.items, Draft.windowed_toMethod lines own' hd _ _ _ _⟩
  · intro a ha c left
    have all := Draft.flatMap_actions_ofItems options usages lines
    have there : a ∈ (Draft.ofItems options usages p.items).flatMap Draft.actions := all ▸ ha
    obtain ⟨d, hd, ha⟩ := List.mem_flatMap.mp there
    obtain ⟨m, hm, naming, rfl⟩ := exists_right_of_mem (forall₂_buildMethods h) hd
    have inside : Item.action a ∈ d.items := Draft.mem_actions.mp ha
    obtain ⟨kind, component⟩ := (Draft.window_of_action hd inside).1.delegation_of_left inside left
    exact ⟨_, hm, kind, component, List.mem_map_of_mem ha⟩

/-- An action in a menu, a check, and a wait for the page that the menu leads to. -/
def checkedCart : Text :=
  "await page.click('nav a');\nawait expect(page.locator('h1')).toBeVisible();\n" ++
    "await page.waitForURL('/cart');"

theorem methods_windowed_checkedCart :
    ∃ spans, PageSpan.ofStatements {} (Statement.ofText checkedCart) = .ok spans ∧
      ∃ p ∈ Page.ofSpans {} spans, ∃ methods warnings,
        methodsOf { separateAssertions := false } [(1, 7)] (p.owner none) p.items =
          .ok (methods, warnings) ∧
        (∀ m ∈ methods, ∃ held,
          m.Windowed { separateAssertions := false } [(1, 7)] p.items held) ∧
        ∃ m ∈ methods, m.component = some 7 ∧ m.actions = [1, 2] ∧ m.assertions = [1] := by
  have found : (PageSpan.ofStatements {} (Statement.ofText checkedCart)).toOption.any (fun spans =>
      (Page.ofSpans {} spans).any fun p =>
        decide (LinesIncrease p.items) &&
        decide (∀ a ∈ p.actions, valueAt? a.number [(1, 7)] ≠ none → a.kind = .interaction) &&
        (methodsOf { separateAssertions := false } [(1, 7)] (p.owner none) p.items).toOption.any
          fun built => built.1.any fun m =>
            decide (m.component = some 7 ∧ m.actions = [1, 2] ∧ m.assertions = [1])) = true := by
    decide +kernel
  obtain ⟨spans, hs, found⟩ := exists_ok_of_any found
  simp only [Bool.and_eq_true, decide_eq_true_eq, List.any_eq_true] at found
  obtain ⟨p, hp, ⟨lines, own⟩, built⟩ := found
  obtain ⟨⟨methods, warnings⟩, hm, found⟩ := exists_ok_of_any built
  simp only [List.any_eq_true, decide_eq_true_eq] at found
  obtain ⟨windows, -⟩ := methods_windowed lines own hm
  exact ⟨spans, hs, p, hp, methods, warnings, hm, windows, found⟩

end Method

end PageObjects
