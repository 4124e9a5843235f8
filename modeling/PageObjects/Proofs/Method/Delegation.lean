import PageObjects.Proofs.Method.Owner

namespace PageObjects

/-- Whether items fit one draft of actions: they are not too many and none has to be apart. -/
structure MethodOptions.Fits (options : MethodOptions) (items : List Item) : Prop where
  short : items.length ≤ options.maxItems.val
  grouped : ∀ i ∈ items, i.IsGrouped options

instance (options : MethodOptions) (i : Item) : Decidable (i.IsGrouped options) :=
  decidable_of_iff (options.separateAssertions = true → i.action?.isSome = true) (by
    cases i with
    | action a => simp [Item.IsGrouped, Item.action?]
    | assertion a => simp [Item.IsGrouped, Item.action?])

instance (options : MethodOptions) (items : List Item) : Decidable (options.Fits items) :=
  decidable_of_iff (items.length ≤ options.maxItems.val ∧ ∀ i ∈ items, i.IsGrouped options)
    ⟨fun ⟨short, grouped⟩ => ⟨short, grouped⟩, fun h => ⟨h.short, h.grouped⟩⟩

theorem MethodOptions.fits_singleton {options : MethodOptions} {item : Item}
    (grouped : item.IsGrouped options) : options.Fits [item] where
  short := options.maxItems.property
  grouped _ hi := List.mem_singleton.mp hi ▸ grouped

theorem MethodOptions.Fits.fits_concat {options : MethodOptions} {items : List Item} {item : Item}
    (h : options.Fits items) (room : items.length < options.maxItems.val)
    (grouped : item.IsGrouped options) : options.Fits (items ++ [item]) where
  short := by
    rw [List.length_append, List.length_singleton]
    exact room
  grouped := by
    intro i hi
    rcases List.mem_append.mp hi with hi | hi
    · exact h.grouped i hi
    · exact List.mem_singleton.mp hi ▸ grouped

theorem MethodOptions.Fits.assertion_notMem {options : MethodOptions} {items : List Item}
    (h : options.Fits items) (apart : options.separateAssertions = true) (b : Assertion) :
    Item.assertion b ∉ items := by
  intro hb
  obtain ⟨a, other⟩ := h.grouped _ hb apart
  cases other

/-- What becomes of a draft: it may get more items. -/
structure Draft.GrowsTo (d d' : Draft) : Prop where
  kind : d'.kind = d.kind
  component : d'.component = d.component
  items : d.items ⊆ d'.items

namespace Draft.GrowsTo

theorem refl (d : Draft) : d.GrowsTo d := ⟨rfl, rfl, List.Subset.refl d.items⟩

theorem trans {d e f : Draft} (h : d.GrowsTo e) (h' : e.GrowsTo f) : d.GrowsTo f where
  kind := h'.kind.trans h.kind
  component := h'.component.trans h.component
  items := List.Subset.trans h.items h'.items

end Draft.GrowsTo

namespace Grouping

variable {options : MethodOptions} {usages : List (Nat × Nat)} {done : List Item} {item : Item}
  {g g' : Grouping}

/-- Each draft of actions is a piece of the items so far and fits the options; the one that is open
is the last piece. -/
structure Compact (options : MethodOptions) (done : List Item) (g : Grouping) : Prop where
  each : ∀ d ∈ g.drafts, d.items <:+: done ∧ options.Fits d.items
  last : ∀ d, g.current = some d → d.items <:+ done

namespace Compact

theorem compact_nothing : ({} : Grouping).Compact options [] where
  each d hd := by cases hd
  last d hd := by cases hd

/-- An item that no draft takes. -/
theorem compact_of_drafts_eq (h : g.Compact options done) (drafts : g'.drafts = g.drafts)
    (closed : g'.current = none) : g'.Compact options (done ++ [item]) where
  each := by
    intro d hd
    obtain ⟨piece, fits⟩ := h.each d (drafts ▸ hd)
    exact ⟨piece.trans (List.prefix_append done [item]).isInfix, fits⟩
  last := by
    intro d hd
    rw [closed] at hd
    cases hd

/-- An item that the last draft takes. -/
theorem compact_of_drafts_concat {before : List Draft} {e : Draft} (h : g.Compact options done)
    (drafts : g'.drafts = before ++ [e]) (old : before ⊆ g.drafts)
    (current : g'.current = some e) (piece : e.items <:+ done ++ [item])
    (fits : options.Fits e.items) : g'.Compact options (done ++ [item]) where
  each := by
    intro d hd
    rw [drafts] at hd
    rcases List.mem_append.mp hd with hd | hd
    · obtain ⟨inside, fits⟩ := h.each d (old hd)
      exact ⟨inside.trans (List.prefix_append done [item]).isInfix, fits⟩
    · rw [List.mem_singleton.mp hd]
      exact ⟨piece.isInfix, fits⟩
  last := by
    intro d hd
    rw [current] at hd
    rwa [← Option.some.inj hd]

end Compact

theorem Move.compact_of_move (h : Move options usages item g g') (old : g.Compact options done) :
    g'.Compact options (done ++ [item]) := by
  induction h with
  | opens grouped _ _ _ =>
    exact old.compact_of_drafts_concat (drafts_start g _ item _) (List.Subset.refl g.drafts) rfl
      (List.suffix_append done [item]) (MethodOptions.fits_singleton grouped)
  | @joins d d' grouped current room items _ _ =>
    obtain ⟨-, fits⟩ := old.each d (by simp [drafts, current])
    obtain ⟨before, whole⟩ := old.last d current
    have piece : d'.items ++ [item] <:+ done ++ [item] :=
      ⟨before, by rw [items, ← List.append_assoc, whole]⟩
    have kept : g.closed ⊆ g.drafts := List.subset_append_left _ _
    refine old.compact_of_drafts_concat rfl kept rfl piece ?_
    show options.Fits (d'.items ++ [item])
    rw [items]
    exact fits.fits_concat room grouped
  | @closes g' _ ih =>
    constructor
    · rw [drafts_close]
      exact ih.each
    · intro d hd
      cases hd
  | skips _ _ => exact old.compact_of_drafts_eq (drafts_close g) rfl

theorem compact_foldl (h : g.Compact options done) (usages : List (Nat × Nat))
    (items : List Item) :
    (items.foldl (Grouping.add options usages) g).Compact options (done ++ items) := by
  induction items generalizing g done with
  | nil => rwa [List.append_nil]
  | cons item rest ih =>
    have move : Move options usages item g (g.add options usages item) := move_add g item
    have run := ih (move.compact_of_move h)
    rwa [List.append_assoc] at run

theorem Move.exists_growsTo (h : Move options usages item g g') {d : Draft} (hd : d ∈ g.drafts) :
    ∃ d' ∈ g'.drafts, d.GrowsTo d' := by
  rcases h.drafts_cases with ⟨takes, -⟩ | ⟨a, -, same, -⟩
  · generalize g.drafts = before at takes hd
    generalize g'.drafts = after at takes
    cases takes with
    | opened => exact ⟨d, List.mem_append_left _ hd, .refl d⟩
    | @extended before e e' items kind component =>
      rcases List.mem_append.mp hd with hd | hd
      · exact ⟨d, List.mem_append_left _ hd, .refl d⟩
      · obtain rfl := List.mem_singleton.mp hd
        have more : d.items ⊆ e'.items := by
          rw [items]
          exact List.subset_append_left _ _
        exact ⟨e', List.mem_append_right _ List.mem_cons_self, kind, component, more⟩
  · exact ⟨d, same ▸ hd, .refl d⟩

/-- A draft of actions never loses what it has. -/
theorem persists_foldl {d : Draft} (hd : d ∈ g.drafts) (items : List Item) :
    ∃ d' ∈ (items.foldl (Grouping.add options usages) g).drafts, d.GrowsTo d' := by
  induction items generalizing g d with
  | nil => exact ⟨d, hd, .refl d⟩
  | cons item rest ih =>
    have move : Move options usages item g (g.add options usages item) := move_add g item
    obtain ⟨d', hd', grown⟩ := move.exists_growsTo hd
    obtain ⟨e, he, more⟩ := ih hd'
    exact ⟨e, he, grown.trans more⟩

end Grouping

/-- Whether an item joins an open draft for a component: an action that is left to it, a wait
between such actions, or an assertion if these are not kept apart. -/
def Item.Joins (options : MethodOptions) (usages : List (Nat × Nat)) (component : Nat) :
    Item → Prop
  | .action a => valueAt? a.number usages = some component ∨
      valueAt? a.number usages = none ∧ a.isTransparent = true
  | .assertion _ => options.separateAssertions = false

namespace Grouping

variable {options : MethodOptions} {usages : List (Nat × Nat)} {component : Nat} {item : Item}
  {g : Grouping} {d : Draft}

theorem open?_of_room {p : Draft → Bool} (current : g.current = some d)
    (room : d.items.length < options.maxItems.val) (hp : p d = true) :
    g.open? options p = some d := by
  rw [open?, current]
  simp [Option.filter_some, room, hp]

theorem append_of_room (current : g.current = some d)
    (room : d.items.length < options.maxItems.val) (item : Item) :
    g.append options item = g.extend d item := by
  rw [append, open?_of_room current room rfl]

theorem add_of_joins (current : g.current = some d) (own : d.component = some component)
    (room : d.items.length < options.maxItems.val) (joins : item.Joins options usages component) :
    g.add options usages item = g.extend d item := by
  cases item with
  | assertion a =>
    have together : options.separateAssertions = false := joins
    simp only [add, addAssertion, together, Bool.not_false, if_true]
    exact append_of_room current room _
  | action a =>
    rcases joins with left | ⟨free, waits⟩
    · simp only [add, left, addDelegated]
      rw [open?_of_room current room (by simp [own])]
    · obtain ⟨kind, verb⟩ := Bool.and_eq_true_iff.mp waits
      have kind : a.kind = .wait := beq_iff_eq.mp kind
      have stays : a.verbIn ["waitForURL"] = false := by
        cases hv : a.statement.verb with
        | none => simp [Action.verbIn, Content.verbIn, hv]
        | some v =>
          rw [Action.verb, hv] at verb
          simpa [Action.verbIn, Content.verbIn, hv] using verb
      simp only [add, free, addOwn, kind, stays]
      exact append_of_room current room _

/-- The open draft takes items that join it, one after another. -/
theorem current_foldl_of_joins (current : g.current = some d) (own : d.component = some component)
    {items : List Item} (room : d.items.length + items.length ≤ options.maxItems.val)
    (joins : ∀ i ∈ items, i.Joins options usages component) :
    (items.foldl (Grouping.add options usages) g).current =
      some { d with items := d.items ++ items } := by
  induction items generalizing g d with
  | nil => rw [List.foldl_nil, current, List.append_nil]
  | cons item rest ih =>
    obtain ⟨first, others⟩ := List.forall_mem_cons.mp joins
    rw [List.length_cons] at room
    have more : (g.extend d item).current = some { d with items := d.items ++ [item] } := rfl
    rw [List.foldl_cons, add_of_joins current own (by omega) first, ih more own ?_ others]
    · simp
    · simp only [List.length_append, List.length_singleton]
      omega

end Grouping

namespace Draft

variable {options : MethodOptions} {usages : List (Nat × Nat)} {items : List Item}

/-- A draft with actions is an unbroken piece of the items and fits the options. -/
theorem piece_of_mem_ofItems {d : Draft} (h : d ∈ ofItems options usages items)
    (acts : d.actions ≠ []) : d.items <:+: items ∧ options.Fits d.items := by
  rcases mem_drafts_or_checkDrafts options usages h with h | h
  · exact (Grouping.compact_foldl .compact_nothing usages items).each d h
  · exact absurd (List.flatMap_eq_nil_iff.mp (Grouping.flatMap_actions_checkDrafts _) d h) acts

/-- Before the first action that is left to a component no draft is for it. -/
theorem open?_eq_none_of_unseen {before : List Item} {component : Nat}
    (unseen : ∀ b, Item.action b ∈ before → valueAt? b.number usages ≠ some component) :
    (before.foldl (Grouping.add options usages) {}).open? options
      (fun d => d.component = some component) = none := by
  have sound := sound_ofItems options usages before
  refine Option.filter_eq_none_iff.mpr ?_
  intro d current
  have listed : d ∈ (before.foldl (Grouping.add options usages) {}).drafts := by
    simp [Grouping.drafts, current]
  have other : d.component ≠ some component := by
    intro own
    obtain ⟨b, hb, left⟩ := (sound.each d listed).delegates component own
    exact unseen b (sound.inOrder.subset (List.mem_flatMap.mpr ⟨d, listed, hb⟩)) left
  simp [other]

/-- Items that join their first, an action that is left to a component, make one draft for it if
there is room for them. -/
theorem exists_delegation_of_joins {before rest behind : List Item} {a : Action} {component : Nat}
    (unseen : ∀ b, Item.action b ∈ before → valueAt? b.number usages ≠ some component)
    (first : valueAt? a.number usages = some component)
    (joins : ∀ i ∈ rest, i.Joins options usages component)
    (room : (Item.action a :: rest).length ≤ options.maxItems.val) :
    ∃ d ∈ ofItems options usages (before ++ Item.action a :: rest ++ behind),
      d.kind = .delegation ∧ d.component = some component ∧ Item.action a :: rest ⊆ d.items := by
  let opened : Draft :=
    { kind := .delegation, items := [.action a], component := some component }
  have begun : ((before.foldl (Grouping.add options usages) {}).add options usages
      (.action a)).current = some opened := by
    simp only [Grouping.add, first, Grouping.addDelegated, open?_eq_none_of_unseen unseen]
    rfl
  rw [List.length_cons, Nat.add_comm] at room
  have grown := Grouping.current_foldl_of_joins begun rfl room joins
  rw [← List.foldl_cons, ← List.foldl_append] at grown
  have there : { opened with items := opened.items ++ rest } ∈
      ((before ++ Item.action a :: rest).foldl (Grouping.add options usages) {}).drafts :=
    List.mem_append_right _ (by rw [grown]; exact List.mem_singleton_self _)
  obtain ⟨d, hd, grown⟩ := Grouping.persists_foldl there behind
  rw [← List.foldl_append] at hd
  exact ⟨d, (Grouping.perm_finish _).mem_iff.mpr (List.mem_append_left _ hd), grown.kind,
    grown.component, grown.items⟩

end Draft

end PageObjects
