import PageObjects.Proofs.Component.Soundness

namespace PageObjects

/-- Whether there are at least `n` pages with a property. -/
def HoldsOn (n : Nat) (pages : List Page) (P : Page → Prop) : Prop :=
  ∃ chosen : List Page, chosen.Sublist pages ∧ n ≤ chosen.length ∧ ∀ p ∈ chosen, P p

theorem HoldsOn.mono {n : Nat} {pages : List Page} {P Q : Page → Prop} (h : HoldsOn n pages P)
    (weaker : ∀ p ∈ pages, P p → Q p) : HoldsOn n pages Q := by
  obtain ⟨chosen, inside, enough, all⟩ := h
  exact ⟨chosen, inside, enough, fun p hp => weaker p (inside.subset hp) (all p hp)⟩

theorem HoldsOn.weaken {m n : Nat} {pages : List Page} {P : Page → Prop} (h : HoldsOn n pages P)
    (fewer : m ≤ n) : HoldsOn m pages P := by
  obtain ⟨chosen, inside, enough, all⟩ := h
  exact ⟨chosen, inside, fewer.trans enough, all⟩

theorem holdsOn_iff_le_countP {n : Nat} {pages : List Page} {P : Page → Prop} {q : Page → Bool}
    (decides : ∀ p ∈ pages, P p ↔ q p = true) : HoldsOn n pages P ↔ n ≤ pages.countP q := by
  constructor
  · rintro ⟨chosen, inside, enough, all⟩
    have each : chosen.countP q = chosen.length :=
      List.countP_eq_length.mpr fun p hp => (decides p (inside.subset hp)).mp (all p hp)
    have more := inside.countP_le (p := q)
    omega
  · intro enough
    refine ⟨pages.filter q, List.filter_sublist, by rwa [← List.countP_eq_length_filter], ?_⟩
    intro p hp
    obtain ⟨there, holds⟩ := List.mem_filter.mp hp
    exact (decides p there).mpr holds

/-- All stretches up to the longest pattern are among the windows. -/
theorem mem_windows_iff {α : Type} {w l : List α} :
    w ∈ windows l ↔ w <:+: l ∧ w ≠ [] ∧ w.length ≤ longestPattern := by
  constructor
  · exact fun h => ⟨(mem_windows h).1, (mem_windows h).2, length_le_of_mem_windows h⟩
  · rintro ⟨⟨before, behind, rfl⟩, filled, short⟩
    have long := List.length_pos_iff.mpr filled
    refine List.mem_flatMap.mpr ⟨w.length, List.mem_map.mpr ⟨w.length - 1, ?_, by omega⟩, ?_⟩
    · rw [List.mem_range]
      simp only [List.length_append]
      omega
    · refine List.mem_map.mpr ⟨before.length, ?_, ?_⟩
      · rw [List.mem_range]
        simp only [List.length_append]
        omega
      · rw [List.append_assoc, List.drop_left, List.take_left]

namespace Page

/-- The occurrences of a pattern on a page, as they are looked through. -/
def occurrencesOf (key : PatternKey) (p : Page) : List Occurrence :=
  (p.occurrences.filter fun o => o.1 == key).map (·.2)

theorem mem_occurrences_of_shows {p : Page} {key : PatternKey} {o : Occurrence}
    (h : o.Shows key p) : (key, o) ∈ p.occurrences := by
  obtain ⟨page, actions⟩ := o
  obtain ⟨⟨page, filled, run, hr, inside⟩, key, short⟩ := h
  refine List.mem_flatMap.mpr ⟨run, hr, List.mem_map.mpr ⟨_, mem_windows_iff.mpr
    ⟨inside.map fun a => (a.looseKey, a), by simpa using filled, by simpa using short⟩, ?_⟩⟩
  simp only [List.map_map, Function.comp_def, List.map_id']
  rw [key, ← page]

theorem mem_occurrencesOf {p : Page} {key : PatternKey} {o : Occurrence} :
    o ∈ p.occurrencesOf key ↔ o.Shows key p := by
  constructor
  · intro h
    obtain ⟨⟨key', o'⟩, hk, rfl⟩ := List.mem_map.mp h
    obtain ⟨hk, same⟩ := List.mem_filter.mp hk
    exact beq_iff_eq.mp same ▸ shows_of_mem_occurrences hk
  · intro h
    exact List.mem_map.mpr ⟨(key, o), List.mem_filter.mpr
      ⟨mem_occurrences_of_shows h, beq_self_eq_true key⟩, rfl⟩

end Page

/-- The pattern of a key on some pages. -/
def recurrenceOn (pages : List Page) (key : PatternKey) : Recurrence :=
  recurrenceOf (pages.map Page.occurrences) key

theorem byPage_recurrenceOn (pages : List Page) (key : PatternKey) :
    (recurrenceOn pages key).byPage =
      (pages.map (Page.occurrencesOf key)).filter fun os => !os.isEmpty := by
  rw [recurrenceOn, recurrenceOf, List.map_map]
  rfl

/-- Whether a choice has left a page an occurrence of a pattern. -/
def Choice.LeavesOn (c : Choice) (key : PatternKey) (p : Page) : Prop :=
  ∃ o : Occurrence, o.Shows key p ∧ c.isFree o = true

/-- A choice picks one occurrence on each page with a free one. -/
theorem holdsOn_leavesOn_iff {n : Nat} {pages : List Page} {key : PatternKey} {c : Choice} :
    HoldsOn n pages (c.LeavesOn key) ↔ n ≤ (c.picked (recurrenceOn pages key)).length := by
  have count : (c.picked (recurrenceOn pages key)).length =
      pages.countP fun p => (p.occurrencesOf key).any c.isFree := by
    rw [Choice.picked, byPage_recurrenceOn, List.length_filterMap_eq_countP, List.countP_filter,
      List.countP_map]
    refine List.countP_congr fun p _ => ?_
    have found : ∀ os : List Occurrence, (os.find? c.isFree).isSome = os.any c.isFree := by
      intro os
      rw [Bool.eq_iff_iff, List.find?_isSome, List.any_eq_true]
    rw [Function.comp, found]
    cases p.occurrencesOf key <;> simp
  rw [count]
  refine holdsOn_iff_le_countP fun p _ => ?_
  simp only [Choice.LeavesOn, List.any_eq_true, Page.mem_occurrencesOf]

/-- The choices that have to be made from one choice on: they only add components, and take what
these take. -/
def Choice.Grows (c c' : Choice) : Prop :=
  ∃ more : List ComponentDraft, c'.drafts = c.drafts ++ more ∧
    c'.taken = c.taken ++ more.flatMap ComponentDraft.numbers

namespace Choice.Grows

variable {c c' c'' : Choice}

theorem refl (c : Choice) : c.Grows c := ⟨[], by simp, by simp⟩

theorem trans (h : c.Grows c') (h' : c'.Grows c'') : c.Grows c'' := by
  obtain ⟨first, drafts, taken⟩ := h
  obtain ⟨second, drafts', taken'⟩ := h'
  refine ⟨first ++ second, ?_, ?_⟩
  · rw [drafts', drafts, List.append_assoc]
  · rw [taken', taken, List.flatMap_append, List.append_assoc]

theorem grows_accept (c : Choice) (d : ComponentDraft) : c.Grows (c.accept d) :=
  ⟨[d], rfl, by rw [List.flatMap_singleton]; rfl⟩

theorem grows_recommend (c : Choice) (r : Recommendation) : c.Grows (c.recommend r) := refl c

theorem grows_tryPattern (options : ComponentOptions) (required : Nat) (c : Choice)
    (r : Recurrence) :
    c.Grows (c.tryPattern options required r) := by
  rcases c.tryPattern_cases options required r with same | ⟨_, same⟩ | ⟨d, same, -⟩
  · rw [same]
    exact refl c
  · rw [same]
    exact grows_recommend c _
  · rw [same]
    exact grows_accept c d

theorem grows_tryStretch (options : ComponentOptions) (name : Text) (c : Choice) (o : Occurrence) :
    c.Grows (c.tryStretch options name o) := by
  rcases c.tryStretch_cases options name o with same | ⟨_, _, same⟩ | ⟨d, same, -⟩
  · rw [same]
    exact refl c
  · rw [same]
    exact grows_recommend c _
  · rw [same]
    exact grows_accept c d

theorem grows_foldl {α : Type} {choose : Choice → α → Choice}
    (step : ∀ (c : Choice) x, c.Grows (choose c x)) (c : Choice) (xs : List α) :
    c.Grows (xs.foldl choose c) := by
  induction xs generalizing c with
  | nil => exact refl c
  | cons x rest ih => exact (step c x).trans (ih (choose c x))

theorem taken_subset (h : c.Grows c') : c.taken ⊆ c'.taken := by
  obtain ⟨more, -, taken⟩ := h
  rw [taken]
  exact List.subset_append_left _ _

theorem drafts_subset (h : c.Grows c') : c.drafts ⊆ c'.drafts := by
  obtain ⟨more, drafts, -⟩ := h
  rw [drafts]
  exact List.subset_append_left _ _

end Choice.Grows

/-- The only pattern that is too weak for a component is an untyped action on two pages. -/
theorem componentConfidence_lt_iff {length pages : Nat} {isExact : Bool} {type : ComponentType} :
    componentConfidence length pages isExact type < componentThreshold ↔
      length = 1 ∧ pages = 2 ∧ type = .custom := by
  rw [componentConfidence, componentThreshold]
  split
  next weak => exact iff_of_true (by decide) weak
  next strong =>
    refine iff_of_false ?_ strong
    dsimp only
    split <;> split <;> split <;> omega

/-- The type that a choice infers for a pattern, from what it picks of it. -/
def Choice.typeOf (c : Choice) (r : Recurrence) : ComponentType :=
  .ofActions ((c.picked r).flatMap (·.actions))

/-- A pattern is accepted if enough of it is free, unless its type is not looked for or it is too
weak. -/
theorem Choice.tryPattern_accepts {options : ComponentOptions} {c : Choice} {r : Recurrence}
    (enough : options.required ≤ (c.picked r).length)
    (enabled : (c.typeOf r).isEnabled options = true)
    (strong : ¬ (r.key.length = 1 ∧ (c.picked r).length = 2 ∧ c.typeOf r = .custom)) :
    ∃ d : ComponentDraft, c.tryPattern options options.required r = c.accept d ∧
      d.instances = c.picked r ∧ d.isProvisional = false := by
  simp only [tryPattern]
  split
  next few => exact absurd few (Nat.not_lt.mpr enough)
  next =>
    split
    next disabled =>
      rw [Bool.not_eq_eq_eq_not, Bool.not_true] at disabled
      exact absurd (disabled.symm.trans enabled) (by decide)
    next =>
      split
      next weak => exact absurd (componentConfidence_lt_iff.mp weak) strong
      next => exact ⟨_, rfl, rfl, rfl⟩

/-- A pattern that recurs on enough pages is tried. -/
theorem recurrenceOn_mem {options : ComponentOptions} {pages : List Page} {key : PatternKey}
    (recurs : HoldsOn options.required pages fun p => ∃ o : Occurrence, o.Shows key p) :
    recurrenceOn pages key ∈ recurrences options.required pages := by
  have enough : options.required ≤ (recurrenceOn pages key).pageCount := by
    have start : HoldsOn options.required pages (({} : Choice).LeavesOn key) :=
      recurs.mono fun p _ ⟨o, shows⟩ =>
        ⟨o, shows, Choice.isFree_iff.mpr fun _ _ => List.not_mem_nil⟩
    exact (holdsOn_leavesOn_iff.mp start).trans (List.length_filterMap_le _ _)
  have two : 2 ≤ options.required := Nat.le_max_right _ _
  obtain ⟨showing, inside, long, all⟩ := recurs
  obtain ⟨p, rest, rfl⟩ := List.exists_cons_of_length_pos (l := showing) (by omega)
  obtain ⟨o, shows⟩ := all p List.mem_cons_self
  have seen : key ∈ ((pages.map Page.occurrences).flatten.map (·.1)).eraseDups := by
    rw [List.mem_eraseDups]
    refine List.mem_map.mpr ⟨(key, o), List.mem_flatten.mpr ⟨p.occurrences, ?_, ?_⟩, rfl⟩
    · exact List.mem_map_of_mem (inside.subset List.mem_cons_self)
    · exact Page.mem_occurrences_of_shows shows
  refine List.mem_mergeSort.mpr (List.mem_filter.mpr ⟨List.mem_map_of_mem seen, ?_⟩)
  exact decide_eq_true enough

/-- The patterns that are tried before one, and the choice that is made from them. -/
def IsTurn (options : ComponentOptions) (pages : List Page) (r : Recurrence) (c : Choice) : Prop :=
  ∃ before behind, recurrences options.required pages = before ++ r :: behind ∧
    c = before.foldl (Choice.tryPattern options options.required) {}

theorem IsTurn.grows {options : ComponentOptions} {pages : List Page} {r : Recurrence} {c : Choice}
    (h : IsTurn options pages r c) :
    (c.tryPattern options options.required r).Grows (chooseComponents options pages) := by
  obtain ⟨before, behind, all, rfl⟩ := h
  rw [chooseComponents, recurringComponents, all, List.foldl_append, List.foldl_cons]
  refine (Choice.Grows.grows_foldl
    (Choice.Grows.grows_tryPattern options options.required) _ behind).trans ?_
  exact Choice.Grows.grows_foldl (fun c p =>
    Choice.Grows.grows_foldl (Choice.Grows.grows_tryStretch options p.name) c _) _ pages

theorem Choice.Grows.grows_chooseComponents (options : ComponentOptions) (pages : List Page) :
    ({} : Choice).Grows (chooseComponents options pages) :=
  (Choice.Grows.grows_foldl (Choice.Grows.grows_tryPattern options options.required) {} _).trans
    (Choice.Grows.grows_foldl (fun c p =>
      Choice.Grows.grows_foldl (Choice.Grows.grows_tryStretch options p.name) c _) _ pages)

theorem map_fst_usages (components : List Component) :
    (usages components).map Prod.fst = components.flatMap fun c => c.numbers := by
  simp [usages, List.map_flatMap, ComponentDraft.numbers, Function.comp_def]

theorem exists_component {options : ComponentOptions} {pages : List Page} {d : ComponentDraft}
    (h : d ∈ (chooseComponents options pages).drafts) :
    ∃ c ∈ (findComponents options pages).components, c.toComponentDraft = d :=
  List.mem_map.mp ((perm_nameComponents _).symm.subset h)

/-- What a choice takes on the way is left to a component in the end. -/
theorem valueAt?_usages_ne_none {options : ComponentOptions} {pages : List Page} {c : Choice}
    (grows : c.Grows (chooseComponents options pages)) {n : Nat} (taken : n ∈ c.taken) :
    valueAt? n (usages (findComponents options pages).components) ≠ none := by
  rw [ne_eq, valueAt?_eq_none_iff, not_not, map_fst_usages]
  obtain ⟨all, drafts, total⟩ := Choice.Grows.grows_chooseComponents options pages
  have owned := grows.taken_subset taken
  rw [total, ← List.nil_append all, ← drafts] at owned
  obtain ⟨d, hd, hn⟩ := List.mem_flatMap.mp owned
  obtain ⟨component, hc, rfl⟩ := exists_component hd
  exact List.mem_flatMap.mpr ⟨component, hc, hn⟩

theorem IsTurn.exists_component {options : ComponentOptions} {pages : List Page} {r : Recurrence}
    {c : Choice} (h : IsTurn options pages r c) {d : ComponentDraft}
    (accepts : c.tryPattern options options.required r = c.accept d) :
    ∃ component ∈ (findComponents options pages).components, component.toComponentDraft = d := by
  refine PageObjects.exists_component (h.grows.drafts_subset ?_)
  rw [accepts]
  exact List.mem_append_right _ (List.mem_singleton_self d)

/-- Whether a component is made of occurrences of a pattern. -/
def ComponentDraft.HasKey (key : PatternKey) (d : ComponentDraft) : Prop :=
  d.instances ≠ [] ∧ ∀ o ∈ d.instances, o.actions.map Action.looseKey = key

theorem ComponentDraft.HasKey.of_picked {required : Nat} {pages : List Page} {r : Recurrence}
    {c : Choice} {d : ComponentDraft} (hr : r ∈ recurrences required pages)
    (instances : d.instances = c.picked r) (positive : 0 < (c.picked r).length) :
    d.HasKey r.key := by
  rw [HasKey, instances]
  refine ⟨List.ne_nil_of_length_pos positive, fun o ho => ?_⟩
  obtain ⟨seen, -, shown⟩ := Choice.exists_seen_picked (c := c) hr
  obtain ⟨p, -, shows, -⟩ := exists_right_of_mem shown ho
  exact shows.key

/-- Why a pattern is turned down at its turn although enough pages have a free occurrence: the type
of what is free is not looked for, or it is a single untyped action and free on two pages only. -/
structure TurnsDown (options : ComponentOptions) (pages : List Page) (key : PatternKey)
    (r : Recurrence) (c : Choice) : Prop where
  turn : IsTurn options pages r c
  own : r.key = key
  enough : HoldsOn options.required pages (c.LeavesOn key)
  cause : (c.typeOf r).isEnabled options = false ∨
    key.length = 1 ∧ c.typeOf r = .custom ∧ HoldsOn 2 pages (c.LeavesOn key) ∧
      ¬ HoldsOn 3 pages (c.LeavesOn key)

/-- A pattern that recurs on enough pages becomes a component, or too few pages are left with an
occurrence of it that belongs to none, or it was turned down at its turn. -/
theorem findComponents_exhaustive (options : ComponentOptions) {pages : List Page}
    {key : PatternKey} (recurs : HoldsOn (max options.minAppearances.val 2) pages fun p =>
      ∃ o : Occurrence, o.Shows key p) :
    (∃ c ∈ (findComponents options pages).components,
        c.isProvisional = false ∧ c.HasKey key) ∨
      (¬ HoldsOn (max options.minAppearances.val 2) pages fun p =>
        ∃ o : Occurrence, o.Shows key p ∧ ∀ n ∈ o.numbers,
          valueAt? n (usages (findComponents options pages).components) = none) ∨
      ∃ r c, TurnsDown options pages key r c := by
  have tried := recurrenceOn_mem recurs
  obtain ⟨before, behind, all⟩ := List.append_of_mem tried
  have turn : IsTurn options pages (recurrenceOn pages key)
      (before.foldl (Choice.tryPattern options options.required) {}) := ⟨before, behind, all, rfl⟩
  generalize before.foldl (Choice.tryPattern options options.required) {} = c at turn
  by_cases enough : options.required ≤ (c.picked (recurrenceOn pages key)).length
  case neg =>
    -- what is free in the end was free at its turn
    refine .inr (.inl fun left => enough (holdsOn_leavesOn_iff.mp (left.mono ?_)))
    rintro p - ⟨o, shows, unused⟩
    refine ⟨o, shows, Choice.isFree_iff.mpr fun n hn taken => ?_⟩
    have grows := (Choice.Grows.grows_tryPattern options options.required c _).trans turn.grows
    exact valueAt?_usages_ne_none grows taken (unused n hn)
  case pos =>
    have free := holdsOn_leavesOn_iff.mpr enough
    by_cases enabled : (c.typeOf (recurrenceOn pages key)).isEnabled options = true
    case neg =>
      exact .inr (.inr ⟨_, c, turn, rfl, free, .inl (Bool.eq_false_iff.mpr enabled)⟩)
    case pos =>
      by_cases weak : key.length = 1 ∧ (c.picked (recurrenceOn pages key)).length = 2 ∧
        c.typeOf (recurrenceOn pages key) = .custom
      case pos =>
        obtain ⟨single, two, custom⟩ := weak
        refine .inr (.inr ⟨_, c, turn, rfl, free, .inr ⟨single, custom, ?_, ?_⟩⟩)
        · exact holdsOn_leavesOn_iff.mpr two.ge
        · rw [holdsOn_leavesOn_iff, two]
          decide
      case neg =>
        obtain ⟨d, accepts, instances, steady⟩ := Choice.tryPattern_accepts enough enabled weak
        obtain ⟨component, hc, rfl⟩ := turn.exists_component accepts
        have two : 2 ≤ options.required := Nat.le_max_right _ _
        exact .inl ⟨component, hc, steady, .of_picked tried instances (by omega)⟩

/-- A menu whose second link is on a page of its own, too. -/
def menuWithSingleLink : Text :=
  "page.click('nav a');\npage.click('nav b');\npage.goto('/cart');\npage.click('nav a');\n" ++
    "page.click('nav b');\npage.goto('/help');\npage.click('nav b');"

/-- The link is clicked on three pages, but the menu takes two of them. -/
theorem findComponents_exhaustive_singleLink :
    ∃ spans, PageSpan.ofStatements {} (Statement.ofText menuWithSingleLink) = .ok spans ∧
      let pages := Page.ofSpans {} spans
      let key : PatternKey := [("click", "nav b")]
      (HoldsOn 3 pages fun p => ∃ o : Occurrence, o.Shows key p) ∧
        ((∃ c ∈ (findComponents {} pages).components, c.isProvisional = false ∧ c.HasKey key) ∨
          (¬ HoldsOn 2 pages fun p => ∃ o : Occurrence, o.Shows key p ∧ ∀ n ∈ o.numbers,
            valueAt? n (usages (findComponents {} pages).components) = none) ∨
          ∃ r c, TurnsDown {} pages key r c) := by
  have found : (PageSpan.ofStatements {} (Statement.ofText menuWithSingleLink)).toOption.any
      (fun spans => 3 ≤ (({} : Choice).picked
        (recurrenceOn (Page.ofSpans {} spans) [("click", "nav b")])).length) = true := by
    decide +kernel
  obtain ⟨spans, hs, found⟩ := exists_ok_of_any found
  have recurs : HoldsOn 3 (Page.ofSpans {} spans) fun p =>
      ∃ o : Occurrence, o.Shows [("click", "nav b")] p :=
    (holdsOn_leavesOn_iff.mpr (of_decide_eq_true found)).mono fun p _ ⟨o, shows, _⟩ => ⟨o, shows⟩
  refine ⟨spans, hs, recurs, findComponents_exhaustive {} (recurs.weaken (by decide))⟩

end PageObjects
