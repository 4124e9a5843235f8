import PageObjects.Proofs.Component.Occurrence
import PageObjects.Proofs.Entries
import PageObjects.Proofs.Outcome
import PageObjects.Proofs.Page.Binding
import PageObjects.Script.Extract

namespace PageObjects

/-- Pages that are told apart by their numbers, with actions that are. -/
structure PagesApart (pages : List Page) : Prop where
  numbers : (pages.map Page.number).Nodup
  actions : ((pages.flatMap Page.actions).map Action.number).Nodup

theorem PagesBind.pagesApart {number : Nat} {tally : Tally} {spans : List PageSpan}
    {pages : List Page} (h : PagesBind number tally spans pages) : PagesApart pages where
  numbers := by
    rw [h.numbers]
    exact List.nodup_range'
  actions := by
    rw [h.actionNumbers]
    exact List.nodup_range'

theorem Choice.isFree_iff {c : Choice} {o : Occurrence} :
    c.isFree o = true ↔ ∀ n ∈ o.numbers, n ∉ c.taken := by
  simp [isFree]

theorem Choice.exists_seen_picked {c : Choice} {required : Nat} {pages : List Page} {r : Recurrence}
    (h : r ∈ recurrences required pages) : ∃ seen, seen.Sublist pages ∧
      List.Forall₂ (fun o p => o.Shows r.key p ∧ c.isFree o = true) (c.picked r) seen := by
  obtain ⟨seen, inside, shown⟩ := exists_seen_of_mem_recurrences h
  obtain ⟨kept, part, free⟩ := exists_sublist_forall₂_filterMap
    (S := fun o p => o.Shows r.key p ∧ c.isFree o = true) shown fun os p o all found =>
      ⟨all o (List.mem_of_find?_eq_some found), List.find?_some found⟩
  exact ⟨kept, part.trans inside, free⟩

/-- Occurrences on several pages take actions of these pages, in their order. -/
theorem sublist_numbers {os : List Occurrence} {seen : List Page}
    (h : List.Forall₂ (fun o p => o.IsOn p) os seen) :
    (os.flatMap Occurrence.numbers).Sublist ((seen.flatMap Page.actions).map Action.number) := by
  induction h with
  | nil => exact .slnil
  | cons on _ ih =>
    rw [List.flatMap_cons, List.flatMap_cons, List.map_append]
    exact (on.sublist_actions.map Action.number).append ih

theorem map_page_eq {os : List Occurrence} {seen : List Page}
    (h : List.Forall₂ (fun o p => o.IsOn p) os seen) :
    os.map Occurrence.page = seen.map Page.number := by
  induction h with
  | nil => rfl
  | cons on _ ih => rw [List.map_cons, List.map_cons, on.page, ih]

theorem PagesApart.nodup_numbers {pages seen : List Page} {os : List Occurrence}
    (h : PagesApart pages) (inside : seen.Sublist pages)
    (on : List.Forall₂ (fun o p => o.IsOn p) os seen) : (os.flatMap Occurrence.numbers).Nodup :=
  ((sublist_numbers on).trans ((inside.flatMap Page.actions).map Action.number)).nodup h.actions

theorem allExact_iff {os : List Occurrence} (filled : os ≠ []) : allExact os = true ↔
    ∀ o ∈ os, ∀ o' ∈ os, o.actions.map Action.exactKey = o'.actions.map Action.exactKey := by
  obtain ⟨first, rest, rfl⟩ := List.exists_cons_of_ne_nil filled
  have all : allExact (first :: rest) = true ↔
      ∀ o ∈ rest, o.actions.map Action.exactKey = first.actions.map Action.exactKey := by
    simp [allExact]
  rw [all]
  constructor
  · intro same
    have like : ∀ o ∈ first :: rest,
        o.actions.map Action.exactKey = first.actions.map Action.exactKey :=
      List.forall_mem_cons.mpr ⟨rfl, same⟩
    exact fun o ho o' ho' => (like o ho).trans (like o' ho').symm
  · exact fun same o ho => same o (List.mem_cons_of_mem _ ho) first List.mem_cons_self

/-- A component that is seen on several pages. -/
structure ComponentDraft.Recurs (options : ComponentOptions) (d : ComponentDraft) : Prop where
  enough : max options.minAppearances.val 2 ≤ d.instances.length
  apart : (d.instances.map Occurrence.page).Nodup
  alike : ∃ key : PatternKey, 1 ≤ key.length ∧ key.length ≤ 8 ∧
    ∀ o ∈ d.instances, o.actions.map Action.looseKey = key
  confident : 50 ≤ d.confidence ∧ d.confidence ≤ 100

/-- What holds of a component by itself. -/
structure ComponentDraft.Sound (options : ComponentOptions) (pages : List Page)
    (d : ComponentDraft) : Prop where
  enabled : d.type.isEnabled options = true
  occurs : ∀ o ∈ d.instances, ∃ p ∈ pages, o.IsOn p ∧ p.HasBlock o.actions
  exact : d.isExact = true ↔ ∀ o ∈ d.instances, ∀ o' ∈ d.instances,
    o.actions.map Action.exactKey = o'.actions.map Action.exactKey
  recurs : d.isProvisional = false → d.Recurs options
  provisional : d.isProvisional = true →
    options.minAppearances.val = 1 ∧ ∃ o, d.instances = [o] ∧ 2 ≤ o.actions.length

/-- The actions that a component takes. -/
def ComponentDraft.numbers (d : ComponentDraft) : List Nat := d.instances.flatMap Occurrence.numbers

/-- What every choice keeps: its components are sound, and what they take has no two owners. -/
structure Choice.Exclusive (options : ComponentOptions) (pages : List Page) (c : Choice) :
    Prop where
  drafts : ∀ d ∈ c.drafts, d.Sound options pages
  taken : c.taken = c.drafts.flatMap ComponentDraft.numbers
  apart : c.taken.Nodup

namespace Choice.Exclusive

variable {options : ComponentOptions} {pages : List Page} {c : Choice}

theorem exclusive_nothing : ({} : Choice).Exclusive options pages := ⟨nofun, rfl, .nil⟩

theorem exclusive_recommend (h : c.Exclusive options pages) (advice : Recommendation) :
    (c.recommend advice).Exclusive options pages := ⟨h.drafts, h.taken, h.apart⟩

theorem exclusive_accept (h : c.Exclusive options pages) {d : ComponentDraft}
    (sound : d.Sound options pages)
    (own : d.numbers.Nodup) (free : ∀ o ∈ d.instances, c.isFree o = true) :
    (c.accept d).Exclusive options pages where
  drafts := by
    intro e he
    rcases List.mem_append.mp he with he | he
    · exact h.drafts e he
    · exact List.mem_singleton.mp he ▸ sound
  taken := by
    simp only [Choice.accept, List.flatMap_append, List.flatMap_singleton, ← h.taken]
    rfl
  apart := by
    refine List.nodup_append.mpr ⟨h.apart, own, ?_⟩
    rintro n old m new rfl
    obtain ⟨o, ho, hn⟩ := List.mem_flatMap.mp new
    exact Choice.isFree_iff.mp (free o ho) n hn old

theorem exclusive_tryPattern (h : c.Exclusive options pages) (apart : PagesApart pages)
    {r : Recurrence}
    (hr : r ∈ recurrences options.required pages) :
    (c.tryPattern options options.required r).Exclusive options pages := by
  rcases c.tryPattern_cases options options.required r with
    same | ⟨confidence, same⟩ | ⟨d, same, enough, enabled, low, high, picked, exact', steady⟩
  · rw [same]
    exact h
  · rw [same]
    exact h.exclusive_recommend _
  · rw [same]
    obtain ⟨seen, inside, shown⟩ := Choice.exists_seen_picked (c := c) hr
    rw [← picked] at shown
    have on : List.Forall₂ (fun o p => o.IsOn p) d.instances seen := shown.imp fun _ _ hs => hs.1.on
    have positive : 0 < d.instances.length := by
      have : 2 ≤ options.required := Nat.le_max_right _ _
      omega
    have filled := List.ne_nil_of_length_pos positive
    have alike : ∀ o ∈ d.instances, 1 ≤ o.actions.length ∧ o.actions.length ≤ longestPattern ∧
        o.actions.map Action.looseKey = r.key ∧ c.isFree o = true := by
      intro o ho
      obtain ⟨p, -, shows, free⟩ := exists_right_of_mem shown ho
      exact ⟨List.length_pos_iff.mpr shows.on.filled, shows.short, shows.key, free⟩
    have recurs : d.Recurs options := by
      -- the pages of the instances are among those that are apart, each of them once
      refine ⟨enough, ?_, ⟨r.key, ?_⟩, low, high⟩
      · rw [map_page_eq on]
        exact (inside.map Page.number).nodup apart.numbers
      · obtain ⟨o, rest, ho⟩ := List.exists_cons_of_ne_nil filled
        obtain ⟨long, short, key, -⟩ := alike o (by simp [ho])
        rw [← key, List.length_map]
        exact ⟨long, short, fun q hq => (alike q hq).2.2.1.trans key.symm⟩
    refine h.exclusive_accept ⟨enabled, ?_, ?_, fun _ => recurs, ?_⟩ (apart.nodup_numbers inside on)
      fun o ho => (alike o ho).2.2.2
    · intro o ho
      obtain ⟨p, hp, ison⟩ := exists_right_of_mem on ho
      exact ⟨p, inside.subset hp, ison, ison.hasBlock⟩
    · rw [exact', allExact_iff filled]
    · intro provisional
      rw [steady] at provisional
      cases provisional

end Choice.Exclusive

/-- The landmarks of a page take actions of the page, in their order. -/
theorem sublist_landmarkStretches (c : Choice) (p : Page) :
    ((p.landmarkStretches c).flatMap Occurrence.numbers).Sublist (p.actions.map Action.number) := by
  have stretches : ∀ q : Action → Bool,
      (p.runs.flatMap (stretchesFrom q [])).flatten.Sublist p.actions := by
    intro q
    have inRuns : (p.runs.flatMap fun run => (stretchesFrom q [] run).flatten).Sublist
        (p.runs.flatMap id) :=
      List.Sublist.flatMap_right p.runs fun run _ => sublist_flatten_stretchesFrom q [] run
    have onPage : p.runs.flatten.Sublist p.actions := sublist_flatten_runsFrom [] p.actions
    rw [List.flatMap_id] at inRuns
    rw [List.flatMap_def, List.flatten_flatten, List.map_map]
    exact inRuns.trans onPage
  simp only [Page.landmarkStretches, List.flatMap_map, Occurrence.numbers]
  rw [List.flatMap_def, ← List.map_flatten]
  exact ((List.filter_sublist.flatten).trans (stretches _)).map Action.number

theorem mem_landmarkStretches {c : Choice} {p : Page} {o : Occurrence}
    (h : o ∈ p.landmarkStretches c) :
    o.IsOn p ∧ 2 ≤ o.actions.length ∧ c.isFree o = true := by
  refine ⟨Page.isOn_of_mem_landmarkStretches h, ?_⟩
  obtain ⟨s, hs, rfl⟩ := List.mem_map.mp h
  obtain ⟨hs, long⟩ := List.mem_filter.mp hs
  obtain ⟨run, -, hs⟩ := List.mem_flatMap.mp hs
  refine ⟨of_decide_eq_true long, Choice.isFree_iff.mpr ?_⟩
  intro n hn
  obtain ⟨a, ha, rfl⟩ := List.mem_map.mp hn
  have free := of_mem_stretchesFrom hs (fun _ hx => absurd hx List.not_mem_nil) a ha
  simpa using (Bool.and_eq_true_iff.mp free).1

namespace Choice.Exclusive

variable {options : ComponentOptions} {pages : List Page} {c : Choice} {p : Page}

theorem exclusive_tryStretch (h : c.Exclusive options pages) (hp : p ∈ pages) {o : Occurrence}
    (on : o.IsOn p) (long : 2 ≤ o.actions.length) (own : o.numbers.Nodup)
    (free : c.isFree o = true) :
    (c.tryStretch options p.name o).Exclusive options pages ∧
      ∀ n ∈ (c.tryStretch options p.name o).taken, n ∈ c.taken ∨ n ∈ o.numbers := by
  rcases c.tryStretch_cases options p.name o with
    same | ⟨type, confidence, same⟩ | ⟨d, same, one, enabled, instances, exact', provisional⟩
  · rw [same]
    exact ⟨h, fun n hn => .inl hn⟩
  · rw [same]
    exact ⟨h.exclusive_recommend _, fun n hn => .inl hn⟩
  · rw [same]
    have taken : d.numbers = o.numbers := by
      rw [ComponentDraft.numbers, instances, List.flatMap_singleton]
    have only : ∀ q ∈ d.instances, q = o := by
      intro q hq
      rw [instances] at hq
      exact List.mem_singleton.mp hq
    refine ⟨h.exclusive_accept ⟨enabled, ?_, ?_, ?_, fun _ => ⟨one, o, instances, long⟩⟩
      (taken ▸ own) ?_, ?_⟩
    · intro q hq
      rw [only q hq]
      exact ⟨p, hp, on, on.hasBlock⟩
    · refine ⟨fun _ q hq q' hq' => ?_, fun _ => exact'⟩
      rw [only q hq, only q' hq']
    · intro steady
      rw [provisional] at steady
      cases steady
    · intro q hq
      rw [only q hq]
      exact free
    · intro n hn
      rcases List.mem_append.mp hn with old | new
      · exact .inl old
      · exact .inr (taken ▸ new)

/-- Landmarks that are apart do not get into each other's way. -/
theorem exclusive_foldl_tryStretch (h : c.Exclusive options pages) (hp : p ∈ pages)
    {os : List Occurrence}
    (on : ∀ o ∈ os, o.IsOn p ∧ 2 ≤ o.actions.length ∧ c.isFree o = true)
    (apart : (os.flatMap Occurrence.numbers).Nodup) :
    (os.foldl (Choice.tryStretch options p.name) c).Exclusive options pages := by
  induction os generalizing c with
  | nil => exact h
  | cons o rest ih =>
    obtain ⟨own, later, different⟩ := List.nodup_append.mp apart
    obtain ⟨ison, long, free⟩ := on o List.mem_cons_self
    obtain ⟨next, taken⟩ := h.exclusive_tryStretch hp ison long own free
    -- the others were free before `o` was tried, and `o` takes no action but its own
    refine ih next ?_ later
    intro q hq
    obtain ⟨qison, qlong, qfree⟩ := on q (List.mem_cons_of_mem _ hq)
    refine ⟨qison, qlong, Choice.isFree_iff.mpr ?_⟩
    intro n hn hold
    rcases taken n hold with old | new
    · exact Choice.isFree_iff.mp qfree n hn old
    · exact different n new n (List.mem_flatMap.mpr ⟨q, hq, hn⟩) rfl

theorem exclusive_foldl_tryPattern (h : c.Exclusive options pages) (apart : PagesApart pages)
    {rs : List Recurrence} (hr : ∀ r ∈ rs, r ∈ recurrences options.required pages) :
    (rs.foldl (Choice.tryPattern options options.required) c).Exclusive options pages := by
  induction rs generalizing c with
  | nil => exact h
  | cons r rest ih =>
    exact ih (h.exclusive_tryPattern apart (hr r List.mem_cons_self))
      fun s hs => hr s (List.mem_cons_of_mem _ hs)

theorem exclusive_foldl_addProvisional (h : c.Exclusive options pages) (apart : PagesApart pages)
    {chosen : List Page} (hs : chosen ⊆ pages) :
    (chosen.foldl (Choice.addProvisional options) c).Exclusive options pages := by
  induction chosen generalizing c with
  | nil => exact h
  | cons p rest ih =>
    have hp : p ∈ pages := hs List.mem_cons_self
    have page : (p.actions.map Action.number).Nodup := by
      have inside : p.actions.Sublist (pages.flatMap Page.actions) :=
        List.sublist_flatten_of_mem (List.mem_map_of_mem hp)
      exact (inside.map Action.number).nodup apart.actions
    refine ih ?_ fun q hq => hs (List.mem_cons_of_mem _ hq)
    exact h.exclusive_foldl_tryStretch hp (fun o ho => mem_landmarkStretches ho)
      ((sublist_landmarkStretches c p).nodup page)

end Choice.Exclusive

theorem exclusive_chooseComponents (options : ComponentOptions) {pages : List Page}
    (apart : PagesApart pages) : (chooseComponents options pages).Exclusive options pages := by
  refine Choice.Exclusive.exclusive_foldl_addProvisional ?_ apart (List.Subset.refl pages)
  exact Choice.Exclusive.exclusive_nothing.exclusive_foldl_tryPattern apart fun r hr => hr

/-- Naming only puts the drafts in order. -/
theorem perm_nameComponents (drafts : List ComponentDraft) :
    ((nameComponents drafts).map Component.toComponentDraft).Perm drafts := by
  have fits : ∀ sorted : List ComponentDraft,
      sorted.length ≤ (uniqueNames [] (sorted.map ComponentDraft.title)).1.length := by
    intro sorted
    rw [length_uniqueNames, List.length_map]
  have same := List.map_fst_zip (fits (drafts.mergeSort fun a b => a.firstLine ≤ b.firstLine))
  rw [← List.zipIdx_map_fst 0 (List.zip _ _), List.map_map] at same
  have sorted : (nameComponents drafts).map Component.toComponentDraft =
      drafts.mergeSort fun a b => a.firstLine ≤ b.firstLine := by
    rw [nameComponents, List.map_map]
    exact same
  rw [sorted]
  exact List.mergeSort_perm drafts _

/-- What holds of the components of some pages: none takes what another one has, each action that
is taken is left to its owner, and each component is sound by itself. -/
structure ComponentFindings.Sound (options : ComponentOptions) (pages : List Page)
    (found : ComponentFindings) : Prop where
  numbers : (found.components.map Component.number).Nodup
  apart : (found.components.flatMap fun c => c.numbers).Nodup
  owned : ∀ n k, valueAt? n (usages found.components) = some k ↔
    ∃ c ∈ found.components, c.number = k ∧ n ∈ c.numbers
  sound : ∀ c ∈ found.components, c.toComponentDraft.Sound options pages

/-- On pages that are apart, all components that are found are sound. -/
theorem findComponents_sound (options : ComponentOptions) {pages : List Page}
    (apart : PagesApart pages) : (findComponents options pages).Sound options pages := by
  have exclusive := exclusive_chooseComponents options apart
  have named := perm_nameComponents (chooseComponents options pages).drafts
  have taken : ((findComponents options pages).components.flatMap fun c => c.numbers).Nodup := by
    have drafts := exclusive.apart
    rw [exclusive.taken] at drafts
    have all := (named.flatMap_right ComponentDraft.numbers).nodup_iff.mpr drafts
    rwa [List.flatMap_map] at all
  have keys : (usages (findComponents options pages).components).map Prod.fst =
      (findComponents options pages).components.flatMap fun c => c.numbers := by
    simp [usages, List.map_flatMap, ComponentDraft.numbers, Function.comp_def]
  refine ⟨?_, taken, ?_, ?_⟩
  · have numbers := map_number_nameComponents (chooseComponents options pages).drafts
    exact numbers ▸ List.nodup_range'
  · intro n k
    constructor
    · intro found
      obtain ⟨c, hc, hn⟩ := List.mem_flatMap.mp (mem_of_valueAt? found)
      obtain ⟨m, hm, same⟩ := List.mem_map.mp hn
      obtain ⟨rfl, rfl⟩ := Prod.mk.inj same
      exact ⟨c, hc, rfl, hm⟩
    · rintro ⟨c, hc, rfl, hn⟩
      refine valueAt?_of_mem (keys ▸ taken) (List.mem_flatMap.mpr ⟨c, hc, ?_⟩)
      exact List.mem_map.mpr ⟨n, hn, rfl⟩
  · intro c hc
    exact exclusive.drafts _ (named.subset (List.mem_map_of_mem hc))

/-- A menu on two pages. -/
def sharedMenu : Text :=
  "page.click('nav a');\npage.goto('/cart');\npage.click('nav b');\npage.click('nav a');"

theorem findComponents_sound_sharedMenu :
    ∃ spans, PageSpan.ofStatements {} (Statement.ofText sharedMenu) = .ok spans ∧
      PagesApart (Page.ofSpans {} spans) ∧
      ((findComponents {} (Page.ofSpans {} spans)).components.map fun c =>
        (c.type, c.confidence, c.isExact, c.instances.map Occurrence.numbers)) =
          [(.navigation, 85, true, [[1], [4]])] ∧
      (findComponents {} (Page.ofSpans {} spans)).Sound {} (Page.ofSpans {} spans) := by
  have found : (PageSpan.ofStatements {} (Statement.ofText sharedMenu)).toOption.any (fun spans =>
      ((findComponents {} (Page.ofSpans {} spans)).components.map fun c =>
        (c.type, c.confidence, c.isExact, c.instances.map Occurrence.numbers)) ==
          [(.navigation, 85, true, [[1], [4]])]) = true := by
    decide +kernel
  obtain ⟨spans, hs, found⟩ := exists_ok_of_any found
  have apart : PagesApart (Page.ofSpans {} spans) := (pagesBind_bindSpans {} 1 {} spans).pagesApart
  exact ⟨spans, hs, apart, beq_iff_eq.mp found, findComponents_sound {} apart⟩

end PageObjects
