import Mathlib.Data.List.Sort
import PageObjects.Proofs.Component.Run
import PageObjects.Proofs.Lists

namespace PageObjects

/-- What makes an occurrence one of a page: it is a stretch of one of its runs. -/
structure Occurrence.IsOn (p : Page) (o : Occurrence) : Prop where
  page : o.page = p.number
  filled : o.actions ≠ []
  inRun : ∃ run ∈ p.runs, o.actions <:+: run

/-- What every choice keeps: each component has instances, all of them on the pages, and only these
pages are recommended to look at. -/
structure Choice.Sound (pages : List Page) (c : Choice) : Prop where
  filled : ∀ d ∈ c.drafts, d.instances ≠ []
  occurs : ∀ d ∈ c.drafts, ∀ o ∈ d.instances, ∃ p ∈ pages, o.IsOn p
  relates : ∀ r ∈ c.recommendations, ∀ i ∈ r.related, ∃ p ∈ pages, i = p.id

namespace Occurrence.IsOn

variable {o : Occurrence} {p : Page}

/-- The actions of an occurrence are neighbours on its page but for waits. -/
theorem hasBlock (h : o.IsOn p) : p.HasBlock o.actions := by
  obtain ⟨run, hr, before, behind, ho⟩ := h.inRun
  obtain ⟨whole, inside, unbroken, rfl⟩ :=
    @exists_block_of_mem_runsFrom run [] p.actions isUnbroken_nil hr
  obtain ⟨front, back, rfl, front', -⟩ := List.filter_eq_append_iff.mp ho.symm
  obtain ⟨lead, block, rfl, -, kept⟩ := List.filter_eq_append_iff.mp front'
  have part : block <:+: lead ++ block ++ back := ⟨lead, back, rfl⟩
  exact ⟨block, part.trans inside, fun a ha => unbroken a (part.subset ha), kept.symm⟩

theorem sublist_actions (h : o.IsOn p) : o.actions.Sublist p.actions := by
  obtain ⟨block, inside, -, kept⟩ := h.hasBlock
  rw [kept]
  exact List.filter_sublist.trans inside.sublist

theorem isPatternItem (h : o.IsOn p) : ∀ a ∈ o.actions, a.isPatternItem = true := by
  obtain ⟨block, -, -, kept⟩ := h.hasBlock
  intro a ha
  rw [kept] at ha
  exact (List.mem_filter.mp ha).2

end Occurrence.IsOn

theorem Page.isOn_of_mem_occurrences {p : Page} {o : KeyedOccurrence} (h : o ∈ p.occurrences) :
    o.2.IsOn p := by
  obtain ⟨run, hr, h⟩ := List.mem_flatMap.mp h
  obtain ⟨window, hw, rfl⟩ := List.mem_map.mp h
  obtain ⟨inside, filled⟩ := mem_windows hw
  refine ⟨rfl, by simpa using filled, run, hr, ?_⟩
  have mapped := inside.map Prod.snd
  simpa [Function.comp_def] using mapped

/-- An occurrence that shows a pattern on a page. -/
structure Occurrence.Shows (key : PatternKey) (p : Page) (o : Occurrence) : Prop where
  on : o.IsOn p
  key : o.actions.map Action.looseKey = key
  short : o.actions.length ≤ longestPattern

theorem Page.shows_of_mem_occurrences {p : Page} {o : KeyedOccurrence} (h : o ∈ p.occurrences) :
    o.2.Shows o.1 p := by
  have on := Page.isOn_of_mem_occurrences h
  obtain ⟨run, -, h⟩ := List.mem_flatMap.mp h
  obtain ⟨window, hw, rfl⟩ := List.mem_map.mp h
  refine ⟨on, ?_, by simpa using length_le_of_mem_windows hw⟩
  rw [List.map_map]
  refine List.map_congr_left ?_
  intro x hx
  obtain ⟨a, -, rfl⟩ := List.mem_map.mp ((mem_windows hw).1.subset hx)
  rfl

/-- The occurrences of a recurring pattern lie page by page. -/
theorem exists_seen_of_mem_recurrences {required : Nat} {pages : List Page} {r : Recurrence}
    (h : r ∈ recurrences required pages) : ∃ seen, seen.Sublist pages ∧
      List.Forall₂ (fun os p => ∀ o ∈ os, o.Shows r.key p) r.byPage seen := by
  obtain ⟨hr, -⟩ := List.mem_filter.mp (List.mem_mergeSort.mp h)
  obtain ⟨key, -, rfl⟩ := List.mem_map.mp hr
  dsimp only [recurrenceOf]
  rw [← List.filterMap_eq_filter, List.map_map]
  refine exists_sublist_forall₂_filterMap (R := fun os p => ∀ o ∈ os, o.Shows key p) ?_ ?_
  · rw [List.forall₂_map_left_iff, List.forall₂_same]
    intro p hp o ho
    obtain ⟨keyed, hk, rfl⟩ := List.mem_map.mp ho
    obtain ⟨hk, same⟩ := List.mem_filter.mp hk
    exact beq_iff_eq.mp same ▸ Page.shows_of_mem_occurrences hk
  · intro os p os' shown kept
    obtain ⟨rfl, -⟩ := Option.guard_eq_some_iff.mp kept
    exact shown

/-- The occurrences of a recurring pattern are on the pages. -/
theorem isOn_of_mem_recurrences {required : Nat} {pages : List Page} {r : Recurrence}
    (h : r ∈ recurrences required pages) {os : List Occurrence} (hos : os ∈ r.byPage)
    {o : Occurrence} (ho : o ∈ os) : ∃ p ∈ pages, o.IsOn p := by
  obtain ⟨seen, inside, shown⟩ := exists_seen_of_mem_recurrences h
  obtain ⟨p, hp, shows⟩ := exists_right_of_mem shown hos
  exact ⟨p, inside.subset hp, (shows o ho).on⟩

theorem Page.isOn_of_mem_landmarkStretches {p : Page} {c : Choice} {o : Occurrence}
    (h : o ∈ p.landmarkStretches c) : o.IsOn p := by
  obtain ⟨s, hs, rfl⟩ := List.mem_map.mp h
  obtain ⟨hs, long⟩ := List.mem_filter.mp hs
  obtain ⟨run, hr, hs⟩ := List.mem_flatMap.mp hs
  refine ⟨rfl, ?_, run, hr, by simpa using mem_stretchesFrom hs⟩
  apply List.ne_nil_of_length_pos
  have := of_decide_eq_true long
  show 0 < s.length
  omega

theorem componentConfidence_le (length pages : Nat) (isExact : Bool) (type : ComponentType) :
    componentConfidence length pages isExact type ≤ 100 := by
  rw [componentConfidence]
  split
  next => decide
  next => exact Nat.min_le_right _ _

/-- What a choice picks of a pattern: on each page the first occurrence that is free. -/
def Choice.picked (c : Choice) (r : Recurrence) : List Occurrence :=
  r.byPage.filterMap fun os => os.find? c.isFree

/-- A pattern is passed over, recommended or accepted with what is picked of it. -/
theorem Choice.tryPattern_cases (options : ComponentOptions) (required : Nat) (c : Choice)
    (r : Recurrence) :
    c.tryPattern options required r = c ∨
      (∃ confidence, c.tryPattern options required r =
        c.recommend (weakPattern (c.picked r) confidence)) ∨
      ∃ d : ComponentDraft, c.tryPattern options required r = c.accept d ∧
        required ≤ d.instances.length ∧ d.type.isEnabled options = true ∧
        50 ≤ d.confidence ∧ d.confidence ≤ 100 ∧ d.instances = c.picked r ∧
        d.isExact = allExact d.instances ∧ d.isProvisional = false := by
  simp only [tryPattern]
  split
  next => exact .inl rfl
  next enough =>
    split
    next => exact .inl rfl
    next enabled =>
      split
      next => exact .inr (.inl ⟨_, rfl⟩)
      next confident =>
        refine .inr (.inr ⟨_, rfl, Nat.le_of_not_lt enough, ?_, Nat.le_of_not_lt confident,
          componentConfidence_le .., rfl, rfl, rfl⟩)
        simpa using enabled

/-- A landmark is passed over, recommended or, if one appearance is enough, accepted. -/
theorem Choice.tryStretch_cases (options : ComponentOptions) (name : Text) (c : Choice)
    (o : Occurrence) :
    c.tryStretch options name o = c ∨
      (∃ type confidence, c.tryStretch options name o =
        c.recommend (.seenOnce type name o.page confidence (linesOf [o]))) ∨
      ∃ d : ComponentDraft, c.tryStretch options name o = c.accept d ∧
        options.minAppearances.val = 1 ∧ d.type.isEnabled options = true ∧
        d.instances = [o] ∧ d.isExact = true ∧ d.isProvisional = true := by
  simp only [tryStretch]
  split
  next => exact .inl rfl
  next enabled =>
    split
    next => exact .inr (.inl ⟨_, _, rfl⟩)
    next one =>
      have := options.minAppearances.property
      refine .inr (.inr ⟨_, rfl, by omega, ?_, rfl, rfl, rfl⟩)
      simpa using enabled

namespace Choice.Sound

variable {pages : List Page} {c : Choice} {options : ComponentOptions}

theorem sound_nothing : ({} : Choice).Sound pages := ⟨by simp, by simp, by simp⟩

theorem sound_accept (h : c.Sound pages) {d : ComponentDraft} (filled : d.instances ≠ [])
    (occurs : ∀ o ∈ d.instances, ∃ p ∈ pages, o.IsOn p) : (c.accept d).Sound pages := by
  refine ⟨?_, ?_, h.relates⟩
  · intro e he
    rcases List.mem_append.mp he with he | he
    · exact h.filled e he
    · exact List.mem_singleton.mp he ▸ filled
  · intro e he
    rcases List.mem_append.mp he with he | he
    · exact h.occurs e he
    · exact List.mem_singleton.mp he ▸ occurs

theorem sound_recommend (h : c.Sound pages) {r : Recommendation}
    (relates : ∀ i ∈ r.related, ∃ p ∈ pages, i = p.id) : (c.recommend r).Sound pages := by
  refine ⟨h.filled, h.occurs, ?_⟩
  intro s hs
  rcases List.mem_append.mp hs with hs | hs
  · exact h.relates s hs
  · exact List.mem_singleton.mp hs ▸ relates

/-- A pattern is accepted with instances on at least two pages, or only recommended. -/
theorem sound_tryPattern (h : c.Sound pages) {r : Recurrence}
    (occurs : ∀ os ∈ r.byPage, ∀ o ∈ os, ∃ p ∈ pages, o.IsOn p) :
    (c.tryPattern options options.required r).Sound pages := by
  have seen : ∀ o ∈ c.picked r, ∃ p ∈ pages, o.IsOn p := by
    intro o ho
    obtain ⟨os, hos, ho⟩ := List.mem_filterMap.mp ho
    exact occurs os hos o (List.mem_of_find?_eq_some ho)
  rcases c.tryPattern_cases options options.required r with
    same | ⟨confidence, same⟩ | ⟨d, same, enough, -, -, -, picked, -, -⟩
  · rw [same]
    exact h
  · rw [same]
    refine h.sound_recommend ?_
    intro i hi
    simp only [weakPattern, Recommendation.related, List.map_map] at hi
    obtain ⟨o, ho, rfl⟩ := List.mem_map.mp hi
    obtain ⟨p, hp, on⟩ := seen o ho
    exact ⟨p, hp, by rw [Function.comp, on.page, Page.id]⟩
  · rw [same]
    have several : 2 ≤ options.required := Nat.le_max_right _ _
    have positive : 0 < d.instances.length := by omega
    exact h.sound_accept (List.ne_nil_of_length_pos positive) (picked ▸ seen)

theorem sound_foldl_tryPattern (h : c.Sound pages) {rs : List Recurrence}
    (occurs : ∀ r ∈ rs, ∀ os ∈ r.byPage, ∀ o ∈ os, ∃ p ∈ pages, o.IsOn p) :
    (rs.foldl (Choice.tryPattern options options.required) c).Sound pages := by
  induction rs generalizing c with
  | nil => exact h
  | cons r rest ih =>
    exact ih (h.sound_tryPattern (occurs r (by simp))) fun s hs => occurs s (by simp [hs])

theorem sound_tryStretch (h : c.Sound pages) {p : Page} (hp : p ∈ pages) {o : Occurrence}
    (on : o.IsOn p) : (c.tryStretch options p.name o).Sound pages := by
  rcases c.tryStretch_cases options p.name o with
    same | ⟨type, confidence, same⟩ | ⟨d, same, -, -, instances, -, -⟩
  · rw [same]
    exact h
  · rw [same]
    refine h.sound_recommend ?_
    intro i hi
    rw [List.mem_singleton.mp hi, on.page]
    exact ⟨p, hp, rfl⟩
  · rw [same]
    refine h.sound_accept (by simp [instances]) ?_
    intro q hq
    rw [instances] at hq
    exact ⟨p, hp, List.mem_singleton.mp hq ▸ on⟩

theorem sound_foldl_tryStretch (h : c.Sound pages) {p : Page} (hp : p ∈ pages)
    {os : List Occurrence}
    (on : ∀ o ∈ os, o.IsOn p) :
    (os.foldl (Choice.tryStretch options p.name) c).Sound pages := by
  induction os generalizing c with
  | nil => exact h
  | cons o rest ih =>
    exact ih (h.sound_tryStretch hp (on o (by simp))) fun q hq => on q (by simp [hq])

theorem sound_foldl_addProvisional (h : c.Sound pages) {chosen : List Page} (hs : chosen ⊆ pages) :
    (chosen.foldl (Choice.addProvisional options) c).Sound pages := by
  induction chosen generalizing c with
  | nil => exact h
  | cons p rest ih =>
    refine ih ?_ fun q hq => hs (by simp [hq])
    exact h.sound_foldl_tryStretch (hs (by simp)) fun o ho => Page.isOn_of_mem_landmarkStretches ho

end Choice.Sound

theorem sound_chooseComponents (options : ComponentOptions) (pages : List Page) :
    (chooseComponents options pages).Sound pages := by
  apply Choice.Sound.sound_foldl_addProvisional _ (List.Subset.refl pages)
  apply Choice.Sound.sound_nothing.sound_foldl_tryPattern
  intro r hr os hos o ho
  exact isOn_of_mem_recurrences hr hos ho

theorem length_uniqueNames (taken names : List Text) :
    (uniqueNames taken names).1.length = names.length := by
  induction names generalizing taken with
  | nil => rfl
  | cons name rest ih => simp [uniqueNames, ih]

/-- Naming only numbers and names the drafts, in a new order. -/
theorem mem_of_mem_nameComponents {drafts : List ComponentDraft} {c : Component}
    (h : c ∈ nameComponents drafts) : c.toComponentDraft ∈ drafts := by
  obtain ⟨⟨⟨d, name⟩, i⟩, hd, rfl⟩ := List.mem_map.mp h
  exact List.mem_mergeSort.mp (List.of_mem_zip (List.fst_mem_of_mem_zipIdx hd)).1

theorem map_number_nameComponents (drafts : List ComponentDraft) :
    (nameComponents drafts).map Component.number = List.range' 1 drafts.length := by
  have named : (nameComponents drafts).length = drafts.length := by
    simp [nameComponents, length_uniqueNames]
  rw [← named]
  simp only [nameComponents, List.map_map, List.length_map, List.length_zipIdx]
  exact map_succ_zipIdx _

/-- The instances of every component are on the pages, and there is one at least. -/
theorem isOn_of_mem_findComponents {options : ComponentOptions} {pages : List Page}
    {c : Component} (h : c ∈ (findComponents options pages).components) :
    c.instances ≠ [] ∧ ∀ o ∈ c.instances, ∃ p ∈ pages, o.IsOn p := by
  have sound := sound_chooseComponents options pages
  have hd := mem_of_mem_nameComponents h
  exact ⟨sound.filled _ hd, sound.occurs _ hd⟩

/-- The first instance, which stands for a component, is on one of the pages. -/
theorem exists_isOn_model {options : ComponentOptions} {pages : List Page} {c : Component}
    (h : c ∈ (findComponents options pages).components) :
    ∃ o, c.instances.head? = some o ∧ c.model = o.actions ∧ ∃ p ∈ pages, o.IsOn p := by
  obtain ⟨filled, occurs⟩ := isOn_of_mem_findComponents h
  obtain ⟨o, rest, first⟩ := List.exists_cons_of_ne_nil filled
  exact ⟨o, by simp [first], by simp [Component.model, first], occurs o (by simp [first])⟩

end PageObjects
