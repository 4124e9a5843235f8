import Mathlib.Algebra.GroupWithZero.Nat
import PageObjects.Proofs.Method.Holding
import PageObjects.Proofs.Lists
import PageObjects.Proofs.Report.Ids
import PageObjects.Proofs.Report.Registry

namespace PageObjects

/-- Whether an item uses the selector with a normal form. -/
def Item.uses (raw : Text) (i : Item) : Bool := i.selector.any fun s => s.raw == raw

theorem Item.uses_eq_true {raw : Text} {i : Item} :
    i.uses raw = true ↔ ∃ s, i.selector = some s ∧ s.raw = raw := by
  simp [uses, Option.any_eq_true]

/-- The normal forms of the selectors of items, one for each use. -/
def usedTexts (items : List Item) : List Text := (items.filterMap Item.selector).map (·.raw)

theorem mem_usedTexts {items : List Item} {raw : Text} :
    raw ∈ usedTexts items ↔ ∃ i ∈ items, i.uses raw = true := by
  simp only [usedTexts, List.mem_map, List.mem_filterMap, Item.uses_eq_true]
  constructor
  · rintro ⟨s, ⟨i, hi, hs⟩, same⟩
    exact ⟨i, hi, s, hs, same⟩
  · rintro ⟨i, hi, s, hs, same⟩
    exact ⟨s, ⟨i, hi, hs⟩, same⟩

/-- The items that use a selector, with their lines. -/
def usersOf (raw : Text) (items : List Item) : List (Id × Nat) :=
  (items.filter (Item.uses raw)).map fun i => (i.id, i.line)

theorem usersOf_concat (raw : Text) (items : List Item) (i : Item) :
    usersOf raw (items ++ [i]) =
      usersOf raw items ++ if i.uses raw then [(i.id, i.line)] else [] := by
  rw [usersOf, List.filter_append, List.map_append, ← usersOf]
  by_cases uses : i.uses raw = true <;> simp [uses]

theorem usedTexts_concat (items : List Item) {i : Item} {s : AssessedSelector}
    (hs : i.selector = some s) :
    usedTexts (items ++ [i]) = usedTexts items ++ [s.raw] := by
  simp [usedTexts, hs]

namespace Registry

def texts (r : Registry) : List Text := r.map fun e => e.selector.raw

theorem note_of_mem {n : Nat} {s : AssessedSelector} {user : Id × Nat} {r : Registry}
    (old : s.raw ∈ r.texts) (distinct : r.texts.Nodup) :
    note n s user r = r.map fun e =>
      if e.selector.raw = s.raw then { e with users := e.users ++ [user] } else e := by
  induction r generalizing n with
  | nil => cases old
  | cons e rest ih =>
    obtain ⟨new, distinct⟩ := List.nodup_cons.mp distinct
    rw [note, List.map_cons]
    by_cases own : e.selector.raw = s.raw
    · have others : rest.map (fun e =>
          if e.selector.raw = s.raw then { e with users := e.users ++ [user] } else e) = rest := by
        refine (List.map_congr_left fun f hf => ?_).trans (List.map_id rest)
        refine if_neg fun same => new ?_
        exact List.mem_map.mpr ⟨f, hf, same.trans own.symm⟩
      rw [if_pos own, if_pos own, others]
    · rw [if_neg own, if_neg own]
      rcases List.mem_cons.mp old with same | old
      · exact absurd same.symm own
      · rw [ih old distinct]

theorem note_of_notMem {n : Nat} {s : AssessedSelector} {user : Id × Nat} {r : Registry}
    (new : s.raw ∉ r.texts) : note n s user r = r ++ [⟨n + r.length + 1, s, [user]⟩] := by
  induction r generalizing n with
  | nil => rfl
  | cons e rest ih =>
    obtain ⟨other, new⟩ := not_or.mp (mt List.mem_cons.mpr new)
    rw [note, if_neg (Ne.symm other), ih new, List.cons_append, List.length_cons]
    congr 4
    omega

/-- What the entries are once some items are noted. -/
structure Holds (items : List Item) (r : Registry) : Prop where
  texts : r.texts = (usedTexts items).eraseDups
  users : ∀ e ∈ r, e.users = usersOf e.selector.raw items
  origin : ∀ e ∈ r, ∃ i ∈ items, i.selector = some e.selector

namespace Holds

variable {items : List Item} {r : Registry} {i : Item} {s : AssessedSelector}

theorem nodup_texts (h : r.Holds items) : r.texts.Nodup := h.texts ▸ nodup_eraseDups _

theorem mem_texts (h : r.Holds items) {raw : Text} :
    raw ∈ r.texts ↔ ∃ i ∈ items, i.uses raw = true := by
  rw [h.texts, List.mem_eraseDups, mem_usedTexts]

theorem holds_concat_of_none (h : r.Holds items) (hs : i.selector = none) :
    r.Holds (items ++ [i]) where
  texts := by
    rw [h.texts]
    simp [usedTexts, hs]
  users := by
    intro e he
    rw [usersOf_concat, h.users e he]
    simp [Item.uses, hs]
  origin := fun e he => (h.origin e he).imp fun j hj => ⟨List.mem_append_left _ hj.1, hj.2⟩

theorem holds_concat_of_known (h : r.Holds items) (hs : i.selector = some s)
    (old : s.raw ∈ r.texts) :
    Holds (items ++ [i]) (r.map fun e =>
      if e.selector.raw = s.raw then { e with users := e.users ++ [(i.id, i.line)] } else e) where
  texts := by
    have used : s.raw ∈ usedTexts items := by
      rw [h.texts] at old
      exact List.mem_eraseDups.mp old
    rw [usedTexts_concat items hs, eraseDups_concat, if_pos used, ← h.texts, Registry.texts,
      List.map_map, Registry.texts]
    refine List.map_congr_left fun e _ => ?_
    dsimp only [Function.comp]
    split <;> rfl
  users := by
    intro e' he'
    obtain ⟨e, he, rfl⟩ := List.mem_map.mp he'
    rw [usersOf_concat]
    split
    next own =>
      have uses : i.uses e.selector.raw = true := Item.uses_eq_true.mpr ⟨s, hs, own.symm⟩
      rw [← h.users e he, if_pos uses]
    next other =>
      have unused : ¬ i.uses e.selector.raw = true := by
        rw [Item.uses_eq_true]
        rintro ⟨t, ht, same⟩
        obtain rfl := Option.some.inj (hs.symm.trans ht)
        exact other same.symm
      rw [← h.users e he, if_neg unused, List.append_nil]
  origin := by
    intro e' he'
    obtain ⟨e, he, rfl⟩ := List.mem_map.mp he'
    obtain ⟨j, hj, selector⟩ := h.origin e he
    refine ⟨j, List.mem_append_left _ hj, ?_⟩
    split <;> exact selector

theorem holds_concat_of_new (h : r.Holds items) (hs : i.selector = some s) (new : s.raw ∉ r.texts)
    (n : Nat) :
    Holds (items ++ [i]) (r ++ [⟨n, s, [(i.id, i.line)]⟩]) where
  texts := by
    have unused : s.raw ∉ usedTexts items := by
      rw [h.texts] at new
      exact fun used => new (List.mem_eraseDups.mpr used)
    rw [usedTexts_concat items hs, eraseDups_concat, if_neg unused, ← h.texts, Registry.texts,
      List.map_append]
    rfl
  users := by
    intro e he
    rw [usersOf_concat]
    rcases List.mem_append.mp he with he | he
    · have unused : ¬ i.uses e.selector.raw = true := by
        rw [Item.uses_eq_true]
        rintro ⟨t, ht, same⟩
        obtain rfl := Option.some.inj (hs.symm.trans ht)
        exact new (same ▸ List.mem_map_of_mem he)
      rw [h.users e he, if_neg unused, List.append_nil]
    · rw [List.mem_singleton.mp he]
      have unused : usersOf s.raw items = [] := by
        rw [usersOf, List.filter_eq_nil_iff.mpr, List.map_nil]
        exact fun j hj uses => new (h.mem_texts.mpr ⟨j, hj, uses⟩)
      have uses : i.uses s.raw = true := Item.uses_eq_true.mpr ⟨s, hs, rfl⟩
      rw [unused, if_pos uses, List.nil_append]
  origin := by
    intro e he
    rcases List.mem_append.mp he with he | he
    · exact (h.origin e he).imp fun j hj => ⟨List.mem_append_left _ hj.1, hj.2⟩
    · rw [List.mem_singleton.mp he]
      exact ⟨i, List.mem_append_right _ (List.mem_singleton_self i), hs⟩

theorem holds_noteItem (h : r.Holds items) (i : Item) : (r.noteItem i).Holds (items ++ [i]) := by
  rw [Registry.noteItem]
  split
  next hs => exact h.holds_concat_of_none hs
  next s hs =>
    by_cases old : s.raw ∈ r.texts
    · rw [note_of_mem old h.nodup_texts]
      exact h.holds_concat_of_known hs old
    · rw [note_of_notMem old]
      exact h.holds_concat_of_new hs old _

theorem holds_foldl (h : r.Holds items) (more : List Item) :
    (more.foldl Registry.noteItem r).Holds (items ++ more) := by
  induction more generalizing items r with
  | nil => simpa using h
  | cons i rest ih => simpa using ih (h.holds_noteItem i)

end Holds

theorem holds_ofItems (items : List Item) : (ofItems items).Holds items := by
  have start : Holds [] [] := ⟨rfl, by simp, by simp⟩
  simpa [ofItems] using start.holds_foldl items

/-- What an index of the uses of some items is. -/
structure Indexes (items : List Item) (r : Registry) : Prop where
  texts : r.map (fun e => e.selector.raw) = (usedTexts items).eraseDups
  numbers : r.map RegistryEntry.number = List.range' 1 r.length
  users : ∀ e ∈ r, e.users = usersOf e.selector.raw items
  once : ∀ i ∈ items, ∀ s, i.selector = some s → ∃ e ∈ r, e.selector.raw = s.raw ∧
    (i.id, i.line) ∈ e.users ∧ (e.users.map Prod.fst).count i.id = 1 ∧
    ∀ f ∈ r, i.id ∈ f.users.map Prod.fst → f = e
  alike : ∀ e ∈ r, ∀ i ∈ items, ∀ s, i.selector = some s → s.raw = e.selector.raw →
    s.strategy = e.selector.strategy ∧ s.details = e.selector.details ∧
      s.signalsShown = e.selector.signalsShown ∧ s.fragility = e.selector.fragility

/-- What the report of an index says: how many selectors there are, in all and by strategy, the
entries in order, and which of them are used repeatedly or fragile. -/
structure ReportedAs (items : List Item) (r : Registry) (j : Json) : Prop where
  total : j.field? "total_selectors" = some (Json.nat r.length)
  strategies : ∃ counts : List (Strategy × Nat),
    j.field? "by_strategy" = some (.object (counts.map fun (s, n) => (s.name, Json.nat n))) ∧
      (counts.map Prod.snd).sum = r.length ∧
      ∀ s, valueAt? s counts = some (r.countP fun e => e.selector.strategy == s)
  entries : j.field? "selectors" = some (.list (r.map RegistryEntry.toJson))
  numbered : j.along ["selectors", "id"] =
    (List.range' 1 r.length).map fun n => idText (.selector n)
  users : ∀ e ∈ r, e.toJson.field? "used_by" = some (ids (e.users.map Prod.fst)) ∧
    e.toJson.field? "line_numbers" = some (Json.nats (e.users.map Prod.snd))
  repeated : j.along ["duplicates", "selector_id"] =
    (r.filter fun e => 2 ≤ items.countP (Item.uses e.selector.raw)).map fun e =>
      idText (.selector e.number)
  fragile : j.along ["fragile_selectors", "selector_id"] =
    (r.filter fun e => stabilityThreshold < (Selector.ofNormal e.selector.raw).score).map fun e =>
      idText (.selector e.number)

end Registry

/-- Whether a selector is assessed by what its normal form says. -/
structure AssessedSelector.Follows (s : AssessedSelector) : Prop where
  classified : s.toSelector = Selector.ofNormal s.raw
  scored : s.fragility = s.toSelector.score
  signals : s.signalsShown = s.toSelector.signals

theorem Selector.raw_ofNormal (raw : Text) : (Selector.ofNormal raw).raw = raw := rfl

theorem Content.follows_of_assessed? {options : SelectorOptions} {c : Content}
    {s : AssessedSelector} (h : c.assessed? options = some s) : s.Follows := by
  obtain ⟨e, -, rfl⟩ := Option.map_eq_some_iff.mp h
  exact ⟨rfl, rfl, rfl⟩

/-- Pages as they are bound, with their assertions placed or not. -/
inductive BoundPages (options : SelectorOptions) (spans : List PageSpan) : List Page → Prop where
  | bound : BoundPages options spans (Page.ofSpans options spans)
  | placed : BoundPages options spans (placeAssertions (Page.ofSpans options spans))

theorem selector_of_mem_bindStatements {options : SelectorOptions} {tally : Tally}
    {statements : List Statement} :
    ∀ i ∈ (bindStatements options tally statements).1,
      i.selector = i.statement.assessed? options := by
  induction statements generalizing tally with
  | nil => exact List.forall_mem_nil _
  | cons s rest ih =>
    rw [bindStatements]
    split
    next => exact ih
    next => exact List.forall_mem_cons.mpr ⟨rfl, ih⟩
    next => exact List.forall_mem_cons.mpr ⟨rfl, ih⟩

theorem selector_of_mem_bindSpans {options : SelectorOptions} {number : Nat} {tally : Tally}
    {spans : List PageSpan} :
    ∀ i ∈ allItems (bindSpans options number tally spans),
      i.selector = i.statement.assessed? options := by
  induction spans generalizing number tally with
  | nil => exact List.forall_mem_nil _
  | cons span rest ih =>
    rw [bindSpans, allItems, List.flatMap_cons]
    exact List.forall_mem_append.mpr ⟨selector_of_mem_bindStatements, ih⟩

namespace BoundPages

variable {options : SelectorOptions} {spans : List PageSpan} {pages : List Page}

theorem binds (h : BoundPages options spans pages) : PagesBind 1 {} spans pages := by
  cases h with
  | bound => exact pagesBind_bindSpans options 1 {} spans
  | placed => exact pagesBind_placeAssertions options spans

theorem selector_eq (h : BoundPages options spans pages) :
    ∀ i ∈ allItems pages, i.selector = i.statement.assessed? options := by
  cases h with
  | bound => exact selector_of_mem_bindSpans
  | placed =>
    have pairs : (allItems (placeAssertions (Page.ofSpans options spans))).map
        (fun i => (i.selector, i.statement)) =
          (allItems (Page.ofSpans options spans)).map fun i => (i.selector, i.statement) := by
      rw [allItems, allItems, List.map_flatMap, List.map_flatMap, List.flatMap_def,
        List.flatMap_def, placeAssertions, map_placePages]
      exact fun previous p => map_placeItems (fun _ _ => rfl) _ previous p.items
    intro i hi
    obtain ⟨j, hj, same⟩ := List.mem_map.mp (pairs ▸ List.mem_map_of_mem hi)
    obtain ⟨selector, statement⟩ := Prod.mk.inj same
    rw [← selector, ← statement]
    exact selector_of_mem_bindSpans j hj

theorem follows (h : BoundPages options spans pages) {i : Item} (hi : i ∈ allItems pages)
    {s : AssessedSelector} (hs : i.selector = some s) : s.Follows :=
  Content.follows_of_assessed? ((h.selector_eq i hi).symm.trans hs)

end BoundPages

namespace AssessedSelector.Follows

variable {s t : AssessedSelector}

/-- The normal form tells all that a selector says and how it scores. -/
theorem eq_of_raw_eq (hs : s.Follows) (ht : t.Follows) (same : s.raw = t.raw) :
    s.strategy = t.strategy ∧ s.details = t.details ∧ s.signalsShown = t.signalsShown ∧
      s.fragility = t.fragility := by
  have equal : s.toSelector = t.toSelector := by
    rw [hs.classified, same, ← ht.classified]
  refine ⟨congrArg Selector.strategy equal, congrArg Selector.details equal, ?_, ?_⟩
  · rw [hs.signals, ht.signals, equal]
  · rw [hs.scored, ht.scored, equal]

theorem fragility_eq (h : s.Follows) : s.fragility = (Selector.ofNormal s.raw).score := by
  rw [h.scored, h.classified, Selector.raw_ofNormal]

end AssessedSelector.Follows

namespace Registry

theorem sum_byStrategy (r : Registry) : (r.byStrategy.map Prod.snd).sum = r.length := by
  have counts : ∀ r : Registry, r.byStrategy.map Prod.snd =
      countedStrategies.map fun s => r.countP fun e => e.selector.strategy == s := fun r => by
    rw [byStrategy, List.map_map]
    rfl
  induction r with
  | nil => rfl
  | cons e rest ih =>
    rw [counts] at ih ⊢
    simp only [countedStrategies, List.map_cons, List.map_nil, List.sum_cons, List.sum_nil,
      List.countP_cons, List.length_cons] at ih ⊢
    cases e.selector.strategy <;> simp <;> omega

theorem valueAt?_byStrategy (r : Registry) (s : Strategy) :
    valueAt? s r.byStrategy = some (r.countP fun e => e.selector.strategy == s) := by
  cases s <;> rfl

variable {items : List Item} {r : Registry}

namespace Holds

/-- The entry of an item is that of its own normal form, and no other has the item. -/
theorem exists_entry (h : r.Holds items) (apart : (items.map Item.id).Nodup) {i : Item}
    (hi : i ∈ items) {s : AssessedSelector} (hs : i.selector = some s) :
    ∃ e ∈ r, e.selector.raw = s.raw ∧ (i.id, i.line) ∈ e.users ∧
      (e.users.map Prod.fst).count i.id = 1 ∧
      ∀ f ∈ r, i.id ∈ f.users.map Prod.fst → f = e := by
  obtain ⟨e, he, raw⟩ := List.mem_map.mp
    (h.mem_texts.mpr ⟨i, hi, Item.uses_eq_true.mpr ⟨s, hs, rfl⟩⟩)
  have idsOf : ∀ f ∈ r, f.users.map Prod.fst =
      (items.filter (Item.uses f.selector.raw)).map Item.id := by
    intro f hf
    rw [h.users f hf, usersOf, List.map_map]
    rfl
  have own : i ∈ items.filter (Item.uses e.selector.raw) :=
    List.mem_filter.mpr ⟨hi, Item.uses_eq_true.mpr ⟨s, hs, raw.symm⟩⟩
  have user : (i.id, i.line) ∈ e.users := by
    rw [h.users e he]
    exact List.mem_map_of_mem own
  refine ⟨e, he, raw, user, ?_, ?_⟩
  · have distinct : ((items.filter (Item.uses e.selector.raw)).map Item.id).Nodup :=
      (List.filter_sublist.map Item.id).nodup apart
    rw [idsOf e he]
    exact List.count_eq_one_of_mem distinct (List.mem_map_of_mem own)
  · intro f hf there
    rw [idsOf f hf] at there
    obtain ⟨j, hj, same⟩ := List.mem_map.mp there
    obtain ⟨hj, uses⟩ := List.mem_filter.mp hj
    obtain rfl := List.inj_on_of_nodup_map apart hj hi same
    obtain ⟨t, ht, raw'⟩ := Item.uses_eq_true.mp uses
    obtain rfl := Option.some.inj (hs.symm.trans ht)
    exact List.inj_on_of_nodup_map h.nodup_texts hf he (raw'.symm.trans raw.symm)

theorem follows (h : r.Holds items)
    (assessed : ∀ i ∈ items, ∀ s, i.selector = some s → s.Follows) :
    ∀ e ∈ r, e.selector.Follows := by
  intro e he
  obtain ⟨i, hi, hs⟩ := h.origin e he
  exact assessed i hi e.selector hs

end Holds

theorem indexes_ofItems (apart : (items.map Item.id).Nodup)
    (assessed : ∀ i ∈ items, ∀ s, i.selector = some s → s.Follows) :
    (ofItems items).Indexes items := by
  have holds := holds_ofItems items
  refine ⟨holds.texts, (complete_ofItems items).numbers, holds.users,
    fun i hi s hs => holds.exists_entry apart hi hs, ?_⟩
  intro e he i hi s hs same
  exact (assessed i hi s hs).eq_of_raw_eq (holds.follows assessed e he) same

theorem reported_ofItems (assessed : ∀ i ∈ items, ∀ s, i.selector = some s → s.Follows) :
    (ofItems items).ReportedAs items (ofItems items).toJson := by
  have holds := holds_ofItems items
  refine ⟨rfl, ⟨_, rfl, sum_byStrategy _, valueAt?_byStrategy _⟩, rfl, ?_,
    fun e _ => ⟨rfl, rfl⟩, ?_, ?_⟩
  · rw [← (complete_ofItems items).numbers, List.map_map, Json.along_of_each rfl fun _ => rfl,
      List.map_map]
    rfl
  · have repeated : (ofItems items).filter RegistryEntry.isRepeated =
        (ofItems items).filter fun e => 2 ≤ items.countP (Item.uses e.selector.raw) := by
      refine List.filter_congr fun e he => ?_
      rw [RegistryEntry.isRepeated, holds.users e he, usersOf, List.length_map,
        List.countP_eq_length_filter]
    rw [← repeated, Json.along_of_each rfl fun _ => rfl, List.map_map]
    rfl
  · have fragile : (ofItems items).filter RegistryEntry.isFragile = (ofItems items).filter fun e =>
        stabilityThreshold < (Selector.ofNormal e.selector.raw).score := by
      refine List.filter_congr fun e he => ?_
      rw [RegistryEntry.isFragile, (holds.follows assessed e he).fragility_eq]
    rw [← fragile, Json.along_of_each rfl fun _ => rfl, List.map_map]
    rfl

end Registry

/-- The registry of bound pages is an index of their selectors, and it is reported as one. -/
theorem registry_indexes (options : SelectorOptions) (spans : List PageSpan) {pages : List Page}
    (made : BoundPages options spans pages) :
    (Registry.ofItems (allItems pages)).Indexes (allItems pages) ∧
      (Registry.ofItems (allItems pages)).ReportedAs (allItems pages)
        (Registry.ofItems (allItems pages)).toJson :=
  ⟨Registry.indexes_ofItems made.binds.nodup_ids fun _ hi _ hs => made.follows hi hs,
    Registry.reported_ofItems fun _ hi _ hs => made.follows hi hs⟩

/-- One button in three spellings, and a note that is checked. -/
def buttonScript : Text :=
  "page.click('#save');\npage.locator(\"#save\").hover();\n" ++
    "expect(page.locator('#note')).toBeVisible();\npage.locator(`#save`).click();"

/-- Its selectors with their users. -/
def buttonUsers : List (Text × List (Id × Nat)) := [
  ("#save", [(.action 1, 1), (.action 2, 2), (.action 3, 4)]), ("#note", [(.assertion 1, 3)])]

theorem registry_indexes_buttonScript :
    ∃ spans, PageSpan.ofStatements {} (Statement.ofText buttonScript) = .ok spans ∧
      let pages := placeAssertions (Page.ofSpans {} spans)
      BoundPages {} spans pages ∧
        (Registry.ofItems (allItems pages)).map (fun e => (e.selector.raw, e.users)) =
          buttonUsers ∧
        (Registry.ofItems (allItems pages)).Indexes (allItems pages) ∧
        (Registry.ofItems (allItems pages)).ReportedAs (allItems pages)
          (Registry.ofItems (allItems pages)).toJson := by
  have found : (PageSpan.ofStatements {} (Statement.ofText buttonScript)).toOption.any (fun spans =>
      (Registry.ofItems (allItems (placeAssertions (Page.ofSpans {} spans)))).map
        (fun e => (e.selector.raw, e.users)) == buttonUsers) = true := by
    decide +kernel
  obtain ⟨spans, hs, found⟩ := exists_ok_of_any found
  exact ⟨spans, hs, .placed, beq_iff_eq.mp found, registry_indexes {} spans .placed⟩

end PageObjects
