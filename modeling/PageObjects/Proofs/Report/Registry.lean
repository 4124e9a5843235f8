import PageObjects.Report.Registry

namespace PageObjects

namespace Registry

/-- What holds of the entries from number `n + 1` on, once some items are noted. -/
structure Sound (n : Nat) (items : List Item) (r : Registry) : Prop where
  numbers : r.map RegistryEntry.number = List.range' (n + 1) r.length
  users : ∀ e ∈ r, ∀ user ∈ e.users, ∃ i ∈ items, user = (i.id, i.line)

variable {n : Nat} {items : List Item} {r : Registry}

theorem sound_nil (n : Nat) (items : List Item) : Sound n items [] := ⟨rfl, by simp⟩

theorem Sound.sound_note (h : Sound n items r) (s : AssessedSelector) {i : Item} (hi : i ∈ items) :
    Sound n items (note n s (i.id, i.line) r) := by
  induction r generalizing n with
  | nil =>
    refine ⟨rfl, ?_⟩
    intro e he user hu
    rw [List.mem_singleton.mp he] at hu
    exact ⟨i, hi, List.mem_singleton.mp hu⟩
  | cons e rest ih =>
    obtain ⟨first, numbers⟩ := List.cons.inj (h.numbers.trans List.range'_succ)
    obtain ⟨own, users⟩ := List.forall_mem_cons.mp h.users
    rw [Registry.note]
    split
    next =>
      refine ⟨?_, List.forall_mem_cons.mpr ⟨?_, users⟩⟩
      · rw [List.map_cons, numbers, first, List.length_cons, List.range'_succ]
      · intro user hu
        rcases List.mem_append.mp hu with hu | hu
        · exact own user hu
        · exact ⟨i, hi, List.mem_singleton.mp hu⟩
    next =>
      have later := ih ⟨numbers, users⟩
      refine ⟨?_, List.forall_mem_cons.mpr ⟨own, later.users⟩⟩
      rw [List.map_cons, later.numbers, first, List.length_cons, List.range'_succ]

/-- The selectors that are noted stay noted. -/
theorem raw_mem_note (n : Nat) (s : AssessedSelector) (user : Id × Nat) (r : Registry) :
    s.raw ∈ (note n s user r).map (fun e => e.selector.raw) ∧
      ∀ raw ∈ r.map (fun e => e.selector.raw),
        raw ∈ (note n s user r).map fun e => e.selector.raw := by
  induction r generalizing n with
  | nil => simp [note]
  | cons e rest ih =>
    obtain ⟨new, old⟩ := ih (n + 1)
    rw [note]
    split
    next he => simp [he]
    next =>
      refine ⟨List.mem_cons_of_mem _ new, ?_⟩
      intro raw hr
      rcases List.mem_cons.mp hr with rfl | hr
      · exact List.mem_cons_self
      · exact List.mem_cons_of_mem _ (old raw hr)

/-- What holds once all of some items are noted. -/
structure Complete (items : List Item) (r : Registry) : Prop extends Sound 0 items r where
  selectors : ∀ i ∈ items, ∀ s, i.selector = some s → s.raw ∈ r.map fun e => e.selector.raw

theorem Complete.complete_noteItem (h : Complete items r) (i : Item) :
    Complete (items ++ [i]) (r.noteItem i) := by
  have wider : Sound 0 (items ++ [i]) r := by
    refine ⟨h.numbers, ?_⟩
    intro e he user hu
    obtain ⟨j, hj, same⟩ := h.users e he user hu
    exact ⟨j, List.mem_append_left _ hj, same⟩
  cases hs : i.selector with
  | none =>
    refine ⟨by simpa [Registry.noteItem, hs] using wider, ?_⟩
    intro j hj s hjs
    rcases List.mem_append.mp hj with hj | hj
    · simpa [Registry.noteItem, hs] using h.selectors j hj s hjs
    · rw [List.mem_singleton.mp hj, hs] at hjs
      cases hjs
  | some t =>
    obtain ⟨new, old⟩ := raw_mem_note 0 t (i.id, i.line) r
    refine ⟨by simpa only [Registry.noteItem, hs] using wider.sound_note t (by simp), ?_⟩
    intro j hj s hjs
    simp only [Registry.noteItem, hs]
    rcases List.mem_append.mp hj with hj | hj
    · exact old s.raw (h.selectors j hj s hjs)
    · rw [List.mem_singleton.mp hj, hs] at hjs
      rwa [← Option.some.inj hjs]

theorem Complete.complete_foldl (h : Complete items r) (more : List Item) :
    Complete (items ++ more) (more.foldl Registry.noteItem r) := by
  induction more generalizing items r with
  | nil => simpa using h
  | cons i rest ih => simpa using ih (h.complete_noteItem i)

theorem complete_ofItems (items : List Item) : Complete items (ofItems items) := by
  have start : Complete [] [] := ⟨sound_nil 0 [], by simp⟩
  simpa [ofItems] using start.complete_foldl items

/-- The number of every selector of an item can be looked up, and it is that of an entry. -/
theorem exists_numberOf? {i : Item} (hi : i ∈ items) {s : AssessedSelector}
    (hs : i.selector = some s) :
    ∃ e ∈ ofItems items, (ofItems items).numberOf? s.raw = some e.number := by
  obtain ⟨e, he, hr⟩ := List.mem_map.mp ((complete_ofItems items).selectors i hi s hs)
  have found : ((ofItems items).find? fun e => e.selector.raw == s.raw).isSome := by
    rw [List.find?_isSome]
    exact ⟨e, he, by simp [hr]⟩
  obtain ⟨found, hf⟩ := Option.isSome_iff_exists.mp found
  exact ⟨found, List.mem_of_find?_eq_some hf, by rw [numberOf?, hf]; rfl⟩

theorem exists_of_numberOf? {raw : Text} {k : Nat} (h : r.numberOf? raw = some k) :
    ∃ e ∈ r, e.number = k := by
  obtain ⟨e, he, hk⟩ := Option.map_eq_some_iff.mp h
  exact ⟨e, List.mem_of_find?_eq_some he, hk⟩

/-- Every strategy is counted. -/
theorem mem_countedStrategies (s : Strategy) : s ∈ countedStrategies := by
  cases s <;> decide

end Registry

end PageObjects
