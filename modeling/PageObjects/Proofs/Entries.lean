import Mathlib.Data.List.Basic
import PageObjects.Json.Basic

namespace PageObjects

variable {α β : Type} [DecidableEq α]

theorem mem_of_valueAt? {key : α} {value : β} {entries : List (α × β)}
    (h : valueAt? key entries = some value) : (key, value) ∈ entries := by
  induction entries with
  | nil => cases h
  | cons entry rest ih =>
    obtain ⟨k, v⟩ := entry
    rw [valueAt?] at h
    split at h
    next hk =>
      cases Option.some.inj h
      simp [hk]
    next => exact List.mem_cons_of_mem _ (ih h)

/-- Only keys that are there are found. -/
theorem valueAt?_eq_none_iff {key : α} {entries : List (α × β)} :
    valueAt? key entries = none ↔ key ∉ entries.map Prod.fst := by
  induction entries with
  | nil => simp [valueAt?]
  | cons entry rest ih =>
    obtain ⟨k, v⟩ := entry
    rw [valueAt?, List.map_cons, List.mem_cons, not_or, ← ih]
    split
    next same => simp [same]
    next other => simp [Ne.symm other]

theorem eq_or_mem_of_mem_setEntry {key : α} {value : β} {entries : List (α × β)} {entry : α × β}
    (h : entry ∈ setEntry key value entries) : entry = (key, value) ∨ entry ∈ entries := by
  induction entries with
  | nil => exact .inl (List.mem_singleton.mp h)
  | cons first rest ih =>
    obtain ⟨k, v⟩ := first
    rw [setEntry] at h
    split at h
    next hk =>
      rcases List.mem_cons.mp h with h | h
      · exact .inl (by rw [h, hk])
      · exact .inr (List.mem_cons_of_mem _ h)
    next =>
      rcases List.mem_cons.mp h with h | h
      · exact .inr (h ▸ List.mem_cons_self)
      · exact (ih h).imp_right (List.mem_cons_of_mem _)

/-- Setting an entry changes what is found for its key and for no other. -/
theorem valueAt?_setEntry (key other : α) (value : β) (entries : List (α × β)) :
    valueAt? other (setEntry key value entries) =
      if key = other then some value else valueAt? other entries := by
  induction entries with
  | nil => rfl
  | cons entry rest ih =>
    obtain ⟨k, v⟩ := entry
    rw [setEntry]
    split
    next hk =>
      subst hk
      rw [valueAt?, valueAt?]
      split <;> rfl
    next hk =>
      rw [valueAt?, valueAt?, ih]
      split
      next same =>
        subst same
        rw [if_neg (Ne.symm hk)]
      next => rfl

@[simp] theorem valueAt?_setEntry_self (key : α) (value : β) (entries : List (α × β)) :
    valueAt? key (setEntry key value entries) = some value := by
  rw [valueAt?_setEntry, if_pos rfl]

theorem mem_keys_setEntry {key other : α} {value : β} {entries : List (α × β)} :
    other ∈ (setEntry key value entries).map Prod.fst ↔
      other = key ∨ other ∈ entries.map Prod.fst := by
  induction entries with
  | nil => simp [setEntry]
  | cons entry rest ih =>
    obtain ⟨k, v⟩ := entry
    rw [setEntry]
    split
    next hk => simp [hk]
    next => simp only [List.map_cons, List.mem_cons, ih, or_left_comm]

theorem nodup_keys_setEntry {key : α} {value : β} {entries : List (α × β)}
    (distinct : (entries.map Prod.fst).Nodup) :
    ((setEntry key value entries).map Prod.fst).Nodup := by
  induction entries with
  | nil => exact List.nodup_cons.mpr ⟨List.not_mem_nil, List.nodup_nil⟩
  | cons entry rest ih =>
    obtain ⟨k, v⟩ := entry
    obtain ⟨new, distinct⟩ := List.nodup_cons.mp distinct
    rw [setEntry]
    split
    next => exact List.nodup_cons.mpr ⟨new, distinct⟩
    next hk =>
      refine List.nodup_cons.mpr ⟨?_, ih distinct⟩
      intro there
      rcases mem_keys_setEntry.mp there with same | there
      · exact hk same
      · exact new there

/-- Setting an entry keeps those with other keys. -/
theorem mem_setEntry_of_ne {key : α} {value : β} {entries : List (α × β)} {entry : α × β}
    (h : entry ∈ entries) (other : entry.1 ≠ key) : entry ∈ setEntry key value entries := by
  induction entries with
  | nil => cases h
  | cons first rest ih =>
    obtain ⟨k, v⟩ := first
    rw [setEntry]
    split
    next hk =>
      rcases List.mem_cons.mp h with rfl | h
      · exact absurd hk other
      · exact List.mem_cons_of_mem _ h
    next =>
      rcases List.mem_cons.mp h with rfl | h
      · exact List.mem_cons_self
      · exact List.mem_cons_of_mem _ (ih h)

/-- Entries set one after another. -/
def setEntries (entries new : List (α × β)) : List (α × β) :=
  new.foldl (fun entries entry => setEntry entry.1 entry.2 entries) entries

theorem setEntry_of_notMem {key : α} {entries : List (α × β)} (new : key ∉ entries.map Prod.fst)
    (value : β) : setEntry key value entries = entries ++ [(key, value)] := by
  induction entries with
  | nil => rfl
  | cons entry rest ih =>
    obtain ⟨k, v⟩ := entry
    rw [List.map_cons, List.mem_cons, not_or] at new
    rw [setEntry, if_neg (Ne.symm new.1), ih new.2, List.cons_append]

/-- Entries with new keys, all distinct, stand in the order in which they are set. -/
theorem setEntries_of_nodup {entries new : List (α × β)}
    (distinct : ((entries ++ new).map Prod.fst).Nodup) :
    setEntries entries new = entries ++ new := by
  induction new generalizing entries with
  | nil => exact (List.append_nil entries).symm
  | cons entry new ih =>
    have whole : entries ++ entry :: new = entries ++ [entry] ++ new := by simp
    have fresh : entry.1 ∉ entries.map Prod.fst := by
      rw [List.map_append, List.map_cons] at distinct
      exact fun there => (List.nodup_append.mp distinct).2.2 _ there _ List.mem_cons_self rfl
    rw [whole] at distinct
    rw [whole, ← ih distinct, ← setEntry_of_notMem fresh]
    rfl

theorem mem_keys_setEntries {other : α} {entries new : List (α × β)} :
    other ∈ (setEntries entries new).map Prod.fst ↔
      other ∈ new.map Prod.fst ∨ other ∈ entries.map Prod.fst := by
  induction new generalizing entries with
  | nil => simp [setEntries]
  | cons entry new ih =>
    rw [setEntries, List.foldl_cons, ← setEntries, ih, mem_keys_setEntry, List.map_cons,
      List.mem_cons, or_left_comm, or_assoc]

theorem nodup_keys_setEntries {entries new : List (α × β)}
    (distinct : (entries.map Prod.fst).Nodup) : ((setEntries entries new).map Prod.fst).Nodup := by
  induction new generalizing entries with
  | nil => exact distinct
  | cons entry new ih => exact ih (nodup_keys_setEntry distinct)

theorem mem_setEntries_of_notMem {entries new : List (α × β)} {entry : α × β}
    (h : entry ∈ entries) (other : entry.1 ∉ new.map Prod.fst) : entry ∈ setEntries entries new := by
  induction new generalizing entries with
  | nil => exact h
  | cons next new ih =>
    rw [List.map_cons, List.mem_cons, not_or] at other
    exact ih (mem_setEntry_of_ne h other.1) other.2

/-- The last entry for a key stays. -/
theorem mem_setEntries_of_last {entries before behind : List (α × β)} {entry : α × β}
    (last : entry.1 ∉ behind.map Prod.fst) :
    entry ∈ setEntries entries (before ++ entry :: behind) := by
  rw [setEntries, List.foldl_append, List.foldl_cons]
  exact mem_setEntries_of_notMem (mem_of_valueAt? (valueAt?_setEntry_self _ _ _)) last

theorem valueAt?_map {γ : Type} (f : β → γ) (key : α) (entries : List (α × β)) :
    valueAt? key (entries.map fun (k, v) => (k, f v)) = (valueAt? key entries).map f := by
  induction entries with
  | nil => rfl
  | cons entry rest ih =>
    obtain ⟨k, v⟩ := entry
    rw [List.map_cons, valueAt?, valueAt?, ih]
    split <;> rfl

theorem setEntry_map {γ : Type} (f : β → γ) (key : α) (value : β) (entries : List (α × β)) :
    setEntry key (f value) (entries.map fun (k, v) => (k, f v)) =
      (setEntry key value entries).map fun (k, v) => (k, f v) := by
  induction entries with
  | nil => rfl
  | cons entry rest ih =>
    obtain ⟨k, v⟩ := entry
    rw [List.map_cons, setEntry, setEntry, ih]
    split <;> rfl

/-- Where keys are distinct, looking one up finds its own value. -/
theorem valueAt?_of_mem {key : α} {value : β} {entries : List (α × β)}
    (distinct : (entries.map Prod.fst).Nodup) (h : (key, value) ∈ entries) :
    valueAt? key entries = some value := by
  induction entries with
  | nil => cases h
  | cons first rest ih =>
    obtain ⟨k, v⟩ := first
    obtain ⟨new, distinct⟩ := List.nodup_cons.mp distinct
    rw [valueAt?]
    rcases List.mem_cons.mp h with h | h
    · obtain ⟨rfl, rfl⟩ := Prod.mk.inj h
      rw [if_pos rfl]
    · have other : k ≠ key := fun hk => new (List.mem_map.mpr ⟨_, h, hk.symm⟩)
      rw [if_neg other]
      exact ih distinct h

/-- Looking up all keys in turn gives all values in turn. -/
theorem flatMap_valueAt? {γ : Type} {entries : List (α × List γ)}
    (distinct : (entries.map Prod.fst).Nodup) :
    (entries.map Prod.fst).flatMap (fun key => (valueAt? key entries).getD []) =
      entries.flatMap Prod.snd := by
  rw [List.flatMap_map]
  refine List.flatMap_congr ?_
  intro entry he
  rw [valueAt?_of_mem distinct he, Option.getD_some]

/-- Entries without those whose key has come before. -/
def firstEntries : List (α × β) → List (α × β)
  | [] => []
  | entry :: rest => entry :: (firstEntries rest).filter fun other => other.1 ≠ entry.1

/-- Of entries added one after another, those with new keys stay. -/
theorem foldl_addEntry (entries new : List (α × β)) :
    new.foldl (fun found (key, value) => addEntry key value found) entries =
      entries ++ (firstEntries new).filter fun entry => entry.1 ∉ entries.map Prod.fst := by
  induction new generalizing entries with
  | nil => simp [firstEntries]
  | cons entry new ih =>
    obtain ⟨key, value⟩ := entry
    rw [List.foldl_cons, firstEntries, List.filter_cons, List.filter_filter]
    dsimp only
    by_cases there : key ∈ entries.map Prod.fst
    · have found : (valueAt? key entries).isSome = true :=
        Option.isSome_iff_ne_none.mpr fun missing => valueAt?_eq_none_iff.mp missing there
      have same : addEntry key value entries = entries := if_pos found
      rw [same, ih, if_neg (by simpa using there)]
      congr 1
      refine List.filter_congr fun other _ => ?_
      by_cases own : other.1 = key
      · simpa [own] using there
      · simp [own]
    · have missing : ¬ (valueAt? key entries).isSome = true := by
        simp [valueAt?_eq_none_iff.mpr there]
      have longer : addEntry key value entries = entries ++ [(key, value)] := if_neg missing
      rw [longer, ih, if_pos (by simpa using there), List.append_assoc,
        List.singleton_append]
      congr 2
      refine List.filter_congr fun other _ => ?_
      rw [Bool.eq_iff_iff]
      simp

/-- The first value of a key counts. -/
theorem valueAt?_firstEntries (key : α) (entries : List (α × β)) :
    valueAt? key (firstEntries entries) = valueAt? key entries := by
  have kept : ∀ {other : α}, other ≠ key → ∀ entries : List (α × β),
      valueAt? key (entries.filter fun entry => entry.1 ≠ other) = valueAt? key entries := by
    intro other apart entries
    induction entries with
    | nil => rfl
    | cons entry rest ih =>
      obtain ⟨k, v⟩ := entry
      rw [List.filter_cons, valueAt?]
      split
      next => rw [valueAt?, ih]
      next gone =>
        have same : k = other := by simpa using gone
        rw [ih, if_neg (same ▸ apart)]
  induction entries with
  | nil => rfl
  | cons entry rest ih =>
    obtain ⟨k, v⟩ := entry
    rw [firstEntries, valueAt?, valueAt?]
    split
    next => rfl
    next other => rw [kept other, ih]

/-- Setting an entry to what it is changes nothing. -/
theorem setEntry_of_valueAt? {key : α} {value : β} {entries : List (α × β)}
    (there : valueAt? key entries = some value) : setEntry key value entries = entries := by
  induction entries with
  | nil => cases there
  | cons entry rest ih =>
    obtain ⟨k, v⟩ := entry
    rw [valueAt?] at there
    rw [setEntry]
    split at there
    next own => rw [if_pos own, Option.some.inj there]
    next other => rw [if_neg other, ih there]

theorem mem_keys_firstEntries {key : α} {entries : List (α × β)} :
    key ∈ (firstEntries entries).map Prod.fst ↔ key ∈ entries.map Prod.fst := by
  rw [← not_iff_not, ← valueAt?_eq_none_iff, ← valueAt?_eq_none_iff, valueAt?_firstEntries]

theorem nodup_keys_firstEntries (entries : List (α × β)) :
    ((firstEntries entries).map Prod.fst).Nodup := by
  induction entries with
  | nil => exact List.nodup_nil
  | cons entry rest ih =>
    rw [firstEntries, List.map_cons]
    refine List.nodup_cons.mpr ⟨?_, ih.sublist (List.filter_sublist.map Prod.fst)⟩
    intro there
    obtain ⟨other, kept, same⟩ := List.mem_map.mp there
    have apart : other.1 ≠ entry.1 := by simpa using (List.mem_filter.mp kept).2
    exact apart same

/-- An entry is among the first ones if it is what is found for its key. -/
theorem mem_firstEntries_iff {key : α} {value : β} {entries : List (α × β)} :
    (key, value) ∈ firstEntries entries ↔ valueAt? key entries = some value := by
  rw [← valueAt?_firstEntries]
  exact ⟨valueAt?_of_mem (nodup_keys_firstEntries entries), mem_of_valueAt?⟩

end PageObjects
