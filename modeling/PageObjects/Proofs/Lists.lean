import Mathlib.Data.List.Forall2
import Mathlib.Data.List.Induction
import Mathlib.Data.List.Nodup

namespace PageObjects

section Numbering

variable {α β : Type} {l : List α} {number : α → Nat}

theorem map_succ_zipIdx (l : List α) :
    (l.zipIdx.map fun x => x.2 + 1) = List.range' 1 l.length := by
  have shifted := @List.map_add_range' 1 0 l.length 1
  rw [← List.zipIdx_map_snd 0 l, List.map_map] at shifted
  rw [← shifted]
  exact List.map_congr_left fun x _ => Nat.add_comm x.2 1

/-- What is numbered through is distinct in whatever tells the numbers apart. -/
theorem nodup_of_numbers (h : l.map number = List.range' 1 l.length) {kind : Nat → β}
    (injective : Function.Injective kind) : (l.map fun x => kind (number x)).Nodup := by
  have distinct : (l.map number).Nodup := h ▸ List.nodup_range'
  have mapped := distinct.map injective
  rwa [List.map_map] at mapped

end Numbering

section Pairing

variable {α β : Type} {R : α → β → Prop} {as : List α} {bs : List β}

theorem exists_left_of_mem (h : List.Forall₂ R as bs) {b : β} (hb : b ∈ bs) : ∃ a ∈ as, R a b := by
  induction h with
  | nil => cases hb
  | cons first _ ih =>
    rcases List.mem_cons.mp hb with rfl | hb
    · exact ⟨_, List.mem_cons_self, first⟩
    · obtain ⟨a, ha, related⟩ := ih hb
      exact ⟨a, List.mem_cons_of_mem _ ha, related⟩

theorem exists_right_of_mem (h : List.Forall₂ R as bs) {a : α} (ha : a ∈ as) :
    ∃ b ∈ bs, R a b :=
  exists_left_of_mem (R := fun b a => R a b) (List.Forall₂.flip h) ha

theorem exists_getElem?_of_forall₂ (h : List.Forall₂ R as bs) {k : Nat} {a : α}
    (ha : as[k]? = some a) : ∃ b, bs[k]? = some b ∧ R a b := by
  induction h generalizing k with
  | nil => simp at ha
  | @cons first b as bs related _ ih =>
    cases k with
    | zero =>
      rw [List.getElem?_cons_zero] at ha
      exact ⟨b, rfl, Option.some.inj ha ▸ related⟩
    | succ k => exact ih (by rwa [List.getElem?_cons_succ] at ha)

/-- What is picked from items has partners of its own among theirs. -/
theorem exists_sublist_forall₂_filterMap {γ : Type} {S : γ → β → Prop} {pick : α → Option γ}
    (h : List.Forall₂ R as bs) (picked : ∀ a b c, R a b → pick a = some c → S c b) :
    ∃ kept, kept.Sublist bs ∧ List.Forall₂ S (as.filterMap pick) kept := by
  induction h with
  | nil => exact ⟨[], .slnil, .nil⟩
  | @cons a b as bs first _ ih =>
    obtain ⟨kept, inside, related⟩ := ih
    cases ha : pick a with
    | none =>
      rw [List.filterMap_cons_none ha]
      exact ⟨kept, inside.cons b, related⟩
    | some c =>
      rw [List.filterMap_cons_some ha]
      exact ⟨b :: kept, inside.cons_cons b, .cons (picked a b c first ha) related⟩

end Pairing

section Repeats

variable {α : Type} [BEq α] [LawfulBEq α]

theorem eraseDups_concat (l : List α) (x : α) :
    (l ++ [x]).eraseDups = if x ∈ l then l.eraseDups else l.eraseDups ++ [x] := by
  have new : [x].removeAll l = if x ∈ l then [] else [x] := by
    by_cases h : x ∈ l <;> simp [List.removeAll, h]
  rw [List.eraseDups_append, new]
  by_cases h : x ∈ l
  · rw [if_pos h, if_pos h, List.eraseDups_nil, List.append_nil]
  · rw [if_neg h, if_neg h, List.eraseDups_cons, List.filter_nil, List.eraseDups_nil]

theorem nodup_eraseDups (l : List α) : l.eraseDups.Nodup := by
  induction l using List.reverseRecOn with
  | nil => exact .nil
  | append_singleton l x ih =>
    rw [eraseDups_concat]
    split
    next => exact ih
    next new =>
      refine List.nodup_append.mpr ⟨ih, List.nodup_singleton x, ?_⟩
      rintro y old z last rfl
      rw [List.mem_singleton.mp last] at old
      exact new (List.mem_eraseDups.mp old)

theorem eraseDups_of_nodup {l : List α} (distinct : l.Nodup) : l.eraseDups = l := by
  induction l using List.reverseRecOn with
  | nil => rfl
  | append_singleton l x ih =>
    obtain ⟨before, -, apart⟩ := List.nodup_append.mp distinct
    have new : x ∉ l := fun old => apart x old x List.mem_cons_self rfl
    rw [eraseDups_concat, if_neg new, ih before]

end Repeats

end PageObjects
