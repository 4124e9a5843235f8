import Mathlib.Data.Finset.Card
import Mathlib.Data.List.Nodup
import Mathlib.Data.List.Perm.Subperm
import Mathlib.Order.Bounds.Basic
import PageObjects.Name

namespace PageObjects

theorem numbered_injective (name : Text) : Function.Injective (numbered name) := by
  intro i j h
  have digits : Text.ofNat i = Text.ofNat j := List.append_cancel_left h
  have values := congrArg (fun digits => Nat.ofDigitChars 10 digits 0) digits
  simpa [Text.ofNat] using values

theorem exists_free_number (name : Text) (taken : List Text) :
    ∃ k ∈ (List.range (taken.length + 1)).map (· + 2), numbered name k ∉ taken := by
  by_contra allTaken
  have inside : ((List.range (taken.length + 1)).map (· + 2)).map (numbered name) ⊆ taken := by
    intro t ht
    obtain ⟨k, hk, rfl⟩ := List.mem_map.mp ht
    by_contra free
    exact allTaken ⟨k, hk, free⟩
  have distinct : (((List.range (taken.length + 1)).map (· + 2)).map (numbered name)).Nodup :=
    (List.nodup_range.map fun _ _ h => Nat.add_right_cancel h).map (numbered_injective name)
  have count := (distinct.subperm inside).length_le
  rw [List.length_map, List.length_map, List.length_range] at count
  omega

/-- The search among the numbers from two on finds one. -/
theorem find?_firstFreeNumber (name : Text) (taken : List Text) :
    (((List.range (taken.length + 1)).map (· + 2)).find?
      fun k => !taken.contains (numbered name k)) = some (firstFreeNumber name taken) := by
  obtain ⟨k, hk, free⟩ := exists_free_number name taken
  have found : (((List.range (taken.length + 1)).map (· + 2)).find?
      fun k => !taken.contains (numbered name k)).isSome = true :=
    List.find?_isSome.mpr ⟨k, hk, by simpa using free⟩
  obtain ⟨n, hn⟩ := Option.isSome_iff_exists.mp found
  rw [firstFreeNumber, hn, Option.getD_some]

theorem firstFreeNumber_spec (name : Text) (taken : List Text) :
    2 ≤ firstFreeNumber name taken ∧ numbered name (firstFreeNumber name taken) ∉ taken := by
  have found := find?_firstFreeNumber name taken
  obtain ⟨m, -, same⟩ := List.mem_map.mp (List.mem_of_find?_eq_some found)
  exact ⟨by omega, by simpa using List.find?_some found⟩

/-- Numbers before the one that is found make no name free. -/
theorem firstFreeNumber_le {name : Text} {taken : List Text} {k : Nat} (two : 2 ≤ k)
    (free : numbered name k ∉ taken) : firstFreeNumber name taken ≤ k := by
  have found := find?_firstFreeNumber name taken
  rw [List.find?_map, Option.map_eq_some_iff] at found
  obtain ⟨m, first, same⟩ := found
  by_contra before
  have known := (List.find?_range_eq_some.mp first).2.2 (k - 2) (by omega)
  have number : k - 2 + 2 = k := Nat.sub_add_cancel two
  simp only [Function.comp_apply, number, Bool.not_not, List.contains_iff_mem] at known
  exact free known

/-- Whether a name is the given one, or that one with a number behind it. -/
def IsVariant (name variant : Text) : Prop :=
  variant = name ∨ ∃ k, 2 ≤ k ∧ variant = numbered name k

theorem uniqueName_isVariant (name : Text) (taken : List Text) :
    IsVariant name (uniqueName name taken) := by
  unfold uniqueName
  split
  next => exact .inr ⟨_, (firstFreeNumber_spec name taken).1, rfl⟩
  next => exact .inl rfl

theorem uniqueName_notMem (name : Text) (taken : List Text) : uniqueName name taken ∉ taken := by
  unfold uniqueName
  split
  next => exact (firstFreeNumber_spec name taken).2
  next free => simpa using free

theorem forall₂_uniqueNames (taken names : List Text) :
    List.Forall₂ IsVariant names (uniqueNames taken names).1 := by
  induction names generalizing taken with
  | nil => exact .nil
  | cons name rest ih => exact .cons (uniqueName_isVariant name taken) (ih _)

theorem nodup_uniqueNames (taken names : List Text) :
    (uniqueNames taken names).1.Nodup ∧ ∀ name ∈ (uniqueNames taken names).1, name ∉ taken := by
  induction names generalizing taken with
  | nil => exact ⟨.nil, nofun⟩
  | cons name rest ih =>
    obtain ⟨distinct, fresh⟩ := ih (uniqueName name taken :: taken)
    have apart : uniqueName name taken ∉ (uniqueNames (uniqueName name taken :: taken) rest).1 :=
      fun again => fresh _ again List.mem_cons_self
    refine ⟨List.nodup_cons.mpr ⟨apart, distinct⟩, ?_⟩
    intro other ho
    rcases List.mem_cons.mp ho with rfl | ho
    · exact uniqueName_notMem name taken
    · exact fun known => fresh other ho (List.mem_cons_of_mem _ known)

/-- The search for a number goes on past those whose names are taken, and ends at the first one
whose name is free. -/
inductive SearchEnds (name : Text) (taken : Finset Text) : Nat → Nat → Prop
  | here {k : Nat} (free : numbered name k ∉ taken) : SearchEnds name taken k k
  | next {k n : Nat} (known : numbered name k ∈ taken) (rest : SearchEnds name taken (k + 1) n) :
      SearchEnds name taken k n

section Search

variable {name : Text} {taken : Finset Text} {k n : Nat}

/-- The search ends at the least number, from where it starts on, that makes the name free. -/
theorem searchEnds_iff_isLeast :
    SearchEnds name taken k n ↔ IsLeast {m | k ≤ m ∧ numbered name m ∉ taken} n := by
  constructor
  · intro search
    induction search with
    | here free => exact ⟨⟨le_rfl, free⟩, fun m hm => hm.1⟩
    | next known _ ih =>
      refine ⟨⟨Nat.le_of_succ_le ih.1.1, ih.1.2⟩, fun m hm => ih.2 ⟨?_, hm.2⟩⟩
      refine Nat.lt_of_le_of_ne hm.1 fun same => ?_
      exact hm.2 (same ▸ known)
  · intro least
    obtain ⟨d, rfl⟩ := Nat.exists_eq_add_of_le least.1.1
    induction d generalizing k with
    | zero => exact .here least.1.2
    | succ d ih =>
      have known : numbered name k ∈ taken := by
        by_contra free
        have := least.2 ⟨le_rfl, free⟩
        omega
      have shift : k + (d + 1) = k + 1 + d := by omega
      rw [shift] at least ⊢
      refine .next known (ih ⟨⟨Nat.le_add_right _ _, least.1.2⟩, fun m hm => ?_⟩)
      exact least.2 ⟨Nat.le_of_succ_le hm.1, hm.2⟩

end Search

theorem isLeast_firstFreeNumber (name : Text) (taken : List Text) :
    IsLeast {k | 2 ≤ k ∧ numbered name k ∉ taken.toFinset} (firstFreeNumber name taken) := by
  simp only [List.mem_toFinset]
  exact ⟨firstFreeNumber_spec name taken, fun k hk => firstFreeNumber_le hk.1 hk.2⟩

/-- How a request for a name is answered: by the name itself if it is free, and else by the name
with the least number from two on that makes it free, at which the search for one ends. -/
inductive Answers (taken : Finset Text) (name : Text) : Text → Prop
  | itself (free : name ∉ taken) : Answers taken name name
  | counted {k : Nat} (known : name ∈ taken) (search : SearchEnds name taken 2 k)
      (least : IsLeast {k | 2 ≤ k ∧ numbered name k ∉ taken} k) :
      Answers taken name (numbered name k)

section Answers

variable {taken : Finset Text} {name result other : Text}

theorem Answers.notMem (h : Answers taken name result) : result ∉ taken := by
  cases h with
  | itself free => exact free
  | counted _ _ least => exact least.1.2

theorem Answers.unique (h : Answers taken name result) (again : Answers taken name other) :
    other = result := by
  cases h with
  | itself free =>
    cases again with
    | itself => rfl
    | counted known => exact absurd known free
  | counted known _ least =>
    cases again with
    | itself free => exact absurd known free
    | counted _ _ least' => rw [least'.unique least]

end Answers

theorem answers_uniqueName (name : Text) (taken : List Text) :
    Answers taken.toFinset name (uniqueName name taken) := by
  unfold uniqueName
  split
  next known =>
    have member : name ∈ taken.toFinset := List.mem_toFinset.mpr (List.contains_iff_mem.mp known)
    have least := isLeast_firstFreeNumber name taken
    exact .counted member (searchEnds_iff_isLeast.mpr least) least
  next free => exact .itself (by simpa using free)

/-- Requests answered in turn. Each one adds its answer, and nothing else, to the names that are
taken at the next one, which are one more. -/
inductive InTurn : Finset Text → List Text → List Text → Finset Text → Prop
  | done {taken : Finset Text} : InTurn taken [] [] taken
  | request {taken next after : Finset Text} {name result : Text} {names results : List Text}
      (answer : Answers taken name result) (adds : next = insert result taken)
      (grows : next.card = taken.card + 1) (rest : InTurn next names results after) :
      InTurn taken (name :: names) (result :: results) after

theorem inTurn_uniqueNames (taken names : List Text) :
    InTurn taken.toFinset names (uniqueNames taken names).1
      (uniqueNames taken names).2.toFinset := by
  induction names generalizing taken with
  | nil => exact .done
  | cons name names ih =>
    have answer := answers_uniqueName name taken
    have rest := ih (uniqueName name taken :: taken)
    rw [List.toFinset_cons] at rest
    exact .request answer rfl (Finset.card_insert_of_notMem answer.notMem) rest

theorem InTurn.unique {taken after after' : Finset Text} {names results results' : List Text}
    (h : InTurn taken names results after) (again : InTurn taken names results' after') :
    results' = results ∧ after' = after := by
  induction h generalizing results' with
  | done =>
    cases again
    exact ⟨rfl, rfl⟩
  | request answer adds _ _ ih =>
    cases again with
    | request answer' adds' _ rest' =>
      obtain rfl := answer.unique answer'
      obtain ⟨same, sameTaken⟩ := ih (adds ▸ adds' ▸ rest')
      exact ⟨by rw [same], sameTaken⟩

/-- Names stay unique. Whatever names are taken and whatever is requested, also a name that has a
number itself, the requests are answered in turn in just one way; the answers are distinct, and none
of them was taken before. -/
theorem names_stay_unique (taken names : List Text) :
    (∀ results after, InTurn taken.toFinset names results after ↔
      results = (uniqueNames taken names).1 ∧ after = (uniqueNames taken names).2.toFinset) ∧
    (uniqueNames taken names).1.Nodup ∧
    ∀ result ∈ (uniqueNames taken names).1, result ∉ taken := by
  refine ⟨fun results after => ⟨(inTurn_uniqueNames taken names).unique, ?_⟩,
    nodup_uniqueNames taken names⟩
  rintro ⟨rfl, rfl⟩
  exact inTurn_uniqueNames taken names

example : (uniqueNames ["menu"] ["menu3", "menu", "menu", "menu2", "menu3"]).1 =
    ["menu3", "menu2", "menu4", "menu22", "menu32"] := by
  decide +kernel

end PageObjects
