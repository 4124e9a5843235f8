import PageObjects.Proofs.Method.Parameter
import PageObjects.Proofs.Lists

namespace PageObjects

open Parameter

/-- A list with a number behind it, unless it is there already. -/
def noted (numbers : List Nat) (n : Nat) : List Nat :=
  if n ∈ numbers then numbers else numbers ++ [n]

theorem append_filter_eq_noted (numbers : List Nat) (n : Nat) :
    numbers ++ [n].filter (fun m => !numbers.contains m) = noted numbers n := by
  by_cases old : n ∈ numbers <;> simp [noted, old]

theorem noted_noted (numbers : List Nat) (n : Nat) :
    noted (noted numbers n) n = noted numbers n := by
  have there : n ∈ noted numbers n := by
    unfold noted
    split
    next old => exact old
    next => simp
  exact if_pos there

theorem eraseDups_concat_eq_noted (numbers : List Nat) (n : Nat) :
    (numbers ++ [n]).eraseDups = noted numbers.eraseDups n := by
  rw [eraseDups_concat, noted]
  simp only [List.mem_eraseDups]

section Keys

variable {α β : Type} [DecidableEq α]

/-- Setting an entry leaves the keys alone, or puts a new one behind them. -/
theorem keys_setEntry (key : α) (value : β) (entries : List (α × β)) :
    (setEntry key value entries).map Prod.fst =
      if key ∈ entries.map Prod.fst then entries.map Prod.fst
      else entries.map Prod.fst ++ [key] := by
  induction entries with
  | nil => rfl
  | cons entry rest ih =>
    obtain ⟨k, v⟩ := entry
    rw [setEntry]
    by_cases own : k = key
    · simp [own]
    · rw [if_neg own, List.map_cons, ih]
      by_cases there : key ∈ rest.map Prod.fst
      · simp [there]
      · simp [there, Ne.symm own]

end Keys

namespace Parameter

/-- What becomes of a parameter, given the one of its key that is merged so far. -/
def joining (p : Parameter) : Option Parameter → Parameter
  | none => p
  | some old => { old with
      actions := old.actions ++ p.actions.filter fun n => !old.actions.contains n }

/-- The actions that are noted for a key. -/
def numbersAt (key : Text) (merged : List (Text × Parameter)) : List Nat :=
  ((valueAt? key merged).map Parameter.actions).getD []

end Parameter

section Merging

variable {merged : List (Text × Parameter)} {p : Parameter}

theorem mergeParameter_eq_setEntry (merged : List (Text × Parameter)) (p : Parameter) :
    mergeParameter merged p = setEntry p.key (p.joining (valueAt? p.key merged)) merged := by
  have unfolded : mergeParameter merged p = match valueAt? p.key merged with
      | none => merged ++ [(p.key, p)]
      | some old => setEntry p.key (p.joining (some old)) merged := rfl
  rw [unfolded]
  cases found : valueAt? p.key merged with
  | none => exact (setEntry_of_notMem (valueAt?_eq_none_iff.mp found) p).symm
  | some old => rfl

theorem keys_foldl_mergeParameter (parameters : List Parameter) :
    (parameters.foldl mergeParameter []).map Prod.fst = (parameters.map key).eraseDups := by
  induction parameters using List.reverseRecOn with
  | nil => rfl
  | append_singleton parameters p ih =>
    rw [List.foldl_concat, mergeParameter_eq_setEntry, keys_setEntry, ih, List.map_append,
      List.map_singleton, eraseDups_concat]
    simp only [List.mem_eraseDups]

/-- Merged parameters are filed under their own keys. -/
theorem key_of_mem_foldl_mergeParameter {parameters : List Parameter} :
    ∀ entry ∈ parameters.foldl mergeParameter [], entry.2.key = entry.1 := by
  induction parameters using List.reverseRecOn with
  | nil => exact nofun
  | append_singleton parameters p ih =>
    intro entry he
    rw [List.foldl_concat, mergeParameter_eq_setEntry] at he
    rcases eq_or_mem_of_mem_setEntry he with rfl | old
    · cases found : valueAt? p.key (parameters.foldl mergeParameter []) with
      | none => rfl
      | some old =>
        have same : old.key = p.key := ih _ (mem_of_valueAt? found)
        exact same
    · exact ih entry old

/-- Merging a parameter of an action notes the action for the key of the parameter. -/
theorem numbersAt_mergeParameter {n : Nat} (own : p.actions = [n]) (key : Text) :
    numbersAt key (mergeParameter merged p) =
      if p.key = key then noted (numbersAt key merged) n else numbersAt key merged := by
  rw [numbersAt, mergeParameter_eq_setEntry, valueAt?_setEntry]
  split
  next same =>
    subst same
    rw [numbersAt]
    cases valueAt? p.key merged with
    | none => simp [joining, own, noted]
    | some old => by_cases there : n ∈ old.actions <;> simp [joining, own, noted, there]
  next => rfl

/-- Merging all parameters of an action notes it for each of their keys, and once. -/
theorem numbersAt_foldl_mergeParameter {parameters : List Parameter} {n : Nat}
    (own : ∀ p ∈ parameters, p.actions = [n]) (key : Text) (merged : List (Text × Parameter)) :
    numbersAt key (parameters.foldl mergeParameter merged) =
      if parameters.any (fun p => p.key = key) then noted (numbersAt key merged) n
      else numbersAt key merged := by
  induction parameters generalizing merged with
  | nil => rfl
  | cons p rest ih =>
    obtain ⟨first, others⟩ := List.forall_mem_cons.mp own
    rw [List.foldl_cons, ih others, numbersAt_mergeParameter first, List.any_cons]
    by_cases same : p.key = key
    · simp only [same, if_true, decide_true, Bool.true_or, noted_noted, ite_self]
    · simp only [same, if_false, decide_false, Bool.false_or]

end Merging

/-- Whether an action passes a parameter of the key. -/
def Action.passes (key : Text) (a : Action) : Bool := a.parameters.any fun p => p.key = key

/-- The numbers of the actions that pass a parameter of the key, each once, in their order. -/
def passersOf (key : Text) (actions : List Action) : List Nat :=
  ((actions.filter (Action.passes key)).map Action.number).eraseDups

theorem numbersAt_mergedParameters {actions : List Action}
    (own : ∀ a ∈ actions, ∀ p ∈ a.parameters, p.actions = [a.number]) (key : Text) :
    numbersAt key ((actions.flatMap Action.parameters).foldl mergeParameter []) =
      passersOf key actions := by
  induction actions using List.reverseRecOn with
  | nil => rfl
  | append_singleton actions a ih =>
    obtain ⟨before, last⟩ := List.forall_mem_append.mp own
    have own' := List.forall_mem_singleton.mp last
    rw [List.flatMap_append, List.foldl_append, List.flatMap_singleton,
      numbersAt_foldl_mergeParameter own', ih before, passersOf, passersOf, List.filter_append,
      List.map_append, ← Action.passes]
    by_cases passes : a.passes key
    · simp only [passes, if_true, List.filter_cons_of_pos, List.filter_nil, List.map_singleton,
        eraseDups_concat_eq_noted]
    · simp [passes]

/-- What the parameters of actions are as one list: for each key that comes up, in this order, one
parameter, with the actions that pass one of this key. -/
structure KeyedUnion (actions : List Action) (merged : List Parameter) : Prop where
  keys : merged.map key = ((actions.flatMap Action.parameters).map key).eraseDups
  distinct : (merged.map key).Nodup
  single : ∀ a ∈ actions, ∀ p ∈ a.parameters,
    ∃ q, merged.filter (fun q => q.key = p.key) = [q] ∧ a.number ∈ q.actions
  passers : ∀ q ∈ merged, q.actions = passersOf q.key actions
  once : ∀ q ∈ merged, q.actions.Nodup

theorem mem_passersOf {key : Text} {actions : List Action} {n : Nat} :
    n ∈ passersOf key actions ↔ ∃ a ∈ actions, a.passes key = true ∧ a.number = n := by
  simp [passersOf, and_assoc]

/-- Where keys are distinct, each is the key of one parameter. -/
theorem filter_key_eq_singleton {merged : List Parameter} (distinct : (merged.map key).Nodup)
    {q : Parameter} (hq : q ∈ merged) : merged.filter (fun p => p.key = q.key) = [q] := by
  induction merged with
  | nil => cases hq
  | cons p rest ih =>
    obtain ⟨new, distinct⟩ := List.nodup_cons.mp distinct
    rcases List.mem_cons.mp hq with rfl | hq
    · have others : rest.filter (fun p => p.key = q.key) = [] := by
        refine List.filter_eq_nil_iff.mpr fun p hp same => new ?_
        rw [← of_decide_eq_true same]
        exact List.mem_map_of_mem hp
      rw [List.filter_cons_of_pos (by simp), others]
    · have apart : p.key ≠ q.key := fun same => new (same ▸ List.mem_map_of_mem hq)
      rw [List.filter_cons_of_neg (by simpa using apart), ih distinct hq]

theorem passers_mergeParameters {actions : List Action}
    (own : ∀ a ∈ actions, ∀ p ∈ a.parameters, p.actions = [a.number]) :
    ∀ q ∈ mergeParameters actions, q.actions = passersOf q.key actions := by
  intro q hq
  obtain ⟨⟨k, q⟩, he, rfl⟩ := List.mem_map.mp hq
  obtain rfl : q.key = k := key_of_mem_foldl_mergeParameter _ he
  have distinct : (((actions.flatMap Action.parameters).foldl mergeParameter []).map
      Prod.fst).Nodup := by
    rw [keys_foldl_mergeParameter]
    exact nodup_eraseDups _
  rw [← numbersAt_mergedParameters own, numbersAt, valueAt?_of_mem distinct he]
  rfl

theorem keyedUnion_mergeParameters {actions : List Action}
    (own : ∀ a ∈ actions, ∀ p ∈ a.parameters, p.actions = [a.number]) :
    KeyedUnion actions (mergeParameters actions) := by
  have merges := merges_mergeParameters actions
  have passers := passers_mergeParameters own
  refine ⟨?_, merges.distinct, ?_, passers, ?_⟩
  · rw [← keys_foldl_mergeParameter, mergeParameters, List.map_map]
    exact List.map_congr_left key_of_mem_foldl_mergeParameter
  · intro a ha p hp
    obtain ⟨q, hq, same⟩ := merges.found p (List.mem_flatMap.mpr ⟨a, ha, hp⟩)
    refine ⟨q, same ▸ filter_key_eq_singleton merges.distinct hq, ?_⟩
    rw [passers q hq, mem_passersOf]
    exact ⟨a, ha, List.any_eq_true.mpr ⟨p, hp, by simp [same]⟩, rfl⟩
  · intro q hq
    rw [passers q hq]
    exact nodup_eraseDups _

/-- Lists of numbers of actions, each in a cell of its own. -/
abbrev Cells := List (List Nat)

/-- A parameter whose list of actions stands in a cell. -/
structure HeldParameter where
  values : Parameter
  cell : Nat

namespace HeldParameter

def key (p : HeldParameter) : Text := p.values.key

def numbers (cells : Cells) (p : HeldParameter) : List Nat := (cells[p.cell]?).getD []

/-- The parameter as it reads while the cells are as given. -/
def read (cells : Cells) (p : HeldParameter) : Parameter :=
  { p.values with actions := p.numbers cells }

/-- What is written to other cells does not show. -/
theorem read_congr {cells cells' : Cells} {p : HeldParameter}
    (same : cells'[p.cell]? = cells[p.cell]?) : p.read cells' = p.read cells := by
  rw [read, read, numbers, numbers, same]

end HeldParameter

/-- The cells while parameters are merged in place, and the merged parameters by their keys. -/
structure Merging where
  cells : Cells
  merged : List (Text × HeldParameter) := []

namespace Merging

/-- Merges a parameter in place. For a new key its list is copied to a new cell; for one that is
there its numbers are put, one by one, behind those in the cell of the merged parameter. -/
def add (s : Merging) (p : HeldParameter) : Merging :=
  match valueAt? p.key s.merged with
  | none =>
    { cells := s.cells ++ [p.numbers s.cells]
      merged := s.merged ++ [(p.key, { p with cell := s.cells.length })] }
  | some old =>
    { s with cells := s.cells.modify old.cell fun found => (p.numbers s.cells).foldl noted found }

/-- Parameters as they read, by their keys. -/
def readings (cells : Cells) (entries : List (Text × HeldParameter)) : List (Text × Parameter) :=
  entries.map fun (k, p) => (k, p.read cells)

/-- The merged parameters as they read. -/
def parameters (s : Merging) : List Parameter := (readings s.cells s.merged).map Prod.snd

theorem readings_cons (cells : Cells) (k : Text) (p : HeldParameter)
    (rest : List (Text × HeldParameter)) :
    readings cells ((k, p) :: rest) = (k, p.read cells) :: readings cells rest := rfl

theorem readings_concat (cells : Cells) (entries : List (Text × HeldParameter)) (k : Text)
    (p : HeldParameter) :
    readings cells (entries ++ [(k, p)]) = readings cells entries ++ [(k, p.read cells)] :=
  List.map_append

theorem valueAt?_readings (cells : Cells) (key : Text) (entries : List (Text × HeldParameter)) :
    valueAt? key (readings cells entries) = (valueAt? key entries).map (·.read cells) :=
  valueAt?_map _ key entries

theorem readings_congr {cells cells' : Cells} {entries : List (Text × HeldParameter)}
    (same : ∀ entry ∈ entries, cells'[entry.2.cell]? = cells[entry.2.cell]?) :
    readings cells' entries = readings cells entries :=
  List.map_congr_left fun entry he => Prod.ext rfl (HeldParameter.read_congr (same entry he))

/-- How merging in place stands to merging lists: the cells that were there before are as they were,
and each merged parameter has a new one to itself. -/
structure Sound (before : Cells) (merged : List (Text × Parameter)) (s : Merging) : Prop where
  kept : before <+: s.cells
  fresh : ∀ entry ∈ s.merged, before.length ≤ entry.2.cell ∧ entry.2.cell < s.cells.length
  apart : (s.merged.map fun entry => entry.2.cell).Nodup
  reads : readings s.cells s.merged = merged

theorem sound_start (cells : Cells) : Sound cells [] ⟨cells, []⟩ :=
  ⟨List.prefix_rfl, nofun, .nil, rfl⟩

/-- Writing to the cell of one merged parameter changes its entry and no other. -/
theorem readings_of_valueAt? {entries : List (Text × HeldParameter)} {cells cells' : Cells}
    {key : Text} {old : HeldParameter} (apart : (entries.map fun entry => entry.2.cell).Nodup)
    (found : valueAt? key entries = some old)
    (others : ∀ i, i ≠ old.cell → cells'[i]? = cells[i]?) :
    readings cells' entries = setEntry key (old.read cells') (readings cells entries) := by
  induction entries with
  | nil => cases found
  | cons entry rest ih =>
    obtain ⟨k, p⟩ := entry
    obtain ⟨new, apart⟩ := List.nodup_cons.mp apart
    rw [valueAt?] at found
    rw [readings_cons, readings_cons, setEntry]
    split at found
    next own =>
      obtain rfl := Option.some.inj found
      rw [if_pos own, readings_congr fun entry he => others _ fun cell => ?_]
      exact new (List.mem_map.mpr ⟨entry, he, cell⟩)
    next other =>
      have cell : p.cell ≠ old.cell := fun same =>
        new (List.mem_map.mpr ⟨_, mem_of_valueAt? found, same.symm⟩)
      rw [if_neg other, ih apart found, HeldParameter.read_congr (others _ cell)]

namespace Sound

variable {before : Cells} {merged : List (Text × Parameter)} {s : Merging} {p : HeldParameter}

theorem numbers_eq (h : s.Sound before merged) (inside : p.cell < before.length) :
    p.numbers s.cells = p.numbers before := by
  rw [HeldParameter.numbers, List.prefix_iff_getElem?.mp h.kept p.cell inside,
    HeldParameter.numbers, List.getElem?_eq_getElem inside]

/-- A parameter of a new key gets a new cell. -/
theorem sound_copy (h : s.Sound before merged) (inside : p.cell < before.length) :
    Sound before (merged ++ [(p.key, p.read before)])
      { cells := s.cells ++ [p.numbers s.cells]
        merged := s.merged ++ [(p.key, { p with cell := s.cells.length })] } := by
  have grown := h.kept.length_le
  refine ⟨h.kept.trans (List.prefix_append _ _), ?_, ?_, ?_⟩
  · intro entry he
    rw [List.length_append, List.length_singleton]
    rcases List.mem_append.mp he with old | new
    · have := h.fresh entry old
      omega
    · rw [List.mem_singleton.mp new]
      exact ⟨grown, Nat.lt_succ_self _⟩
  · rw [List.map_append]
    refine List.nodup_append.mpr ⟨h.apart, List.nodup_singleton _, ?_⟩
    rintro i old j new rfl
    obtain ⟨entry, he, cell⟩ := List.mem_map.mp old
    have bound := (h.fresh entry he).2
    rw [cell, List.mem_singleton.mp new] at bound
    exact Nat.lt_irrefl _ bound
  · have old : readings (s.cells ++ [p.numbers s.cells]) s.merged = readings s.cells s.merged :=
      readings_congr fun entry he => List.getElem?_append_left (h.fresh entry he).2
    have new : HeldParameter.read (s.cells ++ [p.numbers s.cells])
        { p with cell := s.cells.length } = p.read before := by
      rw [HeldParameter.read, HeldParameter.read, HeldParameter.numbers,
        List.getElem?_concat_length, Option.getD_some, h.numbers_eq inside]
    rw [readings_concat, old, h.reads, new]

/-- A parameter of a key that is there extends the list in the cell of the merged one. -/
theorem sound_extend (h : s.Sound before merged) (inside : p.cell < before.length) {n : Nat}
    (own : p.numbers before = [n]) {old : HeldParameter}
    (found : valueAt? p.key s.merged = some old) :
    Sound before (setEntry p.key ((p.read before).joining (some (old.read s.cells))) merged)
      { s with
        cells := s.cells.modify old.cell fun found => (p.numbers s.cells).foldl noted found } := by
  obtain ⟨behind, bound⟩ : before.length ≤ old.cell ∧ old.cell < s.cells.length :=
    h.fresh _ (mem_of_valueAt? found)
  have one : (p.read before).actions = [n] := own
  rw [joining, one, append_filter_eq_noted, h.numbers_eq inside, own]
  have others : ∀ i, i ≠ old.cell →
      (s.cells.modify old.cell fun found => [n].foldl noted found)[i]? = s.cells[i]? :=
    fun i other => List.getElem?_modify_ne _ _ (Ne.symm other)
  have extended : old.read (s.cells.modify old.cell fun found => [n].foldl noted found) =
      { old.read s.cells with actions := noted (old.read s.cells).actions n } := by
    have list : s.cells[old.cell]? = some (old.numbers s.cells) := by
      rw [HeldParameter.numbers, List.getElem?_eq_getElem bound, Option.getD_some]
    rw [HeldParameter.read, HeldParameter.numbers, List.getElem?_modify_eq, list]
    rfl
  refine ⟨?_, ?_, h.apart, ?_⟩
  · refine List.prefix_iff_getElem?.mpr fun i hi => ?_
    rw [others i (by omega)]
    exact List.prefix_iff_getElem?.mp h.kept i hi
  · intro entry he
    rw [List.length_modify]
    exact h.fresh entry he
  · rw [readings_of_valueAt? h.apart found others, h.reads, extended]

theorem sound_add (h : s.Sound before merged) (inside : p.cell < before.length) {n : Nat}
    (own : p.numbers before = [n]) :
    (s.add p).Sound before (mergeParameter merged (p.read before)) := by
  have known := valueAt?_readings s.cells p.key s.merged
  rw [h.reads] at known
  rw [mergeParameter_eq_setEntry, Merging.add]
  have key : (p.read before).key = p.key := rfl
  rw [key, known]
  cases found : valueAt? p.key s.merged with
  | none =>
    rw [found] at known
    rw [Option.map_none, joining, setEntry_of_notMem (valueAt?_eq_none_iff.mp known)]
    exact h.sound_copy inside
  | some old => exact h.sound_extend inside own found

end Sound

theorem sound_foldl {before : Cells} {held : List HeldParameter}
    (inside : ∀ p ∈ held, p.cell < before.length)
    (own : ∀ p ∈ held, ∃ n, p.numbers before = [n]) {merged : List (Text × Parameter)} {s : Merging}
    (h : s.Sound before merged) :
    (held.foldl Merging.add s).Sound before
      ((held.map (·.read before)).foldl mergeParameter merged) := by
  induction held generalizing s merged with
  | nil => exact h
  | cons p rest ih =>
    obtain ⟨first, inside⟩ := List.forall_mem_cons.mp inside
    obtain ⟨⟨n, hn⟩, own⟩ := List.forall_mem_cons.mp own
    exact ih inside own (h.sound_add first hn)

end Merging

/-- Parameters merged in place, one after another. -/
def mergeInPlace (cells : Cells) (held : List HeldParameter) : Merging :=
  held.foldl Merging.add ⟨cells, []⟩

/-- How the parameters of an action are held: they read as its own. -/
structure HeldBy (cells : Cells) (a : Action) (held : List HeldParameter) : Prop where
  inside : ∀ p ∈ held, p.cell < cells.length
  reads : held.map (·.read cells) = a.parameters

section Held

variable {cells : Cells} {actions : List Action} {held : List (List HeldParameter)}

/-- What is added behind the cells does not show in the parameters of an action. -/
theorem HeldBy.of_prefix {cells' : Cells} {a : Action} {held : List HeldParameter}
    (h : HeldBy cells a held) (kept : cells <+: cells') : HeldBy cells' a held := by
  refine ⟨fun p hp => Nat.lt_of_lt_of_le (h.inside p hp) kept.length_le, ?_⟩
  rw [← h.reads]
  refine List.map_congr_left fun p hp => HeldParameter.read_congr ?_
  rw [List.prefix_iff_getElem?.mp kept p.cell (h.inside p hp), List.getElem?_eq_getElem]

theorem map_read_flatten (h : List.Forall₂ (HeldBy cells) actions held) :
    held.flatten.map (·.read cells) = actions.flatMap Action.parameters := by
  induction h with
  | nil => rfl
  | cons first _ ih => rw [List.flatten_cons, List.map_append, first.reads, ih, List.flatMap_cons]

theorem inside_flatten (h : List.Forall₂ (HeldBy cells) actions held) :
    ∀ p ∈ held.flatten, p.cell < cells.length := by
  intro p hp
  obtain ⟨own, ho, hp⟩ := List.mem_flatten.mp hp
  obtain ⟨a, -, first⟩ := exists_left_of_mem h ho
  exact first.inside p hp

end Held

/-- Parameters are united by key. Merging makes one parameter of those with one key, in the order in
which the keys come up, used by all actions that pass one of them; and merging in place reads the
same and leaves the parameters of the actions as they are. -/
theorem parameters_united {actions : List Action}
    (own : ∀ a ∈ actions, ∀ p ∈ a.parameters, p.actions = [a.number]) :
    KeyedUnion actions (mergeParameters actions) ∧
      ∀ cells held, List.Forall₂ (HeldBy cells) actions held →
        (mergeInPlace cells held.flatten).parameters = mergeParameters actions ∧
          List.Forall₂ (HeldBy (mergeInPlace cells held.flatten).cells) actions held := by
  refine ⟨keyedUnion_mergeParameters own, fun cells held h => ?_⟩
  have single : ∀ p ∈ held.flatten, ∃ n, p.numbers cells = [n] := by
    intro p hp
    have passed : p.read cells ∈ actions.flatMap Action.parameters := by
      rw [← map_read_flatten h]
      exact List.mem_map_of_mem hp
    obtain ⟨a, ha, hp⟩ := List.mem_flatMap.mp passed
    exact ⟨a.number, own a ha _ hp⟩
  have sound := Merging.sound_foldl (inside_flatten h) single (Merging.sound_start cells)
  rw [map_read_flatten h] at sound
  refine ⟨?_, h.imp fun _ _ reads => reads.of_prefix sound.kept⟩
  rw [Merging.parameters, mergeInPlace, sound.reads, mergeParameters]

/-- An action that fills fields, with a parameter of the given name for each. -/
def filling (number : Nat) (names : List Text) : Action where
  number := number
  statement := { kind := .interaction, line := number, endLine := number, source := [] }
  wait := { strategy := .auto }
  selector := none
  parameters := names.map fun name =>
    { name := name, type := .string, sample := .text [], isInput := true, fromVariable := true
      actions := [number] }

/-- A form of which one field is filled three times, by names that differ in their spelling. -/
def emailForm : List Action :=
  [filling 2 ["email"], filling 3 ["city", "Email"], filling 5 ["e_mail", "eMail"]]

def emailCells : Cells := [[2], [3], [3], [5], [5]]

/-- The parameters of the form, each with a cell for its list of actions. -/
def emailHeld : List (List HeldParameter) :=
  (emailForm.zip [0, 1, 3]).map fun (a, start) =>
    (a.parameters.zipIdx start).map fun (p, cell) => { values := p, cell := cell }

theorem parameters_united_emailForm :
    (mergeParameters emailForm).map (fun q => (q.key, q.actions)) =
        ([("email", [2, 3, 5]), ("city", [3])] : List (Text × List Nat)) ∧
      KeyedUnion emailForm (mergeParameters emailForm) ∧
      (mergeInPlace emailCells emailHeld.flatten).cells = emailCells ++ [[2, 3, 5], [3]] ∧
      List.Forall₂ (HeldBy (emailCells ++ [[2, 3, 5], [3]])) emailForm emailHeld := by
  have own : ∀ a ∈ emailForm, ∀ p ∈ a.parameters, p.actions = [a.number] := by
    simp [emailForm, filling]
  have held : List.Forall₂ (HeldBy emailCells) emailForm emailHeld :=
    .cons ⟨by decide +kernel, rfl⟩
      (.cons ⟨by decide +kernel, rfl⟩ (.cons ⟨by decide +kernel, rfl⟩ .nil))
  have grown : (mergeInPlace emailCells emailHeld.flatten).cells =
      emailCells ++ [[2, 3, 5], [3]] := by
    decide +kernel
  obtain ⟨united, inPlace⟩ := parameters_united own
  exact ⟨by decide +kernel, united, grown, grown ▸ (inPlace emailCells emailHeld held).2⟩

end PageObjects
