import PageObjects.Proofs.Method.Holding
import PageObjects.Proofs.Report.Completeness
import PageObjects.Proofs.Report.Defined

namespace PageObjects

namespace Step

/-- The method that a step calls. -/
def method? (s : Step) : Option Nat :=
  match s.target with
  | .method n _ => some n
  | .item _ => none

/-- The item that a step stands for. -/
def item? (s : Step) : Option Id :=
  match s.target with
  | .method .. => none
  | .item i => some i

end Step

section FirstCalls

variable {called : List Nat} {steps : List Step}

theorem firstCalls_sublist (called : List Nat) (steps : List Step) :
    (firstCalls called steps).Sublist steps := by
  fun_induction firstCalls called steps with
  | case1 => exact .refl []
  | case2 called s rest n component target known ih => exact ih.cons s
  | case3 called s rest n component target new ih => exact ih.cons_cons s
  | case4 called s rest i target ih => exact ih.cons_cons s

/-- Steps that stand for items stay. -/
theorem items_firstCalls (called : List Nat) (steps : List Step) :
    (firstCalls called steps).filterMap Step.item? = steps.filterMap Step.item? := by
  fun_induction firstCalls called steps with
  | case1 => rfl
  | case2 called s rest n component target known ih =>
    have noItem : s.item? = none := by rw [Step.item?, target]
    rw [ih, List.filterMap_cons_none noItem]
  | case3 called s rest n component target new ih =>
    have noItem : s.item? = none := by rw [Step.item?, target]
    rw [List.filterMap_cons_none noItem, List.filterMap_cons_none noItem, ih]
  | case4 called s rest i target ih =>
    have own : s.item? = some i := by rw [Step.item?, target]
    rw [List.filterMap_cons_some own, List.filterMap_cons_some own, ih]

/-- Every method that has not been called is called once. -/
theorem methods_firstCalls (called : List Nat) (steps : List Step) :
    ((firstCalls called steps).filterMap Step.method?).Nodup ∧
      ∀ n, n ∈ (firstCalls called steps).filterMap Step.method? ↔
        n ∈ steps.filterMap Step.method? ∧ n ∉ called := by
  fun_induction firstCalls called steps with
  | case1 => exact ⟨List.nodup_nil, by simp⟩
  | case2 called s rest n component target known ih =>
    have own : s.method? = some n := by rw [Step.method?, target]
    have known : n ∈ called := by simpa using known
    refine ⟨ih.1, fun k => ?_⟩
    rw [ih.2 k, List.filterMap_cons_some own, List.mem_cons]
    constructor
    · exact fun h => ⟨.inr h.1, h.2⟩
    · rintro ⟨rfl | h, new⟩
      · exact absurd known new
      · exact ⟨h, new⟩
  | case3 called s rest n component target new ih =>
    have own : s.method? = some n := by rw [Step.method?, target]
    have new : n ∉ called := by simpa using new
    rw [List.filterMap_cons_some own, List.filterMap_cons_some own]
    refine ⟨List.nodup_cons.mpr ⟨fun h => ?_, ih.1⟩, fun k => ?_⟩
    · exact ((ih.2 n).mp h).2 List.mem_cons_self
    · rw [List.mem_cons, List.mem_cons, ih.2 k, List.mem_cons]
      by_cases hk : k = n
      · simp [hk, new]
      · simp [hk]
  | case4 called s rest i target ih =>
    have noMethod : s.method? = none := by rw [Step.method?, target]
    rw [List.filterMap_cons_none noMethod, List.filterMap_cons_none noMethod]
    exact ih

end FirstCalls

section Blocks

variable {tests : List Statement} {line : Nat}

theorem countP_testBlocks_before (n : Nat) (h : ∀ t ∈ tests, line < t.line) :
    (testBlocks n tests).countP (fun b => b.holds line) = 0 := by
  induction tests generalizing n with
  | nil => rfl
  | cons t rest ih =>
    obtain ⟨first, later⟩ := List.forall_mem_cons.mp h
    rw [testBlocks, List.countP_cons_of_neg, ih (n + 1) later]
    simp [Block.holds, first]

/-- A line behind the first test is in one test only, the last that starts before it. -/
theorem countP_testBlocks (ordered : tests.Pairwise fun s t => s.line < t.line) (n : Nat)
    {first : Statement} (head : tests.head? = some first) (h : first.line ≤ line) :
    (testBlocks n tests).countP (fun b => b.holds line) = 1 := by
  induction tests generalizing n first with
  | nil => cases head
  | cons t rest ih =>
    obtain rfl := Option.some.inj head
    obtain ⟨before, later⟩ := List.pairwise_cons.mp ordered
    rw [testBlocks]
    cases rest with
    | nil => simp [testBlocks, Block.holds, h]
    | cons next rest =>
      by_cases reached : next.line ≤ line
      · rw [List.countP_cons_of_neg, ih later (n + 1) rfl reached]
        simp [Block.holds, reached]
      · have apart : ∀ s ∈ next :: rest, line < s.line := by
          intro s hs
          rcases List.mem_cons.mp hs with rfl | hs
          · omega
          · have := (List.pairwise_cons.mp later).1 s hs
            omega
        rw [List.countP_cons_of_pos, countP_testBlocks_before (n + 1) apart]
        simp only [Block.holds, List.head?_cons, Option.map_some, Option.all_some, Bool.and_eq_true,
          decide_eq_true_eq]
        omega

/-- Every item is in one block. -/
theorem countP_blocksOf (ordered : tests.Pairwise fun s t => s.line < t.line) {items : List Item}
    {i : Item} (hi : i ∈ items) :
    (blocksOf tests items).countP (fun b => b.holds i.line) = 1 := by
  cases tests with
  | nil => rfl
  | cons first rest =>
    rw [blocksOf, List.countP_append]
    by_cases reached : first.line ≤ i.line
    · rw [countP_testBlocks ordered 0 rfl reached]
      have noBlock : ∀ b ∈ (if ((items.map Item.line).min?).getD 0 < first.line
          then [(⟨"setup", 0, some first.line⟩ : Block)] else []), ¬b.holds i.line = true := by
        intro b hb
        split at hb
        · rw [List.mem_singleton.mp hb]
          simp [Block.holds, reached]
        · cases hb
      rw [List.countP_eq_zero.mpr noBlock]
    · have apart : ∀ s ∈ first :: rest, i.line < s.line := by
        intro s hs
        rcases List.mem_cons.mp hs with rfl | hs
        · omega
        · have := (List.pairwise_cons.mp ordered).1 s hs
          omega
      have start : ((items.map Item.line).min?).getD 0 ≤ i.line := by
        cases least : (items.map Item.line).min? with
        | none => exact Nat.zero_le _
        | some n => exact (List.min?_eq_some_iff.mp least).2 _ (List.mem_map_of_mem hi)
      rw [countP_testBlocks_before 0 apart, if_pos (by omega)]
      simp only [Block.holds, List.countP_singleton, Nat.zero_le, decide_true, Bool.true_and,
        Option.all_some, decide_eq_true_eq]
      rw [if_pos (by omega)]

end Blocks

/-- Which lines a block has: all of them if there are no tests, those before the first test, or
those from one test on up to the next. -/
inductive Block.Bounded (tests : List Statement) : Block → Prop where
  | mainFlow {b : Block} (untested : tests = []) (first : b.first = 0) (stop : b.stop = .none) :
      Bounded tests b
  | setup {b : Block} {t : Statement} (head : tests.head? = some t) (first : b.first = 0)
      (stop : b.stop = some t.line) : Bounded tests b
  | test {b : Block} {before after : List Statement} {t : Statement}
      (among : tests = before ++ t :: after) (first : b.first = t.line)
      (stop : b.stop = after.head?.map (·.line)) : Bounded tests b

theorem bounded_of_mem_testBlocks {tests before after : List Statement} {n : Nat} {b : Block}
    (among : tests = before ++ after) (h : b ∈ testBlocks n after) : b.Bounded tests := by
  induction after generalizing before n with
  | nil => cases h
  | cons t after ih =>
    rcases List.mem_cons.mp h with rfl | h
    · exact .test among rfl rfl
    · have further : tests = (before ++ [t]) ++ after := among.trans (List.append_cons before t after)
      exact ih further h

theorem bounded_of_mem_blocksOf {tests : List Statement} {items : List Item} {b : Block}
    (h : b ∈ blocksOf tests items) : b.Bounded tests := by
  cases tests with
  | nil =>
    rw [List.mem_singleton.mp h]
    exact .mainFlow rfl rfl rfl
  | cons first rest =>
    rcases List.mem_append.mp h with setup | test
    · split at setup
      · rw [List.mem_singleton.mp setup]
        exact .setup rfl rfl rfl
      · cases setup
    · exact bounded_of_mem_testBlocks (List.nil_append _).symm test

namespace Block

/-- The steps of a block with all their repetitions. -/
def allSteps (methods : List Method) (pages : List Page) (b : Block) : List Step :=
  pages.flatMap fun p => (p.items.filter fun i => b.holds i.line).map (stepOf methods p.number)

theorem steps_sequence (methods : List Method) (pages : List Page) (b : Block) :
    (b.sequence methods pages).steps = firstCalls [] (b.allSteps methods pages) := rfl

/-- What steps say about their items alone, they say about those of the block in order. -/
theorem filterMap_allSteps {α : Type} (methods : List Method) (pages : List Page) (b : Block)
    (f : Step → Option α) (g : Item → Option α)
    (same : ∀ page i, f (stepOf methods page i) = g i) :
    (b.allSteps methods pages).filterMap f =
      ((allItems pages).filter fun i => b.holds i.line).filterMap g := by
  rw [allSteps, List.filterMap_flatMap, allItems, List.filter_flatMap, List.filterMap_flatMap]
  refine List.flatMap_congr fun p _ => ?_
  rw [List.filterMap_map]
  exact congrArg (fun h => (p.items.filter fun i => b.holds i.line).filterMap h)
    (funext fun i => same p.number i)

end Block

section StepOf

variable {methods : List Method} {page : Nat} {i : Item}

theorem line_stepOf : (stepOf methods page i).line = i.line := by
  unfold stepOf
  split
  next => rfl
  next => rfl

theorem method?_stepOf : (stepOf methods page i).method? =
    (methods.find? fun m => m.holds i.id).map Method.number := by
  unfold stepOf
  split
  next m hm =>
    rw [hm]
    rfl
  next unheld =>
    rw [unheld]
    rfl

theorem item?_stepOf : (stepOf methods page i).item? =
    if (methods.find? fun m => m.holds i.id).isSome then none else some i.id := by
  unfold stepOf
  split
  next m hm =>
    rw [hm]
    rfl
  next unheld =>
    rw [unheld]
    rfl

end StepOf

namespace Document

/-- The blocks of lines that the tests of a document divide it into. -/
def blocks (d : Document) : List Block := blocksOf (testsOf d.statements) (allItems d.pages)

/-- The sequence of a block. -/
def sequenceOf (d : Document) (b : Block) : Sequence :=
  b.sequence (pageMethods d.methods) d.pages

/-- How a sequence covers an item: by one call of the only method of a page that has the item, or,
where there is no such method, by one step that shows it as the assertion that it is. -/
inductive Covers (d : Document) (q : Sequence) (i : Item) : Prop where
  | called {m : Method} (listed : m ∈ pageMethods d.methods) (holds : m.holds i.id = true)
      (only : ∀ m' ∈ pageMethods d.methods, m'.holds i.id = true → m' = m)
      (once : (q.steps.filterMap Step.method?).count m.number = 1)
  | shown {n : Nat} (free : ∀ m ∈ pageMethods d.methods, m.holds i.id = false)
      (assertion : i.id = .assertion n) (once : (q.steps.filterMap Step.item?).count i.id = 1)

/-- What makes the sequences of a document those of its items. -/
structure Sequenced (d : Document) : Prop where
  bounded : ∀ b ∈ d.blocks, b.Bounded (testsOf d.statements)
  divided : ∀ i ∈ allItems d.pages, d.blocks.countP (fun b => b.holds i.line) = 1
  covers : ∀ b ∈ d.blocks, ∀ i ∈ allItems d.pages, b.holds i.line = true →
    d.sequenceOf b ∈ d.sequences ∧ d.Covers (d.sequenceOf b) i
  calls : ∀ q ∈ d.sequences, (q.steps.filterMap Step.method?).Nodup
  shows : ∀ q ∈ d.sequences, ∀ i ∈ q.steps.filterMap Step.item?, ∃ n, i = .assertion n
  orders : ∀ q ∈ d.sequences, ∀ n, (q.toJson n).along ["steps", "order"] =
    (List.range' 1 q.steps.length).map Json.nat
  lines : ∀ q ∈ d.sequences, q.steps.Pairwise fun s t => s.line < t.line
  inOrder : d.sequences.Sublist (d.blocks.map d.sequenceOf)
  kept : (d.sequences.filter fun q => !q.steps.isEmpty) =
    (d.blocks.map d.sequenceOf).filter fun q => !q.steps.isEmpty

variable {config : Config} {d : Document} {spans : List PageSpan}
  {own shared : List (Id × List Method)}

namespace Paged

theorem items_increase (h : d.Paged) (made : d.MadeOf config spans own shared) :
    LinesIncrease (allItems d.pages) := by
  have statements : (allItems d.pages).map Item.statement =
      d.statements.filter fun s => !s.isStructural := by
    rw [← h.filter_statements, allItems, List.map_flatMap]
    exact List.flatMap_congr made.binds.all
  have kept : ((allItems d.pages).map Item.statement).Sublist d.statements := by
    rw [statements]
    exact List.filter_sublist
  refine (List.pairwise_map.mp (h.ordered.ordered.sublist kept)).imp_of_mem ?_
  intro i j hi _ before
  have := h.ordered.spans i.statement (kept.subset (List.mem_map_of_mem hi))
  show i.statement.line < j.statement.line
  omega

theorem tests_increase (h : d.Paged) :
    (testsOf d.statements).Pairwise fun s t => s.line < t.line := by
  refine (h.ordered.ordered.sublist List.filter_sublist).imp_of_mem ?_
  intro s t hs _ before
  have := h.ordered.spans s (List.mem_filter.mp hs).1
  omega

end Paged

namespace MadeOf

/-- The only method of a page that has an item is the one that is found. -/
theorem eq_of_holds (h : d.MadeOf config spans own shared) {m m' : Method} {i : Id}
    (hm : m ∈ pageMethods d.methods) (hm' : m' ∈ pageMethods d.methods) (own : m.holds i = true)
    (other : m'.holds i = true) : m' = m := by
  obtain ⟨kept, perm, sublist⟩ := h.suggested.subperm_itemIds
  rw [← h.methods] at perm
  have distinct := perm.nodup_iff.mp (h.binds.nodup_ids.sublist sublist)
  have apart := (List.nodup_flatMap.mp distinct).2
  have symm : Std.Symm (Function.onFun List.Disjoint Method.itemIds) :=
    ⟨fun _ _ disjoint _ ha hb => disjoint hb ha⟩
  by_contra different
  have disjoint := apart.forall hm' hm different
  exact disjoint (Method.holds_iff.mp other) (Method.holds_iff.mp own)

theorem linesIncrease_allSteps (h : d.MadeOf config spans own shared) (paged : d.Paged)
    (b : Block) : (b.allSteps (pageMethods d.methods) d.pages).Pairwise fun s t =>
      s.line < t.line := by
  have lines : (b.allSteps (pageMethods d.methods) d.pages).map Step.line =
      ((allItems d.pages).filter fun i => b.holds i.line).map Item.line := by
    have same := b.filterMap_allSteps (pageMethods d.methods) d.pages (some ∘ Step.line)
      (some ∘ Item.line) fun _ _ => congrArg some line_stepOf
    rwa [List.filterMap_eq_map, List.filterMap_eq_map] at same
  have kept : LinesIncrease ((allItems d.pages).filter fun i => b.holds i.line) :=
    (paged.items_increase h).sublist List.filter_sublist
  have increase := List.pairwise_map.mpr kept
  rw [← lines] at increase
  exact List.pairwise_map.mp increase

/-- Each item of a block is covered by its sequence. -/
theorem coversItem (h : d.MadeOf config spans own shared) (paged : d.Paged) {b : Block} {i : Item}
    (hi : i ∈ allItems d.pages) (hb : b.holds i.line = true) :
    d.Covers (d.sequenceOf b) i := by
  have among : i ∈ (allItems d.pages).filter fun i => b.holds i.line :=
    List.mem_filter.mpr ⟨hi, hb⟩
  cases holder : (pageMethods d.methods).find? fun m => m.holds i.id with
  | some m =>
    have listed := List.mem_of_find?_eq_some holder
    have holds := List.find?_some holder
    refine .called listed holds (fun m' hm' other => h.eq_of_holds listed hm' holds other) ?_
    have steps := methods_firstCalls [] (b.allSteps (pageMethods d.methods) d.pages)
    have all := b.filterMap_allSteps (pageMethods d.methods) d.pages Step.method? _
      fun _ _ => method?_stepOf
    refine List.count_eq_one_of_mem steps.1 ((steps.2 m.number).mpr ⟨?_, List.not_mem_nil⟩)
    rw [all]
    exact List.mem_filterMap.mpr ⟨i, among, by rw [holder]; rfl⟩
  | none =>
    have free : ∀ m ∈ pageMethods d.methods, m.holds i.id = false := by
      intro m hm
      exact Bool.eq_false_iff.mpr (List.find?_eq_none.mp holder m hm)
    obtain ⟨n, assertion⟩ : ∃ n, i.id = .assertion n := by
      obtain ⟨p, hp, own⟩ := List.mem_flatMap.mp hi
      have step := h.stepOf_definedIn paged hp own
      rw [stepOf, holder] at step
      exact (step.item i.id rfl).2
    refine .shown free assertion ?_
    have all := b.filterMap_allSteps (pageMethods d.methods) d.pages Step.item? _
      fun _ _ => item?_stepOf
    rw [sequenceOf, Block.steps_sequence, items_firstCalls, all]
    refine List.count_eq_one_of_mem ?_ (List.mem_filterMap.mpr ⟨i, among, by rw [holder]; rfl⟩)
    have distinct := List.pairwise_map.mp h.binds.nodup_ids
    refine List.pairwise_filterMap.mpr ((distinct.sublist List.filter_sublist).imp ?_)
    intro j k apart x hx y hy
    obtain ⟨-, hj⟩ := Option.ite_none_left_eq_some.mp hx
    obtain ⟨-, hk⟩ := Option.ite_none_left_eq_some.mp hy
    rwa [← Option.some.inj hj, ← Option.some.inj hk]

end MadeOf

theorem Covers.steps_ne_nil {q : Sequence} {i : Item} (h : d.Covers q i) : q.steps ≠ [] := by
  intro empty
  cases h with
  | called listed holds only once => simp [empty] at once
  | shown free assertion once => simp [empty] at once

/-- Sequences without steps are all that is left out, and only where there are tests. -/
theorem MadeOf.sequences_eq (h : d.MadeOf config spans own shared) : d.sequences =
    (d.blocks.map d.sequenceOf).filter fun q => (testsOf d.statements).isEmpty || !q.steps.isEmpty := by
  rw [h.sequences, sequencesOf]
  cases (testsOf d.statements).isEmpty with
  | true => exact (List.filter_eq_self.mpr fun _ _ => rfl).symm
  | false => rfl

/-- Every document covers its items by its sequences. -/
theorem MadeOf.sequenced (h : d.MadeOf config spans own shared) (paged : d.Paged) :
    d.Sequenced := by
  have kept := h.sequences_eq
  have ofBlock : ∀ q ∈ d.sequences, ∃ b ∈ d.blocks, d.sequenceOf b = q := by
    intro q hq
    rw [kept] at hq
    exact List.mem_map.mp (List.mem_filter.mp hq).1
  refine ⟨?_, ?_, ?_, ?_, ?_, ?_, ?_, ?_, ?_⟩
  · exact fun b hb => bounded_of_mem_blocksOf hb
  · exact fun i hi => countP_blocksOf paged.tests_increase hi
  · intro b hb i hi holds
    have covers := h.coversItem paged hi holds
    refine ⟨?_, covers⟩
    rw [kept]
    refine List.mem_filter.mpr ⟨List.mem_map_of_mem hb, ?_⟩
    simp [covers.steps_ne_nil]
  · intro q hq
    obtain ⟨b, -, rfl⟩ := ofBlock q hq
    exact (methods_firstCalls [] _).1
  · intro q hq i hi
    obtain ⟨s, hs, shows⟩ := List.mem_filterMap.mp hi
    have target : s.target = .item i := by
      unfold Step.item? at shows
      split at shows
      next => cases shows
      next target =>
        rw [target]
        exact congrArg StepTarget.item (Option.some.inj shows)
    exact ((h.definedIn_of_mem_steps paged hq hs).item i target).2
  · intro q _ n
    have steps : (q.toJson n).along ["steps", "order"] =
        q.steps.zipIdx.map fun step => Json.nat (step.2 + 1) :=
      (Json.along_of_list rfl).trans (List.flatMap_pure_eq_map _ _)
    rw [steps, ← map_succ_zipIdx, List.map_map]
    rfl
  · intro q hq
    obtain ⟨b, -, rfl⟩ := ofBlock q hq
    exact (h.linesIncrease_allSteps paged b).sublist (firstCalls_sublist [] _)
  · rw [kept]
    exact List.filter_sublist
  · rw [kept, List.filter_filter]
    refine List.filter_congr fun q _ => ?_
    cases q.steps.isEmpty with
    | true => rfl
    | false => simp

end Document

/-- The sequences of every document that an analysis gives cover its items. -/
theorem analyze_sequenced {config : Config} {name : Option Text} {script : Text} {d : Document}
    (h : analyze config name script = .ok d) : d.Sequenced := by
  obtain ⟨extracted, spans, own, shared, made⟩ := exists_madeOf h
  exact made.sequenced (made.paged extracted)

/-- A test with setup lines before it, whose two actions are one method, and a check. -/
def cartScript : Text :=
  "page.click('#cart');\npage.waitForURL('/pay');\ntest('pay', async () => \x7b\n" ++
    "  page.fill('#name', 'Ann');\n  page.click('#pay');\n" ++
    "  expect(page.locator('h1')).toBeVisible();\n\x7d);"

theorem analyze_sequenced_cartScript :
    ∃ d, analyze {} none cartScript = .ok d ∧
      (d.sequences.map fun q => (q.steps.filterMap Step.method?, q.steps.filterMap Step.item?)) =
        [([1], []), ([2], [.assertion 1])] ∧
      d.Sequenced := by
  have found : (analyze {} none cartScript).toOption.any (fun d =>
      (d.sequences.map fun q => (q.steps.filterMap Step.method?, q.steps.filterMap Step.item?)) ==
        [([1], []), ([2], [.assertion 1])]) = true := by
    decide +kernel
  obtain ⟨d, h, steps⟩ := exists_ok_of_any found
  exact ⟨d, h, beq_iff_eq.mp steps, analyze_sequenced h⟩

end PageObjects
