import PageObjects.Proofs.Script.Content
import PageObjects.Script.Extract

namespace PageObjects

mutual

/-- Statements in a row, with blocks between them. -/
inductive Items where
  | nil
  | line (s : Statement) (rest : Items)
  | block (opener : Statement) (body : Items) (ending : Ending) (rest : Items)

/-- How a block goes on behind its first items: with further ones, or not at all. -/
inductive Ending where
  | close (closer : Statement)
  | middle (s : Statement) (body : Items) (ending : Ending)

end

namespace Statement

/-- The kind of block that a statement opens. -/
def blockKind (s : Statement) : BlockKind := StructuralRole.blockKind s.role

/-- A statement that changes nothing about the blocks: a comment, or one with as many opening curly
brackets as closing ones. -/
def IsLevel (s : Statement) : Prop :=
  s.role = some .comment ∨
    (Text.trim s.source).head? ≠ some '}' ∧ braceDelta (Text.trim s.source) = 0

structure OpensBlock (s : Statement) : Prop where
  noComment : s.role ≠ some .comment
  front : (Text.trim s.source).head? ≠ some '}'
  braces : braceDelta (Text.trim s.source) = 1
  opens : opensBlock (Text.trim s.source) = true

/-- A statement that closes a block and opens another one, as `} else {` does. -/
def ReopensBlock (s : Statement) : Prop :=
  ∃ r, Text.trim s.source = '}' :: r ∧ braceDelta r = 1 ∧ opensBlock r = true

def ClosesBlock (s : Statement) : Prop :=
  ∃ r, Text.trim s.source = '}' :: r ∧ braceDelta r = 0

/-- The blocks around what follows a statement. -/
def blocksBehind (blocks : List BlockKind) (s : Statement) : List BlockKind :=
  updateBlocks blocks s.toContent s.source

/-- No comment starts with a closing curly bracket. -/
def CommentsApart (s : Statement) : Prop :=
  s.role = some .comment → (Text.trim s.source).head? ≠ some '}'

end Statement

mutual

/-- The statements as they stand in the script. -/
def Items.statements : Items → List Statement
  | .nil => []
  | .line s rest => s :: rest.statements
  | .block opener body ending rest =>
    opener :: (body.statements ++ ending.statements ++ rest.statements)

def Ending.statements : Ending → List Statement
  | .close closer => [closer]
  | .middle s body ending => s :: (body.statements ++ ending.statements)

end

mutual

/-- Whether the brackets of all statements say what the items say. -/
def Items.Nested : Items → Prop
  | .nil => True
  | .line s rest => s.IsLevel ∧ rest.Nested
  | .block opener body ending rest =>
    opener.OpensBlock ∧ body.Nested ∧ ending.Nested ∧ rest.Nested

def Ending.Nested : Ending → Prop
  | .close closer => closer.ClosesBlock
  | .middle s body ending => s.ReopensBlock ∧ body.Nested ∧ ending.Nested

end

mutual

/-- The blocks around each statement, if `around` are those around all of them. -/
def Items.contexts (around : List BlockKind) : Items → List (List BlockKind)
  | .nil => []
  | .line _ rest => around :: rest.contexts around
  | .block opener body ending rest =>
    around :: (body.contexts (around ++ [opener.blockKind]) ++
      ending.contexts around opener.blockKind ++ rest.contexts around)

/-- What ends a block, or goes on with it, stands in the part that was opened last. -/
def Ending.contexts (around : List BlockKind) (last : BlockKind) : Ending → List (List BlockKind)
  | .close _ => [around ++ [last]]
  | .middle s body ending =>
    (around ++ [last]) :: (body.contexts (around ++ [s.blockKind]) ++
      ending.contexts around s.blockKind)

end

/-- The blocks around what follows a row of statements. -/
def blocksThrough (blocks : List BlockKind) (statements : List Statement) : List BlockKind :=
  statements.foldl Statement.blocksBehind blocks

/-- The blocks around each of a row of statements. -/
def blocksAlong (blocks : List BlockKind) : List Statement → List (List BlockKind)
  | [] => []
  | s :: rest => blocks :: blocksAlong (s.blocksBehind blocks) rest

section Step

/-- How a text without a closing bracket at its front enters or leaves blocks. -/
def throughBraces (blocks : List BlockKind) (kind : BlockKind) (t : Text) : List BlockKind :=
  if 0 < braceDelta t then if opensBlock t then blocks ++ [kind] else blocks
  else blocks.take (blocks.length - (braceDelta t).natAbs)

variable {blocks : List BlockKind} {s : Statement} {kind : BlockKind} {t r : Text}

theorem throughBraces_level (level : braceDelta t = 0) : throughBraces blocks kind t = blocks := by
  unfold throughBraces
  rw [level]
  exact List.take_length

theorem throughBraces_opens (one : braceDelta t = 1) (opens : opensBlock t = true) :
    throughBraces blocks kind t = blocks ++ [kind] := by
  unfold throughBraces
  rw [one, if_pos Int.one_pos, if_pos opens]

theorem blocksBehind_of_comment (comment : s.role = some .comment) :
    s.blocksBehind blocks = blocks := if_pos comment

theorem blocksBehind_of_front (noComment : s.role ≠ some .comment)
    (front : (Text.trim s.source).head? ≠ some '}') :
    s.blocksBehind blocks = throughBraces blocks s.blockKind (Text.trim s.source) := by
  unfold Statement.blocksBehind updateBlocks
  rw [if_neg noComment]
  dsimp only
  split
  next r shape =>
    rw [shape] at front
    exact absurd rfl front
  next => rfl

theorem blocksBehind_of_closer (noComment : s.role ≠ some .comment)
    (shape : Text.trim s.source = '}' :: r) :
    s.blocksBehind blocks = throughBraces blocks.dropLast s.blockKind r := by
  unfold Statement.blocksBehind updateBlocks
  rw [if_neg noComment, shape]
  rfl

theorem Statement.CommentsApart.noComment (h : s.CommentsApart)
    (shape : Text.trim s.source = '}' :: r) : s.role ≠ some .comment := by
  intro comment
  have front := h comment
  rw [shape] at front
  exact front rfl

theorem Statement.IsLevel.blocksBehind_eq (h : s.IsLevel) : s.blocksBehind blocks = blocks := by
  by_cases comment : s.role = some .comment
  · exact blocksBehind_of_comment comment
  · obtain ⟨front, level⟩ := h.resolve_left comment
    rw [blocksBehind_of_front comment front, throughBraces_level level]

theorem Statement.OpensBlock.blocksBehind_eq (h : s.OpensBlock) :
    s.blocksBehind blocks = blocks ++ [s.blockKind] := by
  rw [blocksBehind_of_front h.noComment h.front, throughBraces_opens h.braces h.opens]

theorem Statement.ReopensBlock.blocksBehind_eq (h : s.ReopensBlock) (apart : s.CommentsApart) :
    s.blocksBehind (blocks ++ [kind]) = blocks ++ [s.blockKind] := by
  obtain ⟨r, shape, one, opens⟩ := h
  rw [blocksBehind_of_closer (apart.noComment shape) shape, List.dropLast_concat,
    throughBraces_opens one opens]

theorem Statement.ClosesBlock.blocksBehind_eq (h : s.ClosesBlock) (apart : s.CommentsApart) :
    s.blocksBehind (blocks ++ [kind]) = blocks := by
  obtain ⟨r, shape, level⟩ := h
  rw [blocksBehind_of_closer (apart.noComment shape) shape, List.dropLast_concat,
    throughBraces_level level]

end Step

section Run

variable {blocks : List BlockKind} {s : Statement} {ss rest : List Statement}

theorem blocksThrough_cons : blocksThrough blocks (s :: ss) =
    blocksThrough (s.blocksBehind blocks) ss := rfl

theorem blocksThrough_append : blocksThrough blocks (ss ++ rest) =
    blocksThrough (blocksThrough blocks ss) rest := List.foldl_append

theorem blocksAlong_cons : blocksAlong blocks (s :: ss) =
    blocks :: blocksAlong (s.blocksBehind blocks) ss := rfl

theorem blocksAlong_append : blocksAlong blocks (ss ++ rest) =
    blocksAlong blocks ss ++ blocksAlong (blocksThrough blocks ss) rest := by
  induction ss generalizing blocks with
  | nil => rfl
  | cons s ss ih =>
    rw [List.cons_append, blocksAlong_cons, blocksAlong_cons, ih, blocksThrough_cons,
      List.cons_append]

/-- What a row of statements does to the blocks around it, and which blocks it finds. -/
structure Passes (blocks : List BlockKind) (ss : List Statement) (behind : List BlockKind)
    (contexts : List (List BlockKind)) : Prop where
  through : blocksThrough blocks ss = behind
  along : blocksAlong blocks ss = contexts

namespace Passes

variable {behind last : List BlockKind} {contexts more : List (List BlockKind)}

theorem nil : Passes blocks [] blocks [] := ⟨rfl, rfl⟩

theorem cons (h : Passes behind ss last contexts) (step : s.blocksBehind blocks = behind) :
    Passes blocks (s :: ss) last (blocks :: contexts) := by
  constructor
  · rw [blocksThrough_cons, step, h.through]
  · rw [blocksAlong_cons, step, h.along]

theorem append (h : Passes blocks ss behind contexts) (later : Passes behind rest last more) :
    Passes blocks (ss ++ rest) last (contexts ++ more) := by
  constructor
  · rw [blocksThrough_append, h.through, later.through]
  · rw [blocksAlong_append, h.through, h.along, later.along]

end Passes

mutual

theorem Items.passes (items : Items) (nested : items.Nested)
    (apart : ∀ s ∈ items.statements, s.CommentsApart) (around : List BlockKind) :
    Passes around items.statements around (items.contexts around) := by
  cases items with
  | nil => exact .nil
  | line s rest =>
    obtain ⟨level, nested⟩ := nested
    have later := rest.passes nested (fun s hs => apart s (List.mem_cons_of_mem _ hs)) around
    exact later.cons level.blocksBehind_eq
  | block opener body ending rest =>
    obtain ⟨opens, inside, ends, nested⟩ := nested
    simp only [Items.statements, List.forall_mem_cons, List.forall_mem_append] at apart
    obtain ⟨-, ⟨first, second⟩, third⟩ := apart
    have inner := body.passes inside first (around ++ [opener.blockKind])
    have closed := ending.passes ends second around opener.blockKind
    have later := rest.passes nested third around
    exact ((inner.append closed).append later).cons opens.blocksBehind_eq

theorem Ending.passes (ending : Ending) (nested : ending.Nested)
    (apart : ∀ s ∈ ending.statements, s.CommentsApart) (around : List BlockKind)
    (last : BlockKind) :
    Passes (around ++ [last]) ending.statements around (ending.contexts around last) := by
  cases ending with
  | close closer =>
    have own := apart closer List.mem_cons_self
    exact Passes.nil.cons (nested.blocksBehind_eq own)
  | middle s body ending =>
    obtain ⟨reopens, inside, ends⟩ := nested
    simp only [Ending.statements, List.forall_mem_cons, List.forall_mem_append] at apart
    obtain ⟨own, first, second⟩ := apart
    have inner := body.passes inside first (around ++ [s.blockKind])
    have closed := ending.passes ends second around s.blockKind
    exact (inner.append closed).cons (reopens.blocksBehind_eq own)

end

end Run

/-- What is known behind logical lines. -/
def Extraction.behind (state : Extraction) (lines : List LogicalLine) : Extraction :=
  lines.foldl (fun state line => (state.step line).2) state

theorem blocks_statementsFrom (state : Extraction) (lines : List LogicalLine) :
    Passes state.blocks (statementsFrom state lines) (state.behind lines).blocks
      ((statementsFrom state lines).map fun s => s.blocks) := by
  induction lines generalizing state with
  | nil => exact .nil
  | cons line rest ih => exact (ih (state.step line).2).cons rfl

theorem starts_of_comment {t : Text} (h : structuralRole? t = some .comment) :
    Text.startsWithAny ["//", "/*", "*"] t = true := by
  unfold structuralRole? at h
  split at h
  next comment => exact comment
  next =>
    -- all other marks give other roles
    repeat
      split at h
      next => cases h
    cases h

theorem commentsApart_of_mem {state : Extraction} {lines : List LogicalLine} {s : Statement}
    (h : s ∈ statementsFrom state lines) : s.CommentsApart := by
  induction lines generalizing state with
  | nil => cases h
  | cons line rest ih =>
    rcases List.mem_cons.mp h with rfl | h
    · intro comment closer
      have content := lineContent_classifyLine state.scope line.text
      have starts := starts_of_comment ((role_eq_comment_iff content).mp comment)
      obtain ⟨r, shape⟩ := List.head?_eq_some_iff.mp closer
      rw [show Text.trim line.text = '}' :: r from shape] at starts
      cases starts
    · exact ih h

/-- Behind blocks in a row the blocks around are those in front of it, from wherever one starts. If
the row is extracted from a script, its statements are told the blocks that their nesting says. -/
theorem blocks_follow_nesting {items : Items} (nested : items.Nested) :
    ((∀ s ∈ items.statements, s.CommentsApart) →
        ∀ blocks, blocksThrough blocks items.statements = blocks) ∧
      ∀ state lines, statementsFrom state lines = items.statements →
        (state.behind lines).blocks = state.blocks ∧
          (items.statements.map fun s => s.blocks) = items.contexts state.blocks := by
  constructor
  · intro apart blocks
    exact (items.passes nested apart blocks).through
  · intro state lines same
    have apart : ∀ s ∈ items.statements, s.CommentsApart := by
      intro s hs
      rw [← same] at hs
      exact commentsApart_of_mem hs
    have expected := items.passes nested apart state.blocks
    have told := blocks_statementsFrom state lines
    rw [same] at told
    exact ⟨told.through.symm.trans expected.through, told.along.symm.trans expected.along⟩

/-- A test with a branch that has a second part, in which there is a comment. -/
def branchedTest : Text :=
  "test('menu', () => \x7b\n if (a) \x7b\n page.click('#b');\n \x7d else \x7b\n // c\n \x7d\n\x7d);"

theorem blocks_follow_nesting_branchedTest : ∃ items : Items, items.Nested ∧
    statementsFrom {} (LogicalLine.ofText branchedTest) = items.statements ∧
    blocksThrough [.callback] items.statements = [.callback] ∧
    ((Statement.ofText branchedTest).map fun s => s.blocks) =
      [[], [.test], [.test, .branch], [.test, .branch], [.test, .branch], [.test, .branch],
        [.test]] := by
  have told : ((Statement.ofText branchedTest).map fun s => (s.role, s.source)) =
      [(some .testDeclaration, "test('menu', () => \x7b".toList),
        (some .branch, "if (a) \x7b".toList), (none, "page.click('#b');".toList),
        (some .branch, "\x7d else \x7b".toList), (some .comment, "// c".toList),
        (some .blockClose, "\x7d".toList), (some .blockClose, "\x7d);".toList)] := by
    decide +kernel
  obtain ⟨a, _, whole, sa, told⟩ := List.map_eq_cons_iff.mp told
  obtain ⟨b, _, rfl, sb, told⟩ := List.map_eq_cons_iff.mp told
  obtain ⟨c, _, rfl, sc, told⟩ := List.map_eq_cons_iff.mp told
  obtain ⟨d, _, rfl, sd, told⟩ := List.map_eq_cons_iff.mp told
  obtain ⟨e, _, rfl, se, told⟩ := List.map_eq_cons_iff.mp told
  obtain ⟨f, _, rfl, sf, told⟩ := List.map_eq_cons_iff.mp told
  obtain ⟨g, _, rfl, sg, told⟩ := List.map_eq_cons_iff.mp told
  obtain rfl := List.map_eq_nil_iff.mp told
  obtain ⟨ra, sa⟩ := Prod.mk.inj sa
  obtain ⟨rb, sb⟩ := Prod.mk.inj sb
  obtain ⟨rc, sc⟩ := Prod.mk.inj sc
  obtain ⟨rd, sd⟩ := Prod.mk.inj sd
  obtain ⟨re, -⟩ := Prod.mk.inj se
  obtain ⟨-, sf⟩ := Prod.mk.inj sf
  obtain ⟨-, sg⟩ := Prod.mk.inj sg
  let items : Items := .block a
    (.block b (.line c .nil) (.middle d (.line e .nil) (.close f)) .nil) (.close g) .nil
  have opens : a.OpensBlock ∧ b.OpensBlock := by
    refine ⟨⟨?_, ?_, ?_, ?_⟩, ⟨?_, ?_, ?_, ?_⟩⟩
    all_goals first | rw [ra] | rw [sa] | rw [rb] | rw [sb]
    all_goals decide +kernel
  have level : c.IsLevel ∧ e.IsLevel := by
    refine ⟨.inr ?_, .inl re⟩
    rw [sc]
    decide +kernel
  have reopens : d.ReopensBlock := by
    refine ⟨" else \x7b", ?_, ?_, ?_⟩
    · rw [sd]
      decide +kernel
    · decide +kernel
    · decide +kernel
  have closes : f.ClosesBlock ∧ g.ClosesBlock := by
    refine ⟨⟨[], ?_, rfl⟩, ⟨");", ?_, ?_⟩⟩
    · rw [sf]
      decide +kernel
    · rw [sg]
      decide +kernel
    · decide +kernel
  have nested : items.Nested :=
    ⟨opens.1, ⟨opens.2, ⟨level.1, trivial⟩, ⟨reopens, ⟨level.2, trivial⟩, closes.1⟩, trivial⟩,
      closes.2, trivial⟩
  have same : statementsFrom {} (LogicalLine.ofText branchedTest) = items.statements := whole
  obtain ⟨through, told⟩ := blocks_follow_nesting nested
  obtain ⟨-, contexts⟩ := told {} _ same
  have apart : ∀ s ∈ items.statements, s.CommentsApart := by
    rw [← same]
    exact fun s hs => commentsApart_of_mem hs
  have kinds : a.blockKind = .test ∧ b.blockKind = .branch ∧ d.blockKind = .branch := by
    unfold Statement.blockKind
    rw [ra, rb, rd]
    exact ⟨rfl, rfl, rfl⟩
  obtain ⟨ka, kb, kd⟩ := kinds
  refine ⟨items, nested, same, through apart _, ?_⟩
  rw [show Statement.ofText branchedTest = items.statements from whole, contexts]
  simp only [items, Items.contexts, Ending.contexts, ka, kb, kd]
  rfl

end PageObjects
