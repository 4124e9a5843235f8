import PageObjects.Proofs.Script.Balance
import PageObjects.Proofs.Text.Ascii
import PageObjects.Proofs.Text.Search
import PageObjects.Script.Chain

namespace PageObjects

theorem isIdentifierPart_of_isWord {c : Char} (h : isWord c = true) : isIdentifierPart c = true := by
  rw [isIdentifierPart, h, Bool.true_or]

theorem isIdentifierPart_of_start {c : Char} (h : isIdentifierStart c = true) :
    isIdentifierPart c = true := by
  simp only [isIdentifierStart, Bool.or_eq_true, beq_iff_eq] at h
  rcases h with (letter | rfl) | rfl
  · exact isIdentifierPart_of_isWord (isWord_of_isAlpha letter)
  · exact isIdentifierPart_of_isWord rfl
  · rfl

theorem isPlain_of_isIdentifierPart {c : Char} (h : isIdentifierPart c = true) : IsPlain c :=
  isPlain_of_class (by decide) h

theorem isBlank_of_isIdentifierPart {c : Char} (h : isIdentifierPart c = true) :
    isBlank c = false :=
  isBlank_of_class (by decide +kernel) h

theorem isIdentifierPart_of_mem {name : Text} (h : isIdentifier name = true) :
    ∀ c ∈ name, isIdentifierPart c = true := by
  cases name with
  | nil => cases h
  | cons c r =>
    obtain ⟨start, parts⟩ := (Bool.and_eq_true _ _).mp h
    rw [List.forall_mem_cons]
    exact ⟨isIdentifierPart_of_start start, List.all_eq_true.mp parts⟩

theorem exists_cons_of_isIdentifier {name : Text} (h : isIdentifier name = true) :
    ∃ c r, name = c :: r := by
  cases name with
  | nil => cases h
  | cons c r => exact ⟨c, r, rfl⟩

/-- Blanks at the front are plain. -/
theorem exists_append_trimStart (t : Text) :
    ∃ lead, t = lead ++ Text.trimStart t ∧ ∀ c ∈ lead, IsPlain c :=
  ⟨t.takeWhile isBlank, (List.takeWhile_append_dropWhile).symm,
    fun _ hc => isPlain_of_isBlank (List.mem_takeWhile_imp hc)⟩

theorem readIdentifier?_append {name r : Text} (h : isIdentifier name = true)
    (stop : ∀ c ∈ r.head?, isIdentifierPart c = false) :
    readIdentifier? (name ++ r) = some (name, r) := by
  cases name with
  | nil => cases h
  | cons c name =>
    obtain ⟨start, parts⟩ := (Bool.and_eq_true _ _).mp h
    obtain ⟨taken, left⟩ := Text.takeWhile_append (List.all_eq_true.mp parts) stop
    rw [List.cons_append, readIdentifier?, if_pos start, taken, left]

theorem eq_append_of_readIdentifier? {t name r : Text} (h : readIdentifier? t = some (name, r)) :
    isIdentifier name = true ∧ t = name ++ r := by
  cases t with
  | nil => cases h
  | cons c t =>
    rw [readIdentifier?] at h
    split at h
    next start =>
      obtain ⟨rfl, rfl⟩ := Prod.mk.inj (Option.some.inj h)
      refine ⟨?_, by rw [List.cons_append, List.takeWhile_append_dropWhile]⟩
      rw [isIdentifier, start, List.all_takeWhile]
      rfl
    next => cases h

namespace Segment

/-- A step that is written the way it is read: a name and, for a call, trimmed arguments in which
everything that is opened is closed. -/
structure WellFormed (s : Segment) : Prop where
  name : isIdentifier s.name = true
  trimmed : ∀ args ∈ s.args, Text.trim args = args
  balanced : ∀ args ∈ s.args, Balanced args

instance (s : Segment) : Decidable s.WellFormed :=
  decidable_of_iff (isIdentifier s.name = true ∧ (∀ args ∈ s.args, Text.trim args = args) ∧
      ∀ args ∈ s.args, Balanced args)
    ⟨fun ⟨name, trimmed, balanced⟩ => ⟨name, trimmed, balanced⟩,
      fun h => ⟨h.name, h.trimmed, h.balanced⟩⟩

/-- A step in which everything that is opened is closed, be there blanks around its arguments or
not. -/
structure Closes (s : Segment) : Prop where
  name : isIdentifier s.name = true
  balanced : ∀ args ∈ s.args, Balanced args

instance (s : Segment) : Decidable s.Closes :=
  decidable_of_iff (isIdentifier s.name = true ∧ ∀ args ∈ s.args, Balanced args)
    ⟨fun ⟨name, balanced⟩ => ⟨name, balanced⟩, fun h => ⟨h.name, h.balanced⟩⟩

/-- A step without the blanks around its arguments. -/
def trimmed (s : Segment) : Segment := { s with args := s.args.map Text.trim }

@[simp] theorem name_trimmed (s : Segment) : s.trimmed.name = s.name := rfl

@[simp] theorem isCall_trimmed (s : Segment) : s.trimmed.isCall = s.isCall := by
  simp [trimmed, isCall]

theorem WellFormed.closes {s : Segment} (h : s.WellFormed) : s.Closes := ⟨h.name, h.balanced⟩

theorem WellFormed.trimmed_eq {s : Segment} (h : s.WellFormed) : s.trimmed = s := by
  obtain ⟨name, args⟩ := s
  cases args with
  | none => rfl
  | some args => rw [Segment.trimmed, Option.map_some, h.trimmed args rfl]

theorem Closes.wellFormed_trimmed {s : Segment} (h : s.Closes) : s.trimmed.WellFormed := by
  obtain ⟨name, args⟩ := s
  refine ⟨h.name, ?_, ?_⟩
  · intro args' ha
    obtain ⟨args, -, rfl⟩ := Option.map_eq_some_iff.mp ha
    exact Text.trim_trim args
  · intro args' ha
    obtain ⟨args, own, rfl⟩ := Option.map_eq_some_iff.mp ha
    exact (h.balanced args own).trim

/-- What an opened bracket encloses and what follows its end; one that does not close encloses all
that follows. -/
def enclosed (inner : Text) : Text × Text := (cutAtCloser .code 1 inner).getD (inner, [])

/-- The step at the start of a text, and what follows it. -/
def read? (t : Text) : Option (Segment × Text) :=
  (readIdentifier? t).map fun (name, r) =>
    let behind := Text.trimStart r
    if behind.head? = some '(' then
      (⟨name, some (Text.trim (enclosed behind.tail).1)⟩, (enclosed behind.tail).2)
    else (⟨name, none⟩, behind)

/-- What is read is a name with blanks behind it and, for a call, a bracket with what it
encloses. -/
theorem exists_of_read? {t r : Text} {s : Segment} (h : read? t = some (s, r)) :
    isIdentifier s.name = true ∧ ∃ lead, (∀ c ∈ lead, IsPlain c) ∧
      ((s.args = none ∧ t = lead ++ r) ∨ ∃ inner, t = lead ++ '(' :: inner ∧
        s.args = some (Text.trim (enclosed inner).1) ∧ r = (enclosed inner).2) := by
  obtain ⟨⟨name, behind⟩, identified, same⟩ := Option.map_eq_some_iff.mp h
  obtain ⟨named, rfl⟩ := eq_append_of_readIdentifier? identified
  obtain ⟨gap, split, blank⟩ := exists_append_trimStart behind
  have plain : ∀ c ∈ name ++ gap, IsPlain c := by
    intro c hc
    rcases List.mem_append.mp hc with own | between
    · exact isPlain_of_isIdentifierPart (isIdentifierPart_of_mem named c own)
    · exact blank c between
  have whole : name ++ behind = name ++ gap ++ Text.trimStart behind := by
    rw [List.append_assoc, ← split]
  dsimp only at same
  split at same
  next bracket =>
    obtain ⟨inner, bracket⟩ := List.head?_eq_some_iff.mp bracket
    rw [bracket] at whole same
    obtain ⟨rfl, rfl⟩ := Prod.mk.inj same
    exact ⟨named, _, plain, .inr ⟨inner, whole, rfl, rfl⟩⟩
  next =>
    obtain ⟨rfl, rfl⟩ := Prod.mk.inj same
    exact ⟨named, _, plain, .inl ⟨rfl, whole⟩⟩

/-- A step that closes is read back, whatever follows it at the end of a text or behind a dot. -/
theorem read?_render_append {s : Segment} {r : Text} (h : s.Closes)
    (stop : ∀ c ∈ r.head?, c = '.') : read? (s.render ++ r) = some (s.trimmed, r) := by
  obtain ⟨name, args⟩ := s
  cases args with
  | none =>
    have part : ∀ c ∈ r.head?, isIdentifierPart c = false := by
      intro c hc
      rw [stop c hc]
      decide
    have start : Text.trimStart r = r := by
      refine Text.trimStart_eq_self ?_
      intro c hc
      rw [stop c hc]
      rfl
    have other : r.head? ≠ some '(' := by
      intro bracket
      exact absurd (stop '(' bracket) (by decide)
    rw [read?, render, readIdentifier?_append h.name part]
    simp only [Option.map_some, start, if_neg other]
    rfl
  | some args =>
    have closes : cutAtCloser .code 1 (args ++ ')' :: r) = some (args, r) :=
      (cutAtCloser_eq_some_iff Nat.one_pos).mpr
        ⟨')', rfl, rfl, encloses_iff_balanced.mpr (h.balanced args rfl)⟩
    have cut : enclosed (args ++ ')' :: r) = (args, r) := by rw [enclosed, closes, Option.getD_some]
    have bracket : ∀ c ∈ ('(' :: (args ++ ')' :: r)).head?, isIdentifierPart c = false := by
      intro c hc
      obtain rfl := Option.some.inj hc
      decide
    have whole : (⟨name, some args⟩ : Segment).render ++ r = name ++ '(' :: (args ++ ')' :: r) := by
      simp [render]
    have start : Text.trimStart ('(' :: (args ++ ')' :: r)) = '(' :: (args ++ ')' :: r) := rfl
    rw [whole, read?, readIdentifier?_append h.name bracket]
    simp only [Option.map_some, start, List.head?_cons, if_true, List.tail_cons, cut]
    rfl

theorem front_render {s : Segment} (h : s.Closes) :
    ∀ c ∈ s.render.head?, isBlank c = false := by
  obtain ⟨name, args⟩ := s
  obtain ⟨first, r, rfl⟩ := exists_cons_of_isIdentifier h.name
  have head : (⟨first :: r, args⟩ : Segment).render.head? = some first := by
    cases args with
    | none => rfl
    | some args => rfl
  intro c hc
  rw [Option.mem_def, head] at hc
  obtain rfl := Option.some.inj hc
  exact isBlank_of_isIdentifierPart (isIdentifierPart_of_mem h.name _ List.mem_cons_self)

/-- What ends no name and is no bracket does not end a rendered step. -/
theorem back_render {p : Char → Bool} (part : ∀ c, isIdentifierPart c = true → p c = false)
    (bracket : p ')' = false) {s : Segment} (h : s.Closes) :
    ∀ c ∈ s.render.getLast?, p c = false := by
  obtain ⟨name, args⟩ := s
  intro c hc
  cases args with
  | none => exact part c (isIdentifierPart_of_mem h.name c (List.mem_of_getLast? hc))
  | some args =>
    have last : (⟨name, some args⟩ : Segment).render.getLast? = some ')' := List.getLast?_concat
    rw [Option.mem_def, last] at hc
    obtain rfl := Option.some.inj hc
    exact bracket

theorem render_ne_nil {s : Segment} (h : s.Closes) : s.render ≠ [] := by
  obtain ⟨name, args⟩ := s
  obtain ⟨c, r, rfl⟩ := exists_cons_of_isIdentifier h.name
  cases args with
  | none => exact List.cons_ne_nil c r
  | some args => exact List.cons_ne_nil c _

end Segment

namespace Chain

/-- A chain that is written the way it is read: its receiver is made of names, its steps are well
formed, and the first of them is a call. -/
structure WellFormed (chain : Chain) : Prop where
  receiver : ∀ name ∈ chain.receiver, isIdentifier name = true
  segments : ∀ s ∈ chain.segments, s.WellFormed
  callFirst : ∀ s ∈ chain.segments.head?, s.isCall = true

instance (chain : Chain) : Decidable chain.WellFormed :=
  decidable_of_iff ((∀ name ∈ chain.receiver, isIdentifier name = true) ∧
      (∀ s ∈ chain.segments, s.WellFormed) ∧ ∀ s ∈ chain.segments.head?, s.isCall = true)
    ⟨fun ⟨receiver, segments, callFirst⟩ => ⟨receiver, segments, callFirst⟩,
      fun h => ⟨h.receiver, h.segments, h.callFirst⟩⟩

/-- The source form of a chain, without its rest. -/
def render (chain : Chain) : Text :=
  Text.joinWith ['.'] (chain.receiver ++ chain.segments.map Segment.render)

def addStep (chain : Chain) (s : Segment) : Chain :=
  if s.isCall then { chain with segments := chain.segments ++ [s] } else chain.addName s.name

theorem readStep?_eq (chain : Chain) (t : Text) : readStep? chain t =
    (Segment.read? t).map fun step => (chain.addStep step.1, step.2) := by
  simp only [readStep?, Segment.read?]
  cases readIdentifier? t with
  | none => rfl
  | some name =>
    obtain ⟨name, r⟩ := name
    simp only [Option.map_some]
    generalize Text.trimStart r = behind
    split
    next inner =>
      simp only [List.head?_cons, if_true, List.tail_cons, Segment.enclosed]
      cases cutAtCloser .code 1 inner with
      | none => rfl
      | some cut => rfl
    next other =>
      have name : behind.head? ≠ some '(' := by
        intro bracket
        obtain ⟨inner, same⟩ := List.head?_eq_some_iff.mp bracket
        exact other inner same
      rw [if_neg name]
      rfl

theorem length_of_read? {t r : Text} {s : Segment} (h : Segment.read? t = some (s, r)) :
    r.length < t.length := by
  have step : readStep? ⟨[], [], []⟩ t = some (addStep ⟨[], [], []⟩ s, r) := by
    rw [readStep?_eq, h, Option.map_some]
  exact length_of_readStep? step

/-- The steps from the start of a text on, each with the text that it is read from, and what does
not continue them. -/
def readSteps (t : Text) : List (Text × Segment) × Text :=
  match _hstep : Segment.read? t with
  | none => ([], Text.trim t)
  | some (s, r) =>
    match _hdot : afterDot? (Text.trimStart r) with
    | none => ([(t, s)], Text.trim r)
    | some r' => ((t, s) :: (readSteps r').1, (readSteps r').2)
termination_by t.length
decreasing_by
  all_goals
    have h1 := length_of_read? _hstep
    have h2 := length_of_afterDot? _hdot
    have h3 := Text.length_dropWhile_le isBlank r
    simp only [Text.trimStart] at h2
    omega

theorem readOn_eq (chain : Chain) (t : Text) : readOn chain t =
    { ((readSteps t).1.map Prod.snd).foldl addStep chain with rest := (readSteps t).2 } := by
  fun_induction readSteps t generalizing chain with
  | case1 t hstep =>
    rw [readOn, readStep?_eq, hstep]
    rfl
  | case2 t s r hstep hdot =>
    rw [readOn, readStep?_eq, hstep, Option.map_some]
    dsimp only
    rw [hdot]
    rfl
  | case3 t s r hstep r' hdot ih =>
    rw [readOn, readStep?_eq, hstep, Option.map_some]
    dsimp only
    rw [hdot]
    exact ih (chain.addStep s)

theorem readSteps_of_read? {t r : Text} {s : Segment} (h : Segment.read? t = some (s, r)) :
    readSteps t = match afterDot? (Text.trimStart r) with
      | none => ([(t, s)], Text.trim r)
      | some r' => ((t, s) :: (readSteps r').1, (readSteps r').2) := by
  rw [readSteps, h]
  dsimp only
  cases afterDot? (Text.trimStart r) with
  | none => rfl
  | some r' => rfl

/-- The names before the first call of some steps, and the steps from there on. -/
def ofSteps (steps : List Segment) (rest : Text) : Chain where
  receiver := (steps.takeWhile fun s => !s.isCall).map Segment.name
  segments := steps.dropWhile fun s => !s.isCall
  rest := rest

/-- Behind a call, every step is one of the chain. -/
theorem foldl_addStep_of_segments {chain : Chain} (h : chain.segments ≠ []) (steps : List Segment) :
    steps.foldl addStep chain = { chain with segments := chain.segments ++ steps } := by
  induction steps generalizing chain with
  | nil => rw [List.foldl_nil, List.append_nil]
  | cons s steps ih =>
    have added : chain.addStep s = { chain with segments := chain.segments ++ [s] } := by
      obtain ⟨name, args⟩ := s
      cases args with
      | none => simp [addStep, Segment.isCall, addName, h]
      | some args => rfl
    rw [List.foldl_cons, added, ih (by simp), List.append_assoc, List.singleton_append]

theorem foldl_addStep (receiver : List Text) (rest : Text) (steps : List Segment) :
    steps.foldl addStep ⟨receiver, [], rest⟩ =
      { ofSteps steps rest with receiver := receiver ++ (ofSteps steps rest).receiver } := by
  induction steps generalizing receiver with
  | nil => simp [ofSteps]
  | cons s steps ih =>
    obtain ⟨name, args⟩ := s
    cases args with
    | none =>
      have added : addStep ⟨receiver, [], rest⟩ ⟨name, none⟩ = ⟨receiver ++ [name], [], rest⟩ := rfl
      rw [List.foldl_cons, added, ih]
      simp [ofSteps, Segment.isCall]
    | some args =>
      rw [List.foldl_cons, foldl_addStep_of_segments (List.cons_ne_nil _ _)]
      simp [ofSteps, Segment.isCall, addStep]

theorem parse_eq_ofSteps (expression : Text) : parse expression =
    ofSteps ((readSteps (Text.trim expression)).1.map Prod.snd)
      (readSteps (Text.trim expression)).2 := by
  rw [parse, readOn_eq, foldl_addStep]
  rfl

/-- The steps of a chain, those of its receiver included. -/
def steps (chain : Chain) : List Segment :=
  (chain.receiver.map fun name => ⟨name, none⟩) ++ chain.segments

theorem render_eq (chain : Chain) : chain.render = renderSegments chain.steps := by
  simp [render, renderSegments, steps, Segment.render, Function.comp_def]

theorem WellFormed.ofSteps_steps {chain : Chain} (h : chain.WellFormed) (rest : Text) :
    ofSteps chain.steps rest = { chain with rest } := by
  have names : ∀ s ∈ chain.receiver.map fun name => (⟨name, none⟩ : Segment),
      (!s.isCall) = true := by
    intro s hs
    obtain ⟨name, -, rfl⟩ := List.mem_map.mp hs
    rfl
  have stops : chain.segments.takeWhile (fun s => !s.isCall) = [] ∧
      chain.segments.dropWhile (fun s => !s.isCall) = chain.segments := by
    cases first : chain.segments with
    | nil => exact ⟨rfl, rfl⟩
    | cons s segments =>
      have call : s.isCall = true := h.callFirst s (by rw [first]; rfl)
      simp [call]
  rw [ofSteps, Chain.steps, List.takeWhile_append_of_pos names, List.dropWhile_append_of_pos names,
    stops.1, stops.2, List.append_nil, List.map_map]
  simp [Function.comp_def]

theorem wellFormed_ofSteps {steps : List Segment} (h : ∀ s ∈ steps, s.WellFormed) (rest : Text) :
    (ofSteps steps rest).WellFormed := by
  refine ⟨?_, ?_, ?_⟩
  · intro name hname
    obtain ⟨s, hs, rfl⟩ := List.mem_map.mp hname
    exact (h s ((List.takeWhile_sublist _).mem hs)).name
  · intro s hs
    exact h s ((List.dropWhile_sublist _).mem hs)
  · intro s hs
    have kept := List.head?_dropWhile_not (fun s : Segment => !s.isCall) steps
    have first : (steps.dropWhile fun s => !s.isCall).head? = some s := hs
    rw [first] at kept
    simpa using kept

/-- What follows a rendered step. -/
def dotted : List Segment → Text
  | [] => []
  | s :: steps => '.' :: renderSegments (s :: steps)

theorem renderSegments_cons (s : Segment) (steps : List Segment) :
    renderSegments (s :: steps) = s.render ++ dotted steps := by
  cases steps with
  | nil => simp [renderSegments, Text.joinWith, dotted]
  | cons s' steps =>
    simp only [renderSegments, Text.joinWith, dotted, List.map_cons, List.intercalate_cons_cons,
      List.append_assoc, List.singleton_append]

theorem front_renderSegments {steps : List Segment} (h : ∀ s ∈ steps, s.Closes) :
    ∀ c ∈ (renderSegments steps).head?, isBlank c = false := by
  cases steps with
  | nil => exact nofun
  | cons s steps =>
    have own := h s List.mem_cons_self
    rw [renderSegments_cons, List.head?_append_of_ne_nil _ (Segment.render_ne_nil own)]
    exact Segment.front_render own

theorem back_renderSegments {p : Char → Bool} (part : ∀ c, isIdentifierPart c = true → p c = false)
    (bracket : p ')' = false) {steps : List Segment} (h : ∀ s ∈ steps, s.Closes) :
    ∀ c ∈ (renderSegments steps).getLast?, p c = false := by
  induction steps with
  | nil => exact nofun
  | cons s steps ih =>
    cases steps with
    | nil =>
      rw [renderSegments_cons, dotted, List.append_nil]
      exact Segment.back_render part bracket (h s List.mem_cons_self)
    | cons s' steps =>
      have filled : renderSegments (s' :: steps) ≠ [] := by
        rw [renderSegments_cons]
        have own := h s' (List.mem_cons_of_mem _ List.mem_cons_self)
        exact List.append_ne_nil_of_left_ne_nil (Segment.render_ne_nil own) _
      rw [renderSegments_cons, dotted, List.getLast?_append_of_ne_nil _ (List.cons_ne_nil _ _),
        List.getLast?_cons_of_ne_nil filled]
      exact ih fun s hs => h s (List.mem_cons_of_mem _ hs)

/-- Rendered steps start and end with what is not blank. -/
theorem trim_renderSegments {steps : List Segment} (h : ∀ s ∈ steps, s.Closes) :
    Text.trim (renderSegments steps) = renderSegments steps :=
  Text.trim_eq_self (front_renderSegments h)
    (back_renderSegments (fun _ => isBlank_of_isIdentifierPart) rfl h)

/-- Rendered steps are read back, and nothing is left. -/
theorem readSteps_renderSegments {steps : List Segment} (h : ∀ s ∈ steps, s.Closes) :
    (readSteps (renderSegments steps)).1.map Prod.snd = steps.map Segment.trimmed ∧
      (readSteps (renderSegments steps)).2 = [] := by
  induction steps with
  | nil =>
    have nothing : readSteps [] = ([], []) := by rw [readSteps]; rfl
    exact ⟨congrArg (fun read => read.1.map Prod.snd) nothing, congrArg Prod.snd nothing⟩
  | cons s steps ih =>
    have later : ∀ s ∈ steps, s.Closes := fun s hs => h s (List.mem_cons_of_mem _ hs)
    have stop : ∀ c ∈ (dotted steps).head?, c = '.' := by
      cases steps with
      | nil => exact nofun
      | cons s' steps => exact fun c hc => (Option.some.inj hc).symm
    have step := Segment.read?_render_append (h s List.mem_cons_self) stop
    rw [renderSegments_cons, readSteps_of_read? step]
    cases steps with
    | nil => exact ⟨rfl, rfl⟩
    | cons s' steps =>
      have dot : afterDot? (Text.trimStart (dotted (s' :: steps))) =
          some (renderSegments (s' :: steps)) :=
        congrArg some (Text.trimStart_eq_self (front_renderSegments later))
      rw [dot]
      obtain ⟨same, left⟩ := ih later
      exact ⟨congrArg (s.trimmed :: ·) same, left⟩

/-- A chain whose steps close is read back without the blanks around its arguments. -/
theorem parse_render_of_closes {chain : Chain}
    (receiver : ∀ name ∈ chain.receiver, isIdentifier name = true)
    (closes : ∀ s ∈ chain.segments, s.Closes)
    (callFirst : ∀ s ∈ chain.segments.head?, s.isCall = true) : parse chain.render =
      { receiver := chain.receiver, segments := chain.segments.map Segment.trimmed, rest := [] } := by
  have all : ∀ s ∈ chain.steps, s.Closes := by
    intro s hs
    rcases List.mem_append.mp hs with named | own
    · obtain ⟨name, hname, rfl⟩ := List.mem_map.mp named
      exact ⟨receiver name hname, nofun⟩
    · exact closes s own
  have formed : ({ chain with segments := chain.segments.map Segment.trimmed } : Chain).WellFormed := by
    refine ⟨receiver, ?_, ?_⟩
    · intro s' hs
      obtain ⟨s, own, rfl⟩ := List.mem_map.mp hs
      exact (closes s own).wellFormed_trimmed
    · intro s' hs
      rw [List.head?_map] at hs
      obtain ⟨s, first, rfl⟩ := Option.map_eq_some_iff.mp hs
      rw [Segment.isCall_trimmed]
      exact callFirst s first
  have steps : chain.steps.map Segment.trimmed =
      ({ chain with segments := chain.segments.map Segment.trimmed } : Chain).steps := by
    simp [Chain.steps, Segment.trimmed, Function.comp_def]
  obtain ⟨same, left⟩ := readSteps_renderSegments all
  rw [parse_eq_ofSteps, render_eq, trim_renderSegments all, same, left, steps,
    formed.ofSteps_steps]

theorem parse_render {chain : Chain} (h : chain.WellFormed) :
    parse chain.render = { chain with rest := [] } := by
  have same : chain.segments.map Segment.trimmed = chain.segments :=
    (List.map_congr_left fun s hs => (h.segments s hs).trimmed_eq).trans (List.map_id _)
  have closes : ∀ s ∈ chain.segments, s.Closes := fun s hs => (h.segments s hs).closes
  rw [parse_render_of_closes h.receiver closes h.callFirst, same]

/-- Where the bracket of a call stands whose text goes to the end of an expression. -/
def bracketPlace (expression call : Text) : Nat :=
  expression.length - (call.dropWhile (· != '(')).length

/-- Where the brackets stand of the calls that are read from a text. -/
def callPlaces (t : Text) : List Nat :=
  ((readSteps t).1.filter fun step => step.2.isCall).map fun step => bracketPlace t step.1

theorem bracketPlace_append {before lead inner : Text} (plain : ∀ c ∈ lead, IsPlain c) :
    bracketPlace (before ++ (lead ++ '(' :: inner)) (lead ++ '(' :: inner) =
      (before ++ lead).length := by
  have other : ∀ c ∈ lead, (c != '(') = true := by
    intro c hc
    rw [bne_iff_ne]
    rintro rfl
    exact absurd (plain '(' hc).opener (by decide)
  rw [bracketPlace, List.dropWhile_append_of_pos other]
  simp only [List.length_append, List.dropWhile_cons, bne_self_eq_false, Bool.false_eq_true,
    if_false, List.length_cons]
  omega

/-- A step that is read outside of strings and whose bracket closes is well formed, and what is read
on from stands outside of strings, too. -/
theorem wellFormed_of_read? {before t r : Text} {s : Segment}
    (outside : Region.code.after before = .code) (h : Segment.read? t = some (s, r))
    (closes : s.isCall = true →
      (matchingIndex? (before ++ t) (bracketPlace (before ++ t) t)).isSome = true) :
    s.WellFormed ∧ ∃ used, t = used ++ r ∧ Region.code.after (before ++ used) = .code := by
  obtain ⟨named, lead, plain, ⟨property, whole⟩ | ⟨inner, rfl, call, rfl⟩⟩ :=
    Segment.exists_of_read? h
  · refine ⟨⟨named, by simp [property], by simp [property]⟩, lead, whole, ?_⟩
    rw [Region.after_append, outside, (scan_of_plain plain).1]
  · have opened : Region.code.after (before ++ lead) = .code := by
      rw [Region.after_append, outside, (scan_of_plain plain).1]
    have found := closes (by rw [Segment.isCall, call]; rfl)
    rw [bracketPlace_append plain, ← List.append_assoc, matchingIndex?_append opened,
      Option.isSome_map] at found
    obtain ⟨⟨args, rest⟩, cut⟩ := Option.isSome_iff_exists.mp found
    obtain ⟨c, closer, rfl, encloses⟩ := (cutAtCloser_eq_some_iff Nat.one_pos).mp cut
    have balanced := encloses_iff_balanced.mp encloses
    rw [Segment.enclosed, cut, Option.getD_some] at call ⊢
    refine ⟨⟨named, ?_, ?_⟩, lead ++ '(' :: args ++ [c], by simp, ?_⟩
    · simp [call]
    · simp [call, balanced.trim]
    · have scanned : Region.code.after ('(' :: args) = .code := balanced.outside
      have behind : Region.code.after [c] = .code := by
        rw [Region.after_cons, Region.next, isQuote_of_isCloser closer]
        rfl
      rw [← List.append_assoc, ← List.append_assoc, Region.after_append, Region.after_append,
        opened, scanned, behind]

/-- What is skipped between two steps is plain. -/
theorem exists_of_afterDot? {r r' : Text} (h : afterDot? (Text.trimStart r) = some r') :
    ∃ lead, r = lead ++ r' ∧ ∀ c ∈ lead, IsPlain c := by
  have skipped : ∀ dot u : Text, (∀ c ∈ dot, IsPlain c) → Text.trimStart r = dot ++ u →
      ∃ lead, r = lead ++ Text.trimStart u ∧ ∀ c ∈ lead, IsPlain c := by
    intro dot u plain start
    obtain ⟨before, whole, blankBefore⟩ := exists_append_trimStart r
    obtain ⟨behind, rest, blankBehind⟩ := exists_append_trimStart u
    refine ⟨before ++ dot ++ behind, ?_, ?_⟩
    · rw [List.append_assoc, ← rest, List.append_assoc, ← start, ← whole]
    · simp only [List.forall_mem_append]
      exact ⟨⟨blankBefore, plain⟩, blankBehind⟩
  have question : IsPlain '?' := ⟨rfl, rfl, rfl⟩
  have dot : IsPlain '.' := ⟨rfl, rfl, rfl⟩
  rw [afterDot?.eq_def] at h
  split at h
  next u start =>
    obtain rfl := Option.some.inj h
    exact skipped ['?', '.'] u (by simp [question, dot]) start
  next u start =>
    obtain rfl := Option.some.inj h
    exact skipped ['.'] u (by simp [dot]) start
  next => cases h

/-- Where all brackets close, all steps are well formed. `before` is what has been read already: the
search for a bracket scans it again. -/
theorem wellFormed_readSteps {before t : Text} (outside : Region.code.after before = .code)
    (closes : ∀ step ∈ (readSteps t).1, step.2.isCall = true →
      (matchingIndex? (before ++ t) (bracketPlace (before ++ t) step.1)).isSome = true) :
    ∀ step ∈ (readSteps t).1, step.2.WellFormed := by
  fun_induction readSteps t generalizing before with
  | case1 => exact nofun
  | case2 t s r hstep hdot =>
    obtain ⟨first, -⟩ := wellFormed_of_read? outside hstep (closes (t, s) List.mem_cons_self)
    simpa using first
  | case3 t s r hstep r' hdot ih =>
    obtain ⟨first, used, whole, scanned⟩ :=
      wellFormed_of_read? outside hstep (closes (t, s) List.mem_cons_self)
    obtain ⟨lead, skipped, plain⟩ := exists_of_afterDot? hdot
    have same : before ++ t = before ++ used ++ lead ++ r' := by
      simp only [List.append_assoc, ← skipped, ← whole]
    have next : Region.code.after (before ++ used ++ lead) = .code := by
      rw [Region.after_append, scanned, (scan_of_plain plain).1]
    refine List.forall_mem_cons.mpr ⟨first, ih next ?_⟩
    intro step hstep'
    rw [← same]
    exact closes step (List.mem_cons_of_mem _ hstep')

theorem wellFormed_parse {expression : Text}
    (closes : ∀ i ∈ callPlaces (Text.trim expression),
      (matchingIndex? (Text.trim expression) i).isSome = true) :
    (parse expression).WellFormed := by
  rw [parse_eq_ofSteps]
  refine wellFormed_ofSteps ?_ _
  intro s hs
  obtain ⟨step, hstep, rfl⟩ := List.mem_map.mp hs
  refine @wellFormed_readSteps [] _ rfl ?_ step hstep
  intro call hcall isCall
  exact closes _ (List.mem_map_of_mem (List.mem_filter.mpr ⟨hcall, isCall⟩))

/-- A well-formed chain is what its source form is read as, and what is read from an expression in
which the bracket of each call closes is well formed, so that it survives being written back. -/
theorem parse_survives_render :
    (∀ chain : Chain, chain.WellFormed → parse chain.render = { chain with rest := [] }) ∧
      ∀ expression : Text,
        (∀ i ∈ callPlaces (Text.trim expression),
          (matchingIndex? (Text.trim expression) i).isSome = true) →
        (parse expression).WellFormed ∧
          parse (parse expression).render = { parse expression with rest := [] } := by
  refine ⟨fun chain h => parse_render h, ?_⟩
  intro expression closes
  have h := wellFormed_parse closes
  exact ⟨h, parse_render h⟩

/-- A button with a bracket in its name, and an expression that reaches it over several lines. -/
def bracketButton : Chain where
  receiver := ["page"]
  segments := [
    ⟨"getByRole", some "'button', \x7b name: 'a)' \x7d"⟩, ⟨"first", none⟩, ⟨"click", some []⟩]
  rest := []

def dividedButton : Text :=
  " page\n ?.getByRole( 'button', \x7b name: 'a)' \x7d )\n .first . click()\n;"

theorem parse_survives_render_bracketButton :
    bracketButton.WellFormed ∧ parse bracketButton.render = bracketButton ∧
      parse dividedButton = { bracketButton with rest := ";" } ∧
      parse (parse dividedButton).render = { parse dividedButton with rest := [] } := by
  obtain ⟨inverts, survives⟩ := parse_survives_render
  have h : bracketButton.WellFormed := by decide
  have closes : ∀ i ∈ callPlaces (Text.trim dividedButton),
      (matchingIndex? (Text.trim dividedButton) i).isSome = true := by decide +kernel
  exact ⟨h, inverts bracketButton h, by decide +kernel, (survives dividedButton closes).2⟩

end Chain

end PageObjects
