import PageObjects.Script.Scan
import PageObjects.Text.Search

namespace PageObjects

def isIdentifierStart (c : Char) : Bool := c.isAlpha || c == '_' || c == '$'

def isIdentifierPart (c : Char) : Bool := isWord c || c == '$'

/-- Whether a text is an identifier as a whole. -/
def isIdentifier : Text → Bool
  | [] => false
  | c :: r => isIdentifierStart c && r.all isIdentifierPart

/-- The identifier at the start of a text, and what follows it. -/
def readIdentifier? : Text → Option (Text × Text)
  | [] => none
  | c :: r =>
    if isIdentifierStart c then
      some (c :: r.takeWhile isIdentifierPart, r.dropWhile isIdentifierPart)
    else none

/-- All identifiers of a text, from the left. -/
def identifiers : Text → List Text
  | [] => []
  | c :: r =>
    if isIdentifierStart c then
      (c :: r.takeWhile isIdentifierPart) :: identifiers (r.dropWhile isIdentifierPart)
    else identifiers r
termination_by t => t.length
decreasing_by
  · have := (List.dropWhile_suffix isIdentifierPart (l := r)).length_le
    simp only [List.length_cons]
    omega
  · simp

/-- A `.name(args)` call, or a `.name` property step if there are no arguments. -/
structure Segment where
  name : Text
  args : Option Text
  deriving DecidableEq, Repr

namespace Segment

def isCall (s : Segment) : Bool := s.args.isSome

def render (s : Segment) : Text :=
  match s.args with
  | none => s.name
  | some args => s.name ++ '(' :: args ++ [')']

/-- The arguments of a call, cut apart; a property step has none. -/
def arguments (s : Segment) : List Text := splitArguments (s.args.getD [])

end Segment

/-- The source form of the steps of a chain. -/
def renderSegments (segments : List Segment) : Text :=
  Text.joinWith ['.'] (segments.map Segment.render)

/-- The names before the first call, the steps from there on, and the text that does not continue
the chain. -/
structure Chain where
  receiver : List Text
  segments : List Segment
  rest : Text
  deriving DecidableEq, Repr

namespace Chain

def calls (chain : Chain) : List Segment := chain.segments.filter Segment.isCall

def lastCall? (chain : Chain) : Option Segment := chain.calls.getLast?

/-- A chain with a further name behind it: a property step once there are steps, else a part of the
receiver. -/
def addName (chain : Chain) (name : Text) : Chain :=
  if chain.segments.isEmpty then { chain with receiver := chain.receiver ++ [name] }
  else { chain with segments := chain.segments ++ [⟨name, none⟩] }

def addCall (chain : Chain) (name args : Text) : Chain :=
  { chain with segments := chain.segments ++ [⟨name, some (Text.trim args)⟩] }

/-- One step of a chain at the start of a text, and what follows it. A call whose bracket does not
close takes all that follows. -/
def readStep? (chain : Chain) (t : Text) : Option (Chain × Text) :=
  match readIdentifier? t with
  | none => none
  | some (name, r) =>
    match Text.trimStart r with
    | '(' :: inner =>
      match cutAtCloser .code 1 inner with
      | some (args, rest) => some (chain.addCall name args, rest)
      | none => some (chain.addCall name inner, [])
    | r => some (chain.addName name, r)

/-- What follows the dot that continues a chain. -/
def afterDot? : Text → Option Text
  | '?' :: '.' :: r => some (Text.trimStart r)
  | '.' :: r => some (Text.trimStart r)
  | _ => none

theorem length_of_cutAtCloser {region : Region} {depth : Nat} {t inner rest : Text}
    (h : cutAtCloser region depth t = some (inner, rest)) :
    inner.length + rest.length < t.length := by
  induction t generalizing region depth inner with
  | nil => simp [cutAtCloser] at h
  | cons c r ih =>
    rw [cutAtCloser] at h
    split at h
    · obtain ⟨rfl, rfl⟩ := Prod.mk.inj (Option.some.inj h)
      simp
    · obtain ⟨⟨a, b⟩, hcut, heq⟩ := Option.map_eq_some_iff.mp h
      obtain ⟨rfl, rfl⟩ := Prod.mk.inj heq
      have := ih hcut
      simp only [List.length_cons]
      omega

theorem length_of_readStep? {chain next : Chain} {t rest : Text}
    (h : readStep? chain t = some (next, rest)) : rest.length < t.length := by
  rw [readStep?] at h
  cases t with
  | nil => simp [readIdentifier?] at h
  | cons c r =>
    rw [readIdentifier?] at h
    split at h
    · simp at h
    · rename_i name tail heq
      split at heq
      · obtain ⟨rfl, rfl⟩ := Prod.mk.inj (Option.some.inj heq)
        have h1 := Text.length_dropWhile_le isIdentifierPart r
        have h2 := Text.length_dropWhile_le isBlank (r.dropWhile isIdentifierPart)
        split at h
        · rename_i inner hinner
          have h3 := congrArg List.length hinner
          simp only [Text.trimStart, List.length_cons] at h3
          split at h
          · rename_i args rest' hcut
            obtain ⟨_, rfl⟩ := Prod.mk.inj (Option.some.inj h)
            have := length_of_cutAtCloser hcut
            simp only [List.length_cons]
            omega
          · obtain ⟨_, rfl⟩ := Prod.mk.inj (Option.some.inj h)
            simp
        · obtain ⟨_, rfl⟩ := Prod.mk.inj (Option.some.inj h)
          simp only [Text.trimStart, List.length_cons]
          omega
      · simp at heq

theorem length_of_afterDot? {t rest : Text} (h : afterDot? t = some rest) :
    rest.length < t.length := by
  rw [afterDot?.eq_def] at h
  split at h
  · rename_i r
    obtain rfl := Option.some.inj h
    have := Text.length_dropWhile_le isBlank r
    simp only [Text.trimStart, List.length_cons]
    omega
  · rename_i r
    obtain rfl := Option.some.inj h
    have := Text.length_dropWhile_le isBlank r
    simp only [Text.trimStart, List.length_cons]
    omega
  · simp at h

/-- Reads on from a chain whose rest is `t`. -/
def readOn (chain : Chain) (t : Text) : Chain :=
  match _hstep : readStep? chain t with
  | none => { chain with rest := Text.trim t }
  | some (next, r) =>
    match _hdot : afterDot? (Text.trimStart r) with
    | none => { next with rest := Text.trim r }
    | some r' => readOn next r'
termination_by t.length
decreasing_by
  have h1 := length_of_readStep? _hstep
  have h2 := length_of_afterDot? _hdot
  have h3 := Text.length_dropWhile_le isBlank r
  simp only [Text.trimStart] at h2
  omega

/-- The chain at the start of an expression. -/
def parse (expression : Text) : Chain := readOn ⟨[], [], []⟩ (Text.trim expression)

end Chain

end PageObjects
