import PageObjects.Yaml.Token

namespace PageObjects

inductive YamlNode where
  | scalar (tag : Option Text) (content : Text) (isPlain : Bool)
  | list (tag : Option Text) (items : List YamlNode)
  | mapping (tag : Option Text) (pairs : List (YamlNode × YamlNode))
  deriving Repr, Inhabited

namespace YamlNode

/-- What stands where a node is left out. -/
def empty : YamlNode := scalar none [] true

/-- Whether a key asks for its value to be merged. -/
def isMergeKey : YamlNode → Bool
  | scalar none content isPlain => isPlain && content == "<<".toList
  | _ => false

def pairs? : YamlNode → Option (List (YamlNode × YamlNode))
  | mapping _ pairs => some pairs
  | _ => none

/-- The pairs that a value gives to the mapping it is merged into. The last of several mappings
comes first. -/
def mergedPairs? : YamlNode → Option (List (YamlNode × YamlNode))
  | mapping _ pairs => some pairs
  | list _ items => (items.reverse.mapM pairs?).map List.flatten
  | scalar .. => none

/-- The mapping of some pairs, those that are merged into it in front. -/
def ofPairs? (tag : Option Text) (pairs : List (YamlNode × YamlNode)) : Option YamlNode := do
  let merged ← (pairs.filter fun p => p.1.isMergeKey).mapM fun p => p.2.mergedPairs?
  return mapping tag (merged.flatten ++ pairs.filter fun p => !p.1.isMergeKey)

end YamlNode

/-- The tokens to come and the nodes that have anchors. -/
structure YamlComposition where
  rest : List YamlToken
  anchors : List (Text × YamlNode) := []

abbrev YamlComposer := StateT YamlComposition Option

namespace YamlComposer

def peek? : YamlComposer (Option YamlToken) := return (← get).rest.head?

def advance : YamlComposer Unit := modify fun s => { s with rest := s.rest.drop 1 }

/-- Passes over a token, if it comes next. -/
def accept (t : YamlToken) : YamlComposer Bool := do
  if (← peek?) = some t then
    advance
    return true
  else return false

def expect (t : YamlToken) : YamlComposer Unit := do
  if !(← accept t) then failure

/-- Whether one of some tokens comes next. -/
def sees (ts : List YamlToken) : YamlComposer Bool := return (← peek?).any ts.contains

/-- The anchor and the tag before a node, in either order. -/
def properties : Nat → Option Text → Option Text → YamlComposer (Option Text × Option Text)
  | 0, anchor, tag => return (anchor, tag)
  | fuel + 1, anchor, tag => do
    match (← peek?), anchor, tag with
    | some (.anchor name), none, _ =>
      advance
      properties fuel (some name) tag
    | some (.tag name), _, none =>
      advance
      properties fuel anchor (some name)
    | _, _, _ => return (anchor, tag)

/-- Keeps a node under its anchor, which must be new. -/
def keep (anchor : Option Text) (n : YamlNode) : YamlComposer YamlNode := do
  match anchor with
  | none => return n
  | some name =>
    let s ← get
    if (valueAt? name s.anchors).isSome then failure
    set { s with anchors := (name, n) :: s.anchors }
    return n

def ofPairs (tag : Option Text) (pairs : List (YamlNode × YamlNode)) : YamlComposer YamlNode :=
  match YamlNode.ofPairs? tag pairs with
  | some n => return n
  | none => failure

mutual

/-- A node, or an empty one if one of `ends` comes next. -/
def nodeUnless (ends : List YamlToken) (inBlock : Bool) (entriesAllowed : Bool) :
    Nat → YamlComposer YamlNode
  | 0 => failure
  | fuel + 1 => do
    if ← sees ends then return .empty else node inBlock entriesAllowed fuel

/-- A node. Block collections are there in blocks only; entries without a block of their own are
there where `entriesAllowed` is set. -/
def node (inBlock : Bool) (entriesAllowed : Bool) : Nat → YamlComposer YamlNode
  | 0 => failure
  | fuel + 1 => do
    if let some (.alias name) ← peek? then
      advance
      match valueAt? name (← get).anchors with
      | some n => return n
      | none => failure
    else
      let (anchor, tag) ← properties 2 none none
      match ← peek? with
      | some (.scalar content isPlain) =>
        advance
        keep anchor (.scalar tag content isPlain)
      | some .flowSequenceStart =>
        advance
        keep anchor (.list tag (← flowItems true fuel))
      | some .flowMappingStart =>
        advance
        let pairs ← flowPairs true fuel
        keep anchor (← ofPairs tag pairs)
      | some .blockEntry =>
        if !entriesAllowed then failure
        keep anchor (.list tag (← entries fuel))
      | some .blockSequenceStart =>
        if !inBlock then failure
        advance
        let items ← blockItems fuel
        keep anchor (.list tag items)
      | some .blockMappingStart =>
        if !inBlock then failure
        advance
        let pairs ← blockPairs fuel
        keep anchor (← ofPairs tag pairs)
      | _ => if anchor.isSome || tag.isSome then keep anchor (.scalar tag [] true) else failure

/-- The entries of a block sequence up to its end. -/
def blockItems : Nat → YamlComposer (List YamlNode)
  | 0 => failure
  | fuel + 1 => do
    if ← accept .blockEntry then
      let item ← nodeUnless [.blockEntry, .blockEnd] true false fuel
      return item :: (← blockItems fuel)
    expect .blockEnd
    return []

/-- The entries of a sequence that has no block of its own. -/
def entries : Nat → YamlComposer (List YamlNode)
  | 0 => failure
  | fuel + 1 => do
    if ← accept .blockEntry then
      let item ← nodeUnless [.blockEntry, .key, .value, .blockEnd] true false fuel
      return item :: (← entries fuel)
    return []

/-- The pairs of a block mapping up to its end. -/
def blockPairs : Nat → YamlComposer (List (YamlNode × YamlNode))
  | 0 => failure
  | fuel + 1 => do
    let ends : List YamlToken := [.key, .value, .blockEnd]
    if ← accept .blockEnd then return []
    expect .key
    let key ← nodeUnless ends true true fuel
    let hasValue ← accept .value
    let value ← if hasValue then nodeUnless ends true true fuel else pure .empty
    return (key, value) :: (← blockPairs fuel)

/-- The value behind a key in a flow collection. -/
def flowValue (ends : List YamlToken) : Nat → YamlComposer YamlNode
  | 0 => failure
  | fuel + 1 => do
    if ← accept .value then nodeUnless ends false false fuel else return .empty

/-- The items of a flow sequence; one with a key is a mapping of one pair. -/
def flowItems (isFirst : Bool) : Nat → YamlComposer (List YamlNode)
  | 0 => failure
  | fuel + 1 => do
    if ← accept .flowSequenceEnd then return []
    if !isFirst then
      expect .flowEntry
      if ← accept .flowSequenceEnd then return []
    let item ←
      if ← accept .key then do
        let key ← nodeUnless [.value, .flowEntry, .flowSequenceEnd] false false fuel
        let value ← flowValue [.flowEntry, .flowSequenceEnd] fuel
        ofPairs none [(key, value)]
      else node false false fuel
    return item :: (← flowItems false fuel)

/-- The pairs of a flow mapping. -/
def flowPairs (isFirst : Bool) : Nat → YamlComposer (List (YamlNode × YamlNode))
  | 0 => failure
  | fuel + 1 => do
    if ← accept .flowMappingEnd then return []
    if !isFirst then
      expect .flowEntry
      if ← accept .flowMappingEnd then return []
    if ← accept .key then
      let key ← nodeUnless [.value, .flowEntry, .flowMappingEnd] false false fuel
      let value ← flowValue [.flowEntry, .flowMappingEnd] fuel
      return (key, value) :: (← flowPairs false fuel)
    else
      let key ← node false false fuel
      return (key, .empty) :: (← flowPairs false fuel)

end

def skipAll (t : YamlToken) : YamlComposer Unit :=
  modify fun s => { s with rest := s.rest.dropWhile (· == t) }

/-- The only document of a stream; none if there is none. -/
def document : YamlComposer (Option YamlNode) := do
  let fuel := 3 * (← get).rest.length + 3
  let root ←
    if (← peek?).isNone then pure none
    else if ← sees [.directive, .documentStart] then do
      skipAll .directive
      expect .documentStart
      let next ← peek?
      if next.isNone || next = some .documentEnd then pure (some YamlNode.empty)
      else if next = some .documentStart || next = some .directive then failure
      else some <$> node true false fuel
    else some <$> node true false fuel
  skipAll .documentEnd
  if (← get).rest.isEmpty then return root else failure

end YamlComposer

/-- The root of a YAML text. Nothing is returned for a malformed one, and no root for an empty
one. -/
def YamlNode.ofText? (t : Text) : Option (Option YamlNode) := do
  let tokens ← YamlToken.ofText? t
  return (← YamlComposer.document.run { rest := tokens }).1

end PageObjects
