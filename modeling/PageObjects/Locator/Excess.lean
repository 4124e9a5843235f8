import PageObjects.Locator.Classify

namespace PageObjects

/-- What is too much about the normal form of a value, where objects can stand `room` deep within
each other. -/
def normalExcess? : Nat → Text → Option Excess
  | 0, _ => some .nesting
  | room + 1, raw =>
    let t := Text.squeeze raw
    match bracedInside? t with
    | some inside =>
      (splitArguments inside).findSome? fun entry =>
        match splitTopLevel isColon entry with
        | _ :: v :: vs => normalExcess? room (Text.joinWith [':'] (v :: vs))
        | _ => none
    | none => Literal.excess? room t

/-- What is too much about the normal form of a locator expression. -/
def normalizeExcess? (expression : Text) : Option Excess :=
  let t := Text.squeeze expression
  (Literal.excess? stackRoom t).or <|
    (accessorChain? (withoutReceiver t)).bind fun chain =>
      (chain.segments.flatMap Segment.arguments).findSome? (normalExcess? stackRoom)

/-- The texts of the values in an object literal. -/
def Literal.valueTexts (t : Text) : List Text :=
  match bracedInside? (Text.trim t) with
  | some inside => ((splitArguments inside).filterMap entryParts?).map (·.2)
  | none => []

/-- The texts that a call is described by: its first argument and the values of its options. -/
def Segment.describing (s : Segment) : List Text :=
  match s.arguments with
  | first :: second :: _ => first :: Literal.valueTexts second
  | arguments => arguments

namespace Chain

/-- The texts that the strategy of a chain and its details are read from as literals. -/
def describing (chain : Chain) : List Text :=
  (chain.segments.filter fun s => sourceCalls.contains s.name).flatMap (·.arguments.take 1) ++
    if let some call := chain.callNamed? "getByTestId" then call.arguments.take 1
    else if chain.sources.any fun source => hasTestId (Css.parse source).attributes then []
    else if let some call := chain.callNamed? "getByRole" then call.describing
    else if let some (_, call) := chain.textCall? then call.describing
    else if chain.sources.any (Text.startsWithAny xpathLeads) then []
    else if let some call := chain.callNamed? "getByPlaceholder" then call.arguments.take 1
    else []

end Chain

/-- The text that a selector `text=...` looks for, if no other strategy goes before it. -/
def soughtText? (raw : Text) : Option Text :=
  if (testIdEngine? raw).isSome || Text.startsWithAny xpathLeads raw ||
      hasTestId (Css.parse raw).attributes || (roleEngine? raw).isSome then none
  else textEngine? raw

namespace Selector

/-- What is too much about an expression in normal form. -/
def excessOfNormal? (raw : Text) : Option Excess :=
  Literal.excessAmong? <|
    match accessorChain? raw with
    | some chain => chain.describing
    | none => (soughtText? raw).toList

/-- What is too much about a locator expression. -/
def excess? (expression : Text) : Option Excess :=
  (normalizeExcess? expression).or (excessOfNormal? (normalizeSelector expression))

end Selector

end PageObjects
