import PageObjects.Json.Basic
import PageObjects.Locator.Suggest
import PageObjects.Recommendation

namespace PageObjects

mutual

def Literal.toJson : Literal → Json
  | .null => .null
  | .bool b => .bool b
  | .int n => .int n
  | .real x => .real x
  | .text t => .text t
  | .list items => .list (Literal.listToJson items)

def Literal.listToJson : List Literal → List Json
  | [] => []
  | item :: items => item.toJson :: Literal.listToJson items

end

/-- A field whose name is given as a string. -/
def field (name : Text) (value : Json) : Text × Json := (name, value)

def Detail.toField : Detail → Text × Json
  | .tag t => field "tag" (.text t)
  | .id t => field "id" (.text t)
  | .classes names => field "classes" (Json.texts names)
  | .attributes pairs => field "attributes" (.object (pairs.map fun (k, v) => (k, .text v)))
  | .pseudoClasses names => field "pseudo_classes" (Json.texts names)
  | .depth n => field "depth" (Json.nat n)
  | .path t => field "path" (.text t)
  | .text t => field "text" (Json.ofOption Json.text t)
  | .role t => field "role" (.text t)
  | .accessibleName t => field "accessible_name" (.text t)
  | .source k => field "accessor" (.text k.name)
  | .exact => field "exact" (.bool true)

def Details.toJson (ds : Details) : Json := .object (ds.map Detail.toField)

def Candidate.toJson (c : Candidate) : Json := .object [
  field "strategy" (.text c.kind.name), field "rendered_selector" (Json.ofOption Json.text c.rendered),
  field "rationale" (.text c.rationale), field "actionable" (.bool c.isActionable)]

/-- The fields of an assessed selector. -/
def AssessedSelector.toFields (s : AssessedSelector) : List (Text × Json) := [
  field "raw" (.text s.raw), field "strategy" (.text s.strategy.name),
  field "structured_details" (Details.toJson s.details), field "fragility_score" (.int s.fragility),
  field "fragility_signals" (Json.texts (s.signalsShown.map Signal.name)),
  field "improvement_candidates" (.list (s.candidates.map Candidate.toJson))]

/-- The fields that are not null. -/
def presentFields (fields : List (Text × Json)) : List (Text × Json) :=
  fields.filter fun (_, v) =>
    match v with
    | .null => false
    | _ => true

def optionalText : Option Text → Json := Json.ofOption Json.text

def idText (id : Id) : Json := .text id.text

def Boundary.toFields (b : Boundary) : List (Text × Json) := [
  field "type" (.text b.kind.name), field "line_number" (Json.ofOption Json.nat b.line),
  field "raw_text" (optionalText b.source)]

def Warning.toJson (w : Warning) : Json := .object [
  field "code" (.text w.code), field "message" (.text w.message),
  field "line_numbers" (Json.nats w.lines)]

def Wait.toFields (w : Wait) : List (Text × Json) := [
  field "strategy" (.text w.strategy.name),
  field "timeout_ms" (Json.ofOption Literal.toJson w.timeout),
  field "anti_pattern" (.bool w.isHarmful)]

def Parameter.toJson (p : Parameter) : Json := .object [
  field "name" (.text p.name), field "type" (.text p.type.name),
  field "example_value" p.sample.toJson, field "should_be_parameter" (.bool p.isInput),
  field "source" (.text (if p.fromVariable then "variable" else "literal")),
  field "action_ids" (.list (p.actions.map fun n => idText (.action n)))]

def Occurrence.toJson (o : Occurrence) : Json := .object [
  field "page_id" (idText (.page o.page)),
  field "action_ids" (.list (o.numbers.map fun n => idText (.action n)))]

/-- A template; its variants are listed if there is more than one. -/
def SelectorTemplate.toJson (t : SelectorTemplate) : Json :=
  .object ([
    field "order" (Json.nat t.order), field "action_verb" (optionalText t.action.verb),
    field "selector" (.text t.action.raw),
    field "strategy" (optionalText (t.action.selector.map fun s => s.strategy.name))] ++
    if 1 < t.variants.length then [field "variants" (Json.texts t.variants)] else [])

def Recommendation.toJson (r : Recommendation) : Json := .object [
  field "code" (.text r.code), field "message" (.text r.message),
  field "severity" (.text r.severity.name), field "related_ids" (.list (r.related.map idText)),
  field "line_numbers" (Json.nats r.lines)]

end PageObjects
