import PageObjects.Json.Printer
import PageObjects.Report.Document
import PageObjects.Report.Encode

namespace PageObjects

def ids (list : List Id) : Json := .list (list.map idText)

def lineRange (first last : Nat) : Json :=
  .object [field "start" (Json.nat first), field "end" (Json.nat last)]

/-- The number and the normal form of a selector, both null if there is none. -/
def selectorFields (registry : Registry) (s : Option AssessedSelector) : List (Text × Json) := [
  field "selector_id" (Json.ofOption (fun n => idText (.selector n))
    (s.bind fun s => registry.numberOf? s.raw)),
  field "selector" (optionalText (s.map (·.raw)))]

/-- An action, given the components that actions are left to. -/
def Action.toJson (registry : Registry) (usages : List (Nat × Nat)) (a : Action) : Json :=
  let s := a.statement
  let usage := (valueAt? a.number usages).map fun n =>
    Json.object [field "component_id" (idText (.component n)), field "delegated" (.bool true)]
  .object (presentFields ([
    field "id" (idText a.id), field "line_number" (Json.nat a.line),
    field "kind" (.text s.kind.text), field "action_verb" (optionalText s.verb),
    field "subtype" (optionalText (s.subtype.map Subtype.text)), field "raw_text" (.text s.source)]
    ++ selectorFields registry a.selector ++ [
    field "literal_arguments" (.list (s.literals.map Literal.toJson)),
    field "target_url" (optionalText s.url),
    field "parameters" (.list (a.parameters.map Parameter.toJson)),
    field "wait_behavior" (.object (presentFields a.wait.toFields)),
    field "component_usage" (usage.getD .null)]))

def Assertion.toJson (registry : Registry) (a : Assertion) : Json :=
  .object (presentFields ([
    field "id" (idText a.id), field "line_number" (Json.nat a.line),
    field "type" (.text a.type.name), field "matcher" (.text a.matcher),
    field "negated" (.bool a.statement.negated), field "raw_text" (.text a.statement.source)]
    ++ selectorFields registry a.selector ++ [
    field "expected_value" (Json.ofOption Literal.toJson a.expected),
    field "placement_recommendation" (.text a.placement.name),
    field "placement_reason" (.text a.placement.reason)]))

def Method.toJson (m : Method) : Json := .object (presentFields [
  field "id" (idText m.id), field "name" (.text m.name),
  field "name_confidence" (Json.nat m.naming.rule.confidence),
  field "alternatives" (Json.texts m.naming.alternatives), field "kind" (.text m.kind.name),
  field "action_ids" (ids (m.actions.map Id.action)),
  field "assertion_ids" (ids (m.assertions.map Id.assertion)),
  field "parameters" (.list (m.parameters.map Parameter.toJson)),
  field "complexity" (Json.nat m.complexity),
  field "complexity_signals" (Json.texts (m.signals.map ComplexitySignal.name)),
  field "line_range" (lineRange m.firstLine m.lastLine),
  field "returns_page_id" (Json.ofOption (fun n => idText (.page n)) m.returnsPage),
  field "delegates_to_component_id" (Json.ofOption (fun n => idText (.component n)) m.component)])

/-- The components that a page leaves actions to, in the order of first use, with these actions. -/
def pageUsages (usages : List (Nat × Nat)) (p : Page) : List (Nat × List Nat) :=
  let used := p.actions.filterMap fun a => (valueAt? a.number usages).map fun c => (c, a.number)
  ((used.map (·.1)).eraseDups).map fun c =>
    (c, (used.filter fun u => u.1 == c).map (·.2))

def Page.toJson (d : Document) (p : Page) : Json :=
  let usages := usages d.components
  .object [
    field "id" (idText p.id), field "inferred_name" (.text p.name),
    field "confidence" (Json.nat p.confidence), field "url" (optionalText p.url),
    field "url_pattern" (optionalText p.urlPattern), field "origin" (.text p.origin.name),
    field "page_variable" (optionalText p.pageVariable),
    field "entry_event" (.object (presentFields p.entry.toFields)),
    field "exit_event" (.object (presentFields p.exit.toFields)),
    field "line_range" (lineRange p.firstLine p.lastLine),
    field "actions" (.list (p.actions.map (Action.toJson d.registry usages))),
    field "assertions" (.list (p.assertions.map (Assertion.toJson d.registry))),
    field "structural_lines" (Json.nats p.structuralLines),
    field "suggested_methods" (.list ((d.methodsOf p.id).map Method.toJson)),
    field "component_usages" (.list ((pageUsages usages p).map fun (c, actions) => .object [
      field "component_id" (idText (.component c)),
      field "action_ids" (ids (actions.map Id.action))]))]

def Component.toJson (d : Document) (c : Component) : Json := .object [
  field "id" (idText c.id), field "inferred_name" (.text c.name),
  field "type" (.text c.type.name), field "confidence" (Json.nat c.confidence),
  field "provisional" (.bool c.isProvisional), field "exact_match" (.bool c.isExact),
  field "appears_on_page_ids" (ids (c.instances.map fun o => .page o.page)),
  field "appearance_count" (Json.nat c.instances.length),
  field "instances" (.list (c.instances.map Occurrence.toJson)),
  field "selector_templates" (.list (c.templates.map SelectorTemplate.toJson)),
  field "suggested_methods" (.list ((d.methodsOf c.id).map Method.toJson))]

def StepTarget.toFields : StepTarget → List (Text × Json)
  | .method n component =>
    field "method_id" (idText (.method n)) ::
      (component.map fun c => field "component_id" (idText (.component c))).toList
  | .item id => [field "assertion_id" (idText id)]

/-- A step, with its place in the sequence. -/
def Step.toJson (order : Nat) (s : Step) : Json := .object (
  [field "order" (Json.nat order), field "page_id" (idText (.page s.page))] ++ s.target.toFields ++
    [field "line_number" (Json.nat s.line)])

/-- A sequence with its number. -/
def Sequence.toJson (number : Nat) (s : Sequence) : Json := .object [
  field "id" (idText (.sequence number)), field "name" (.text s.name),
  field "steps" (.list (s.steps.zipIdx.map fun (step, i) => step.toJson (i + 1)))]

/-- What an entry is called wherever it is listed. -/
def RegistryEntry.headFields (e : RegistryEntry) : List (Text × Json) := [
  field "selector_id" (idText (.selector e.number)), field "raw" (.text e.selector.raw)]

def RegistryEntry.toJson (e : RegistryEntry) : Json := .object (
  field "id" (idText (.selector e.number)) :: e.selector.toFields ++ [
    field "used_by" (ids (e.users.map (·.1))), field "line_numbers" (Json.nats e.lines)])

def Registry.toJson (r : Registry) : Json := .object [
  field "total_selectors" (Json.nat r.length),
  field "by_strategy" (.object (r.byStrategy.map fun (s, n) => (s.name, Json.nat n))),
  field "average_fragility" (.int r.averageFragility),
  field "stability_threshold" (.int stabilityThreshold),
  field "fragile_selectors" (.list ((r.filter RegistryEntry.isFragile).map fun e =>
    .object (e.headFields ++ [field "fragility_score" (.int e.selector.fragility)]))),
  field "duplicates" (.list ((r.filter RegistryEntry.isRepeated).map fun e =>
    .object (e.headFields ++ [
      field "occurrences" (Json.nat e.users.length), field "item_ids" (ids (e.users.map (·.1))),
      field "line_numbers" (Json.nats e.lines)]))),
  field "selectors" (.list (r.map RegistryEntry.toJson))]

/-- The version of the form of a document. -/
def schemaVersion : Text := "1.0"

namespace Document

def metadata (d : Document) : Json := .object [
  field "schema_version" (.text schemaVersion), field "source_name" (optionalText d.sourceName),
  field "total_lines" (Json.nat d.totalLines),
  field "total_statements" (Json.nat d.statements.length),
  field "total_actions" (Json.nat (d.pages.flatMap Page.actions).length),
  field "total_assertions" (Json.nat (allAssertions d.pages).length),
  field "unique_pages_detected" (Json.nat d.pages.length),
  field "components_detected" (Json.nat d.components.length),
  field "methods_suggested" (Json.nat d.allMethods.length),
  field "test_blocks" (Json.nat (testsOf d.statements).length),
  field "warnings" (.list (d.warnings.map Warning.toJson))]

/-- The document with its sections in order. -/
def toJson (d : Document) : Json := .object [
  field "metadata" d.metadata,
  field "pages" (.list (d.pages.map (Page.toJson d))),
  field "components" (.list (d.components.map (Component.toJson d))),
  field "action_sequences" (.list (d.sequences.zipIdx.map fun (s, i) => s.toJson (i + 1))),
  field "selector_analysis" (Registry.toJson d.registry),
  field "recommendations" (.object [
    field "architectural" (.list (d.architectural.map Recommendation.toJson)),
    field "refactoring" (.list (d.refactoring.map Recommendation.toJson)),
    field "quality" (.list (d.quality.map Recommendation.toJson))])]

end Document

end PageObjects
