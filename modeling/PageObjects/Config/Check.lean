import PageObjects.Config.Basic
import PageObjects.Json.Basic
import PageObjects.Text.Case

namespace PageObjects

/-- Why a value is not accepted. -/
inductive IssueCause where
  | notTruth
  | unreadableTruth
  | notWhole
  | unreadableWhole
  | fractional
  | infinite
  | tooLong
  | belowOne
  | noChoice (choices : List Text)
  | notList
  | notSection (name : Text)
  deriving DecidableEq, Repr

/-- The choices in quotes, the last one behind an `or`. -/
def listChoices : List Text → Text
  | [] => []
  | [last] => '\'' :: last ++ ['\'']
  | [one, last] => '\'' :: one ++ "' or '" ++ last ++ ['\'']
  | one :: rest => '\'' :: one ++ "', " ++ listChoices rest

namespace IssueCause

def kind : IssueCause → Text
  | notTruth => "bool_type"
  | unreadableTruth => "bool_parsing"
  | notWhole => "int_type"
  | unreadableWhole => "int_parsing"
  | fractional => "int_from_float"
  | infinite => "finite_number"
  | tooLong => "int_parsing_size"
  | belowOne => "greater_than_equal"
  | noChoice _ => "literal_error"
  | notList => "list_type"
  | notSection _ => "model_type"

def message : IssueCause → Text
  | notTruth => "Input should be a valid boolean"
  | unreadableTruth => "Input should be a valid boolean, unable to interpret input"
  | notWhole => "Input should be a valid integer"
  | unreadableWhole => "Input should be a valid integer, unable to parse string as an integer"
  | fractional => "Input should be a valid integer, got a number with a fractional part"
  | infinite => "Input should be a finite number"
  | tooLong => "Unable to parse input string as an integer, exceeded maximum size"
  | belowOne => "Input should be greater than or equal to 1"
  | noChoice choices => "Input should be " ++ listChoices choices
  | notList => "Input should be a valid list"
  | notSection name => "Input should be a valid dictionary or instance of " ++ name

end IssueCause

/-- A value that is not accepted, and where it stands. -/
structure Issue where
  place : List Text
  cause : IssueCause
  deriving DecidableEq, Repr

/-- A value that has been read, or all issues on the way to it. -/
abbrev Checked (α : Type) := Except (List Issue) α

namespace Checked

/-- Applies what the first part gives to what the second one gives, and keeps the issues of both. -/
def and {α β : Type} : Checked (α → β) → Checked α → Checked β
  | .ok f, .ok x => .ok (f x)
  | .ok _, .error issues => .error issues
  | .error issues, .ok _ => .error issues
  | .error issues, .error more => .error (issues ++ more)

/-- Issues seen from the section that holds them. -/
def within {α : Type} (name : Text) : Checked α → Checked α
  | .ok x => .ok x
  | .error issues => .error (issues.map fun i => { i with place := name :: i.place })

/-- The results of all checks, or the issues of all of them. -/
def all {α : Type} : List (Checked α) → Checked (List α)
  | [] => .ok []
  | c :: cs => and (and (.ok List.cons) c) (all cs)

end Checked

/-- A reading of values. -/
abbrev Check (α : Type) := Json → Except IssueCause α

def falseWords : List Text := ["0", "off", "f", "false", "n", "no"]

def trueWords : List Text := ["1", "on", "t", "true", "y", "yes"]

/-- Numbers that fit into a signed word of sixty-four bits. -/
def fitsWord (n : Int) : Bool := -9223372036854775808 < n && n < 9223372036854775808

def truthOfInt (n : Int) : Except IssueCause Bool :=
  if n = 0 then .ok false else if n = 1 then .ok true else .error .unreadableTruth

/-- A truth value, as such, as a number or as a word in letters of either case. -/
def checkTruth : Check Bool
  | .bool b => .ok b
  | .text t =>
    let word := t.map Char.toLower
    if falseWords.contains word then .ok false
    else if trueWords.contains word then .ok true
    else .error .unreadableTruth
  | .int n => if fitsWord n then truthOfInt n else .error .notTruth
  | .real x =>
    match x.toInt? with
    | some n => if fitsWord n then truthOfInt n else .error .notTruth
    | none => .error .notTruth
  | _ => .error .notTruth

/-- White space around a numeral. -/
def isNumeralBlank (c : Char) : Bool := isBlank c && !(28 ≤ c.toNat && c.toNat ≤ 31)

/-- A numeral without zeros in front, of which one stays before a point or at the end. -/
def withoutLeadingZeros? (t : Text) : Option Text :=
  match t with
  | '0' :: _ =>
    match t.dropWhile (· == '0') with
    | [] => some ['0']
    | '.' :: r => some ('0' :: '.' :: r)
    | c :: r => if c.isDigit || c == '-' then some (c :: r) else none
  | c :: r => if c.isDigit || c == '-' then some (c :: r) else none
  | [] => none

/-- A numeral without a fraction of zeros. -/
def withoutZeroFraction (t : Text) : Text :=
  match Text.cutAt '.' t with
  | (whole, some fraction) => if fraction.all (· == '0') then whole else t
  | _ => t

/-- A numeral without single low lines between its digits. -/
def withoutLowLines (t : Text) : Text :=
  if t.head? = some '_' || t.getLast? = some '_' || Text.includes ['_', '_'] t then t
  else t.filter (· != '_')

/-- Digits without a zero in front, as a number. -/
def readDecimal? (digits : Text) : Option Nat :=
  if digits.isEmpty || !digits.all Char.isDigit || (digits.head? = some '0' && digits != ['0']) then
    none
  else some (digits.foldl (fun n c => 10 * n + (c.toNat - '0'.toNat)) 0)

def readWhole? : Text → Option Int
  | '-' :: r => (readDecimal? r).map fun n => -(n : Int)
  | t => (readDecimal? t).map fun n => (n : Int)

/-- The whole number that a text writes. -/
def wholeOfText (t : Text) : Except IssueCause Int :=
  let cleaned := (withoutLeadingZeros? (Text.stripWhile isNumeralBlank t)).map fun s =>
    withoutLowLines (withoutZeroFraction s)
  match cleaned.bind readWhole? with
  | some n =>
    if longestNumeral < (cleaned.getD []).length then .error .tooLong else .ok n
  | none => .error .unreadableWhole

/-- A whole number, as such, as a truth value, without a fraction or as a numeral. -/
def checkWhole : Check Int
  | .bool b => .ok (if b then 1 else 0)
  | .int n => .ok n
  | .real x =>
    match x.toInt? with
    | some n => if fitsWord n then .ok n else .error .tooLong
    | none => .error (if x.isFinite then .fractional else .infinite)
  | .text t => wholeOfText t
  | _ => .error .notWhole

/-- A whole number that is at least one. -/
def checkCount : Check Count := fun v => do
  let n ← checkWhole v
  if h : 1 ≤ n.toNat then return ⟨n.toNat, h⟩ else throw .belowOne

/-- One of the given values by its name. -/
def checkChoice {α : Type} (choices : List α) (name : α → Text) : Check α
  | .text t =>
    match choices.find? fun c => name c == t with
    | some c => .ok c
    | none => .error (.noChoice (choices.map name))
  | _ => .error (.noChoice (choices.map name))

/-- An option of a section, which has a value of its own where the section says nothing. -/
def readField {α : Type} (check : Check α) (fields : List (Text × Json)) (name : Text)
    (standard : α) : Checked α :=
  match valueAt? name fields with
  | none => .ok standard
  | some v =>
    match check v with
    | .ok x => .ok x
    | .error cause => .error [⟨[name], cause⟩]

/-- The strategies of a list, each in its first place only. -/
def readStrategies (fields : List (Text × Json)) (name : Text) (standard : List Strategy) :
    Checked (List Strategy) :=
  match valueAt? name fields with
  | none => .ok standard
  | some (.list items) =>
    let results := items.zipIdx.map fun (item, i) =>
      match checkChoice Strategy.preferred Strategy.name item with
      | .ok s => .ok s
      | .error cause => .error [⟨[Text.ofNat i], cause⟩]
    Checked.within name ((Checked.all results).map List.eraseDups)
  | some _ => .error [⟨[name], .notList⟩]

def readPageOptions (fields : List (Text × Json)) : Checked PageOptions :=
  let d : PageOptions := {}
  (Checked.and (.ok PageOptions.mk)
    (readField checkTruth fields "url_change_creates_new_page" d.urlChangeOpensPage))
    |>.and (readField (checkChoice ModalHandling.all ModalHandling.name) fields "modal_detection"
      d.modals)
    |>.and (readField checkTruth fields "tab_switch_creates_new_page" d.tabsOpenPages)
    |>.and (readField (checkChoice UrlThreshold.all UrlThreshold.name) fields "url_change_threshold"
      d.threshold)

def readComponentOptions (fields : List (Text × Json)) : Checked ComponentOptions :=
  let d : ComponentOptions := {}
  (Checked.and (.ok ComponentOptions.mk)
    (readField checkCount fields "min_appearances_for_component" d.minAppearances))
    |>.and (readField checkTruth fields "detect_headers" d.headers)
    |>.and (readField checkTruth fields "detect_footers" d.footers)
    |>.and (readField checkTruth fields "detect_modals" d.modals)
    |>.and (readField checkTruth fields "detect_navigation" d.navigation)

def readMethodOptions (fields : List (Text × Json)) : Checked MethodOptions :=
  let d : MethodOptions := {}
  (Checked.and (.ok MethodOptions.mk)
    (readField checkCount fields "max_actions_per_method" d.maxItems))
    |>.and (readField checkTruth fields "group_related_fills" d.groupFills)
    |>.and (readField checkTruth fields "separate_navigation" d.separateNavigation)
    |>.and (readField checkTruth fields "separate_assertions" d.separateAssertions)

def readSelectorOptions (fields : List (Text × Json)) : Checked SelectorOptions :=
  let d : SelectorOptions := {}
  (Checked.and (.ok SelectorOptions.mk)
    (readField checkTruth fields "suggest_improvements" d.suggests))
    |>.and (readStrategies fields "preferred_strategies" d.preferred)
    |>.and (readField checkTruth fields "flag_fragile_selectors" d.flagsFragile)

/-- A section by its name; one that is missing has its standard values. -/
def readSection {α : Type} (read : List (Text × Json) → Checked α) (fields : List (Text × Json))
    (name title : Text) (standard : α) : Checked α :=
  match valueAt? name fields with
  | none => .ok standard
  | some (.object inner) => Checked.within name (read inner)
  | some _ => .error [⟨[name], .notSection title⟩]

namespace Config

/-- The options that a value gives; one that is empty gives the standard options. -/
def ofJson (data : Json) : Checked Config :=
  if data.isEmptyish then .ok {}
  else match data with
    | .object fields =>
      (Checked.and (.ok Config.mk)
        (readSection readPageOptions fields "page_detection" "PageDetectionConfig" {}))
        |>.and (readSection readComponentOptions fields "component_detection"
          "ComponentDetectionConfig" {})
        |>.and (readSection readMethodOptions fields "method_grouping" "MethodGroupingConfig" {})
        |>.and (readSection readSelectorOptions fields "selector_analysis"
          "SelectorAnalysisConfig" {})
    | _ => .error [⟨[], .notSection "AnalyzerConfig"⟩]

/-- All options with their values. -/
def toJson (c : Config) : Json := .object [
  ("page_detection", .object [
    ("url_change_creates_new_page", .bool c.pages.urlChangeOpensPage),
    ("modal_detection", .text c.pages.modals.name),
    ("tab_switch_creates_new_page", .bool c.pages.tabsOpenPages),
    ("url_change_threshold", .text c.pages.threshold.name)]),
  ("component_detection", .object [
    ("min_appearances_for_component", Json.nat c.components.minAppearances.val),
    ("detect_headers", .bool c.components.headers),
    ("detect_footers", .bool c.components.footers),
    ("detect_modals", .bool c.components.modals),
    ("detect_navigation", .bool c.components.navigation)]),
  ("method_grouping", .object [
    ("max_actions_per_method", Json.nat c.methods.maxItems.val),
    ("group_related_fills", .bool c.methods.groupFills),
    ("separate_navigation", .bool c.methods.separateNavigation),
    ("separate_assertions", .bool c.methods.separateAssertions)]),
  ("selector_analysis", .object [
    ("suggest_improvements", .bool c.selectors.suggests),
    ("preferred_strategies", Json.texts (c.selectors.preferred.map Strategy.name)),
    ("flag_fragile_selectors", .bool c.selectors.flagsFragile)])]

end Config

end PageObjects
