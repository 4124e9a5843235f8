import PageObjects.Proofs.Entries
import PageObjects.Proofs.Locator.Block
import PageObjects.Proofs.Text.Spacing

namespace PageObjects

/-- Characters that end nothing where a predicate quotes a value, and start no attribute. -/
def isTested (c : Char) : Bool := isUnmarked c && c != '@'

/-- Characters of numbers. -/
def isNumberPart (c : Char) : Bool := c.isDigit || c == '.' || c == '-'

/-- One predicate of a step. -/
inductive LocationTest where
  | attr (name : AsciiName) (value : Text) (filled : value ≠ [])
      (free : ∀ c ∈ value, isTested c = true)
  | content (value : Text) (filled : value ≠ []) (free : ∀ c ∈ value, isTested c = true)
  | position (number : Text) (numeral : ∀ c ∈ number, isNumberPart c = true)

namespace LocationTest

def text : LocationTest → Text
  | attr name value _ _ => '[' :: '@' :: (name.text ++ '=' :: '\'' :: (value ++ ['\'', ']']))
  | content value _ _ => '[' :: ("text()" ++ '=' :: '\'' :: (value ++ ['\'', ']']))
  | position number _ => '[' :: (number ++ [']'])

def attribute? : LocationTest → Option (Text × Text)
  | attr name value _ _ => some (name.text, value)
  | _ => none

def content? : LocationTest → Option Text
  | content value _ _ => some value
  | _ => none

end LocationTest

/-- An element name or a star, from the root or from anywhere below, and its predicates. -/
structure LocationStep where
  anywhere : Bool
  name : Option AsciiName
  tests : List LocationTest

namespace LocationStep

def slashes (s : LocationStep) : Text := if s.anywhere then ['/', '/'] else ['/']

def label (s : LocationStep) : Text := (s.name.map AsciiName.text).getD ['*']

def text (s : LocationStep) : Text := s.slashes ++ s.label ++ s.tests.flatMap LocationTest.text

def bare (s : LocationStep) : Text := s.slashes ++ s.label

end LocationStep

/-- Some steps, one after another. -/
structure LocationPath where
  steps : List LocationStep
  filled : steps ≠ []

namespace LocationPath

def text (p : LocationPath) : Text := p.steps.flatMap LocationStep.text

def tests (p : LocationPath) : List LocationTest := p.steps.flatMap LocationStep.tests

/-- All attributes with the values they are tested for, as they are written. -/
def pairs (p : LocationPath) : List (Text × Text) := p.tests.filterMap LocationTest.attribute?

/-- What a path says, read off its syntax. -/
def facts (p : LocationPath) : XPath where
  path := p.text
  attributes := firstEntries p.pairs
  text := (p.tests.filterMap LocationTest.content?).head?.map some
  tag := (p.steps.getLast p.filled).name.map fun name => name.text.map Char.toLower
  depth := p.steps.length - 1

end LocationPath

theorem notMem_of_isTested {t : Text} (h : ∀ c ∈ t, isTested c = true) {d : Char}
    (other : isTested d = false) : d ∉ t := by
  intro hd
  rw [h d hd] at other
  cases other

namespace XPath

variable {c : Char} {s r : Text}

theorem attributeTests_nil : attributeTests [] = [] := by
  rw [attributeTests]

theorem attributeTests_cons (other : c ≠ '@') (r : Text) :
    attributeTests (c :: r) = attributeTests r := by
  have noTest : attributeTest? (c :: r) = none := by
    rw [attributeTest?.eq_def]
    split
    next h => exact absurd (List.cons.inj h).1 other
    next => rfl
  rw [attributeTests]
  split
  next test =>
    rw [noTest] at test
    cases test
  next => rfl

theorem attributeTests_append (other : '@' ∉ s) (r : Text) :
    attributeTests (s ++ r) = attributeTests r := by
  induction s with
  | nil => rfl
  | cons c s ih =>
    rw [List.mem_cons, not_or] at other
    rw [List.cons_append, attributeTests_cons (Ne.symm other.1), ih other.2]

/-- A value in single quotes behind an equals sign is read up to the closing one. -/
theorem comparedText?_append {value : Text} (free : '\'' ∉ value) (r : Text) :
    comparedText? ('=' :: '\'' :: (value ++ '\'' :: r)) = some (value, r) := by
  have mark : Text.afterMark? '=' ('=' :: '\'' :: (value ++ '\'' :: r)) =
      some ('\'' :: (value ++ '\'' :: r)) := Text.afterMark?_self rfl _
  rw [comparedText?, mark, Option.some_or, Option.bind_some, Text.trimStart_cons rfl, Text.quoted?,
    Text.quotedBy?_other (by decide), Option.none_or, Text.quotedBy?_append free]

theorem attributeTests_test (name : AsciiName) {value : Text} (free : '\'' ∉ value) (r : Text) :
    attributeTests ('@' :: (name.text ++ '=' :: '\'' :: (value ++ '\'' :: r))) =
      (name.text, value) :: attributeTests r := by
  have run : Text.run? isAttributePart (name.text ++ '=' :: '\'' :: (value ++ '\'' :: r)) =
      some (name.text, '=' :: '\'' :: (value ++ '\'' :: r)) := by
    refine name.run?_append fun c hc => ?_
    obtain rfl := Option.some.inj hc
    rfl
  have test : attributeTest? ('@' :: (name.text ++ '=' :: '\'' :: (value ++ '\'' :: r))) =
      some ((name.text, value), r) := by
    rw [attributeTest?, run]
    simp only [bind, Option.bind_some, comparedText?_append free]
    rfl
  rw [attributeTests]
  split
  next found =>
    rw [test] at found
    cases found
    rfl
  next noTest =>
    rw [test] at noTest
    cases noTest

/-- Places at which no text predicate starts are passed over. -/
theorem textTest?_skip (other : ∀ u, u <:+ s → u ≠ [] → ¬ ("text()" : Text) <+: u ++ r) :
    textTest? (s ++ r) = textTest? r := by
  rw [textTest?, textTest?]
  refine Text.find?_append fun u hu filled => ?_
  have missing : Text.dropPrefix? "text()" (u ++ r) = none :=
    if_neg fun front => other u hu filled (List.isPrefixOf_iff_prefix.mp front)
  rw [missing]
  rfl

theorem textTest?_cons (other : c ≠ 't') (r : Text) : textTest? (c :: r) = textTest? r := by
  refine textTest?_skip (s := [c]) fun u hu filled front => ?_
  rcases List.suffix_cons_iff.mp hu with rfl | hu
  · exact other (List.cons_prefix_cons.mp front).1.symm
  · exact filled (List.suffix_nil.mp hu)

theorem textTest?_append (other : '(' ∉ s) (behind : ∀ c ∈ r.head?, c ∉ ("text()" : Text)) :
    textTest? (s ++ r) = textTest? r := by
  refine textTest?_skip fun u hu _ front => ?_
  have within : ("text()" : Text) <+: u := by
    cases r with
    | nil => rwa [List.append_nil] at front
    | cons c r => exact Text.prefix_of_prefix_append_cons (behind c rfl) front
  exact other (hu.subset (within.subset (by decide)))

theorem textTest?_content {value : Text} (free : '\'' ∉ value) (r : Text) :
    textTest? ("text()" ++ '=' :: '\'' :: (value ++ '\'' :: r)) = some (some value) := by
  have mark : Text.afterMark? '=' ('=' :: '\'' :: (value ++ '\'' :: r)) =
      some ('\'' :: (value ++ '\'' :: r)) := Text.afterMark?_self rfl _
  refine Text.find?_of_read? ?_
  rw [Text.dropPrefix?_append]
  simp only [bind, Option.bind_some, mark, Option.some_or]
  rw [Text.trimStart_cons rfl, Text.quotedBy?_other (by decide), Text.quotedBy?_append free]
  rfl

end XPath

namespace LocationTest

variable {r : Text} {ts : List LocationTest}

/-- A predicate is a block. -/
theorem withoutBlocks_append (t : LocationTest) (r : Text) :
    Css.withoutBlocks (t.text ++ r) = Css.withoutBlocks r := by
  have block : ∀ inner : Text, ']' ∉ inner → t.text = '[' :: (inner ++ [']']) →
      Css.withoutBlocks (t.text ++ r) = Css.withoutBlocks r := by
    intro inner other same
    rw [same, List.cons_append, List.append_assoc]
    exact Css.withoutBlocks_square other r
  cases t with
  | attr name value filled free =>
    have first : ']' ∉ name.text := name.notMem rfl
    have second : ']' ∉ value := notMem_of_isTested free rfl
    exact block ('@' :: (name.text ++ '=' :: '\'' :: (value ++ ['\'']))) (by simp [first, second])
      (by simp [text])
  | content value filled free =>
    have own : ']' ∉ value := notMem_of_isTested free rfl
    exact block ("text()" ++ '=' :: '\'' :: (value ++ ['\''])) (by simp [own]) (by simp [text])
  | position number numeral =>
    refine block number (fun closes => ?_) rfl
    exact absurd (numeral _ closes) (by decide)

theorem attributeTests_append (t : LocationTest) (r : Text) : XPath.attributeTests (t.text ++ r) =
    t.attribute?.toList ++ XPath.attributeTests r := by
  cases t with
  | attr name value filled free =>
    have test := XPath.attributeTests_test name (notMem_of_isTested free rfl) (']' :: r)
    rw [XPath.attributeTests_cons (c := ']') (by decide)] at test
    have same : (attr name value filled free).text ++ r =
        '[' :: '@' :: (name.text ++ '=' :: '\'' :: (value ++ '\'' :: ']' :: r)) := by
      simp [text]
    rw [same, XPath.attributeTests_cons (c := '[') (by decide), test]
    rfl
  | content value filled free =>
    have own : '@' ∉ value := notMem_of_isTested free rfl
    exact XPath.attributeTests_append (by simp [text, own]) r
  | position number numeral =>
    have own : '@' ∉ number := fun starts => absurd (numeral _ starts) (by decide)
    exact XPath.attributeTests_append (by simp [text, own]) r

theorem textTest?_append (t : LocationTest) (behind : ∀ c ∈ r.head?, c ∉ ("text()" : Text)) :
    XPath.textTest? (t.text ++ r) = (t.content?.map some).or (XPath.textTest? r) := by
  cases t with
  | attr name value filled free =>
    have first : '(' ∉ name.text := name.notMem rfl
    have second : '(' ∉ value := notMem_of_isTested free rfl
    exact XPath.textTest?_append (by simp [text, first, second]) behind
  | content value filled free =>
    have found := XPath.textTest?_content (notMem_of_isTested free rfl) (']' :: r)
    have same : (content value filled free).text ++ r =
        '[' :: ("text()" ++ '=' :: '\'' :: (value ++ '\'' :: ']' :: r)) := by
      simp [text]
    rw [same, XPath.textTest?_cons (by decide), found]
    rfl
  | position number numeral =>
    have own : '(' ∉ number := fun opens => absurd (numeral _ opens) (by decide)
    exact XPath.textTest?_append (by simp [text, own]) behind

theorem head_flatMap_text (behind : ∀ c ∈ r.head?, c ∉ ("text()" : Text)) :
    ∀ c ∈ (ts.flatMap text ++ r).head?, c ∉ ("text()" : Text) := by
  cases ts with
  | nil => exact behind
  | cons t ts =>
    intro c hc
    cases t with
    | attr | content | position =>
      obtain rfl := Option.some.inj hc
      decide

theorem withoutBlocks_flatMap (ts : List LocationTest) (r : Text) :
    Css.withoutBlocks (ts.flatMap text ++ r) = Css.withoutBlocks r := by
  induction ts with
  | nil => rfl
  | cons t ts ih => rw [List.flatMap_cons, List.append_assoc, t.withoutBlocks_append, ih]

theorem attributeTests_flatMap (ts : List LocationTest) (r : Text) :
    XPath.attributeTests (ts.flatMap text ++ r) =
      ts.filterMap attribute? ++ XPath.attributeTests r := by
  induction ts with
  | nil => rfl
  | cons t ts ih =>
    rw [List.flatMap_cons, List.append_assoc, t.attributeTests_append, ih, ← List.append_assoc,
      List.filterMap_cons]
    cases t.attribute? <;> rfl

theorem textTest?_flatMap (behind : ∀ c ∈ r.head?, c ∉ ("text()" : Text)) :
    XPath.textTest? (ts.flatMap text ++ r) =
      ((ts.filterMap content?).head?.map some).or (XPath.textTest? r) := by
  induction ts with
  | nil => rfl
  | cons t ts ih =>
    rw [List.flatMap_cons, List.append_assoc, t.textTest?_append (head_flatMap_text behind), ih,
      List.filterMap_cons]
    cases t.content? <;> rfl

end LocationTest

namespace LocationStep

variable {r : Text}

theorem part_label (s : LocationStep) : ∀ c ∈ s.label, isAsciiNamePart c = true ∨ c = '*' := by
  rw [label]
  cases s.name with
  | none => exact fun c hc => .inr (List.mem_singleton.mp hc)
  | some name => exact fun c hc => .inl (name.isAsciiNamePart_of_mem c hc)

theorem label_ne_nil (s : LocationStep) : s.label ≠ [] := by
  rw [label]
  cases s.name with
  | none => exact List.cons_ne_nil _ _
  | some name => exact name.text_ne_nil

theorem head_text (s : LocationStep) (r : Text) : (s.text ++ r).head? = some '/' := by
  rw [text, slashes]
  split <;> rfl

theorem part_bare (s : LocationStep) :
    ∀ c ∈ s.bare, isAsciiNamePart c = true ∨ c = '*' ∨ c = '/' := by
  intro c hc
  rcases List.mem_append.mp hc with front | own
  · refine .inr (.inr ?_)
    rw [slashes] at front
    split at front <;> simpa using front
  · exact (s.part_label c own).imp_right .inl

theorem isUnmarked_of_mem_bare (s : LocationStep) : ∀ c ∈ s.bare, isUnmarked c = true := by
  intro c hc
  rcases s.part_bare c hc with part | rfl | rfl
  · exact isUnmarked_of_isAsciiNamePart part
  · rfl
  · rfl

theorem text_append (s : LocationStep) (r : Text) :
    s.text ++ r = s.bare ++ (s.tests.flatMap LocationTest.text ++ r) := by
  rw [text, bare, List.append_assoc]

theorem withoutBlocks_append (s : LocationStep) (r : Text) :
    Css.withoutBlocks (s.text ++ r) = s.bare ++ Css.withoutBlocks r := by
  rw [s.text_append, Css.withoutBlocks_append s.isUnmarked_of_mem_bare,
    LocationTest.withoutBlocks_flatMap]

theorem attributeTests_append (s : LocationStep) (r : Text) : XPath.attributeTests (s.text ++ r) =
    s.tests.filterMap LocationTest.attribute? ++ XPath.attributeTests r := by
  have other : '@' ∉ s.bare := by
    intro hc
    rcases s.part_bare _ hc with part | star | slash
    · cases part
    · cases star
    · cases slash
  rw [s.text_append, XPath.attributeTests_append other, LocationTest.attributeTests_flatMap]

theorem textTest?_append (s : LocationStep) (behind : ∀ c ∈ r.head?, c ∉ ("text()" : Text)) :
    XPath.textTest? (s.text ++ r) =
      ((s.tests.filterMap LocationTest.content?).head?.map some).or (XPath.textTest? r) := by
  have other : '(' ∉ s.bare := notMem_of_isUnmarked s.isUnmarked_of_mem_bare rfl
  rw [s.text_append, XPath.textTest?_append other (LocationTest.head_flatMap_text behind),
    LocationTest.textTest?_flatMap behind]

/-- The label of a step is what is left of it, and names its element if it is not a star. -/
theorem stepName?_label (s : LocationStep) :
    XPath.stepName? s.label = s.name.map AsciiName.text := by
  rw [label]
  cases s.name with
  | none => rfl
  | some name =>
    have plain : XPath.stepName? name.text = Css.leadingName? name.text := by
      rw [XPath.stepName?.eq_def]
      split
      next r opens =>
        have round : '(' ∉ name.text := name.notMem rfl
        rw [opens] at round
        exact absurd List.mem_cons_self round
      next => rfl
    have named := name.leadingName?_append (r := []) nofun
    rw [List.append_nil] at named
    exact plain.trans named

theorem stripWhile_label (s : LocationStep) : Text.stripWhile XPath.isRound s.label = s.label := by
  have other : ∀ c ∈ s.label, XPath.isRound c = false := by
    intro c hc
    rcases s.part_label c hc with part | rfl
    · have free := isUnmarked_of_isAsciiNamePart part
      rw [XPath.isRound, beq_false_of_ne (ne_of_isUnmarked free rfl),
        beq_false_of_ne (ne_of_isUnmarked free rfl)]
      rfl
    · rfl
  exact Text.stripWhile_eq_self (fun c hc => other c (List.mem_of_mem_head? hc))
    fun c hc => other c (List.mem_of_getLast? hc)

theorem slash_notMem_label (s : LocationStep) : ∀ c ∈ s.label, (c == '/') = false := by
  intro c hc
  rcases s.part_label c hc with part | rfl
  · exact beq_false_of_ne (ne_of_isAsciiNamePart part rfl)
  · rfl

end LocationStep

namespace LocationPath

variable {steps : List LocationStep}

theorem withoutBlocks_steps (steps : List LocationStep) :
    Css.withoutBlocks (steps.flatMap LocationStep.text) = steps.flatMap LocationStep.bare := by
  induction steps with
  | nil => exact Css.withoutBlocks_nil
  | cons s steps ih => rw [List.flatMap_cons, s.withoutBlocks_append, ih, List.flatMap_cons]

theorem attributeTests_steps (steps : List LocationStep) :
    XPath.attributeTests (steps.flatMap LocationStep.text) =
      (steps.flatMap LocationStep.tests).filterMap LocationTest.attribute? := by
  induction steps with
  | nil => exact XPath.attributeTests_nil
  | cons s steps ih =>
    rw [List.flatMap_cons, s.attributeTests_append, ih, List.flatMap_cons, List.filterMap_append]

theorem textTest?_steps (steps : List LocationStep) :
    XPath.textTest? (steps.flatMap LocationStep.text) =
      ((steps.flatMap LocationStep.tests).filterMap LocationTest.content?).head?.map some := by
  induction steps with
  | nil => rfl
  | cons s steps ih =>
    have behind : ∀ c ∈ (steps.flatMap LocationStep.text).head?, c ∉ ("text()" : Text) := by
      cases steps with
      | nil => exact nofun
      | cons next steps =>
        intro c hc
        rw [List.flatMap_cons, next.head_text] at hc
        obtain rfl := Option.some.inj hc
        decide
    rw [List.flatMap_cons, s.textTest?_append behind, ih, List.flatMap_cons, List.filterMap_append,
      List.head?_append, Option.map_or]

/-- Cutting at slashes gives the labels, and empty pieces that are left out. -/
theorem filter_pieces {keep : Text → Bool} (empty : keep [] = false)
    (labels : ∀ s : LocationStep, keep s.label = true) (steps : List LocationStep) {t : Text}
    (other : ∀ c ∈ t, (c == '/') = false) :
    (Text.pieces (· == '/') (t ++ steps.flatMap LocationStep.bare)).filter keep =
      [t].filter keep ++ steps.map LocationStep.label := by
  have cut : ∀ {t : Text}, (∀ c ∈ t, (c == '/') = false) → ∀ r,
      (Text.pieces (· == '/') (t ++ '/' :: r)).filter keep =
        [t].filter keep ++ (Text.pieces (· == '/') r).filter keep := by
    intro t other r
    rw [Text.pieces_append_cons rfl, Text.pieces_of_others other, List.filter_append]
  have gap : [([] : Text)].filter keep = [] := by
    rw [List.filter_singleton, empty]
    rfl
  induction steps generalizing t with
  | nil =>
    rw [List.flatMap_nil, List.append_nil, Text.pieces_of_others other, List.map_nil,
      List.append_nil]
  | cons s steps ih =>
    have rest : (Text.pieces (· == '/') (s.label ++ steps.flatMap LocationStep.bare)).filter keep =
        (s :: steps).map LocationStep.label := by
      rw [ih s.slash_notMem_label, List.filter_singleton, labels]
      rfl
    rw [List.flatMap_cons, LocationStep.bare, LocationStep.slashes, List.append_assoc]
    split
    next =>
      have again := cut (t := []) nofun (s.label ++ steps.flatMap LocationStep.bare)
      rw [gap, rest] at again
      exact (cut other _).trans (congrArg _ again)
    next => exact (cut other _).trans (congrArg _ rest)

/-- What is read of a path is what its syntax says. -/
theorem parse_text (p : LocationPath) : XPath.parse p.text = p.facts := by
  obtain ⟨steps, filled⟩ := p
  have source : Text.dropPrefix "xpath=" (steps.flatMap LocationStep.text) =
      steps.flatMap LocationStep.text := by
    rcases Text.dropPrefix_cases "xpath=" (steps.flatMap LocationStep.text) with same | named
    · exact same
    · have slash : (steps.flatMap LocationStep.text).head? = some '/' := by
        obtain ⟨s, rest, rfl⟩ := List.exists_cons_of_ne_nil filled
        rw [List.flatMap_cons, s.head_text]
      rw [named] at slash
      cases slash
  have parts : XPath.steps (steps.flatMap LocationStep.text) = steps.map LocationStep.label := by
    have kept : ∀ s : LocationStep, (!(Text.stripWhile XPath.isRound s.label).isEmpty) = true :=
      fun s => by simp [s.stripWhile_label, s.label_ne_nil]
    rw [XPath.steps, withoutBlocks_steps]
    exact filter_pieces rfl kept steps (t := []) nofun
  have last : (steps.map LocationStep.label).getLast?.bind XPath.stepName? =
      (steps.getLast filled).name.map AsciiName.text := by
    rw [List.getLast?_map, List.getLast?_eq_some_getLast filled, Option.map_some, Option.bind_some,
      LocationStep.stepName?_label]
  have lowered : ((steps.getLast filled).name.map AsciiName.text).map Text.lower =
      (steps.getLast filled).name.map fun name => name.text.map Char.toLower := by
    rw [Option.map_map]
    exact Option.map_congr fun name _ => name.lower_text
  have attributes := foldl_addEntry [] (XPath.attributeTests (steps.flatMap LocationStep.text))
  rw [attributeTests_steps, List.nil_append, List.filter_eq_self.mpr (by simp)] at attributes
  rw [XPath.parse]
  simp only [text, source, parts, last, lowered, attributeTests_steps, textTest?_steps,
    List.length_map]
  rw [attributes]
  rfl

end LocationPath

namespace XPath

/-- What is known of a target by what a path says; absent parts make nothing known. -/
def Says (x : XPath) : Detail → Prop
  | .path source => source = x.path
  | .attributes pairs => pairs ≠ [] ∧ pairs = x.attributes
  | .text content => x.text = some content
  | .tag name => x.tag = some name
  | .depth levels => levels = x.depth
  | _ => False

theorem mem_details_iff {x : XPath} {d : Detail} : d ∈ x.details ↔ x.Says d := by
  cases d <;> simp [details, Says, Details.listed_iff]

theorem pairwise_details (x : XPath) : x.details.Pairwise fun d e => d.sameKind e = false := by
  have all : ([.path x.path, .attributes x.attributes, .text (x.text.getD none),
      .tag (x.tag.getD []), .depth x.depth] : Details).Pairwise
        fun d e => d.sameKind e = false := by
    simp [Detail.sameKind]
  exact all.sublist (((((List.Sublist.refl [Detail.path x.path]).append
    (Details.listed_sublist _ _)).append (Details.optional_sublist x.text .text none)).append
    (Details.optional_sublist x.tag .tag [])).append (List.Sublist.refl _))

theorem attributes_details (x : XPath) : x.details.attributes = x.attributes := by
  by_cases empty : x.attributes = []
  · rw [empty]
    exact Details.attributes_eq_nil fun pairs own =>
      (mem_details_iff.mp own).1 ((mem_details_iff.mp own).2.trans empty)
  · exact Details.attributes_eq x.pairwise_details (mem_details_iff.mpr ⟨empty, rfl⟩)

end XPath

/-- Reading the text of a path recovers its syntax: the details are those that the syntax gives,
one of a kind, an absent part gives none, and the first value of an attribute counts. -/
theorem xpath_recovered (p : LocationPath) :
    (XPath.parse p.text).details.Pairwise (fun d e => d.sameKind e = false) ∧
      (∀ d, d ∈ (XPath.parse p.text).details ↔ p.facts.Says d) ∧
      ∀ name, (XPath.parse p.text).details.attribute? name = valueAt? name p.pairs := by
  rw [p.parse_text]
  refine ⟨XPath.pairwise_details _, fun d => XPath.mem_details_iff, fun name => ?_⟩
  rw [Details.attribute?, XPath.attributes_details]
  exact valueAt?_firstEntries name p.pairs

/-- Anything with a text in a form, with a slash and an equals sign in values. -/
def formPath : LocationPath where
  steps := [
    { anywhere := true
      name := some ⟨'f', ['o', 'r', 'm'], rfl, List.all_eq_true.mp rfl⟩
      tests := [.attr ⟨'k', ['e', 'y'], rfl, List.all_eq_true.mp rfl⟩ "a/b"
        (List.cons_ne_nil _ _) (List.all_eq_true.mp rfl)] },
    { anywhere := false
      name := none
      tests := [.content "x = y" (List.cons_ne_nil _ _) (List.all_eq_true.mp rfl),
        .position "2" (List.all_eq_true.mp rfl)] }]
  filled := List.cons_ne_nil _ _

example : formPath.text = "//form[@key='a/b']/*[text()='x = y'][2]" ∧
    (XPath.parse formPath.text).details = [.path "//form[@key='a/b']/*[text()='x = y'][2]",
      .attributes [("key", "a/b")], .text (some "x = y"), .depth 1] := by
  decide +kernel

end PageObjects
