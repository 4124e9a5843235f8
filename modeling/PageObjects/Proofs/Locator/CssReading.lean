import PageObjects.Proofs.Locator.CssSyntax
import PageObjects.Proofs.Script.Quoting

namespace PageObjects

namespace Text

/-- Texts that are each replaced apart from the next are replaced one by one. -/
theorem replacePair_flatMap {α : Type} {a b : Char} {new : Text} {as : List α} {f g : α → Text}
    (each : ∀ x ∈ as, (f x).getLast? ≠ some a ∧ replacePair a b new (f x) = g x) (t : Text) :
    replacePair a b new (as.flatMap f ++ t) = as.flatMap g ++ replacePair a b new t := by
  induction as with
  | nil => rfl
  | cons x as ih =>
    obtain ⟨⟨apart, own⟩, each⟩ := List.forall_mem_cons.mp each
    rw [List.flatMap_cons, List.flatMap_cons, List.append_assoc,
      replacePair_append fun same => absurd same apart, own, ih each, List.append_assoc]

theorem trim_flatMap {α : Type} {as : List α} {f : α → Text} (h : ∀ x ∈ as, trim (f x) = f x) :
    trim (as.flatMap f) = as.flatMap f := by
  induction as with
  | nil => rfl
  | cons x as ih =>
    obtain ⟨first, h⟩ := List.forall_mem_cons.mp h
    exact trim_append first (ih h)

end Text

theorem getLastD_map {α β : Type} (f : α → β) (as : List α) (a : α) :
    (as.map f).getLastD (f a) = f (as.getLastD a) := by
  induction as generalizing a with
  | nil => rfl
  | cons b as ih => rw [List.map_cons, List.getLastD_cons, List.getLastD_cons, ih]

namespace CssPart

/-- The character that a part starts with ends any name, and is no equals sign. -/
theorem head_text (p : CssPart) : ∀ c ∈ p.text.head?, isNamePart c = false ∧ c ≠ '=' := by
  intro c hc
  cases p with
  | id | ofClass | attr | pseudo | function =>
    obtain rfl := Option.some.inj hc
    exact ⟨rfl, by decide⟩

/-- A part whose argument has lost its chaining marks. -/
def unchained : CssPart → CssPart
  | function name argument free =>
    function name (Text.replacePair '>' '>' [' '] argument) fun c hc => by
      rcases Text.mem_of_mem_replacePair hc with rfl | hc
      · rfl
      · exact free c hc
  | p => p

theorem replacePair_text (p : CssPart) : p.text.getLast? ≠ some '>' ∧
    Text.replacePair '>' '>' [' '] p.text = p.unchained.text := by
  have plain : ∀ {t : Text}, '>' ∉ t → t.getLast? ≠ some '>' ∧
      Text.replacePair '>' '>' [' '] t = t := fun free =>
    ⟨fun last => free (List.mem_of_getLast? last), Text.replacePair_of_notMem free⟩
  have word : ∀ (c : Char) (name : AsciiName), c ≠ '>' → '>' ∉ c :: name.text := by
    intro c name other
    rw [List.mem_cons, not_or]
    exact ⟨Ne.symm other, name.notMem rfl⟩
  cases p with
  | id name => exact plain (word '#' name (by decide))
  | ofClass name => exact plain (word '.' name (by decide))
  | pseudo name => exact plain (word ':' name (by decide))
  | attr name value free whole =>
    obtain ⟨apart, front⟩ := plain (t := '[' :: (name.text ++ ['=', '"']))
      (by simp [name.notMem (c := '>') rfl])
    have same : (attr name value free whole).text =
        '[' :: (name.text ++ ['=', '"']) ++ (value ++ ['"', ']']) := by
      simp [text]
    have own : Text.replacePair '>' '>' [' '] value = value :=
      Text.replacePair_eq_self (Text.isChain_iff_not_infix.mpr whole)
    have tail : Text.replacePair '>' '>' [' '] ['"', ']'] = ['"', ']'] := rfl
    refine ⟨by rw [same, ← List.append_assoc, List.getLast?_append]; simp, ?_⟩
    rw [same, Text.replacePair_append fun last => absurd last apart, front,
      Text.replacePair_append fun _ => by decide, own, tail, ← same]
    rfl
  | function name argument free =>
    obtain ⟨apart, front⟩ := plain (t := ':' :: (name.text ++ ['(']))
      (by simp [name.notMem (c := '>') rfl])
    have same : (function name argument free).text =
        ':' :: (name.text ++ ['(']) ++ (argument ++ [')']) := by
      simp [text]
    have tail : Text.replacePair '>' '>' [' '] [')'] = [')'] := rfl
    refine ⟨by rw [same, ← List.append_assoc, List.getLast?_append]; simp, ?_⟩
    rw [same, Text.replacePair_append fun last => absurd last apart, front,
      Text.replacePair_append fun _ => by decide, tail]
    simp [unchained, text]

/-- Losing chaining marks leaves all of a part but its argument. -/
theorem unchained_facts (p : CssPart) : p.unchained.id? = p.id? ∧ p.unchained.class? = p.class? ∧
    p.unchained.attribute? = p.attribute? ∧ p.unchained.pseudoClass? = p.pseudoClass? := by
  cases p with
  | id | ofClass | attr | pseudo | function => exact ⟨rfl, rfl, rfl, rfl⟩

end CssPart

namespace CssCompound

variable {r : Text} {m : Char}

/-- A compound whose arguments have lost their chaining marks. -/
def unchained (k : CssCompound) : CssCompound where
  tag := k.tag
  parts := k.parts.map CssPart.unchained
  filled := k.filled.imp_right fun filled empty => filled (List.map_eq_nil_iff.mp empty)

theorem part_tagText (k : CssCompound) : ∀ c ∈ k.tagText, isAsciiNamePart c = true := by
  rw [tagText]
  cases k.tag with
  | none => exact nofun
  | some name => exact name.isAsciiNamePart_of_mem

theorem notMem_tagText (k : CssCompound) {c : Char} (other : isAsciiNamePart c = false) :
    c ∉ k.tagText := by
  intro hc
  rw [k.part_tagText c hc] at other
  cases other

theorem trim_text (k : CssCompound) : Text.trim k.text = k.text :=
  Text.trim_append
    (Text.trim_of_words fun c hc => isBlank_of_class (by decide) (k.part_tagText c hc))
    (Text.trim_flatMap fun p _ => p.trim_text)

theorem text_ne_nil (k : CssCompound) : k.text ≠ [] := by
  intro empty
  obtain ⟨untagged, partless⟩ := List.append_eq_nil_iff.mp empty
  rcases k.filled with tagged | hasParts
  · obtain ⟨name, own⟩ := Option.isSome_iff_exists.mp tagged
    rw [tagText, own] at untagged
    exact name.text_ne_nil untagged
  · obtain ⟨p, parts, own⟩ := List.exists_cons_of_ne_nil hasParts
    rw [own] at partless
    exact p.text_ne_nil (List.flatMap_eq_nil_iff.mp partless p List.mem_cons_self)

theorem stays (k : CssCompound) : Css.Stays 0 k.text := by
  refine .append ?_ (.flatMap fun p _ => p.stays)
  exact .of_unmarked (fun c hc => isUnmarked_of_isAsciiNamePart (k.part_tagText c hc))
    fun c hc h => by
      rw [CssPart.isCombinator_of_isAsciiNamePart (k.part_tagText c hc)] at h
      cases h.2

theorem withoutBlocks_append (k : CssCompound) (r : Text) :
    Css.withoutBlocks (k.text ++ r) = k.bare ++ Css.withoutBlocks r := by
  have parts : ∀ ps : List CssPart, Css.withoutBlocks (ps.flatMap CssPart.text ++ r) =
      ps.flatMap CssPart.bare ++ Css.withoutBlocks r := by
    intro ps
    induction ps with
    | nil => rfl
    | cons p ps ih =>
      rw [List.flatMap_cons, List.flatMap_cons, List.append_assoc, List.append_assoc,
        p.withoutBlocks_append, ih]
  have tag : ∀ c ∈ k.tagText, isUnmarked c = true := fun c hc =>
    isUnmarked_of_isAsciiNamePart (k.part_tagText c hc)
  rw [text, bare, List.append_assoc, List.append_assoc, Css.withoutBlocks_append tag, parts]

theorem endsName_bareParts {ps : List CssPart} (ends : EndsName r) :
    EndsName (ps.flatMap CssPart.bare ++ r) := by
  induction ps with
  | nil => exact ends
  | cons p ps ih =>
    rw [List.flatMap_cons, List.append_assoc]
    exact p.endsName_append ih

/-- The names behind a mark in a compound are those of the parts with the mark. -/
theorem namesAfter_append (k : CssCompound) (other : isAsciiNamePart m = false)
    (ends : EndsName r) : Css.namesAfter m (k.bare ++ r) =
      k.parts.filterMap (CssPart.named? m) ++ Css.namesAfter m r := by
  have parts : ∀ ps : List CssPart, Css.namesAfter m (ps.flatMap CssPart.bare ++ r) =
      ps.filterMap (CssPart.named? m) ++ Css.namesAfter m r := by
    intro ps
    induction ps with
    | nil => rfl
    | cons p ps ih =>
      rw [List.flatMap_cons, List.append_assoc, p.namesAfter_append other (endsName_bareParts ends),
        ih, ← List.append_assoc, List.filterMap_cons]
      cases p.named? m <;> rfl
  rw [bare, List.append_assoc, Css.namesAfter_append (k.notMem_tagText other), parts]

theorem attributePairs_append (k : CssCompound) (r : Text) : Css.attributePairs (k.text ++ r) =
    k.parts.filterMap CssPart.attribute? ++ Css.attributePairs r := by
  have parts : ∀ ps : List CssPart, Css.attributePairs (ps.flatMap CssPart.text ++ r) =
      ps.filterMap CssPart.attribute? ++ Css.attributePairs r := by
    intro ps
    induction ps with
    | nil => rfl
    | cons p ps ih =>
      rw [List.flatMap_cons, List.append_assoc, p.attributePairs_append, ih, ← List.append_assoc,
        List.filterMap_cons]
      cases p.attribute? <;> rfl
  rw [text, List.append_assoc, Css.attributePairs_append (k.notMem_tagText rfl), parts]

/-- A compound starts with its tag, if it has one. -/
theorem leadingName?_bare (k : CssCompound) :
    Css.leadingName? k.bare = k.tag.map AsciiName.text := by
  have ends : EndsName (k.parts.flatMap CssPart.bare) := by
    have whole : EndsName (k.parts.flatMap CssPart.bare ++ []) := endsName_bareParts .nil
    rwa [List.append_nil] at whole
  rw [bare, tagText]
  cases k.tag with
  | some name => exact name.leadingName?_append ends
  | none =>
    cases start : k.parts.flatMap CssPart.bare with
    | nil => simp [Css.leadingName?]
    | cons c r =>
      rw [start] at ends
      have other : ¬ c.isAlpha = true := by
        intro letter
        have own := ends c rfl
        rw [isNamePart, isWord_of_isAlpha letter] at own
        cases own
      simp [Css.leadingName?, other]

theorem unchained_facts (k : CssCompound) :
    k.unchained.parts.filterMap CssPart.id? = k.parts.filterMap CssPart.id? ∧
    k.unchained.parts.filterMap CssPart.class? = k.parts.filterMap CssPart.class? ∧
    k.unchained.parts.filterMap CssPart.attribute? = k.parts.filterMap CssPart.attribute? ∧
    k.unchained.parts.filterMap CssPart.pseudoClass? = k.parts.filterMap CssPart.pseudoClass? := by
  rw [unchained]
  simp only [List.filterMap_map]
  exact ⟨List.filterMap_congr fun p _ => p.unchained_facts.1,
    List.filterMap_congr fun p _ => p.unchained_facts.2.1,
    List.filterMap_congr fun p _ => p.unchained_facts.2.2.1,
    List.filterMap_congr fun p _ => p.unchained_facts.2.2.2⟩

theorem replacePair_append (k : CssCompound) (r : Text) :
    Text.replacePair '>' '>' [' '] (k.text ++ r) =
      k.unchained.text ++ Text.replacePair '>' '>' [' '] r := by
  have free : '>' ∉ k.tagText := k.notMem_tagText rfl
  have own : Text.replacePair '>' '>' [' '] k.tagText = k.tagText :=
    Text.replacePair_of_notMem free
  have apart : k.tagText.getLast? ≠ some '>' := fun last => free (List.mem_of_getLast? last)
  rw [text, text, List.append_assoc, List.append_assoc,
    Text.replacePair_append fun last => absurd last apart, own,
    Text.replacePair_flatMap fun p _ => p.replacePair_text, unchained, List.flatMap_map]
  rfl

end CssCompound

namespace CssCombinator

/-- Combinators are runs of combining characters with a blank at either end. -/
theorem text_facts (j : CssCombinator) : (∀ c ∈ j.text, isUnmarked c = true) ∧
    (∀ c ∈ j.text, isCombinator c = true) ∧ j.text.head? = some ' ' ∧
    j.text.getLast? = some ' ' ∧ Text.replacePair '>' '>' [' '] j.text = j.text := by
  cases j with
  | descendant | child | next | sibling =>
    exact ⟨List.all_eq_true.mp rfl, List.all_eq_true.mp rfl, rfl, rfl, rfl⟩

theorem text_ne_nil (j : CssCombinator) : j.text ≠ [] :=
  fun empty => absurd (empty ▸ j.text_facts.2.2.1) nofun

theorem head_append (j : CssCombinator) (r : Text) : (j.text ++ r).head? = some ' ' := by
  rw [List.head?_append_of_ne_nil _ j.text_ne_nil, j.text_facts.2.2.1]

theorem endsName_append (j : CssCombinator) (r : Text) : EndsName (j.text ++ r) := by
  intro c hc
  rw [j.head_append] at hc
  obtain rfl := Option.some.inj hc
  rfl

theorem notMem {m : Char} (j : CssCombinator) (other : isCombinator m = false) : m ∉ j.text := by
  intro hm
  rw [j.text_facts.2.1 m hm] at other
  cases other

end CssCombinator

namespace CssSelector

/-- A selector whose arguments have lost their chaining marks. -/
def unchained (s : CssSelector) : CssSelector where
  first := s.first.unchained
  rest := s.rest.map fun step => (step.1, step.2.unchained)

theorem replacePair_text (s : CssSelector) :
    Text.replacePair '>' '>' [' '] s.text = s.unchained.text := by
  obtain ⟨first, rest⟩ := s
  change Text.replacePair '>' '>' [' '] (first.text ++ rest.flatMap _) =
    first.unchained.text ++ (rest.map _).flatMap _
  induction rest generalizing first with
  | nil => exact first.replacePair_append []
  | cons step rest ih =>
    obtain ⟨j, k⟩ := step
    obtain ⟨-, -, -, last, own⟩ := j.text_facts
    rw [List.flatMap_cons, List.map_cons, List.flatMap_cons, first.replacePair_append]
    rw [List.append_assoc, Text.replacePair_append (by simp [last]), own, ih k,
      List.append_assoc]

/-- What stands behind the first tag neither goes on with it nor is an equals sign. -/
theorem head_behindTag (s : CssSelector) : ∀ c ∈ (s.first.parts.flatMap CssPart.text ++
    s.rest.flatMap fun step => step.1.text ++ step.2.text).head?,
      isNamePart c = false ∧ c ≠ '=' := by
  intro c hc
  cases parts : s.first.parts with
  | cons p ps =>
    rw [parts, List.flatMap_cons, List.append_assoc,
      List.head?_append_of_ne_nil _ p.text_ne_nil] at hc
    exact p.head_text c hc
  | nil =>
    rw [parts, List.flatMap_nil, List.nil_append] at hc
    cases steps : s.rest with
    | nil =>
      rw [steps] at hc
      cases hc
    | cons step rest =>
      rw [steps, List.flatMap_cons, List.append_assoc, step.1.head_append] at hc
      obtain rfl := Option.some.inj hc
      exact ⟨rfl, by decide⟩

/-- No selector starts as one with its engine named does. -/
theorem dropPrefix_text (s : CssSelector) : Text.dropPrefix "css=" s.text = s.text := by
  rcases Text.dropPrefix_cases "css=" s.text with same | named
  · exact same
  · have word : ∀ c ∈ s.first.tagText, isNamePart c = true := fun c hc =>
      (isNamePart_of_isAsciiNamePart (s.first.part_tagText c hc)).1
    have behind := (Text.takeWhile_append word fun c hc => (s.head_behindTag c hc).1).2
    rw [← List.append_assoc, ← CssCompound.text, ← text, named] at behind
    have engine := (Text.takeWhile_append (p := isNamePart) (s := ['c', 's', 's'])
      (r := '=' :: Text.dropPrefix "css=" s.text) (List.all_eq_true.mp rfl)
      (EndsName.cons rfl _)).2
    have equals := (s.head_behindTag '=' (by rw [← behind]; exact congrArg List.head? engine)).2
    exact absurd rfl equals

theorem compounds_text (s : CssSelector) :
    Css.compounds s.text = s.compounds.map CssCompound.text := by
  obtain ⟨first, rest⟩ := s
  change Css.compounds (first.text ++ rest.flatMap _) = (first :: rest.map Prod.snd).map _
  induction rest generalizing first with
  | nil =>
    rw [List.flatMap_nil, List.append_nil,
      Css.compounds_of_stays first.stays first.trim_text first.text_ne_nil]
    rfl
  | cons step rest ih =>
    obtain ⟨j, k⟩ := step
    obtain ⟨free, all, -⟩ := j.text_facts
    rw [List.flatMap_cons, List.append_assoc, Css.compounds_append first.stays first.trim_text
      first.text_ne_nil j.text_ne_nil free all, ih k]
    rfl

theorem last_text (s : CssSelector) :
    (s.compounds.map CssCompound.text).getLastD [] = s.last.text := by
  rw [compounds, last, List.map_cons, List.getLastD_cons, getLastD_map]

/-- Outside of blocks, the names behind a mark are those of the compounds, in order. -/
theorem namesAfter_text (s : CssSelector) {m : Char} (part : isAsciiNamePart m = false)
    (combinator : isCombinator m = false) : Css.namesAfter m (Css.withoutBlocks s.text) =
      s.compounds.flatMap fun k => k.parts.filterMap (CssPart.named? m) := by
  obtain ⟨first, rest⟩ := s
  change Css.namesAfter m (Css.withoutBlocks (first.text ++ rest.flatMap _)) =
    (first :: rest.map Prod.snd).flatMap _
  induction rest generalizing first with
  | nil =>
    rw [List.flatMap_nil, first.withoutBlocks_append, Css.withoutBlocks_nil,
      first.namesAfter_append part .nil, Css.namesAfter_nil]
    rfl
  | cons step rest ih =>
    obtain ⟨j, k⟩ := step
    rw [List.flatMap_cons, List.append_assoc, first.withoutBlocks_append,
      Css.withoutBlocks_append j.text_facts.1, first.namesAfter_append part (j.endsName_append _),
      Css.namesAfter_append (j.notMem combinator), ih k]
    rfl

theorem attributePairs_text (s : CssSelector) : Css.attributePairs s.text = s.pairs := by
  obtain ⟨first, rest⟩ := s
  change Css.attributePairs (first.text ++ rest.flatMap _) = (first :: rest.map Prod.snd).flatMap _
  induction rest generalizing first with
  | nil =>
    rw [List.flatMap_nil, first.attributePairs_append, Css.attributePairs_nil]
    rfl
  | cons step rest ih =>
    obtain ⟨j, k⟩ := step
    rw [List.flatMap_cons, List.append_assoc, first.attributePairs_append,
      Css.attributePairs_append (j.notMem rfl), ih k]
    rfl

theorem attributeMap_text (s : CssSelector) :
    Css.attributeMap s.text = firstEntries s.pairs := by
  rw [Css.attributeMap, foldl_addEntry, s.attributePairs_text]
  simp

theorem unchained_last (s : CssSelector) : s.unchained.last = s.last.unchained := by
  have compounds : (s.rest.map fun step => (step.1, step.2.unchained)).map Prod.snd =
      (s.rest.map Prod.snd).map CssCompound.unchained := by
    rw [List.map_map, List.map_map]
    rfl
  rw [last, last, ← getLastD_map CssCompound.unchained, ← compounds]
  rfl

theorem unchained_facts (s : CssSelector) : s.unchained.facts = s.facts := by
  have all : s.unchained.compounds = s.compounds.map CssCompound.unchained := by
    rw [compounds, compounds, unchained, List.map_cons, List.map_map, List.map_map]
    rfl
  have count : s.unchained.rest.length = s.rest.length := by
    rw [unchained, List.length_map]
  have each := CssCompound.unchained_facts
  simp only [facts, pairs, s.unchained_last, all, count, List.flatMap_map, each]
  rfl

/-- What is read of a selector is what its syntax says. -/
theorem parse_text (s : CssSelector) : Css.parse s.text = s.facts := by
  have source : Text.replacePair '>' '>' [' '] (Text.dropPrefix "css=" s.text) =
      s.unchained.text := by
    rw [s.dropPrefix_text, s.replacePair_text]
  rw [← s.unchained_facts, Css.parse]
  generalize s.unchained = u at source
  have blockless : Css.withoutBlocks u.last.text = u.last.bare := by
    have whole := u.last.withoutBlocks_append []
    rwa [List.append_nil, Css.withoutBlocks_nil, List.append_nil] at whole
  have named : ∀ {m : Char}, isAsciiNamePart m = false → Css.namesAfter m u.last.bare =
      u.last.parts.filterMap (CssPart.named? m) := by
    intro m other
    have whole := u.last.namesAfter_append other EndsName.nil
    rwa [List.append_nil, Css.namesAfter_nil, List.append_nil] at whole
  have lowered : (u.last.tag.map AsciiName.text).map Text.lower =
      u.last.tag.map fun name => name.text.map Char.toLower := by
    rw [Option.map_map]
    exact Option.map_congr fun name _ => name.lower_text
  simp only [source, compounds_text, last_text, blockless, CssCompound.leadingName?_bare, lowered,
    named (m := '#') rfl, named (m := ':') rfl, namesAfter_text u (m := '.') rfl rfl,
    attributeMap_text, CssPart.named?_id, CssPart.named?_class, CssPart.named?_pseudoClass]
  have depth : (u.compounds.map CssCompound.text).length - 1 = u.rest.length := by
    simp [compounds]
  rw [depth]
  rfl

end CssSelector

namespace Css

/-- What is known of a target by what a selector says; absent parts make nothing known. -/
def Says (css : Css) : Detail → Prop
  | .tag name => css.tag = some name
  | .id name => css.id = some name
  | .classes names => names ≠ [] ∧ names = css.classes
  | .attributes pairs => pairs ≠ [] ∧ pairs = css.attributes
  | .pseudoClasses names => names ≠ [] ∧ names = css.pseudoClasses
  | .depth levels => levels = css.depth
  | _ => False

theorem mem_details_iff {css : Css} {d : Detail} : d ∈ css.details ↔ css.Says d := by
  cases d <;> simp [details, Says, Details.listed_iff]

theorem pairwise_details (css : Css) :
    css.details.Pairwise fun d e => d.sameKind e = false := by
  have all : ([.tag (css.tag.getD []), .id (css.id.getD []), .classes css.classes,
      .attributes css.attributes, .pseudoClasses css.pseudoClasses, .depth css.depth] :
      Details).Pairwise fun d e => d.sameKind e = false := by
    simp [Detail.sameKind]
  exact all.sublist ((((((Details.optional_sublist css.tag .tag []).append
    (Details.optional_sublist css.id .id [])).append (Details.listed_sublist _ _)).append
    (Details.listed_sublist _ _)).append (Details.listed_sublist _ _)).append (List.Sublist.refl _))

theorem attributes_details (css : Css) : css.details.attributes = css.attributes := by
  by_cases empty : css.attributes = []
  · rw [empty]
    exact Details.attributes_eq_nil fun pairs own =>
      (mem_details_iff.mp own).1 ((mem_details_iff.mp own).2.trans empty)
  · exact Details.attributes_eq css.pairwise_details (mem_details_iff.mpr ⟨empty, rfl⟩)

end Css

/-- Reading the text of a selector recovers its syntax: the details are those that the syntax
gives, one of a kind, an absent part gives none, and the first value of an attribute counts. -/
theorem css_recovered (s : CssSelector) :
    (Css.parse s.text).details.Pairwise (fun d e => d.sameKind e = false) ∧
      (∀ d, d ∈ (Css.parse s.text).details ↔ s.facts.Says d) ∧
      ∀ name, (Css.parse s.text).details.attribute? name = valueAt? name s.pairs := by
  rw [s.parse_text]
  refine ⟨Css.pairwise_details _, fun d => Css.mem_details_iff, fun name => ?_⟩
  rw [Details.attribute?, Css.attributes_details]
  exact valueAt?_firstEntries name s.pairs

/-- An item below its list, with a dot and a combinator in a value. -/
def itemSelector : CssSelector where
  first := ⟨some ⟨'U', ['L'], rfl, List.all_eq_true.mp rfl⟩, [], .inl rfl⟩
  rest := [(.child, {
    tag := some ⟨'l', ['i'], rfl, List.all_eq_true.mp rfl⟩
    parts := [
      .ofClass ⟨'i', ['t', 'e', 'm'], rfl, List.all_eq_true.mp rfl⟩,
      .attr ⟨'t', ['i', 'p'], rfl, List.all_eq_true.mp rfl⟩ "a.b > c" (List.all_eq_true.mp rfl)
        (by decide),
      .function ⟨'n', ['t', 'h'], rfl, List.all_eq_true.mp rfl⟩ "2" (List.all_eq_true.mp rfl)]
    filled := .inl rfl })]

example : itemSelector.text = "UL > li.item[tip=\"a.b > c\"]:nth(2)" ∧
    (Css.parse itemSelector.text).details = [.tag "li", .classes ["item"],
      .attributes [("tip", "a.b > c")], .pseudoClasses ["nth"], .depth 1] := by
  decide +kernel

end PageObjects
