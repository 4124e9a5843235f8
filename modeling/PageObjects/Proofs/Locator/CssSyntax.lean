import PageObjects.Proofs.Entries
import PageObjects.Proofs.Locator.Block

namespace PageObjects

/-- One condition of a compound. -/
inductive CssPart where
  | id (name : AsciiName)
  | ofClass (name : AsciiName)
  | attr (name : AsciiName) (value : Text) (free : ∀ c ∈ value, isUnmarked c = true)
      (whole : ¬ ['>', '>'] <:+: value)
  | pseudo (name : AsciiName)
  | function (name : AsciiName) (argument : Text) (free : ∀ c ∈ argument, isUnmarked c = true)

namespace CssPart

def text : CssPart → Text
  | id name => '#' :: name.text
  | ofClass name => '.' :: name.text
  | attr name value _ _ => '[' :: (name.text ++ '=' :: '"' :: (value ++ ['"', ']']))
  | pseudo name => ':' :: name.text
  | function name argument _ => ':' :: (name.text ++ '(' :: (argument ++ [')']))

/-- What is left of a part without its bracketed block. -/
def bare : CssPart → Text
  | id name => '#' :: name.text
  | ofClass name => '.' :: name.text
  | attr .. => []
  | pseudo name => ':' :: name.text
  | function name .. => ':' :: name.text

def id? : CssPart → Option Text
  | id name => some name.text
  | _ => none

def class? : CssPart → Option Text
  | ofClass name => some name.text
  | _ => none

def attribute? : CssPart → Option (Text × Text)
  | attr name value _ _ => some (name.text, value)
  | _ => none

def pseudoClass? : CssPart → Option Text
  | pseudo name => some name.text
  | function name _ _ => some name.text
  | _ => none

end CssPart

/-- A tag or a condition at least. -/
structure CssCompound where
  tag : Option AsciiName
  parts : List CssPart
  filled : tag.isSome = true ∨ parts ≠ []

namespace CssCompound

def tagText (k : CssCompound) : Text := (k.tag.map AsciiName.text).getD []

def text (k : CssCompound) : Text := k.tagText ++ k.parts.flatMap CssPart.text

def bare (k : CssCompound) : Text := k.tagText ++ k.parts.flatMap CssPart.bare

end CssCompound

inductive CssCombinator where
  | descendant | child | next | sibling

def CssCombinator.text : CssCombinator → Text
  | descendant => " "
  | child => " > "
  | next => " + "
  | sibling => " ~ "

structure CssSelector where
  first : CssCompound
  rest : List (CssCombinator × CssCompound)

namespace CssSelector

def text (s : CssSelector) : Text :=
  s.first.text ++ s.rest.flatMap fun step => step.1.text ++ step.2.text

def compounds (s : CssSelector) : List CssCompound := s.first :: s.rest.map Prod.snd

def last (s : CssSelector) : CssCompound := (s.rest.map Prod.snd).getLastD s.first

/-- All attributes with their values, as they are written. -/
def pairs (s : CssSelector) : List (Text × Text) :=
  s.compounds.flatMap fun k => k.parts.filterMap CssPart.attribute?

end CssSelector

/-- What a selector says, read off its syntax. -/
def CssSelector.facts (s : CssSelector) : Css where
  tag := s.last.tag.map fun name => name.text.map Char.toLower
  id := (s.last.parts.filterMap CssPart.id?).head?
  classes := s.compounds.flatMap fun k => k.parts.filterMap CssPart.class?
  attributes := firstEntries s.pairs
  pseudoClasses := s.last.parts.filterMap CssPart.pseudoClass?
  depth := s.rest.length

namespace Css

section Pieces

variable {d : Int} {s t v r : Text} {c q : Char}

theorem compoundPieces_ne_nil (quote : Option Char) (d : Int) (t : Text) :
    compoundPieces quote d t ≠ [] := by
  cases t with
  | nil => exact List.cons_ne_nil _ _
  | cons c r =>
    rw [compoundPieces.eq_def]
    dsimp only
    split
    next => split <;> exact List.cons_ne_nil _ _
    next =>
      iterate 3
        split
        next => split <;> exact List.cons_ne_nil _ _
      split
      next => exact List.cons_ne_nil _ _
      next => split <;> exact List.cons_ne_nil _ _

theorem exists_compoundPieces_cons (quote : Option Char) (d : Int) (t : Text) :
    ∃ p ps, compoundPieces quote d t = p :: ps :=
  List.exists_cons_of_ne_nil (compoundPieces_ne_nil quote d t)

theorem compoundPieces_quoted (r : Text) : compoundPieces (some q) d (c :: r) =
    (compoundPieces (if c = q then none else some q) d r).modifyHead (c :: ·) := by
  obtain ⟨p, ps, rest⟩ := exists_compoundPieces_cons (if c = q then none else some q) d r
  rw [compoundPieces.eq_def]
  dsimp only
  rw [rest]
  rfl

theorem compoundPieces_quote (h : c = '\'' ∨ c = '"') (r : Text) :
    compoundPieces none d (c :: r) = (compoundPieces (some c) d r).modifyHead (c :: ·) := by
  obtain ⟨p, ps, rest⟩ := exists_compoundPieces_cons (some c) d r
  rw [compoundPieces.eq_def]
  dsimp only
  rw [if_pos h, rest]
  rfl

theorem compoundPieces_opener (h : c = '[' ∨ c = '(') (r : Text) :
    compoundPieces none d (c :: r) = (compoundPieces none (d + 1) r).modifyHead (c :: ·) := by
  have noQuote : ¬ (c = '\'' ∨ c = '"') := by rcases h with rfl | rfl <;> decide
  obtain ⟨p, ps, rest⟩ := exists_compoundPieces_cons none (d + 1) r
  rw [compoundPieces.eq_def]
  dsimp only
  rw [if_neg noQuote, if_pos h, rest]
  rfl

theorem compoundPieces_closer (h : c = ']' ∨ c = ')') (r : Text) :
    compoundPieces none d (c :: r) = (compoundPieces none (d - 1) r).modifyHead (c :: ·) := by
  have noQuote : ¬ (c = '\'' ∨ c = '"') := by rcases h with rfl | rfl <;> decide
  have noOpener : ¬ (c = '[' ∨ c = '(') := by rcases h with rfl | rfl <;> decide
  obtain ⟨p, ps, rest⟩ := exists_compoundPieces_cons none (d - 1) r
  rw [compoundPieces.eq_def]
  dsimp only
  rw [if_neg noQuote, if_neg noOpener, if_pos h, rest]
  rfl

theorem compoundPieces_unmarked (h : isUnmarked c = true) (r : Text) :
    compoundPieces none d (c :: r) =
      if d = 0 ∧ isCombinator c = true then [] :: compoundPieces none d r
      else (compoundPieces none d r).modifyHead (c :: ·) := by
  have noQuote : ¬ (c = '\'' ∨ c = '"') :=
    not_or.mpr ⟨ne_of_isUnmarked h rfl, ne_of_isUnmarked h rfl⟩
  have noOpener : ¬ (c = '[' ∨ c = '(') :=
    not_or.mpr ⟨ne_of_isUnmarked h rfl, ne_of_isUnmarked h rfl⟩
  have noCloser : ¬ (c = ']' ∨ c = ')') :=
    not_or.mpr ⟨ne_of_isUnmarked h rfl, ne_of_isUnmarked h rfl⟩
  obtain ⟨p, ps, rest⟩ := exists_compoundPieces_cons none d r
  rw [compoundPieces.eq_def]
  dsimp only
  rw [if_neg noQuote, if_neg noOpener, if_neg noCloser, rest]
  rfl

/-- A text that no combinator cuts apart where so many brackets are open. -/
def Stays (d : Int) (t : Text) : Prop :=
  ∀ r, compoundPieces none d (t ++ r) = (compoundPieces none d r).modifyHead (t ++ ·)

namespace Stays

theorem nil : Stays d [] := fun _ => (congrFun List.modifyHead_id _).symm

theorem append (hs : Stays d s) (ht : Stays d t) : Stays d (s ++ t) := by
  intro r
  rw [List.append_assoc, hs, ht, List.modifyHead_modifyHead]
  simp only [Function.comp_def, List.append_assoc]

theorem flatMap {α : Type} {as : List α} {f : α → Text} (h : ∀ a ∈ as, Stays d (f a)) :
    Stays d (as.flatMap f) := by
  induction as with
  | nil => exact nil
  | cons a as ih =>
    obtain ⟨first, h⟩ := List.forall_mem_cons.mp h
    exact first.append (ih h)

theorem of_unmarked (free : ∀ c ∈ t, isUnmarked c = true)
    (other : ∀ c ∈ t, ¬ (d = 0 ∧ isCombinator c = true)) : Stays d t := by
  induction t with
  | nil => exact nil
  | cons c t ih =>
    obtain ⟨first, free⟩ := List.forall_mem_cons.mp free
    obtain ⟨own, other⟩ := List.forall_mem_cons.mp other
    intro r
    rw [List.cons_append, compoundPieces_unmarked first, if_neg own, ih free other,
      List.modifyHead_modifyHead]
    rfl

theorem bracketed {opener closer : Char} (ho : opener = '[' ∨ opener = '(')
    (hc : closer = ']' ∨ closer = ')') (h : Stays (d + 1) t) :
    Stays d (opener :: (t ++ [closer])) := by
  have level : d + 1 - 1 = d := by omega
  intro r
  rw [List.cons_append, List.append_assoc, List.singleton_append, compoundPieces_opener ho, h,
    compoundPieces_closer hc, level, List.modifyHead_modifyHead, List.modifyHead_modifyHead]
  simp [Function.comp_def]

theorem quoted (h : '"' ∉ v) : Stays d ('"' :: (v ++ ['"'])) := by
  have inside : ∀ r, compoundPieces (some '"') d (v ++ '"' :: r) =
      (compoundPieces none d r).modifyHead (v ++ '"' :: ·) := by
    intro r
    induction v with
    | nil =>
      rw [List.nil_append, compoundPieces_quoted, if_pos rfl]
      rfl
    | cons c v ih =>
      rw [List.mem_cons, not_or] at h
      rw [List.cons_append, compoundPieces_quoted, if_neg (Ne.symm h.1), ih h.2,
        List.modifyHead_modifyHead]
      rfl
  intro r
  rw [List.cons_append, List.append_assoc, List.singleton_append, compoundPieces_quote (.inr rfl),
    inside, List.modifyHead_modifyHead]
  simp [Function.comp_def]

end Stays

theorem compoundPieces_combinators (free : ∀ c ∈ s, isUnmarked c = true)
    (all : ∀ c ∈ s, isCombinator c = true) (r : Text) :
    compoundPieces none 0 (s ++ r) = List.replicate s.length [] ++ compoundPieces none 0 r := by
  induction s with
  | nil => rfl
  | cons c s ih =>
    obtain ⟨first, free⟩ := List.forall_mem_cons.mp free
    obtain ⟨own, all⟩ := List.forall_mem_cons.mp all
    rw [List.cons_append, compoundPieces_unmarked first, if_pos ⟨rfl, own⟩, ih free all]
    rfl

theorem compounds_of_stays (stays : Stays 0 t) (trimmed : Text.trim t = t) (filled : t ≠ []) :
    compounds t = [t] := by
  have whole := stays []
  rw [List.append_nil] at whole
  rw [compounds, whole, compoundPieces]
  simp [trimmed, filled]

/-- What stands before combinators is a compound. -/
theorem compounds_append (stays : Stays 0 t) (trimmed : Text.trim t = t) (filled : t ≠ [])
    (hasMark : s ≠ []) (free : ∀ c ∈ s, isUnmarked c = true)
    (all : ∀ c ∈ s, isCombinator c = true) (r : Text) :
    compounds (t ++ (s ++ r)) = t :: compounds r := by
  obtain ⟨c, s, rfl⟩ := List.exists_cons_of_ne_nil hasMark
  have blank : ∀ n, ((List.replicate n ([] : Text)).map Text.trim).filter (fun p => !p.isEmpty) =
      [] := by
    intro n
    rw [List.map_replicate]
    exact List.filter_replicate_of_neg (by decide)
  rw [compounds, stays, compoundPieces_combinators free all, List.length_cons,
    List.replicate_succ, List.cons_append, List.modifyHead_cons, List.append_nil, List.map_cons,
    List.map_append, List.filter_cons, List.filter_append, blank, trimmed]
  simp [filled, compounds]

end Pieces

end Css

namespace CssPart

variable {r : Text} {m : Char}

theorem isCombinator_of_isAsciiNamePart {c : Char} (h : isAsciiNamePart c = true) :
    isCombinator c = false := by
  have other : ∀ d, isAsciiNamePart d = false → (c == d) = false := fun _ hd =>
    beq_false_of_ne (ne_of_isAsciiNamePart h hd)
  have visible : isBlank c = false := isBlank_of_class (by decide) h
  rw [isCombinator, visible, other '>' rfl, other '+' rfl, other '~' rfl]
  rfl

/-- A name is a word that is not cut apart. -/
theorem stays_name (name : AsciiName) : Css.Stays 0 name.text :=
  .of_unmarked (fun c hc => isUnmarked_of_isAsciiNamePart (name.isAsciiNamePart_of_mem c hc))
    fun c hc h => by
      rw [isCombinator_of_isAsciiNamePart (name.isAsciiNamePart_of_mem c hc)] at h
      cases h.2

theorem stays (p : CssPart) : Css.Stays 0 p.text := by
  have mark : ∀ c, isUnmarked c = true → isCombinator c = false → Css.Stays 0 [c] := by
    intro c free other
    refine .of_unmarked (List.forall_mem_singleton.mpr free) ?_
    refine List.forall_mem_singleton.mpr fun h => ?_
    rw [other] at h
    cases h.2
  have inner : ∀ {t : Text}, (∀ c ∈ t, isUnmarked c = true) → Css.Stays (0 + 1) t := fun free =>
    .of_unmarked free fun c _ h => absurd h.1 (by decide)
  have named : ∀ name : AsciiName, ∀ c ∈ name.text, isUnmarked c = true := fun name c hc =>
    isUnmarked_of_isAsciiNamePart (name.isAsciiNamePart_of_mem c hc)
  cases p with
  | id name => exact (mark '#' rfl rfl).append (stays_name name)
  | ofClass name => exact (mark '.' rfl rfl).append (stays_name name)
  | pseudo name => exact (mark ':' rfl rfl).append (stays_name name)
  | attr name value free whole =>
    have quoted : Css.Stays (0 + 1) ('"' :: (value ++ ['"'])) :=
      .quoted (notMem_of_isUnmarked free rfl)
    have equals : Css.Stays (0 + 1) ['='] := inner (List.forall_mem_singleton.mpr rfl)
    have block := (((inner (named name)).append equals).append quoted).bracketed
      (.inl (Eq.refl '[')) (.inl (Eq.refl ']'))
    have same : (attr name value free whole).text =
        '[' :: (name.text ++ ['='] ++ '"' :: (value ++ ['"']) ++ [']']) := by
      simp [text]
    rwa [same]
  | function name argument free =>
    have block := (inner free).bracketed (.inr (Eq.refl '(')) (.inr (Eq.refl ')'))
    exact ((mark ':' rfl rfl).append (stays_name name)).append block

theorem trim_text (p : CssPart) : Text.trim p.text = p.text := by
  have mark : ∀ (c : Char) (name : AsciiName), isBlank c = false →
      Text.trim (c :: name.text) = c :: name.text := fun c name visible =>
    Text.trim_of_words (List.forall_mem_cons.mpr ⟨visible, fun _ => AsciiName.isBlank_of_mem⟩)
  cases p with
  | id name => exact mark '#' name rfl
  | ofClass name => exact mark '.' name rfl
  | pseudo name => exact mark ':' name rfl
  | attr name value =>
    have block := Text.trim_between (s := ['[']) (t := [']']) rfl (List.cons_ne_nil _ _) rfl
      (List.cons_ne_nil _ _) (name.text ++ '=' :: '"' :: (value ++ ['"']))
    simpa [text] using block
  | function name argument =>
    have block := Text.trim_between (s := ['(']) (t := [')']) rfl (List.cons_ne_nil _ _) rfl
      (List.cons_ne_nil _ _) argument
    exact Text.trim_append (mark ':' name rfl) block

theorem text_ne_nil (p : CssPart) : p.text ≠ [] := by
  cases p with
  | id | ofClass | attr | pseudo | function => exact List.cons_ne_nil _ _

theorem withoutBlocks_append (p : CssPart) (r : Text) :
    Css.withoutBlocks (p.text ++ r) = p.bare ++ Css.withoutBlocks r := by
  have word : ∀ (c : Char) (name : AsciiName), isUnmarked c = true → ∀ r,
      Css.withoutBlocks (c :: name.text ++ r) = c :: name.text ++ Css.withoutBlocks r :=
    fun c name free r => Css.withoutBlocks_append (List.forall_mem_cons.mpr
      ⟨free, fun c hc => isUnmarked_of_isAsciiNamePart (name.isAsciiNamePart_of_mem c hc)⟩) r
  cases p with
  | id name => exact word '#' name rfl r
  | ofClass name => exact word '.' name rfl r
  | pseudo name => exact word ':' name rfl r
  | attr name value free whole =>
    have other : ']' ∉ name.text ++ '=' :: '"' :: (value ++ ['"']) := by
      have first : ']' ∉ name.text := name.notMem rfl
      have second : ']' ∉ value := notMem_of_isUnmarked free rfl
      simp [first, second]
    have block := Css.withoutBlocks_square other r
    simpa [text, bare] using block
  | function name argument free =>
    have block := Css.withoutBlocks_round free r
    have same : (function name argument free).text ++ r =
        ':' :: name.text ++ '(' :: (argument ++ ')' :: r) := by
      simp [text]
    rw [same, word ':' name rfl, block]
    rfl

/-- The mark and the name of a part that is not in brackets. -/
def label? : CssPart → Option (Char × Text)
  | id name => some ('#', name.text)
  | ofClass name => some ('.', name.text)
  | attr .. => none
  | pseudo name => some (':', name.text)
  | function name .. => some (':', name.text)

/-- The name behind a mark. -/
def named? (m : Char) (p : CssPart) : Option Text :=
  p.label?.bind fun label => if label.1 = m then some label.2 else none

theorem named?_id : named? '#' = id? := funext fun p => by cases p <;> rfl

theorem named?_class : named? '.' = class? := funext fun p => by cases p <;> rfl

theorem named?_pseudoClass : named? ':' = pseudoClass? := funext fun p => by cases p <;> rfl

end CssPart

/-- Whether no name goes on into a text. -/
def EndsName (r : Text) : Prop := ∀ c ∈ r.head?, isNamePart c = false

theorem EndsName.nil : EndsName [] := nofun

theorem EndsName.cons {c : Char} (h : isNamePart c = false) (r : Text) : EndsName (c :: r) := by
  intro d hd
  obtain rfl := Option.some.inj hd
  exact h

namespace Css

variable {m c : Char} {s r : Text}

theorem namesAfter_nil : namesAfter m [] = [] := by
  rw [namesAfter]

theorem namesAfter_cons (other : c ≠ m) (r : Text) : namesAfter m (c :: r) = namesAfter m r := by
  rw [namesAfter, if_neg other]

theorem namesAfter_append (other : m ∉ s) (r : Text) : namesAfter m (s ++ r) = namesAfter m r := by
  induction s with
  | nil => rfl
  | cons c s ih =>
    rw [List.mem_cons, not_or] at other
    rw [List.cons_append, namesAfter_cons (Ne.symm other.1), ih other.2]

theorem namesAfter_name (name : AsciiName) (ends : EndsName r) :
    namesAfter m (m :: (name.text ++ r)) = name.text :: namesAfter m r := by
  obtain ⟨taken, left⟩ := name.takeWhile_append ends
  rw [namesAfter, if_pos rfl, taken, left]
  exact if_neg (by simp [name.text_ne_nil])

end Css

namespace CssPart

variable {r : Text} {m : Char}

theorem endsName_append (p : CssPart) (ends : EndsName r) : EndsName (p.bare ++ r) := by
  cases p with
  | id | ofClass | pseudo | function => exact .cons rfl _
  | attr => exact ends

theorem namesAfter_append (p : CssPart) (other : isAsciiNamePart m = false) (ends : EndsName r) :
    Css.namesAfter m (p.bare ++ r) = (p.named? m).toList ++ Css.namesAfter m r := by
  have labelled : ∀ (mark : Char) (name : AsciiName), Css.namesAfter m (mark :: (name.text ++ r)) =
      (if mark = m then some name.text else none).toList ++ Css.namesAfter m r := by
    intro mark name
    by_cases same : mark = m
    · subst same
      rw [Css.namesAfter_name name ends, if_pos rfl]
      rfl
    · rw [Css.namesAfter_cons same, Css.namesAfter_append (name.notMem other), if_neg same]
      rfl
  cases p with
  | id name => exact labelled '#' name
  | ofClass name => exact labelled '.' name
  | pseudo name => exact labelled ':' name
  | function name => exact labelled ':' name
  | attr => rfl

end CssPart

namespace Css

variable {c : Char} {s r : Text}

theorem attributePairs_nil : attributePairs [] = [] := by
  rw [attributePairs]

theorem attributePairs_cons (other : c ≠ '[') (r : Text) :
    attributePairs (c :: r) = attributePairs r := by
  have noBlock : attributeBlock? (c :: r) = none := by
    rw [attributeBlock?.eq_def]
    split
    next h => exact absurd (List.cons.inj h).1 other
    next => rfl
  rw [attributePairs]
  split
  next block =>
    rw [noBlock] at block
    cases block
  next => rfl

theorem attributePairs_append (other : '[' ∉ s) (r : Text) :
    attributePairs (s ++ r) = attributePairs r := by
  induction s with
  | nil => rfl
  | cons c s ih =>
    rw [List.mem_cons, not_or] at other
    rw [List.cons_append, attributePairs_cons (Ne.symm other.1), ih other.2]

theorem attributeBlock?_append (name : AsciiName) {value : Text} (free : '"' ∉ value) (r : Text) :
    attributeBlock? ('[' :: (name.text ++ '=' :: '"' :: (value ++ '"' :: ']' :: r))) =
      some ((name.text, value), r) := by
  have front : ∀ t, Text.trimStart (name.text ++ t) = name.text ++ t := by
    intro t
    refine Text.trimStart_eq_self fun c hc => ?_
    rw [List.head?_append_of_ne_nil _ name.text_ne_nil] at hc
    exact AsciiName.isBlank_of_mem (List.mem_of_mem_head? hc)
  have run : Text.run? isAttributePart (name.text ++ '=' :: '"' :: (value ++ '"' :: ']' :: r)) =
      some (name.text, '=' :: '"' :: (value ++ '"' :: ']' :: r)) := by
    refine name.run?_append fun c hc => ?_
    obtain rfl := Option.some.inj hc
    rfl
  have quoted : Text.quoted? ('"' :: (value ++ '"' :: ']' :: r)) = some (value, ']' :: r) := by
    rw [Text.quoted?, Text.quotedBy?_append free]
    rfl
  have closed : afterAttribute? (']' :: r) = some r := Text.afterMark?_self rfl r
  have found : attributeValue? ('"' :: (value ++ '"' :: ']' :: r)) = some (value, r) := by
    rw [attributeValue?, quoted]
    simp [closed]
  have operator : (afterOperator? ('=' :: '"' :: (value ++ '"' :: ']' :: r))).bind attributeValue? =
      some (value, r) := by
    rw [afterOperator?, Text.trimStart_cons rfl, Option.bind_some, found]
  rw [attributeBlock?, front, run]
  simp only [bind, Option.bind_some]
  rw [Text.trimStart_cons rfl, operator]

theorem attributePairs_block (name : AsciiName) {value : Text} (free : '"' ∉ value) (r : Text) :
    attributePairs ('[' :: (name.text ++ '=' :: '"' :: (value ++ '"' :: ']' :: r))) =
      (name.text, value) :: attributePairs r := by
  have block := attributeBlock?_append name free r
  rw [attributePairs]
  split
  next found =>
    rw [block] at found
    cases found
    rfl
  next noBlock =>
    rw [block] at noBlock
    cases noBlock

end Css

namespace CssPart

theorem attributePairs_append (p : CssPart) (r : Text) :
    Css.attributePairs (p.text ++ r) = p.attribute?.toList ++ Css.attributePairs r := by
  have word : ∀ (c : Char) (name : AsciiName), c ≠ '[' → ∀ r,
      Css.attributePairs (c :: name.text ++ r) = Css.attributePairs r := by
    intro c name other r
    refine Css.attributePairs_append ?_ r
    rw [List.mem_cons, not_or]
    exact ⟨Ne.symm other, name.notMem rfl⟩
  cases p with
  | id name => exact word '#' name (by decide) r
  | ofClass name => exact word '.' name (by decide) r
  | pseudo name => exact word ':' name (by decide) r
  | function name argument free =>
    have other : '[' ∉ '(' :: (argument ++ [')']) := by
      have own : '[' ∉ argument := notMem_of_isUnmarked free rfl
      simp [own]
    have same : (function name argument free).text ++ r =
        ':' :: name.text ++ ('(' :: (argument ++ [')']) ++ r) := by
      simp [text]
    rw [same, word ':' name (by decide), Css.attributePairs_append other]
    rfl
  | attr name value free whole =>
    have block := Css.attributePairs_block name (notMem_of_isUnmarked free rfl) r
    simpa [text, attribute?] using block

end CssPart

end PageObjects
