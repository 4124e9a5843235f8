import PageObjects.Proofs.Script.Excess
import PageObjects.Proofs.Script.ObjectText
import PageObjects.Proofs.Script.Rendering
import PageObjects.Proofs.Text.Numeral

namespace PageObjects

/-- Identifiers that are literals themselves. -/
def literalWords : List Text := ["true", "false", "null", "undefined"]

inductive Argument where
  | text (value : Text) (plain : '\\' ∉ value)
  | int (value : Int) (short : (Text.ofNat value.natAbs).length ≤ longestNumeral)
  | bool (value : Bool)
  | null
  | name (id : Text) (named : isIdentifier id = true) (free : id ∉ literalWords)
  | array (items : List Argument)

namespace Argument

@[elab_as_elim, induction_eliminator]
theorem ofItems {P : Argument → Prop} (text : ∀ value plain, P (.text value plain))
    (int : ∀ value short, P (.int value short)) (bool : ∀ value, P (.bool value)) (null : P .null)
    (name : ∀ id named free, P (.name id named free))
    (array : ∀ items, (∀ a ∈ items, P a) → P (.array items)) (a : Argument) : P a :=
  @Argument.rec P (fun items => ∀ a ∈ items, P a) text int bool null name array nofun
    (fun _ _ first others => List.forall_mem_cons.mpr ⟨first, others⟩) a

mutual

/-- How an argument is written. -/
def source : Argument → Text
  | .text value _ => quote value
  | .int value _ => Text.ofInt value
  | .bool true => "true"
  | .bool false => "false"
  | .null => "null"
  | .name id _ _ => id
  | .array items => '[' :: Text.joinWith [',', ' '] (sources items) ++ [']']

def sources : List Argument → List Text
  | [] => []
  | a :: rest => a.source :: sources rest

end

mutual

/-- The value that an argument writes. A name counts as its source. -/
def value : Argument → Literal
  | .text value _ => .text value
  | .int value _ => .int value
  | .bool value => .bool value
  | .null => .null
  | .name id _ _ => .text id
  | .array items => .list (values items)

def values : List Argument → List Literal
  | [] => []
  | a :: rest => a.value :: values rest

end

mutual

/-- The names in an argument, at any depth. -/
def names : Argument → List Text
  | .text _ _ => []
  | .int _ _ => []
  | .bool _ => []
  | .null => []
  | .name id _ _ => [id]
  | .array items => namesOf items

def namesOf : List Argument → List Text
  | [] => []
  | a :: rest => a.names ++ namesOf rest

end

mutual

/-- How many arrays stand within each other. -/
def depth : Argument → Nat
  | .text _ _ => 0
  | .int _ _ => 0
  | .bool _ => 0
  | .null => 0
  | .name _ _ _ => 0
  | .array items => depthOf items + 1

def depthOf : List Argument → Nat
  | [] => 0
  | a :: rest => max a.depth (depthOf rest)

end

theorem depth_le_depthOf {a : Argument} {items : List Argument} (h : a ∈ items) :
    a.depth ≤ depthOf items := by
  induction items with
  | nil => cases h
  | cons b rest ih =>
    rw [depthOf]
    rcases List.mem_cons.mp h with rfl | h
    · exact Nat.le_max_left _ _
    · exact (ih h).trans (Nat.le_max_right _ _)

theorem sources_eq (items : List Argument) : sources items = items.map source := by
  induction items with
  | nil => rfl
  | cons a rest ih => rw [sources, ih, List.map_cons]

end Argument

/-- The characters of numbers, words and names. -/
def isUnquotedPart (c : Char) : Bool := isIdentifierPart c || c == '-'

/-- A number, a word or a name: nothing in it quotes, opens, closes or separates. -/
structure IsUnquoted (t : Text) : Prop where
  filled : t ≠ []
  parts : ∀ c ∈ t, isUnquotedPart c = true

namespace IsUnquoted

variable {t : Text}

theorem isInert (h : IsUnquoted t) : ∀ c ∈ t, IsInert c := by
  intro c hc
  have part := h.parts c hc
  refine ⟨isPlain_of_class (by decide) part, ?_, ?_⟩
  · refine Bool.eq_false_iff.mpr fun comma => ?_
    obtain rfl := eq_of_isComma comma
    cases part
  · refine Bool.eq_false_iff.mpr fun colon => ?_
    obtain rfl := eq_of_isColon colon
    cases part

theorem trim_eq (h : IsUnquoted t) : Text.trim t = t :=
  Text.trim_of_words fun c hc =>
    isBlank_of_class (p := isUnquotedPart) (by decide +kernel) (h.parts c hc)

theorem isPart {sep : Char → Bool} (h : IsUnquoted t) (inert : ∀ {c}, IsInert c → sep c = false) :
    IsPart sep t :=
  ⟨.of_plain (fun c hc => (h.isInert c hc).toIsPlain) fun c hc => inert (h.isInert c hc),
    h.trim_eq, h.filled⟩

theorem balanced (h : IsUnquoted t) : Balanced t :=
  balanced_of_plain fun c hc => (h.isInert c hc).toIsPlain

theorem of_isIdentifier (named : isIdentifier t = true) : IsUnquoted t := by
  refine ⟨?_, fun c hc => ?_⟩
  · rintro rfl
    cases named
  · rw [isUnquotedPart, isIdentifierPart_of_mem named c hc, Bool.true_or]

theorem ofInt (n : Int) : IsUnquoted (Text.ofInt n) := by
  have digits : ∀ c ∈ Text.ofNat n.natAbs, isUnquotedPart c = true := by
    intro c hc
    have part := isIdentifierPart_of_isWord (isWord_of_isDigit (Text.isDigit_of_mem_ofNat hc))
    rw [isUnquotedPart, part, Bool.true_or]
  rw [Text.ofInt]
  split
  next => exact ⟨List.cons_ne_nil _ _, List.forall_mem_cons.mpr ⟨rfl, digits⟩⟩
  next => exact ⟨Text.ofNat_ne_nil _, digits⟩

theorem isSingleString_eq (h : IsUnquoted t) : Literal.isSingleString t = false := by
  obtain ⟨c, r, rfl⟩ := List.exists_cons_of_ne_nil h.filled
  rw [Literal.isSingleString, (h.isInert c List.mem_cons_self).quote]
  rfl

end IsUnquoted

theorem balanced_quote (v : Text) : Balanced (quote v) :=
  balanced_iff.mpr ⟨settled_quote v, avoids_quote _ _ v⟩

namespace Argument

theorem source_array (items : List Argument) : (array items).source =
    '[' :: Text.joinWith [',', ' '] (items.map source) ++ [']'] := by
  rw [source, sources_eq]

theorem isUnquoted_bool (value : Bool) : IsUnquoted (bool value).source := by
  cases value with
  | true => exact .of_isIdentifier rfl
  | false => exact .of_isIdentifier rfl

theorem isUnquoted_null : IsUnquoted null.source := .of_isIdentifier rfl

theorem balanced_source (a : Argument) : Balanced a.source := by
  induction a with
  | text value => exact balanced_quote value
  | int value => exact (IsUnquoted.ofInt value).balanced
  | bool value => exact (isUnquoted_bool value).balanced
  | null => exact isUnquoted_null.balanced
  | name id named => exact (IsUnquoted.of_isIdentifier named).balanced
  | array items ih =>
    rw [source_array]
    exact (balanced_joinWith (List.forall_mem_map.mpr ih)).bracketed rfl rfl

theorem trim_array (items : List Argument) :
    Text.trim (array items).source = (array items).source := by
  rw [source_array]
  exact Text.trim_between (s := ['[']) (t := [']']) rfl (List.cons_ne_nil _ _) rfl
    (List.cons_ne_nil _ _) _

/-- Separators stand between arguments, and in their strings and brackets. -/
theorem isPart_source {sep : Char → Bool} (inert : ∀ {c}, IsInert c → sep c = false)
    (a : Argument) : IsPart sep a.source := by
  cases a with
  | text value =>
    exact ⟨⟨settled_quote value, avoids_quote _ _ value⟩, Literal.trim_quote value,
      List.cons_ne_nil _ _⟩
  | int value => exact (IsUnquoted.ofInt value).isPart inert
  | bool value => exact (isUnquoted_bool value).isPart inert
  | null => exact isUnquoted_null.isPart inert
  | name id named => exact (IsUnquoted.of_isIdentifier named).isPart inert
  | array items =>
    have inner : Balanced (Text.joinWith [',', ' '] (items.map source)) :=
      balanced_joinWith (List.forall_mem_map.mpr fun a _ => balanced_source a)
    have solid : Solid sep (array items).source := by
      rw [source_array]
      exact .bracketed rfl rfl inner
    exact ⟨solid, trim_array items, List.cons_ne_nil _ _⟩

theorem isPart_comma (a : Argument) : IsPart isComma a.source := a.isPart_source (·.comma)

theorem isPart_colon (a : Argument) : IsPart isColon a.source := a.isPart_source (·.colon)

theorem splitArguments_sources (items : List Argument) :
    splitArguments (Text.joinWith [',', ' '] (items.map source)) = items.map source :=
  splitArguments_joinWith (List.forall_mem_map.mpr fun a _ => a.isPart_comma)

end Argument

namespace Literal

variable {t : Text}

theorem read?_of_scalar? {value : Literal} (trimmed : Text.trim t = t)
    (h : scalar? t = some value) : read? t = some value := by
  rw [read?, trimmed, h]
  split
  next => rfl
  next => rfl

theorem number?_of_digits (filled : t ≠ []) (digits : ∀ c ∈ t, isDecimal c = true)
    (short : t.length ≤ longestNumeral) :
    number? t = some (.int (Text.toNat t)) ∧
      number? ('-' :: t) = some (.int (-(Text.toNat t))) := by
  have natural := Text.natural?_of_length_le short
  have taken : t.takeWhile isDecimal = t := List.takeWhile_eq_self_iff.mpr digits
  have left : t.dropWhile isDecimal = [] := List.dropWhile_eq_nil_iff.mpr digits
  have nonempty : t.isEmpty = false := by simpa using filled
  constructor
  · rw [number?.eq_def]
    split
    next sign body h =>
      split at h
      next => exact absurd (digits '-' List.mem_cons_self) (by decide)
      next =>
        obtain ⟨rfl, rfl⟩ := Prod.mk.inj h
        simp only [taken, left, nonempty, natural]
        rfl
  · rw [number?.eq_def]
    simp only [taken, left, nonempty, natural]
    rfl

theorem number?_ofInt {n : Int} (short : (Text.ofNat n.natAbs).length ≤ longestNumeral) :
    number? (Text.ofInt n) = some (.int n) := by
  obtain ⟨positive, negative⟩ := number?_of_digits (Text.ofNat_ne_nil n.natAbs)
    (fun _ => Text.isDecimal_of_mem_ofNat) short
  rw [Text.toNat_ofNat] at positive negative
  rw [Text.ofInt]
  split
  next below =>
    rw [negative]
    congr 2
    omega
  next above =>
    rw [positive]
    congr 2
    omega

theorem scalar?_ofInt {n : Int} (short : (Text.ofNat n.natAbs).length ≤ longestNumeral) :
    scalar? (Text.ofInt n) = some (.int n) := by
  rw [scalar?, (IsUnquoted.ofInt n).isSingleString_eq, number?_ofInt short]
  rfl

/-- A text that starts with no digit and no sign is no number. -/
theorem number?_eq_none (front : ∀ c ∈ t.head?, isDecimal c = false ∧ c ≠ '-') :
    number? t = none := by
  have start : ∀ c ∈ t.head?, isDecimal c = false := fun c hc => (front c hc).1
  have nothing : t.takeWhile isDecimal = [] := by
    cases t with
    | nil => rfl
    | cons c r => exact List.takeWhile_cons_of_neg (by simp [start c rfl])
  rw [number?.eq_def]
  split
  next sign body h =>
    split at h
    next => exact absurd rfl (front '-' rfl).2
    next =>
      obtain ⟨rfl, rfl⟩ := Prod.mk.inj h
      rw [nothing]
      rfl

theorem isDecimal_of_start {c : Char} (h : isIdentifierStart c = true) :
    isDecimal c = false ∧ c ≠ '-' := by
  simp only [isIdentifierStart, Bool.or_eq_true, beq_iff_eq] at h
  rcases h with (letter | rfl) | rfl
  · refine ⟨Bool.eq_false_iff.mpr fun digit => not_isAlpha_of_isDecimal digit letter, ?_⟩
    rintro rfl
    cases letter
  · exact ⟨rfl, by decide⟩
  · exact ⟨rfl, by decide⟩

theorem numberExcess?_of_length_le (short : (Text.dropPrefix ['-'] t).length ≤ longestNumeral) :
    numberExcess? t = none := by
  rw [numberExcess?, Text.digitExcess?_of_length_le short]
  split
  next => rfl
  next => rfl

theorem numberExcess?_ofInt {n : Int} (short : (Text.ofNat n.natAbs).length ≤ longestNumeral) :
    numberExcess? (Text.ofInt n) = none := by
  refine numberExcess?_of_length_le ?_
  rw [Text.ofInt]
  split
  next =>
    have signed : Text.dropPrefix? ['-'] ('-' :: Text.ofNat n.natAbs) =
        some (Text.ofNat n.natAbs) :=
      Text.dropPrefix?_append ['-'] _
    rw [Text.dropPrefix, signed]
    exact short
  next => exact (Text.length_dropPrefix_le _ _).trans short

theorem numberExcess?_eq_none (front : ∀ c ∈ t.head?, isDecimal c = false ∧ c ≠ '-') :
    numberExcess? t = none := by
  cases t with
  | nil => rfl
  | cons c r =>
    obtain ⟨noDigit, unsigned⟩ := front c rfl
    have whole : Text.dropPrefix ['-'] (c :: r) = c :: r := by
      rcases Text.dropPrefix_cases ['-'] (c :: r) with same | signed
      · exact same
      · exact absurd (List.cons.inj signed).1 unsigned
    rw [numberExcess?, whole, List.all_cons, noDigit]
    rfl

theorem arrayItems?_eq_none (front : ∀ c ∈ t.head?, c ≠ '[') : arrayItems? t = none := by
  rw [arrayItems?.eq_def]
  split
  next => exact absurd rfl (front '[' rfl)
  next => rfl

theorem excess?_of_flat (trimmed : Text.trim t = t) (number : numberExcess? t = none)
    (flat : arrayItems? t = none) (room : Nat) : excess? (room + 1) t = none := by
  rw [excess?, trimmed, number, flat]
  split
  next => rfl
  next => rfl

/-- A name is no literal unless it is one of the words that are. -/
theorem read?_eq_none_of_isIdentifier (named : isIdentifier t = true) (free : t ∉ literalWords) :
    read? t = none := by
  have unquoted := IsUnquoted.of_isIdentifier named
  obtain ⟨c, r, rfl⟩ := exists_cons_of_isIdentifier named
  have start : isIdentifierStart c = true := ((Bool.and_eq_true _ _).mp named).1
  have number : number? (c :: r) = none := number?_eq_none fun d hd =>
    Option.some.inj hd ▸ isDecimal_of_start start
  have pattern : patternParts? (c :: r) = none := by
    rw [patternParts?.eq_def]
    split
    next h =>
      obtain ⟨rfl, -⟩ := List.cons.inj h
      cases start
    next => rfl
  have items : arrayItems? (c :: r) = none := by
    refine arrayItems?_eq_none fun d hd bracket => ?_
    obtain rfl := bracket ▸ Option.some.inj hd
    cases start
  simp only [literalWords, List.mem_cons, List.not_mem_nil, or_false, not_or] at free
  obtain ⟨isTrue, isFalse, isNull, isUndefined⟩ := free
  have scalar : scalar? (c :: r) = none := by
    rw [scalar?, unquoted.isSingleString_eq, number, if_neg Bool.false_ne_true]
    dsimp only
    rw [if_neg isTrue, if_neg isFalse, if_neg (not_or.mpr ⟨isNull, isUndefined⟩), pattern]
    rfl
  rw [read?, unquoted.trim_eq, unquoted.isSingleString_eq, scalar]
  simp only [Bool.false_eq_true, if_false]
  split
  next => rfl
  next bracketed =>
    rw [items] at bracketed
    cases bracketed

theorem excess?_of_isIdentifier (named : isIdentifier t = true) (room : Nat) :
    excess? (room + 1) t = none := by
  have unquoted := IsUnquoted.of_isIdentifier named
  have start : ∀ c ∈ t.head?, isIdentifierStart c = true := by
    obtain ⟨c, r, rfl⟩ := exists_cons_of_isIdentifier named
    exact fun d hd => Option.some.inj hd ▸ ((Bool.and_eq_true _ _).mp named).1
  refine excess?_of_flat unquoted.trim_eq ?_ ?_ room
  · exact numberExcess?_eq_none fun c hc => isDecimal_of_start (start c hc)
  · exact arrayItems?_eq_none fun c hc bracket =>
      absurd (start c hc) (by rw [bracket]; decide)

theorem read?_quote_of_plain {v : Text} (plain : '\\' ∉ v) : read? (quote v) = some (.text v) := by
  rw [read?_quote, unescape_flatMap_escapeChar, Text.replacePair_of_notMem plain]

theorem arrayItems?_brackets (inner : Text) :
    arrayItems? ('[' :: inner ++ [']']) = some (splitArguments inner) := by
  rw [List.cons_append, arrayItems?, if_pos List.getLast?_concat, List.dropLast_concat]

/-- An array is read item by item. -/
theorem read?_array {inner : Text}
    (trimmed : Text.trim ('[' :: inner ++ [']']) = '[' :: inner ++ [']']) :
    read? ('[' :: inner ++ [']']) = ((splitArguments inner).mapM read?).map .list := by
  have single : isSingleString ('[' :: inner ++ [']']) = false := rfl
  have scalar : scalar? ('[' :: inner ++ [']']) = none := by
    rw [scalar?, single]
    rfl
  rw [read?, trimmed, single, scalar]
  simp only [Bool.false_eq_true, if_false]
  split
  next unbracketed =>
    rw [arrayItems?_brackets] at unbracketed
    cases unbracketed
  next found bracketed =>
    rw [arrayItems?_brackets] at bracketed
    obtain rfl := Option.some.inj bracketed
    rw [List.mapM_subtype (g := read?) fun _ _ => rfl, List.unattach_attach]

theorem firstExcess?_eq_none {excess? : Text → Option Excess} {items : List Text}
    (h : ∀ item ∈ items, excess? item = none) : firstExcess? excess? items = none := by
  refine Option.eq_none_iff_forall_ne_some.mpr fun e first => ?_
  obtain ⟨item, there, own⟩ := exists_of_firstExcess? first
  rw [h item there] at own
  cases own

theorem excess?_array {inner : Text}
    (trimmed : Text.trim ('[' :: inner ++ [']']) = '[' :: inner ++ [']']) {room : Nat}
    (fits : ∀ item ∈ splitArguments inner, excess? room item = none) :
    excess? (room + 1) ('[' :: inner ++ [']']) = none := by
  have number : numberExcess? ('[' :: inner ++ [']']) = none := by
    refine numberExcess?_eq_none fun c hc => ?_
    obtain rfl := Option.some.inj hc
    exact ⟨rfl, by decide⟩
  rw [excess?, trimmed, number, arrayItems?_brackets, Option.bind_some, firstExcess?_eq_none fits]
  split
  next => rfl
  next => rfl

end Literal

namespace Argument

/-- Items are all literals if there is no name in them, and then they are read as their values. -/
theorem mapM_read?_sources {items : List Argument}
    (own : ∀ a ∈ items, Literal.read? a.source = if a.names.isEmpty then some a.value else none) :
    (items.map source).mapM Literal.read? =
      if (namesOf items).isEmpty then some (values items) else none := by
  induction items with
  | nil => rfl
  | cons a rest ih =>
    obtain ⟨first, own⟩ := List.forall_mem_cons.mp own
    rw [List.map_cons, List.mapM_cons, first, ih own, namesOf, values]
    cases a.names with
    | cons id ids => rfl
    | nil =>
      cases namesOf rest with
      | cons id ids => rfl
      | nil => rfl

/-- An argument is read as its value if it holds no name, and else it is no literal. -/
theorem read?_source (a : Argument) :
    Literal.read? a.source = if a.names.isEmpty then some a.value else none := by
  induction a with
  | text value plain => exact Literal.read?_quote_of_plain plain
  | int value short =>
    exact Literal.read?_of_scalar? (IsUnquoted.ofInt value).trim_eq (Literal.scalar?_ofInt short)
  | bool value =>
    refine Literal.read?_of_scalar? (isUnquoted_bool value).trim_eq ?_
    cases value with
    | true => rfl
    | false => rfl
  | null => exact Literal.read?_of_scalar? isUnquoted_null.trim_eq rfl
  | name id named free => exact Literal.read?_eq_none_of_isIdentifier named free
  | array items ih =>
    have trimmed := trim_array items
    rw [source_array] at trimmed
    rw [source_array, Literal.read?_array trimmed, splitArguments_sources, mapM_read?_sources ih,
      names, value]
    split
    next => rfl
    next => rfl

theorem read?_source_of_literal {a : Argument} (literal : a.names = []) :
    Literal.read? a.source = some a.value := by
  rw [read?_source, literal]
  rfl

/-- Nothing is too much about an argument with room for its arrays. -/
theorem excess?_source (a : Argument) {room : Nat} (deep : a.depth < room) :
    Literal.excess? room a.source = none := by
  obtain ⟨room, rfl⟩ : ∃ n, room = n + 1 := ⟨room - 1, by omega⟩
  induction a generalizing room with
  | text value =>
    refine Literal.excess?_of_flat (Literal.trim_quote value) ?_ rfl room
    exact Literal.numberExcess?_eq_none fun c hc => Option.some.inj hc ▸ ⟨rfl, by decide⟩
  | int value short =>
    have unquoted := IsUnquoted.ofInt value
    refine Literal.excess?_of_flat unquoted.trim_eq (Literal.numberExcess?_ofInt short) ?_ room
    exact Literal.arrayItems?_eq_none fun c hc bracket =>
      absurd (unquoted.parts c (List.mem_of_mem_head? hc)) (by rw [bracket]; decide)
  | bool value =>
    cases value with
    | true => exact Literal.excess?_of_isIdentifier rfl room
    | false => exact Literal.excess?_of_isIdentifier rfl room
  | null => exact Literal.excess?_of_isIdentifier rfl room
  | name id named => exact Literal.excess?_of_isIdentifier named room
  | array items ih =>
    have trimmed := trim_array items
    rw [source_array] at trimmed
    rw [source_array]
    refine Literal.excess?_array trimmed fun item hitem => ?_
    rw [splitArguments_sources] at hitem
    obtain ⟨a, ha, rfl⟩ := List.mem_map.mp hitem
    have lower := depth_le_depthOf ha
    rw [depth] at deep
    obtain ⟨more, rfl⟩ : ∃ n, room = n + 1 := ⟨room - 1, by omega⟩
    exact ih a ha more (by omega)

end Argument

/-- An object as it is written. -/
def objectSource (entries : List (Text × Argument)) : Text :=
  objectText (entries.map fun entry => entryText entry.1 entry.2.source)

section Object

variable {key : Text} {entries : List (Text × Argument)}

theorem stripWhile_isKeyQuote (named : isIdentifier key = true) :
    Text.stripWhile Literal.isKeyQuote key = key := by
  have noQuote : ∀ c ∈ key, Literal.isKeyQuote c = false := by
    intro c hc
    have plain := ((IsUnquoted.of_isIdentifier named).isInert c hc).quote
    simp only [isQuote, Bool.or_eq_false_iff] at plain
    simp [Literal.isKeyQuote, plain]
  exact Text.stripWhile_eq_self (fun c hc => noQuote c (List.mem_of_mem_head? hc))
    fun c hc => noQuote c (List.mem_of_getLast? hc)

/-- The entries of an object are set one after another. -/
theorem foldl_takeEntry (named : ∀ entry ∈ entries, isIdentifier entry.1 = true)
    (literal : ∀ entry ∈ entries, entry.2.names = []) (before : List (Text × Literal)) :
    (entries.map fun entry => entryText entry.1 entry.2.source).foldl takeEntry before =
      setEntries before (entries.map fun entry => (entry.1, entry.2.value)) := by
  induction entries generalizing before with
  | nil => rfl
  | cons entry rest ih =>
    obtain ⟨first, named⟩ := List.forall_mem_cons.mp named
    obtain ⟨own, literal⟩ := List.forall_mem_cons.mp literal
    have parts := entryParts?_entryText ((IsUnquoted.of_isIdentifier first).isPart (·.colon))
      (stripWhile_isKeyQuote first) entry.2.isPart_colon
    rw [List.map_cons, List.foldl_cons, ih named literal, takeEntry, parts]
    dsimp only
    rw [Argument.read?_source_of_literal own]
    rfl

/-- An object is read as its entries if their keys are distinct. -/
theorem objectEntries_objectSource (distinct : (entries.map Prod.fst).Nodup)
    (named : ∀ entry ∈ entries, isIdentifier entry.1 = true)
    (literal : ∀ entry ∈ entries, entry.2.names = []) :
    Literal.objectEntries (objectSource entries) =
      entries.map fun entry => (entry.1, entry.2.value) := by
  have parts : ∀ e ∈ entries.map fun entry => entryText entry.1 entry.2.source, IsPart isComma e :=
    List.forall_mem_map.mpr fun entry he =>
      isPart_entryText ((IsUnquoted.of_isIdentifier (named entry he)).isPart (·.comma))
        entry.2.isPart_comma
  have keys : ((entries.map fun entry => (entry.1, entry.2.value)).map Prod.fst).Nodup := by
    rwa [List.map_map]
  rw [objectSource, objectEntries_objectText parts, foldl_takeEntry named literal,
    setEntries_of_nodup keys, List.nil_append]

end Object

/-- Reading inverts writing at every depth: an argument without names is read as its value, an array
with a name in it is no literal, and an object with distinct keys is read as its entries. Nothing is
too much about an argument as long as the stack has room for its depth. -/
theorem nested_readBack :
    (∀ a : Argument, a.names = [] → Literal.read? a.source = some a.value) ∧
      (∀ items : List Argument, (Argument.array items).names ≠ [] →
        Literal.read? (Argument.array items).source = none) ∧
      (∀ entries : List (Text × Argument), (entries.map Prod.fst).Nodup →
        (∀ entry ∈ entries, isIdentifier entry.1 = true) →
        (∀ entry ∈ entries, entry.2.names = []) →
        Literal.objectEntries (objectSource entries) =
          entries.map fun entry => (entry.1, entry.2.value)) ∧
      ∀ a : Argument, a.depth < stackRoom → Literal.excess? stackRoom a.source = none := by
  refine ⟨?_, ?_, ?_, ?_⟩
  · intro a literal
    exact Argument.read?_source_of_literal literal
  · intro items named
    rw [Argument.read?_source, if_neg (by simpa using named)]
  · intro entries distinct named literal
    exact objectEntries_objectSource distinct named literal
  · intro a deep
    exact Argument.excess?_source a deep

/-- An array with arrays in it. -/
def nestedCounts : Argument :=
  .array [.int (-12) (by decide), .array [], .array [.null, .bool true]]

/-- Options with all delimiters in a text, and with arrays in an array. -/
def nestedOptions : List (Text × Argument) := [
  ("name", .text "it's [a, b]: \"c\"" (by decide)), ("counts", nestedCounts)]

/-- An array with a name in its second item. -/
def labelledItems : List Argument := [
  .text "a" (by decide), .array [.name "label" (by decide) (by decide)]]

theorem nested_readBack_options :
    Literal.read? "[-12, [], [null, true]]" =
        some (.list [.int (-12), .list [], .list [.null, .bool true]]) ∧
      Literal.excess? stackRoom "[-12, [], [null, true]]" = none ∧
      Literal.read? "['a', [label]]" = none ∧
      Literal.objectEntries
          "\x7b name: 'it\\'s [a, b]: \"c\"', counts: [-12, [], [null, true]] \x7d" =
        ([("name", .text "it's [a, b]: \"c\""),
          ("counts", .list [.int (-12), .list [], .list [.null, .bool true]])] :
            List (Text × Literal)) := by
  obtain ⟨values, names, objects, fits⟩ := nested_readBack
  refine ⟨?_, ?_, ?_, ?_⟩
  · exact values nestedCounts rfl
  · have shallow := fits nestedCounts (by decide)
    have source : nestedCounts.source = "[-12, [], [null, true]]" := rfl
    rwa [source] at shallow
  · exact names labelledItems (by decide)
  · exact objects nestedOptions (by decide) (by decide) (by decide)

end PageObjects
