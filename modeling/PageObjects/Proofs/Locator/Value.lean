import PageObjects.Locator.Normal
import PageObjects.Proofs.Script.ObjectText
import PageObjects.Proofs.Script.Snug

namespace PageObjects

open Text

/-- A key without the quotes around it. -/
def bareKey (key : Text) : Text := stripWhile Literal.isKeyQuote (trim key)

/-- The normal form of an entry of an object literal. -/
def normalizeEntry (entry : Text) : Text :=
  match splitTopLevel isColon entry with
  | key :: v :: vs => bareKey key ++ ':' :: ' ' :: normalizeValue (joinWith [':'] (v :: vs))
  | _ => trim entry

theorem normalizeValue_of_braced {raw inside : Text}
    (h : bracedInside? (squeeze raw) = some inside) :
    normalizeValue raw = objectText ((splitArguments inside).map normalizeEntry) := by
  rw [normalizeValue]
  split
  next i hi =>
    obtain rfl := Option.some.inj (h.symm.trans hi)
    rw [objectText_eq]
    refine congrArg (fun entries : List Text => if entries.isEmpty then ['{', '}']
      else '{' :: ' ' :: joinWith [',', ' '] entries ++ [' ', '}']) ?_
    rw [← List.attach_map_val (f := normalizeEntry)]
    refine List.map_congr_left fun entry _ => ?_
    rw [normalizeEntry]
    split
    next key v vs parts =>
      rw [parts]
      rfl
    next other =>
      split
      next key v vs parts => exact absurd parts (other key v vs)
      next => rfl
  next noBraces =>
    rw [h] at noBraces
    cases noBraces

theorem normalizeValue_of_string {raw value : Text} (unbraced : bracedInside? (squeeze raw) = none)
    (h : Literal.string? (squeeze raw) = some value) (other : (squeeze raw).head? ≠ some '/') :
    normalizeValue raw = quote value := by
  rw [normalizeValue]
  split
  next i hi =>
    rw [unbraced] at hi
    cases hi
  next => rw [h]; exact if_neg other

theorem normalizeValue_of_other {raw : Text} (unbraced : bracedInside? (squeeze raw) = none)
    (h : Literal.string? (squeeze raw) = none ∨ (squeeze raw).head? = some '/') :
    normalizeValue raw = squeeze raw := by
  rw [normalizeValue]
  split
  next i hi =>
    rw [unbraced] at hi
    cases hi
  next =>
    rcases h with h | h
    · rw [h]
    · split
      next => exact if_pos h
      next => rfl

/-- A neat text that is no object literal is kept, or it is a string and quoted anew. -/
theorem normalizeValue_of_open {t : Text} (neat : Neat t)
    (unbraced : bracedInside? (squeeze t) = none) : normalizeValue t = t ∨
      normalizeValue t = quote (Literal.unescape (t.drop 1).dropLast) := by
  have squeezed := neat.squeeze_eq
  by_cases other : Literal.string? t = none ∨ t.head? = some '/'
  · left
    rw [← squeezed] at other
    rw [normalizeValue_of_other unbraced other, squeezed]
  · right
    rw [not_or] at other
    obtain ⟨value, hv⟩ := Option.ne_none_iff_exists'.mp other.1
    rcases Literal.cases_of_string? neat.trim_eq hv with slash | ⟨-, same⟩
    · exact absurd slash other.2
    · have read : Literal.string? (squeeze t) = some value := by rw [squeezed, hv]
      rw [normalizeValue_of_string unbraced read (squeezed.symm ▸ other.2), same]

theorem eq_of_bracedInside? {t inside : Text} (h : bracedInside? t = some inside) :
    t = '{' :: inside ++ ['}'] := by
  rw [bracedInside?.eq_def] at h
  split at h
  next r =>
    split at h
    next last =>
      obtain rfl := Option.some.inj h
      obtain ⟨s, rfl⟩ := List.getLast?_eq_some_iff.mp last
      rw [List.dropLast_concat]
      rfl
    next => cases h
  next => cases h

theorem bracedInside?_braces (inside : Text) :
    bracedInside? ('{' :: inside ++ ['}']) = some inside := by
  rw [List.cons_append, bracedInside?, if_pos List.getLast?_concat, List.dropLast_concat]

theorem Settled.of_braces {t : Text} (h : Settled ('{' :: t ++ ['}'])) : Settled t := by
  have opened : Region.code.next '{' = .code := rfl
  have up : codeStep .code '{' = 1 := rfl
  have down : codeStep .code '}' = -1 := rfl
  have outside := h.outside
  have even := h.even
  have start : Region.code.Real := trivial
  rw [List.cons_append, Region.after_cons, opened, Region.after_append] at outside
  have code : Region.code.after t = .code := (start.after t).eq_code_of_next rfl outside
  rw [bracketDelta, List.cons_append, sumCode_bracketStep_cons, opened, sumCode_append, code,
    sumCode_bracketStep_cons, sumCode_nil, up, down] at even
  exact ⟨code, by rw [bracketDelta]; omega⟩

/-- An option of an object literal: its key and the parts of its value. -/
def HasOption (raw key : Text) (values : List Text) : Prop :=
  values ≠ [] ∧ ∃ inside entry, bracedInside? (squeeze raw) = some inside ∧
    entry ∈ splitArguments inside ∧ splitTopLevel isColon entry = key :: values

/-- What holds of each option of a value, on all levels. -/
inductive EachOption (P : Text → List Text → Prop) : Text → Prop where
  | intro {raw : Text} (keys : ∀ key values, HasOption raw key values → P key values)
      (values : ∀ key values, HasOption raw key values → EachOption P (joinWith [':'] values)) :
      EachOption P raw

/-- The options of an object literal, with the parts of their values. -/
def optionsOf (raw : Text) : List (Text × List Text) :=
  match bracedInside? (squeeze raw) with
  | none => []
  | some inside => (splitArguments inside).filterMap fun entry =>
    match splitTopLevel isColon entry with
    | key :: v :: vs => some (key, v :: vs)
    | _ => none

theorem HasOption.mem_optionsOf {raw key : Text} {values : List Text}
    (h : HasOption raw key values) : (key, values) ∈ optionsOf raw := by
  obtain ⟨filled, inside, entry, hi, he, cut⟩ := h
  obtain ⟨v, vs, rfl⟩ := List.exists_cons_of_ne_nil filled
  rw [optionsOf, hi]
  exact List.mem_filterMap.mpr ⟨entry, he, by rw [cut]⟩

theorem EachOption.of_optionsOf {P : Text → List Text → Prop} {raw : Text}
    (h : ∀ o ∈ optionsOf raw, P o.1 o.2 ∧ EachOption P (joinWith [':'] o.2)) : EachOption P raw :=
  .intro (fun key values own => (h (key, values) own.mem_optionsOf).1)
    fun key values own => (h (key, values) own.mem_optionsOf).2

/-- A key in quotes in which nothing else is quoted, opened, closed or separated. -/
def IsInertKey (key : Text) (_ : List Text) : Prop :=
  bareKey key ≠ key → ∀ c ∈ bareKey key, IsInert c

instance (key : Text) (values : List Text) : Decidable (IsInertKey key values) :=
  decidable_of_iff (bareKey key ≠ key → (bareKey key).all (fun c => decide (IsInert c)) = true)
    (imp_congr_right fun _ => by simp [List.all_eq_true])

/-- A key that loses nothing but its quotes with them: what they enclose is inert, it is trimmed,
and only before a value in one part it may be empty. -/
structure FreeKey (key : Text) (values : List Text) : Prop where
  inert : IsInertKey key values
  trimmed : trim (bareKey key) = bareKey key
  single : bareKey key = [] → values.length = 1

instance (key : Text) (values : List Text) : Decidable (FreeKey key values) :=
  decidable_of_iff (IsInertKey key values ∧ trim (bareKey key) = bareKey key ∧
      (bareKey key = [] → values.length = 1))
    ⟨fun ⟨inert, trimmed, single⟩ => ⟨inert, trimmed, single⟩,
      fun h => ⟨h.inert, h.trimmed, h.single⟩⟩

/-- All keys of a value can do without their quotes. -/
abbrev FreeKeys : Text → Prop := EachOption FreeKey

/-- A value as it stands in a neat script: neat, and closing what it opens. -/
structure IsValue (t : Text) : Prop extends Neat t, Settled t

namespace FreeKey

variable {key : Text} {values : List Text}

theorem settled (h : FreeKey key values) (own : Settled key) : Settled (bareKey key) := by
  by_cases same : bareKey key = key
  · rwa [same]
  · exact .of_plain fun c hc => (h.inert same c hc).toIsPlain

theorem partwise {n d : Int} {Q : Int → Text → Prop} (h : FreeKey key values)
    (parts : Partwise n Q) (hd : n ≤ d) (own : Q d key) : Q d (bareKey key) := by
  by_cases same : bareKey key = key
  · rwa [same]
  · exact parts.inert hd (h.inert same)

theorem isPart (h : FreeKey key values) (own : IsPart isColon key) (filled : bareKey key ≠ []) :
    IsPart isColon (bareKey key) := by
  by_cases same : bareKey key = key
  · rwa [same]
  · have inert := h.inert same
    exact ⟨.of_plain (fun c hc => (inert c hc).toIsPlain) fun c hc => (inert c hc).colon,
      h.trimmed, filled⟩

theorem neat (h : FreeKey key values) (own : Neat key) (filled : bareKey key ≠ []) :
    Neat (bareKey key) := by
  have part : bareKey key <:+: key := (infix_stripWhile _).trans (infix_trim key)
  have tidy := own.toTidy.mono part
  have neat := @Tidy.neat_trim (bareKey key) tidy
  rw [h.trimmed] at neat
  exact neat filled

theorem bareKey_bareKey (h : FreeKey key values) : bareKey (bareKey key) = bareKey key := by
  rw [bareKey, h.trimmed, bareKey, stripWhile_stripWhile]

end FreeKey

section Entries

variable {t inside entry key : Text} {values : List Text}

theorem isValue_of_mem_splitTopLevel {sep : Char → Bool} {p : Text} (tidy : Tidy t)
    (settled : Settled t) (hp : p ∈ splitTopLevel sep t) : IsValue p :=
  ⟨neat_of_mem_splitTopLevel settled tidy hp, (isPart_of_mem_splitTopLevel settled hp).toSettled⟩

/-- Values that are joined by colons are a value. -/
theorem isValue_joinWith (filled : values ≠ []) (h : ∀ v ∈ values, IsValue v) :
    IsValue (joinWith [':'] values) := by
  have colon : Neat [':'] := .singleton rfl
  refine joinWith_induction (fun s t hs ht => ?_) filled h
  exact ⟨(hs.toNeat.append colon).append ht.toNeat,
    (hs.toSettled.append (.singleton isPlain_colon)).append ht.toSettled⟩

theorem IsValue.within (h : IsValue t) (hi : bracedInside? (squeeze t) = some inside) :
    t = '{' :: inside ++ ['}'] ∧ Tidy inside ∧ Settled inside := by
  rw [h.toNeat.squeeze_eq] at hi
  have whole := eq_of_bracedInside? hi
  refine ⟨whole, h.toTidy.mono ⟨['{'], ['}'], ?_⟩, ?_⟩
  · rw [whole]
    rfl
  · exact Settled.of_braces (whole ▸ h.toSettled)

/-- The key of an option and its values are parts of a value, and so is the whole value. -/
theorem IsValue.option (h : IsValue t) (own : HasOption t key values) :
    (IsPart isColon key ∧ IsValue key) ∧ (∀ v ∈ values, IsPart isColon v) ∧
      IsValue (joinWith [':'] values) := by
  obtain ⟨braced, inside, entry, hi, he, parts⟩ := own
  obtain ⟨-, tidy, settled⟩ := h.within hi
  have value := isValue_of_mem_splitTopLevel tidy settled he
  have cut : ∀ p ∈ key :: values, IsPart isColon p ∧ IsValue p := by
    intro p hp
    rw [← parts] at hp
    exact ⟨isPart_of_mem_splitTopLevel value.toSettled hp,
      isValue_of_mem_splitTopLevel value.toTidy value.toSettled hp⟩
  obtain ⟨first, rest⟩ := List.forall_mem_cons.mp cut
  exact ⟨first, fun v hv => (rest v hv).1, isValue_joinWith braced fun v hv => (rest v hv).2⟩

/-- An entry is an option in normal form, or it is kept. -/
theorem normalizeEntry_cases (entry : Text) :
    normalizeEntry entry = trim entry ∨ ∃ key values, values ≠ [] ∧
      splitTopLevel isColon entry = key :: values ∧
      normalizeEntry entry = bareKey key ++ ':' :: ' ' :: normalizeValue (joinWith [':'] values) := by
  rw [normalizeEntry]
  split
  next key v vs parts => exact .inr ⟨key, v :: vs, List.cons_ne_nil v vs, parts, rfl⟩
  next => exact .inl rfl

end Entries

section Inherited

variable {n d : Int} {Q : Int → Text → Prop} (h : Partwise n Q)

include h

theorem Partwise.option (hd : n ≤ d) {key value : Text} (settled : Settled key)
    (own : Q d key) (mark : Q d [':']) (rest : Settled value) (later : Q d value) :
    Settled (key ++ ':' :: ' ' :: value) ∧ Q d (key ++ ':' :: ' ' :: value) := by
  have colon : Settled [':'] := .singleton isPlain_colon
  have apart : key ++ ':' :: ' ' :: value = key ++ ([':'] ++ ([' '] ++ value)) := rfl
  rw [apart, h.append hd settled, h.append hd colon, h.append hd settled_space]
  exact ⟨settled.append (colon.append (settled_space.append rest)), own, mark,
    h.of_blank hd isBlank_of_mem_space, later⟩

theorem Partwise.object (hd : n ≤ d) {es : List Text} (entries : ∀ e ∈ es, Settled e ∧ Q d e)
    (mark : 1 < es.length → Q d [',']) :
    Settled (objectInside es) ∧ Q d (objectInside es) := by
  have space : Q d [' '] := h.of_blank hd isBlank_of_mem_space
  cases es with
  | nil => exact ⟨.nil, h.inert hd nofun⟩
  | cons e es =>
    obtain ⟨settled, joined⟩ := h.joined hd isPlain_comma isBlank_of_mem_space entries mark
    have apart : objectInside (e :: es) = [' '] ++ (joinWith [',', ' '] (e :: es) ++ [' ']) := rfl
    rw [apart, h.append hd settled_space, h.append hd settled]
    exact ⟨settled_space.append (settled.append settled_space), space, joined, space⟩

/-- An entry hands down to its normal form what its value hands down. -/
theorem Partwise.entry {t inside e : Text} (hd : n ≤ d) (value : IsValue t)
    (keys : ∀ key values, HasOption t key values → FreeKey key values)
    (hi : bracedInside? (squeeze t) = some inside) (he : e ∈ splitArguments inside) (own : Q d e)
    (later : ∀ key values, HasOption t key values → IsValue (joinWith [':'] values) →
      Q d (joinWith [':'] values) → Settled (normalizeValue (joinWith [':'] values)) ∧
        Q d (normalizeValue (joinWith [':'] values))) :
    Settled (normalizeEntry e) ∧ Q d (normalizeEntry e) := by
  obtain ⟨-, -, settled⟩ := value.within hi
  have entry := isPart_of_mem_splitTopLevel settled he
  rcases normalizeEntry_cases e with kept | ⟨key, values, braced, cut, same⟩
  · rw [kept, entry.trimmed]
    exact ⟨entry.toSettled, own⟩
  · have option : HasOption t key values := ⟨braced, inside, e, hi, he, cut⟩
    obtain ⟨⟨partKey, -⟩, partValues, joined⟩ := value.option option
    obtain ⟨cuts, colon⟩ := h.split hd eq_of_isColon entry.toSettled own
    rw [cut] at cuts colon
    obtain ⟨ofKey, ofValues⟩ := List.forall_mem_cons.mp cuts
    have several : 1 < (key :: values).length := by
      have := List.length_pos_of_ne_nil braced
      rw [List.length_cons]
      omega
    have whole : Settled (joinWith [':'] values) ∧ Q d (joinWith [':'] values) :=
      h.joined hd isPlain_colon nofun
        (fun v hv => ⟨(partValues v hv).toSettled, ofValues v hv⟩) fun _ => colon several
    obtain ⟨settledValue, ofValue⟩ := later key values option joined whole.2
    have ofBare := (keys key values option).partwise h hd ofKey
    have settledBare := (keys key values option).settled partKey.toSettled
    rw [same]
    exact h.option hd settledBare ofBare (colon several) settledValue ofValue

theorem Partwise.entries {t inside : Text} (hd : n ≤ d) (value : IsValue t)
    (keys : ∀ key values, HasOption t key values → FreeKey key values)
    (hi : bracedInside? (squeeze t) = some inside) (inner : Q d inside)
    (later : ∀ key values, HasOption t key values → IsValue (joinWith [':'] values) →
      Q d (joinWith [':'] values) → Settled (normalizeValue (joinWith [':'] values)) ∧
        Q d (normalizeValue (joinWith [':'] values))) :
    Settled (objectInside ((splitArguments inside).map normalizeEntry)) ∧
      Q d (objectInside ((splitArguments inside).map normalizeEntry)) := by
  obtain ⟨-, -, settled⟩ := value.within hi
  obtain ⟨parts, mark⟩ := h.split hd eq_of_isComma settled inner
  refine h.object hd ?_ (by rwa [List.length_map])
  intro e' he'
  obtain ⟨e, he, rfl⟩ := List.mem_map.mp he'
  exact h.entry hd value keys hi he (parts e he) later

/-- What can be told of a value part by part, its normal form inherits. -/
theorem Partwise.normalize {t : Text} (free : FreeKeys t) (hd : n ≤ d) (value : IsValue t)
    (own : Q d t) : Settled (normalizeValue t) ∧ Q d (normalizeValue t) := by
  -- an option's value is a value one level down, where the depth is one more
  induction free generalizing d with
  | @intro t keys _ ih =>
    cases hi : bracedInside? (squeeze t) with
    | none =>
      rcases normalizeValue_of_open value.toNeat hi with same | quoted
      · rw [same]
        exact ⟨value.toSettled, own⟩
      · rw [quoted]
        exact ⟨settled_quote _, h.quoted _ hd⟩
    | some inside =>
      obtain ⟨whole, -, settled⟩ := value.within hi
      have deeper : n ≤ d + 1 := by omega
      rw [whole, h.braced hd settled] at own
      obtain ⟨brackets, inner⟩ := own
      obtain ⟨settled, inner⟩ := h.entries deeper value keys hi inner
        fun key values own value => ih key values own deeper value
      rw [normalizeValue_of_braced hi, objectText, h.braced hd settled]
      exact ⟨settled.bracketed rfl rfl, brackets, inner⟩

end Inherited

section Neat

theorem infix_inside (t : Text) : (t.drop 1).dropLast <:+: t :=
  (List.dropLast_prefix _).isInfix.trans (List.drop_suffix 1 t).isInfix

theorem neat_joinWith_comma {ps : List Text} (filled : ps ≠ []) (h : ∀ p ∈ ps, Neat p) :
    Neat (joinWith [',', ' '] ps) := by
  have comma : Neat [','] := .singleton rfl
  refine joinWith_induction (fun s t hs ht => ?_) filled h
  have apart : s ++ [',', ' '] ++ t = (s ++ [',']) ++ ' ' :: t := by simp
  rw [apart]
  exact (hs.append comma).spaced ht

theorem neat_objectText {es : List Text} (h : ∀ e ∈ es, Neat e) : Neat (objectText es) := by
  have opened : Neat ['{'] := .singleton rfl
  have closed : Neat ['}'] := .singleton rfl
  cases es with
  | nil => exact opened.append closed
  | cons e es =>
    have joined := neat_joinWith_comma (List.cons_ne_nil e es) h
    have apart : objectText (e :: es) =
        ['{'] ++ ' ' :: (joinWith [',', ' '] (e :: es) ++ ' ' :: ['}']) := by
      simp [objectText, objectInside]
    rw [apart]
    exact opened.spaced (joined.spaced closed)

theorem neat_normalizeEntry {t inside e : Text} (value : IsValue t)
    (keys : ∀ key values, HasOption t key values → FreeKey key values)
    (hi : bracedInside? (squeeze t) = some inside) (he : e ∈ splitArguments inside)
    (later : ∀ key values, HasOption t key values → IsValue (joinWith [':'] values) →
      Neat (normalizeValue (joinWith [':'] values))) : Neat (normalizeEntry e) := by
  obtain ⟨-, tidy, settled⟩ := value.within hi
  rcases normalizeEntry_cases e with kept | ⟨key, values, braced, cut, same⟩
  · have neat := neat_of_mem_splitTopLevel settled tidy he
    rw [kept, neat.trim_eq]
    exact neat
  · have option : HasOption t key values := ⟨braced, inside, e, hi, he, cut⟩
    obtain ⟨⟨-, valueKey⟩, -, joined⟩ := value.option option
    have neat := later key values option joined
    have colon : Neat [':'] := .singleton rfl
    have apart : bareKey key ++ ':' :: ' ' :: normalizeValue (joinWith [':'] values) =
        (bareKey key ++ [':']) ++ ' ' :: normalizeValue (joinWith [':'] values) := by simp
    rw [same, apart]
    by_cases empty : bareKey key = []
    · rw [empty]
      exact colon.spaced neat
    · exact (((keys key values option).neat valueKey.toNeat empty).append colon).spaced neat

theorem neat_normalizeValue {t : Text} (free : FreeKeys t) (value : IsValue t) :
    Neat (normalizeValue t) := by
  induction free with
  | @intro t keys _ ih =>
    cases hi : bracedInside? (squeeze t) with
    | none =>
      rcases normalizeValue_of_open value.toNeat hi with same | quoted
      · rw [same]
        exact value.toNeat
      · rw [quoted]
        exact neat_quote (isSpaced_unescape (value.toTidy.mono (infix_inside t)))
    | some inside =>
      rw [normalizeValue_of_braced hi]
      refine neat_objectText ?_
      intro e' he'
      obtain ⟨e, he, rfl⟩ := List.mem_map.mp he'
      exact neat_normalizeEntry value keys hi he ih

theorem isPart_normalizeValue {sep : Char → Bool} (inert : ∀ {c}, IsInert c → sep c = false)
    {t : Text} (free : FreeKeys t) (value : IsValue t) (part : IsPart sep t) :
    IsPart sep (normalizeValue t) := by
  have neat := neat_normalizeValue free value
  obtain ⟨settled, solid⟩ :=
    (partwise_solid inert).normalize free (Int.le_refl 0) value part.whole
  exact ⟨⟨settled, solid⟩, neat.trim_eq, neat.filled⟩

end Neat

end PageObjects
