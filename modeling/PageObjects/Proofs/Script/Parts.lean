import PageObjects.Proofs.Script.Quoting

namespace PageObjects

theorem Settled.singleton {c : Char} (plain : IsPlain c) : Settled [c] :=
  .of_plain (by simpa using plain)

section Split

open Text

variable {sep : Char → Bool} {m : Char} {pad s t p : Text} {ps : List Text}

theorem Cuts.solid (h : Cuts sep t ps) : ∀ p ∈ ps, Solid sep p := by
  induction h with
  | whole solid => exact List.forall_mem_singleton.mpr solid
  | cut solid _ _ _ ih => exact List.forall_mem_cons.mpr ⟨solid, ih⟩

theorem Cuts.isInfix (h : Cuts sep t ps) : ∀ p ∈ ps, p <:+: t := by
  induction h with
  | whole => exact List.forall_mem_singleton.mpr List.infix_rfl
  | @cut s r c _ _ _ _ _ ih =>
    refine List.forall_mem_cons.mpr ⟨(List.prefix_append s (c :: r)).isInfix, fun p hp => ?_⟩
    exact (ih p hp).trans ((List.suffix_cons c r).trans (List.suffix_append s (c :: r))).isInfix

theorem Solid.trim (h : Solid sep t) : Solid sep (trim t) :=
  ⟨h.toSettled.trim, h.toSettled.avoids_trim h.whole⟩

/-- A part of a text: it is not cut apart itself, it is trimmed, and something is left of it. -/
structure IsPart (sep : Char → Bool) (p : Text) : Prop extends Solid sep p where
  trimmed : trim p = p
  filled : p ≠ []

/-- A trimmed text that no separator cuts apart. It may leave strings or brackets open. -/
structure IsWhole (sep : Char → Bool) (p : Text) : Prop where
  whole : Avoids (partsAt sep) .code 0 p
  trimmed : trim p = p
  filled : p ≠ []

theorem IsWhole.splitTopLevel_eq (h : IsWhole sep p) : splitTopLevel sep p = [p] :=
  splitTopLevel_of_avoids h.whole h.trimmed h.filled

theorem IsPart.isWhole (h : IsPart sep p) : IsWhole sep p := ⟨h.whole, h.trimmed, h.filled⟩

theorem IsPart.splitTopLevel_eq (part : IsPart sep p) : splitTopLevel sep p = [p] :=
  part.isWhole.splitTopLevel_eq

theorem IsPart.append {gap : Text} (hs : IsPart sep s) (between : Solid sep gap)
    (ht : IsPart sep t) : IsPart sep (s ++ gap ++ t) :=
  ⟨(hs.toSolid.append between).append ht.toSolid,
    trim_between hs.trimmed hs.filled ht.trimmed ht.filled gap, by simp [hs.filled]⟩

theorem exists_of_mem_splitTopLevel (hp : p ∈ splitTopLevel sep t) :
    p ≠ [] ∧ ∃ piece ∈ topLevelPieces sep .code 0 t, trim piece = p := by
  obtain ⟨own, filled⟩ := List.mem_filter.mp hp
  obtain ⟨piece, hpiece, same⟩ := List.mem_map.mp own
  exact ⟨by simpa using filled, piece, hpiece, same⟩

theorem isPart_of_mem_splitTopLevel (settled : Settled t) (hp : p ∈ splitTopLevel sep t) :
    IsPart sep p := by
  obtain ⟨filled, piece, hpiece, rfl⟩ := exists_of_mem_splitTopLevel hp
  exact ⟨((cuts_topLevelPieces settled).solid piece hpiece).trim, trim_trim piece, filled⟩

theorem neat_of_mem_splitTopLevel (settled : Settled t) (tidy : Tidy t)
    (hp : p ∈ splitTopLevel sep t) : Neat p := by
  obtain ⟨filled, piece, hpiece, rfl⟩ := exists_of_mem_splitTopLevel hp
  have part := (cuts_topLevelPieces settled).isInfix piece hpiece
  exact (tidy.mono part).neat_trim filled

/-- What stands before the first separator is the first part, if anything stands there. -/
theorem splitTopLevel_append (solid : Solid sep s) (cut : sep m = true) (plain : IsPlain m) :
    splitTopLevel sep (s ++ m :: t) =
      (if (trim s).isEmpty then [] else [trim s]) ++ splitTopLevel sep t := by
  rw [splitTopLevel, splitTopLevel, solid.topLevelPieces_cut cut plain, List.map_cons,
    List.filter_cons]
  cases (trim s).isEmpty <;> rfl

theorem IsPart.splitTopLevel_append (part : IsPart sep s) (cut : sep m = true) (plain : IsPlain m) :
    splitTopLevel sep (s ++ m :: t) = s :: splitTopLevel sep t := by
  have filled : s.isEmpty = false := by simpa using part.filled
  rw [PageObjects.splitTopLevel_append part.toSolid cut plain, part.trimmed,
    if_neg (by simp [filled])]
  rfl

/-- Blanks at the front belong to no part. -/
theorem splitTopLevel_blanks (blank : ∀ c ∈ s, isBlank c = true) (other : ∀ c ∈ s, sep c = false) :
    splitTopLevel sep (s ++ t) = splitTopLevel sep t := by
  have solid : Solid sep s := .of_plain (fun c hc => isPlain_of_isBlank (blank c hc)) other
  obtain ⟨p, ps, hp⟩ := List.exists_cons_of_ne_nil (topLevelPieces_ne_nil sep .code 0 t)
  rw [splitTopLevel, splitTopLevel, solid.topLevelPieces_append, hp, List.modifyHead_cons,
    List.map_cons, List.map_cons, trim_append_of_blank blank]

/-- Nor do blanks at the end. -/
theorem Settled.splitTopLevel_append_blanks (settled : Settled s)
    (blank : ∀ c ∈ t, isBlank c = true) (other : ∀ c ∈ t, sep c = false) :
    splitTopLevel sep (s ++ t) = splitTopLevel sep s := by
  have solid : Solid sep t := .of_plain (fun c hc => isPlain_of_isBlank (blank c hc)) other
  have cut : Cuts sep _ _ := cuts_topLevelPieces settled
  generalize topLevelPieces sep .code 0 s = ps at cut
  induction cut with
  | whole own =>
    rw [splitTopLevel, splitTopLevel, own.topLevelPieces_eq, (own.append solid).topLevelPieces_eq,
      List.map_singleton, List.map_singleton, trim_append_blanks blank]
  | @cut s r c ps own parts plain _ ih =>
    have rest : Settled r := (Settled.singleton plain).of_append (own.toSettled.of_append settled)
    rw [List.append_assoc, List.cons_append, splitTopLevel_append own parts plain,
      splitTopLevel_append own parts plain, ih rest]

theorem avoids_trim {f : Int → Char → Bool} {depth : Int} (h : Avoids f .code depth t) :
    Avoids f .code depth (trim t) := by
  obtain ⟨lead, tail, whole, front, -⟩ := exists_trim_append t
  have start : Settled lead := .of_plain fun c hc => isPlain_of_isBlank (front c hc)
  rw [whole, List.append_assoc] at h
  have rest := (start.avoids_append.mp h).2
  exact (avoids_append.mp rest).1

/-- Parts one behind the other, of which the last alone may leave something open. -/
inductive PartsInRow (sep : Char → Bool) : List Text → Prop where
  | nil : PartsInRow sep []
  | last {p : Text} (whole : IsWhole sep p) : PartsInRow sep [p]
  | cons {p : Text} {ps : List Text} (part : IsPart sep p) (rest : PartsInRow sep ps) :
      PartsInRow sep (p :: ps)

theorem Slices.partsInRow (h : Slices sep t ps) :
    PartsInRow sep ((ps.map trim).filter fun p => !p.isEmpty) := by
  induction h with
  | @last t whole =>
    rw [List.map_singleton, List.filter_cons]
    split
    next kept =>
      have filled : trim t ≠ [] := by simpa using kept
      exact .last ⟨avoids_trim whole, trim_trim t, filled⟩
    next => exact .nil
  | @cut s r c ps solid _ _ _ ih =>
    rw [List.map_cons, List.filter_cons]
    split
    next kept =>
      have filled : trim s ≠ [] := by simpa using kept
      exact .cons ⟨solid.trim, trim_trim s, filled⟩ ih
    next => exact ih

theorem partsInRow_splitTopLevel (sep : Char → Bool) (t : Text) :
    PartsInRow sep (splitTopLevel sep t) := (slices_topLevelPieces sep t).partsInRow

namespace PartsInRow

theorem of_parts (parts : ∀ p ∈ ps, IsPart sep p) : PartsInRow sep ps := by
  induction ps with
  | nil => exact .nil
  | cons p ps ih =>
    obtain ⟨part, parts⟩ := List.forall_mem_cons.mp parts
    exact .cons part (ih parts)

theorem isWhole (h : PartsInRow sep ps) : ∀ p ∈ ps, IsWhole sep p := by
  induction h with
  | nil => exact nofun
  | last whole => exact List.forall_mem_singleton.mpr whole
  | cons part _ ih => exact List.forall_mem_cons.mpr ⟨part.isWhole, ih⟩

/-- Joined parts are cut apart again. -/
theorem splitTopLevel_joinWith (h : PartsInRow sep ps) (cut : sep m = true) (plain : IsPlain m)
    (blank : ∀ c ∈ pad, isBlank c = true) (other : ∀ c ∈ pad, sep c = false) :
    splitTopLevel sep (joinWith (m :: pad) ps) = ps := by
  induction h with
  | nil => rfl
  | last whole =>
    rw [joinWith_singleton]
    exact whole.splitTopLevel_eq
  | @cons p ps part rest ih =>
    cases ps with
    | nil =>
      rw [joinWith_singleton]
      exact part.splitTopLevel_eq
    | cons q ps =>
      rw [joinWith_cons_cons, List.append_assoc, List.cons_append,
        part.splitTopLevel_append cut plain, splitTopLevel_blanks blank other, ih]

end PartsInRow

theorem splitTopLevel_joinWith (cut : sep m = true) (plain : IsPlain m)
    (blank : ∀ c ∈ pad, isBlank c = true) (other : ∀ c ∈ pad, sep c = false)
    (parts : ∀ p ∈ ps, IsPart sep p) : splitTopLevel sep (joinWith (m :: pad) ps) = ps :=
  (PartsInRow.of_parts parts).splitTopLevel_joinWith cut plain blank other

end Split

/-- A character that neither quotes nor opens, closes or separates anything. -/
structure IsInert (c : Char) : Prop extends IsPlain c where
  comma : isComma c = false
  colon : isColon c = false

instance (c : Char) : Decidable (IsInert c) :=
  decidable_of_iff
    ((isQuote c = false ∧ isOpener c = false ∧ isCloser c = false) ∧ isComma c = false ∧
      isColon c = false)
    ⟨fun ⟨⟨quote, opener, closer⟩, comma, colon⟩ => ⟨⟨quote, opener, closer⟩, comma, colon⟩,
      fun h => ⟨⟨h.quote, h.opener, h.closer⟩, h.comma, h.colon⟩⟩

theorem eq_of_isComma {c : Char} (h : isComma c = true) : c = ',' := beq_iff_eq.mp h

theorem eq_of_isColon {c : Char} (h : isColon c = true) : c = ':' := beq_iff_eq.mp h

theorem isPlain_comma : IsPlain ',' := isPlain_of_isComma rfl

theorem isPlain_colon : IsPlain ':' := isPlain_of_isColon rfl

theorem isInert_of_isBlank {c : Char} (h : isBlank c = true) : IsInert c := by
  refine ⟨isPlain_of_isBlank h, ?_, ?_⟩
  · refine Bool.eq_false_iff.mpr fun comma => ?_
    obtain rfl := eq_of_isComma comma
    cases h
  · refine Bool.eq_false_iff.mpr fun colon => ?_
    obtain rfl := eq_of_isColon colon
    cases h

/-- What can be told of a text at a depth from its parts, as long as that depth is not below `n`;
inert characters and quoted texts always have it. -/
structure Partwise (n : Int) (Q : Int → Text → Prop) : Prop where
  append : ∀ {d s t}, n ≤ d → Settled s → (Q d (s ++ t) ↔ Q d s ∧ Q d t)
  inert : ∀ {d t}, n ≤ d → (∀ c ∈ t, IsInert c) → Q d t
  quoted : ∀ {d} v, n ≤ d → Q d (quote v)
  braced : ∀ {d t}, n ≤ d → Settled t →
    (Q d ('{' :: t ++ ['}']) ↔ Q d ['{', '}'] ∧ Q (d + 1) t)

theorem partwise_avoids {n : Int} {p : Int → Char → Bool}
    (inert : ∀ {d c}, n ≤ d → IsInert c → p d c = false) :
    Partwise n fun d t => Avoids p .code d t where
  append _ hs := hs.avoids_append
  inert hd h := avoids_of_plain (fun c hc => (h c hc).toIsPlain) fun c hc => inert hd (h c hc)
  quoted v _ := avoids_quote p _ v
  braced {d t} _ ht := by
    have empty : Avoids p .code d ['{', '}'] ↔
        p d '{' = false ∧ Avoids p .code (d + 1) [] ∧ p (d + 1) '}' = false :=
      Settled.nil.avoids_bracketed rfl rfl
    rw [ht.avoids_bracketed rfl rfl, empty]
    constructor
    · exact fun ⟨opens, inner, closes⟩ => ⟨⟨opens, trivial, closes⟩, inner⟩
    · exact fun ⟨⟨opens, _, closes⟩, inner⟩ => ⟨opens, inner, closes⟩

/-- Not being cut apart is told part by part. -/
theorem partwise_solid {sep : Char → Bool} (inert : ∀ {c}, IsInert c → sep c = false) :
    Partwise 0 fun d t => Avoids (partsAt sep) .code d t :=
  partwise_avoids fun _ h => by rw [partsAt, inert h, Bool.and_false]

namespace Partwise

variable {n d : Int} {Q : Int → Text → Prop} {sep : Char → Bool} {m : Char} {t : Text}
  {ps : List Text}

theorem of_blank (h : Partwise n Q) (hd : n ≤ d) (blank : ∀ c ∈ t, isBlank c = true) : Q d t :=
  h.inert hd fun c hc => isInert_of_isBlank (blank c hc)

theorem trim (h : Partwise n Q) (hd : n ≤ d) (settled : Settled t) (ht : Q d t) :
    Q d (Text.trim t) := by
  obtain ⟨lead, tail, whole, front, -⟩ := Text.exists_trim_append t
  have start : Settled lead := .of_plain fun c hc => isPlain_of_isBlank (front c hc)
  rw [whole, List.append_assoc, h.append hd start, h.append hd settled.trim] at ht
  exact ht.2.1

/-- Pieces have it, and so has the separator if there are several. -/
theorem cuts (h : Partwise n Q) (hd : n ≤ d) (only : ∀ {c}, sep c = true → c = m)
    (cut : Cuts sep t ps) (ht : Q d t) : (∀ p ∈ ps, Q d p) ∧ (1 < ps.length → Q d [m]) := by
  induction cut with
  | whole => exact ⟨List.forall_mem_singleton.mpr ht, fun two => absurd two (by simp)⟩
  | @cut s r c ps solid parts plain _ ih =>
    obtain rfl := only parts
    have single : Settled [c] := .singleton plain
    have apart : s ++ c :: r = s ++ ([c] ++ r) := rfl
    rw [apart, h.append hd solid.toSettled, h.append hd single] at ht
    obtain ⟨first, mark, rest⟩ := ht
    exact ⟨List.forall_mem_cons.mpr ⟨first, (ih rest).1⟩, fun _ => mark⟩

theorem split (h : Partwise n Q) (hd : n ≤ d) (only : ∀ {c}, sep c = true → c = m)
    (settled : Settled t) (ht : Q d t) :
    (∀ p ∈ splitTopLevel sep t, Q d p) ∧ (1 < (splitTopLevel sep t).length → Q d [m]) := by
  have cut : Cuts sep _ _ := cuts_topLevelPieces settled
  obtain ⟨pieces, mark⟩ := h.cuts hd only cut ht
  refine ⟨fun p hp => ?_, fun two => mark ?_⟩
  · obtain ⟨-, piece, hpiece, rfl⟩ := exists_of_mem_splitTopLevel hp
    exact h.trim hd (cut.solid piece hpiece).toSettled (pieces piece hpiece)
  · refine Nat.lt_of_lt_of_le two ?_
    rw [splitTopLevel]
    exact (List.length_filter_le _ _).trans (Nat.le_of_eq (List.length_map _))

theorem joined {pad : Text} (h : Partwise n Q) (hd : n ≤ d) (plain : IsPlain m)
    (blank : ∀ c ∈ pad, isBlank c = true) (parts : ∀ p ∈ ps, Settled p ∧ Q d p)
    (mark : 1 < ps.length → Q d [m]) :
    Settled (Text.joinWith (m :: pad) ps) ∧ Q d (Text.joinWith (m :: pad) ps) := by
  have single : Settled [m] := .singleton plain
  have space : Settled pad := .of_plain fun c hc => isPlain_of_isBlank (blank c hc)
  induction ps with
  | nil => exact ⟨.nil, h.inert hd nofun⟩
  | cons p ps ih =>
    obtain ⟨⟨settled, own⟩, parts⟩ := List.forall_mem_cons.mp parts
    cases ps with
    | nil =>
      rw [Text.joinWith_singleton]
      exact ⟨settled, own⟩
    | cons q ps =>
      have mark : Q d [m] := mark (by simp)
      obtain ⟨rest, later⟩ := ih parts fun _ => mark
      have apart : Text.joinWith (m :: pad) (p :: q :: ps) =
          p ++ ([m] ++ (pad ++ Text.joinWith (m :: pad) (q :: ps))) := by
        rw [Text.joinWith_cons_cons, List.append_assoc]
        rfl
      rw [apart, h.append hd settled, h.append hd single, h.append hd space]
      exact ⟨settled.append (single.append (space.append rest)), own, mark, h.of_blank hd blank,
    later⟩

end Partwise

end PageObjects
