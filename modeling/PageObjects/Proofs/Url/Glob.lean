import PageObjects.Proofs.Outcome
import PageObjects.Proofs.Url.Segments

namespace PageObjects

namespace Glob

variable {t : Text}

/-- The token of a character that opens no set. -/
def tokenOf (c : Char) : GlobToken :=
  if c = '*' then .star else if c = '?' then .any else .char c

theorem tokens_of_noSet (noSet : '[' ∉ t) : tokens t.length t = t.map tokenOf := by
  induction t with
  | nil => rfl
  | cons c r ih =>
    rw [List.mem_cons, not_or] at noSet
    have rest := ih noSet.2
    rw [List.length_cons, tokens, rest, List.map_cons, tokenOf]
    split
    next => rfl
    next =>
      split
      next => rfl
      next => rw [if_neg (Ne.symm noSet.1)]

theorem mem_suffixes_self (t : Text) : t ∈ Text.suffixes t := by
  cases t with
  | nil => exact List.mem_singleton_self []
  | cons c r => exact List.mem_cons_self

/-- Each token matches the character that it is written with. -/
theorem matchesTokens_map_tokenOf (t : Text) : matchesTokens (t.map tokenOf) t = true := by
  induction t with
  | nil => rfl
  | cons c r ih =>
    rw [List.map_cons, tokenOf]
    split
    next =>
      -- the star takes up the character that writes it and leaves the others to their own tokens
      have rest : r ∈ Text.suffixes (c :: r) := by
        rw [Text.suffixes]
        exact List.mem_cons_of_mem _ (mem_suffixes_self r)
      rw [matchesTokens]
      exact List.any_eq_true.mpr ⟨r, rest, ih⟩
    next =>
      split
      next => exact ih
      next => rw [matchesTokens, beq_self_eq_true, ih, Bool.and_self]

end Glob

theorem globMatches_self {t : Text} (noSet : '[' ∉ t) : globMatches t t = true := by
  rw [globMatches, Glob.tokens_of_noSet noSet]
  exact Glob.matchesTokens_map_tokenOf t

section Characters

theorem sublist_cons_cons_self (c d : Char) (t : Text) : t.Sublist (c :: d :: t) :=
  (List.sublist_cons_self d t).trans (List.sublist_cons_self c (d :: t))

/-- What stands before the first of a character is a part of the text. -/
theorem upTo_sublist (c : Char) (t : Text) : (upTo c t).Sublist t := by
  induction t with
  | nil => exact List.Sublist.slnil
  | cons x r ih =>
    rw [upTo, Text.cutAt]
    split
    next => exact List.nil_sublist _
    next => exact ih.cons_cons x

theorem cutAt_rest_sublist {c : Char} {t inner rest : Text}
    (h : Text.cutAt c t = (inner, some rest)) : rest.Sublist t := by
  induction t generalizing inner with
  | nil => cases h
  | cons x r ih =>
    rw [Text.cutAt] at h
    split at h
    next =>
      obtain ⟨-, same⟩ := Prod.mk.inj h
      obtain rfl := Option.some.inj same
      exact List.sublist_cons_self x r
    next =>
      obtain ⟨-, same⟩ := Prod.mk.inj h
      exact (ih (Prod.ext rfl same)).cons x

theorem splitScheme_rest_sublist (t : Text) : (splitScheme t).2.Sublist t := by
  rw [splitScheme.eq_def]
  split
  next scheme rest cut =>
    split
    next => exact cutAt_rest_sublist cut
    next => exact List.Sublist.refl t
  next => exact List.Sublist.refl t

theorem cleanUrl_sublist (t : Text) : (cleanUrl t).Sublist t :=
  List.filter_sublist.trans (List.dropWhile_suffix _).sublist

theorem path_sublist_of_splitUrl {t : Text} {parts : UrlParts} (h : splitUrl t = .ok parts) :
    parts.path.Sublist t := by
  have rest : (splitScheme (cleanUrl t)).2.Sublist t :=
    (splitScheme_rest_sublist _).trans (cleanUrl_sublist t)
  have behind : ∀ u : Text, u.Sublist (splitScheme (cleanUrl t)).2 →
      (upTo '?' (upTo '#' u)).Sublist t := fun u own =>
    (upTo_sublist '?' _).trans ((upTo_sublist '#' u).trans (own.trans rest))
  unfold splitUrl at h
  dsimp only at h
  split at h
  next => cases h
  next =>
    cases Except.ok.inj h
    apply behind
    split
    next r authority =>
      rw [authority]
      exact (List.dropWhile_suffix _).sublist.trans (sublist_cons_cons_self '/' '/' r)
    next => exact List.Sublist.refl _

theorem stripTemplate_sublist (url : Text) : (stripTemplate url).Sublist url := by
  have stripped : (Text.stripWhile isTextQuote url).Sublist url :=
    (Text.infix_stripWhile url).sublist
  unfold stripTemplate
  dsimp only
  split
  next r start =>
    split
    next rest cut =>
      rw [start] at stripped
      have behind := (cutAt_rest_sublist cut).trans (sublist_cons_cons_self '$' '\x7b' r)
      exact behind.trans stripped
    next => exact stripped
  next => exact stripped

theorem pathSource_sublist (url : Text) : (pathSource url).Sublist url := by
  unfold pathSource
  split
  next r start =>
    have stripped := stripTemplate_sublist url
    rw [start] at stripped
    exact (sublist_cons_cons_self '*' '*' r).trans stripped
  next => exact stripTemplate_sublist url

theorem collapseSlashes_sublist (t : Text) : (collapseSlashes t).Sublist t := by
  induction t using collapseSlashes.induct with
  | case1 r ih =>
    rw [collapseSlashes]
    exact ih.trans (List.sublist_cons_self '/' _)
  | case2 c r other ih =>
    rw [collapseSlashes]
    · exact ih.cons_cons c
    · exact other
  | case3 => exact List.Sublist.slnil

/-- Only the slash in front of a path is new. -/
theorem mem_of_mem_normalizePath {c : Char} {t : Text} (h : c ∈ normalizePath t) :
    c = '/' ∨ c ∈ t := by
  have collapsed := collapseSlashes_sublist t
  unfold normalizePath at h
  dsimp only at h
  generalize same : (if (collapseSlashes t).head? = some '/' then collapseSlashes t
    else '/' :: collapseSlashes t) = path at h
  have own : c ∈ path := by
    split at h
    next => exact (List.rdropWhile_prefix _ path).subset h
    next => exact h
  rw [← same] at own
  split at own
  next => exact .inr (collapsed.subset own)
  next => exact (List.mem_cons.mp own).imp_right fun there => collapsed.subset there

theorem mem_of_mem_urlPath {c : Char} {url path : Text} (h : urlPath url = .ok path)
    (hc : c ∈ path) : c = '/' ∨ c ∈ url := by
  obtain ⟨parts, split, own⟩ := exists_ok_of_map ((urlPath_eq url).symm.trans h)
  have source := pathSource_sublist url
  rw [← own] at hc
  rcases mem_of_mem_normalizePath hc with slash | there
  · exact .inl slash
  · right
    split at there
    next => exact source.subset ((path_sublist_of_splitUrl split).subset there)
    next =>
      have before := (upTo_sublist '#' _).trans (upTo_sublist '?' (pathSource url))
      exact source.subset (before.subset there)

end Characters

/-- The part of a URL that counts can be split off. -/
def UrlThreshold.Splits : UrlThreshold → Text → Prop
  | full, _ => True
  | path, url => ∃ path, urlPath url = .ok path
  | domain, url => ∃ host, urlHost? url = .ok host

/-- A URL or a glob without sets is the same page as itself. -/
theorem samePage_self {threshold : UrlThreshold} {url : Text} (noSet : '[' ∉ url)
    (splits : threshold.Splits url) : samePage threshold false url (some url) = .ok true := by
  cases threshold with
  | full =>
    have same : sameUrl url url = true := by
      rw [sameUrl]
      split
      next => rw [globMatches_self noSet, Bool.true_or]
      next => exact beq_self_eq_true _
    rw [samePage, same]
  | path =>
    obtain ⟨path, own⟩ := splits
    have noSet' : '[' ∉ path := by
      intro there
      rcases mem_of_mem_urlPath own there with slash | there
      · exact absurd slash (by decide)
      · exact noSet there
    rw [samePage, samePath, own]
    show (if path.contains '*' = true then Except.ok (globMatches path path) else _) = _
    split
    next => rw [globMatches_self noSet']
    next =>
      rw [beq_self_eq_true, Bool.true_or]
      rfl
  | domain =>
    obtain ⟨host, own⟩ := splits
    rw [samePage, sameDomain, own]
    cases host with
    | none => rfl
    | some host =>
      show Except.ok (some host == some host) = Except.ok true
      rw [beq_self_eq_true]

end PageObjects
