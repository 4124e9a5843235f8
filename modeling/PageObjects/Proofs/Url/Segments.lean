import PageObjects.Proofs.Outcome
import PageObjects.Proofs.Text.Spacing
import PageObjects.Url.SamePage

namespace PageObjects

/-- A part of a path: something without slashes. -/
structure IsSegment (s : Text) : Prop where
  filled : s ≠ []
  other : ∀ c ∈ s, (c == '/') = false

def rootedPath (segments : List Text) : Text := '/' :: Text.joinWith ['/'] segments

section Path

variable {s t : Text} {ss ts cs : List Text}

theorem isSegment_of_mem_segmentsOf (h : s ∈ segmentsOf t) : IsSegment s := by
  obtain ⟨piece, filled⟩ := List.mem_filter.mp h
  exact ⟨by simpa using filled, Text.sep_eq_false_of_mem_pieces piece⟩

theorem segmentsOf_append (s t : Text) :
    segmentsOf (s ++ '/' :: t) = segmentsOf s ++ segmentsOf t := by
  rw [segmentsOf, Text.pieces_append_cons rfl, List.filter_append]
  rfl

theorem segmentsOf_slash (t : Text) : segmentsOf ('/' :: t) = segmentsOf t := segmentsOf_append [] t

theorem segmentsOf_append_slashes (s : Text) (all : ∀ c ∈ t, (c == '/') = true) :
    segmentsOf (s ++ t) = segmentsOf s := by
  induction t generalizing s with
  | nil => rw [List.append_nil]
  | cons c t ih =>
    obtain ⟨own, behind⟩ := List.forall_mem_cons.mp all
    obtain rfl := eq_of_beq own
    have rest := ih [] behind
    rw [List.nil_append] at rest
    rw [segmentsOf_append, rest]
    exact List.append_nil _

/-- Joined segments are cut at the slashes between them. -/
theorem segmentsOf_joinWith (segments : ∀ s ∈ ss, IsSegment s) :
    segmentsOf (Text.joinWith ['/'] ss) = ss := by
  have single : ∀ s, IsSegment s → segmentsOf s = [s] := by
    intro s hs
    have filled : s.isEmpty = false := by simpa using hs.filled
    rw [segmentsOf, Text.pieces_of_others hs.other, List.filter_singleton, filled]
    rfl
  induction ss with
  | nil => rfl
  | cons s ss ih =>
    obtain ⟨first, segments⟩ := List.forall_mem_cons.mp segments
    cases ss with
    | nil => rw [Text.joinWith_singleton, single s first]
    | cons t ss =>
      rw [Text.joinWith_cons_cons, List.append_assoc, List.singleton_append, segmentsOf_append,
        single s first, ih segments]
      rfl

theorem segmentsOf_rootedPath (segments : ∀ s ∈ ss, IsSegment s) :
    segmentsOf (rootedPath ss) = ss := by
  rw [rootedPath, segmentsOf_slash, segmentsOf_joinWith segments]

/-- A text with slashes only between its segments is these, joined. -/
theorem joinWith_segmentsOf (single : t.IsChain fun a b => ¬ (a = '/' ∧ b = '/'))
    (front : ∀ c ∈ t.head?, (c == '/') = false) (back : ∀ c ∈ t.getLast?, (c == '/') = false) :
    Text.joinWith ['/'] (segmentsOf t) = t := by
  by_cases filled : t = []
  · rw [filled]
    rfl
  · have apart : t.IsChain fun a b => ¬ ((a == '/') = true ∧ (b == '/') = true) := by
      simpa using single
    rw [segmentsOf, Text.filter_pieces_eq_self filled apart front back]
    exact Text.joinWith_pieces fun c _ slash => eq_of_beq slash

theorem head?_collapseSlashes (t : Text) : (collapseSlashes t).head? = t.head? := by
  induction t using collapseSlashes.induct with
  | case1 r ih => rw [collapseSlashes, ih]; rfl
  | case2 c r other ih => rw [collapseSlashes]; rfl; exact other
  | case3 => rfl

theorem isChain_collapseSlashes (t : Text) :
    (collapseSlashes t).IsChain fun a b => ¬ (a = '/' ∧ b = '/') := by
  induction t using collapseSlashes.induct with
  | case1 r ih =>
    rw [collapseSlashes]
    exact ih
  | case2 c r other ih =>
    rw [collapseSlashes]
    · refine List.isChain_cons.mpr ⟨?_, ih⟩
      rintro d hd ⟨rfl, rfl⟩
      rw [head?_collapseSlashes] at hd
      obtain ⟨r, rfl⟩ := List.head?_eq_some_iff.mp hd
      exact other r rfl rfl
    · exact other
  | case3 => exact .nil

/-- Collapsing slashes leaves the segments, whatever stands before. -/
theorem segmentsOf_append_collapseSlashes (s t : Text) :
    segmentsOf (s ++ collapseSlashes t) = segmentsOf (s ++ t) := by
  induction t using collapseSlashes.induct generalizing s with
  | case1 r ih =>
    rw [collapseSlashes, ih, segmentsOf_append, segmentsOf_append, segmentsOf_slash]
  | case2 c r other ih =>
    have same := ih (s ++ [c])
    rw [List.append_assoc, List.append_assoc] at same
    rw [collapseSlashes]
    · exact same
    · exact other
  | case3 => rfl

/-- Slashes at the end of a path go, but for the one of the root. -/
theorem dropEnd_eq_rootedPath (single : ('/' :: t).IsChain fun a b => ¬ (a = '/' ∧ b = '/')) :
    (if 1 < ('/' :: t).length then Text.dropEndWhile (· == '/') ('/' :: t) else '/' :: t) =
      rootedPath (segmentsOf t) := by
  cases t with
  | nil => rfl
  | cons c r =>
    have other : (c == '/') = false :=
      beq_false_of_ne fun slash => (List.isChain_cons_cons.mp single).1 ⟨rfl, slash⟩
    obtain ⟨body, tail, whole, back, slashes⟩ : ∃ body tail : Text, c :: r = body ++ tail ∧
        (∀ x ∈ body.getLast?, (x == '/') = false) ∧ ∀ x ∈ tail, (x == '/') = true :=
      ⟨_, _, (List.rdropWhile_append_rtakeWhile (p := (· == '/'))).symm,
        Text.back_dropEndWhile (· == '/') (c :: r),
        fun _ hx => List.mem_rtakeWhile_imp (p := (· == '/')) hx⟩
    rw [whole] at single
    have filled : body ≠ [] := by
      rintro rfl
      have own : c ∈ tail := by
        rw [List.nil_append] at whole
        exact whole ▸ List.mem_cons_self
      rw [slashes c own] at other
      cases other
    have front : ∀ x ∈ body.head?, (x == '/') = false := by
      intro x hx
      rw [← List.head?_append_of_ne_nil body filled, ← whole] at hx
      obtain rfl := Option.some.inj hx
      exact other
    have inner : body.IsChain fun a b => ¬ (a = '/' ∧ b = '/') :=
      List.IsChain.prefix (List.isChain_cons.mp single).2 (List.prefix_append body tail)
    have kept : Text.dropEndWhile (· == '/') ('/' :: body ++ tail) = '/' :: body :=
      Text.dropEndWhile_append slashes (by rwa [List.getLast?_cons_of_ne_nil filled])
    rw [if_pos (by simp), rootedPath, whole, segmentsOf_append_slashes body slashes,
      joinWith_segmentsOf inner front back]
    exact kept

/-- A path in normal form is made of its segments. -/
theorem normalizePath_eq (path : Text) : normalizePath path = rootedPath (segmentsOf path) := by
  have segments : segmentsOf (collapseSlashes path) = segmentsOf path :=
    segmentsOf_append_collapseSlashes [] path
  have single := isChain_collapseSlashes path
  rw [normalizePath]
  rw [← segments]
  generalize collapseSlashes path = t at single
  by_cases rooted : t.head? = some '/'
  · obtain ⟨r, rfl⟩ := List.head?_eq_some_iff.mp rooted
    rw [segmentsOf_slash]
    exact dropEnd_eq_rootedPath single
  · have apart : ('/' :: t).IsChain fun a b => ¬ (a = '/' ∧ b = '/') := by
      refine List.isChain_cons.mpr ⟨?_, single⟩
      rintro d hd ⟨-, rfl⟩
      exact rooted hd
    simp only [if_neg rooted]
    exact dropEnd_eq_rootedPath apart

theorem rootedPath_inj (first : ∀ s ∈ ts, IsSegment s) (second : ∀ s ∈ cs, IsSegment s) :
    rootedPath ts = rootedPath cs ↔ ts = cs := by
  refine ⟨fun same => ?_, fun same => congrArg rootedPath same⟩
  rw [← segmentsOf_rootedPath first, same, segmentsOf_rootedPath second]

/-- A path goes on below another one if its segments go on behind those of the other. -/
theorem rootedPath_prefix_iff (first : ∀ s ∈ ts, IsSegment s) (second : ∀ s ∈ cs, IsSegment s)
    (rooted : cs ≠ []) :
    rootedPath cs ++ ['/'] <+: rootedPath ts ↔ cs <+: ts ∧ cs ≠ ts := by
  constructor
  · rintro ⟨r, below⟩
    rw [List.append_assoc, List.singleton_append] at below
    have segments := segmentsOf_append (rootedPath cs) r
    rw [below, segmentsOf_rootedPath first, segmentsOf_rootedPath second] at segments
    refine ⟨⟨segmentsOf r, segments.symm⟩, ?_⟩
    rintro rfl
    have lengths := congrArg List.length below
    simp at lengths
  · rintro ⟨⟨rest, rfl⟩, other⟩
    have more : rest ≠ [] := by
      rintro rfl
      exact other (List.append_nil cs).symm
    refine ⟨Text.joinWith ['/'] rest, ?_⟩
    rw [rootedPath, rootedPath, Text.joinWith_append ['/'] rooted more]
    simp

end Path

/-- The text that is split for the path of a URL: no quotes, no substitution at the front and none
of the stars of a glob. -/
def pathSource (url : Text) : Text :=
  match stripTemplate url with
  | '*' :: '*' :: r => r
  | r => r

/-- The text for the path of a URL is one that can be split. -/
def PathSplits (url : Text) : Prop := ∃ parts, splitUrl (pathSource url) = .ok parts

theorem urlPath_eq (url : Text) : urlPath url = (splitUrl (pathSource url)).map fun parts =>
    normalizePath (if !parts.scheme.isEmpty || !parts.location.isEmpty then parts.path
      else upTo '#' (upTo '?' (pathSource url))) := rfl

/-- The segments of a path. -/
structure IsPath (url : Text) (segments : List Text) : Prop where
  parts : ∀ s ∈ segments, IsSegment s
  path : urlPath url = .ok (rootedPath segments)

theorem IsPath.pathSegments_eq {url : Text} {ss : List Text} (h : IsPath url ss) :
    pathSegments url = .ok ss := by
  rw [pathSegments, h.path]
  exact congrArg Except.ok (segmentsOf_rootedPath h.parts)

theorem PathSplits.exists_isPath {url : Text} (splits : PathSplits url) : ∃ ss, IsPath url ss := by
  obtain ⟨parts, split⟩ := splits
  have path := urlPath_eq url
  rw [split, Except.map, normalizePath_eq] at path
  exact ⟨_, fun _ => isSegment_of_mem_segmentsOf, path⟩

theorem exists_isPath_of_urlPath {url path : Text} (h : urlPath url = .ok path) :
    ∃ ss, IsPath url ss ∧ path = rootedPath ss := by
  obtain ⟨parts, split, -⟩ := exists_ok_of_map ((urlPath_eq url).symm.trans h)
  obtain ⟨ss, own⟩ := PathSplits.exists_isPath ⟨parts, split⟩
  exact ⟨ss, own, Except.ok.inj (h.symm.trans own.path)⟩

/-- Whether segments are those of a page or go on below it. Nothing is below the root. -/
def SameOrBelow (ts cs : List Text) : Prop := ts = cs ∨ cs ≠ [] ∧ cs <+: ts ∧ cs ≠ ts

instance (ts cs : List Text) : Decidable (SameOrBelow ts cs) :=
  inferInstanceAs (Decidable (ts = cs ∨ cs ≠ [] ∧ cs <+: ts ∧ cs ≠ ts))

theorem SameOrBelow.trans {ts cs ds : List Text} (first : SameOrBelow ts cs)
    (second : SameOrBelow cs ds) : SameOrBelow ts ds := by
  rcases first with rfl | ⟨rooted, below, other⟩
  · exact second
  · rcases second with rfl | ⟨rooted', below', other'⟩
    · exact .inr ⟨rooted, below, other⟩
    · refine .inr ⟨rooted', below'.trans below, ?_⟩
      rintro rfl
      exact other (below.eq_of_length_le below'.length_le)

section SamePage

variable {target current other : Text} {ts cs : List Text}

/-- Where the path of the target is no glob, paths are compared by their segments. -/
theorem IsPath.exists_samePage_path (ht : IsPath target ts) (hc : IsPath current cs)
    (plain : '*' ∉ rootedPath ts) :
    ∃ same, samePage .path false target (some current) = .ok same ∧
      (same = true ↔ SameOrBelow ts cs) := by
  have noGlob : ¬ (rootedPath ts).contains '*' = true := by simpa using plain
  refine ⟨rootedPath ts == rootedPath cs ||
    (rootedPath cs != ['/'] && (rootedPath cs ++ ['/']).isPrefixOf (rootedPath ts)), ?_, ?_⟩
  · rw [samePage, samePath, ht.path, hc.path]
    exact if_neg noGlob
  · have noParts : ∀ s ∈ ([] : List Text), IsSegment s := nofun
    have root : rootedPath cs = ['/'] ↔ cs = [] := rootedPath_inj hc.parts noParts
    rw [Bool.or_eq_true, beq_iff_eq, Bool.and_eq_true, bne_iff_ne, List.isPrefixOf_iff_prefix,
      rootedPath_inj ht.parts hc.parts, SameOrBelow, Ne, root]
    exact or_congr_right (and_congr_right fun rooted =>
      rootedPath_prefix_iff ht.parts hc.parts rooted)

theorem IsPath.samePage_path_iff (ht : IsPath target ts) (hc : IsPath current cs)
    (plain : '*' ∉ rootedPath ts) :
    samePage .path false target (some current) = .ok true ↔ SameOrBelow ts cs := by
  obtain ⟨same, found, own⟩ := ht.exists_samePage_path hc plain
  rw [found, Except.ok.injEq]
  exact own

/-- What a glob-free path goes on below is free of globs as well. -/
theorem SameOrBelow.notMem_star (below : SameOrBelow ts cs) (first : ∀ s ∈ ts, IsSegment s)
    (second : ∀ s ∈ cs, IsSegment s) (plain : '*' ∉ rootedPath ts) : '*' ∉ rootedPath cs := by
  rcases below with rfl | ⟨rooted, lead⟩
  · exact plain
  · have front := (rootedPath_prefix_iff first second rooted).mpr lead
    exact fun star => plain (front.subset (List.mem_append_left _ star))

theorem exists_isPath_of_samePage
    (h : samePage .path false target (some current) = .ok true) : ∃ cs, IsPath current cs := by
  obtain ⟨path, -, h⟩ := exists_ok_of_bind h
  obtain ⟨currentPath, own, -⟩ := exists_ok_of_bind h
  obtain ⟨cs, hc, -⟩ := exists_isPath_of_urlPath own
  exact ⟨cs, hc⟩

/-- Being the same page carries on from page to page, at the root as well. -/
theorem IsPath.samePage_path_trans (ht : IsPath target ts) (hc : IsPath current cs)
    (plain : '*' ∉ rootedPath ts) (first : samePage .path false target (some current) = .ok true)
    (second : samePage .path false current (some other) = .ok true) :
    samePage .path false target (some other) = .ok true := by
  obtain ⟨ds, ho⟩ := exists_isPath_of_samePage second
  have below := (ht.samePage_path_iff hc plain).mp first
  have free := below.notMem_star ht.parts hc.parts plain
  have next := (hc.samePage_path_iff ho free).mp second
  exact (ht.samePage_path_iff ho plain).mpr (below.trans next)

/-- A path below none of the other's, in either direction, is another page. -/
theorem IsPath.samePage_path_false (ht : IsPath target ts) (hc : IsPath current cs)
    (plain : '*' ∉ rootedPath ts) (apart : ¬ SameOrBelow ts cs) :
    samePage .path false target (some current) = .ok false := by
  obtain ⟨same, found, own⟩ := ht.exists_samePage_path hc plain
  rw [found, Bool.eq_false_iff.mpr fun same => apart (own.mp same)]

/-- With the path as threshold, pages are compared by their segments: every path is written with its
segments alone, a page is the open one if its segments are the same or go on below it, and a segment
that merely begins as another one does is another page. -/
theorem samePage_by_segments (ht : PathSplits target) (hc : PathSplits current) :
    ∃ ts cs, pathSegments target = .ok ts ∧ pathSegments current = .ok cs ∧
      urlPath target = .ok ('/' :: Text.joinWith ['/'] ts) ∧
      ('*' ∉ '/' :: Text.joinWith ['/'] ts →
        (∃ same, samePage .path false target (some current) = .ok same ∧
          (same = true ↔ ts = cs ∨ cs ≠ [] ∧ cs <+: ts ∧ cs ≠ ts)) ∧
        ∀ other, samePage .path false target (some current) = .ok true →
          samePage .path false current (some other) = .ok true →
            samePage .path false target (some other) = .ok true) ∧
      (urlPath target = .ok "/products2" → urlPath current = .ok "/products" →
        samePage .path false target (some current) = .ok false ∧
          samePage .path false current (some target) = .ok false) := by
  obtain ⟨ts, ht⟩ := ht.exists_isPath
  obtain ⟨cs, hc⟩ := hc.exists_isPath
  refine ⟨ts, cs, ht.pathSegments_eq, hc.pathSegments_eq, ht.path, fun plain =>
    ⟨ht.exists_samePage_path hc plain, fun other => ht.samePage_path_trans hc plain⟩, ?_⟩
  intro longer shorter
  have segments : ∀ {url path : Text} {ss : List Text}, IsPath url ss → urlPath url = .ok path →
      ss = segmentsOf path := by
    intro url path ss h found
    rw [← Except.ok.inj (h.path.symm.trans found), segmentsOf_rootedPath h.parts]
  obtain rfl : ts = ["products2"] := segments ht longer
  obtain rfl : cs = ["products"] := segments hc shorter
  exact ⟨ht.samePage_path_false hc (by decide) (by decide),
    hc.samePage_path_false ht (by decide) (by decide)⟩

/-- A page below the open one, both written with more than their segments. -/
theorem samePage_by_segments_product :
    PathSplits "https://shop.test//products/7/?tab=1" ∧ PathSplits "**/products#top" ∧
      samePage .path false "https://shop.test//products/7/?tab=1" (some "**/products#top") =
        .ok true := by
  have target : PathSplits "https://shop.test//products/7/?tab=1" := ⟨_, rfl⟩
  have current : PathSplits "**/products#top" := ⟨_, rfl⟩
  obtain ⟨ts, cs, hts, hcs, -, compared, -⟩ := samePage_by_segments target current
  obtain rfl : ts = ["products", "7"] := (Except.ok.inj hts).symm
  obtain rfl : cs = ["products"] := (Except.ok.inj hcs).symm
  obtain ⟨same, found, own⟩ := (compared (by decide)).1
  rw [own.mpr (by decide)] at found
  exact ⟨target, current, found⟩

end SamePage

end PageObjects
