import PageObjects.Page.Span
import PageObjects.Proofs.Name.Title
import PageObjects.Proofs.Outcome

namespace PageObjects

open Text

namespace ClosedPage

variable {p : ClosedPage}

/-- The words that a dialog or a tab is named after. -/
def partWords (p : ClosedPage) (ignored : List Text) (host : Option Text) : List Text :=
  let own := contentWords p.nameHint ignored
  if own.isEmpty then (wordsOf host).filter (· != ("page" : Text)) else own

/-- The words for a page, without a last one that says that it is one. -/
def withoutPage (words : List Text) : List Text :=
  if words.getLast? = some ("page" : Text) then words.dropLast else words

/-- The words that a page is named after which is no part of another one. -/
def ownWords (p : ClosedPage) : Except UrlError (List Text) :=
  p.urlWords.map fun found => withoutPage (found.getD
    (if p.origin = .pageSwitch then wordsOf (p.nameHint.map (afterLast '.')) else []))

/-- The word that the title of a page starts with, given the titles of the pages before it. -/
def leadWord? (titles : List Text) (p : ClosedPage) : Except UrlError (Option Text) :=
  let host := p.host.bind fun n => titles[n]?
  match p.origin, host with
  | .modal, _ => .ok (p.partWords modalWords host).head?
  | .tab, _ => .ok (p.partWords tabWords host).head?
  | .modalClose, some title => .ok (Text.words title).head?
  | _, _ => p.ownWords.map List.head?

theorem isWord_of_mem_partWords {ignored : List Text} {host : Option Text} {w : Text}
    (h : w ∈ p.partWords ignored host) : w.IsWord := by
  unfold partWords at h
  extract_lets own at h
  split at h
  next => exact isWord_of_mem_wordsOf (List.mem_filter.mp h).1
  next =>
    have inside : w ∈ contentWords p.nameHint ignored := h
    unfold contentWords at inside
    split at inside
    next => cases inside
    next => exact isWord_of_mem_wordsOf (List.mem_filter.mp inside).1

theorem isTitleOf_partTitle (p : ClosedPage) (ignored : List Text) (host : Option Text)
    {kind : Text} (made : kind.all isNameChar = true) :
    IsTitleOf (p.partWords ignored host).head? (p.partTitle ignored host kind) := by
  have main : IsIdentifier "Main" := by decide +kernel
  have words : ∀ w ∈ p.partWords ignored host, w.IsWord := fun w hw => isWord_of_mem_partWords hw
  exact (IsTitleOf.pascal_or words main).append made

theorem isTitleOf_wordsTitle {words : List Text} (h : ∀ w ∈ words, w.IsWord) (filled : words ≠ []) :
    IsTitleOf (withoutPage words).head? (wordsTitle words) := by
  have page : (("Page" : Text).all isNameChar) = true := by decide +kernel
  unfold wordsTitle withoutPage
  extract_lets shown
  refine IsTitleOf.append ?_ page
  rw [show shown = if words.getLast? = some ("page" : Text) then
    if 1 < words.length then words.dropLast else ["main"] else words from rfl]
  split
  next =>
    have others : ∀ w ∈ words.dropLast, w.IsWord := fun w hw => h w (List.mem_of_mem_dropLast hw)
    split
    next long =>
      refine .pascal others fun empty => ?_
      have count := congrArg List.length empty
      rw [List.length_dropLast, List.length_nil] at count
      omega
    next short =>
      have empty : words.dropLast = [] := List.length_eq_zero_iff.mp (by
        rw [List.length_dropLast]
        omega)
      rw [empty]
      exact .of_isIdentifier (by decide +kernel)
  next => exact .pascal h filled

theorem isWord_of_urlWords {words : List Text} (h : p.urlWords = .ok (some words)) :
    ∀ w ∈ words, w.IsWord := by
  unfold urlWords at h
  split at h
  next => cases h
  next url =>
    split at h
    next =>
      cases Except.ok.inj h
      intro w hw
      exact isWord_of_mem_words (List.mem_filter.mp (List.mem_of_mem_drop hw)).1
    next =>
      obtain ⟨segments, -, found⟩ := exists_ok_of_map h
      cases Option.some.inj found
      exact isWord_of_getLast? segments

theorem isTitleOf_ownTitle {title : Text} (h : p.ownTitle = .ok title) :
    ∃ lead, p.ownWords.map List.head? = .ok lead ∧ IsTitleOf lead title := by
  obtain ⟨found, hf, h⟩ := exists_ok_of_bind h
  rw [ownWords, hf]
  refine ⟨_, rfl, ?_⟩
  split at h
  next =>
    cases Except.ok.inj h
    exact .of_isIdentifier (by decide +kernel)
  next words filled =>
    cases Except.ok.inj h
    exact isTitleOf_wordsTitle (isWord_of_urlWords hf) filled
  next =>
    extract_lets words at h
    have named : ∀ w ∈ words, w.IsWord := by
      intro w hw
      rw [show words = if p.origin = .pageSwitch then
        wordsOf (p.nameHint.map (afterLast '.')) else [] from rfl] at hw
      split at hw
      next => exact isWord_of_mem_wordsOf hw
      next => cases hw
    show IsTitleOf (withoutPage words).head? title
    clear_value words
    cases Except.ok.inj h
    cases words with
    | nil => exact .of_isIdentifier (by decide +kernel)
    | cons w ws => exact isTitleOf_wordsTitle named (List.cons_ne_nil w ws)

theorem isTitleOf_title {titles : List Text} {title : Text} (h : p.title titles = .ok title)
    (before : ∀ t ∈ titles, ∃ lead, IsTitleOf lead t) :
    ∃ lead, p.leadWord? titles = .ok lead ∧ IsTitleOf lead title := by
  have modal : (("Modal" : Text).all isNameChar) = true := by decide +kernel
  have tab : (("Tab" : Text).all isNameChar) = true := by decide +kernel
  unfold ClosedPage.title at h
  unfold leadWord?
  dsimp only at h ⊢
  generalize hosted : (p.host.bind fun n => titles[n]?) = host at h ⊢
  generalize p.origin = origin at h ⊢
  cases origin with
  | modal =>
    cases Except.ok.inj h
    exact ⟨_, rfl, p.isTitleOf_partTitle modalWords host modal⟩
  | tab =>
    cases Except.ok.inj h
    exact ⟨_, rfl, p.isTitleOf_partTitle tabWords host tab⟩
  | modalClose =>
    cases host with
    | none => exact isTitleOf_ownTitle h
    | some t =>
      cases Except.ok.inj h
      obtain ⟨n, -, listed⟩ := Option.bind_eq_some_iff.mp hosted
      obtain ⟨lead, named⟩ := before title (List.mem_of_getElem? listed)
      exact ⟨_, rfl, named.of_title⟩
  | start | navigation | history | urlChange | pageSwitch => exact isTitleOf_ownTitle h

end ClosedPage

/-- How a page is named after its title, given the titles of the pages before it. -/
structure PageSpan.IsNamed (s : PageSpan) (before : List Text) (title : Text) : Prop where
  titled : s.toClosedPage.title before = .ok title
  variant : IsVariant title s.name
  lead : ∃ lead, s.leadWord? before = .ok lead ∧ IsTitleOf lead s.name

theorem exists_titles {titles taken : List Text} {pages : List ClosedPage} {spans : List PageSpan}
    (h : nameSpans titles taken pages = .ok spans)
    (before : ∀ t ∈ titles, ∃ lead, IsTitleOf lead t) :
    ∃ more : List Text, ∀ (k : Nat) (s : PageSpan), spans[k]? = some s →
      ∃ title, more[k]? = some title ∧ s.IsNamed (titles ++ more.take k) title := by
  induction pages generalizing titles taken spans with
  | nil =>
    cases Except.ok.inj h
    exact ⟨[], fun k s absent => by cases absent⟩
  | cons page rest ih =>
    obtain ⟨title, ht, h⟩ := exists_ok_of_bind h
    obtain ⟨pattern, -, h⟩ := exists_ok_of_bind h
    obtain ⟨others, ho, h⟩ := exists_ok_of_bind h
    cases Except.ok.inj h
    obtain ⟨lead, words, named⟩ := page.isTitleOf_title ht before
    have all : ∀ t ∈ titles ++ [title], ∃ lead, IsTitleOf lead t := by
      intro t ht
      rcases List.mem_append.mp ht with old | new
      · exact before t old
      · exact ⟨lead, List.mem_singleton.mp new ▸ named⟩
    obtain ⟨more, later⟩ := ih ho all
    refine ⟨title :: more, fun k s hk => ?_⟩
    have variant := uniqueName_isVariant title taken
    cases k with
    | zero =>
      cases Option.some.inj hk
      rw [List.take_zero, List.append_nil]
      exact ⟨title, rfl, ht, variant, lead, words, named.of_isVariant variant⟩
    | succ k =>
      obtain ⟨t, listed, isNamed⟩ := later k s hk
      rw [List.append_assoc] at isNamed
      exact ⟨t, listed, isNamed⟩

theorem nodup_nameSpans {titles taken : List Text} {pages : List ClosedPage}
    {spans : List PageSpan} (h : nameSpans titles taken pages = .ok spans) :
    (spans.map PageSpan.name).Nodup ∧ ∀ name ∈ spans.map PageSpan.name, name ∉ taken := by
  induction pages generalizing titles taken spans with
  | nil =>
    cases Except.ok.inj h
    exact ⟨.nil, nofun⟩
  | cons page rest ih =>
    obtain ⟨title, -, h⟩ := exists_ok_of_bind h
    obtain ⟨pattern, -, h⟩ := exists_ok_of_bind h
    obtain ⟨others, ho, h⟩ := exists_ok_of_bind h
    cases Except.ok.inj h
    obtain ⟨distinct, fresh⟩ := ih ho
    constructor
    · exact List.nodup_cons.mpr ⟨fun again => fresh _ again List.mem_cons_self, distinct⟩
    · refine List.forall_mem_cons.mpr ⟨uniqueName_notMem title taken, fun name hn known => ?_⟩
      exact fresh name hn (List.mem_cons_of_mem _ known)

/-- Pages have titles after which they are named, each apart from the others. -/
theorem PageSpan.named_ofStatements {options : PageOptions} {statements : List Statement}
    {spans : List PageSpan} (h : PageSpan.ofStatements options statements = .ok spans) :
    (∃ titles : List Text, ∀ (k : Nat) (s : PageSpan), spans[k]? = some s →
      ∃ title, titles[k]? = some title ∧ s.IsNamed (titles.take k) title) ∧
    (spans.map PageSpan.name).Nodup := by
  obtain ⟨paging, -, named⟩ := exists_ok_of_bind h
  exact ⟨exists_titles named nofun, (nodup_nameSpans named).1⟩

end PageObjects
