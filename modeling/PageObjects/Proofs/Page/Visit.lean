import PageObjects.Proofs.Page.Readable

namespace PageObjects

/-- Whether a statement goes to a URL that is no pattern. -/
structure Statement.Visits (s : Statement) (url : Text) : Prop where
  kind : s.kind = .navigation
  verb : s.verb = some ("goto" : Text)
  plain : isPatternArgument s.arguments.head? = false
  url : s.url = some url

instance (s : Statement) (url : Text) : Decidable (s.Visits url) :=
  decidable_of_iff (s.kind = .navigation ∧ s.verb = some ("goto" : Text) ∧
      isPatternArgument s.arguments.head? = false ∧ s.url = some url)
    ⟨fun ⟨kind, verb, plain, url⟩ => ⟨kind, verb, plain, url⟩,
      fun h => ⟨h.kind, h.verb, h.plain, h.url⟩⟩

/-- Whether a page has a URL that is no pattern. -/
def OpenPage.Shows (p : OpenPage) (url : Text) : Prop := p.url = some url ∧ p.urlIsPattern = false

/-- Whether one of the pages shows a URL for good: it is closed or has a deed. -/
def Paging.Remembers (url : Text) (p : Paging) : Prop :=
  (∃ q ∈ p.closed, q.Shows url) ∨ (p.current.Shows url ∧ p.current.hasActions = true)

namespace Paging

theorem exists_withLastExit {url : Text} {pages : List ClosedPage} (exit : Boundary)
    (h : ∃ q ∈ pages, q.Shows url) : ∃ q ∈ withLastExit exit pages, q.Shows url := by
  obtain ⟨q, hq, shows⟩ := h
  rcases List.eq_nil_or_concat' pages with rfl | ⟨init, last, rfl⟩
  · cases hq
  · rw [withLastExit_concat]
    rcases List.mem_append.mp hq with hq | hq
    · exact ⟨q, List.mem_append_left _ hq, shows⟩
    · rw [List.mem_singleton.mp hq] at shows
      exact ⟨{ last with exit := exit }, by simp, shows⟩

namespace Remembers

variable {url : Text} {p : Paging} {s : Statement}

theorem exists_shows_close (h : p.Remembers url) (exit : Boundary) :
    ∃ q ∈ p.close exit, q.Shows url := by
  rcases h with ⟨q, hq, shows⟩ | ⟨shows, -⟩
  · exact ⟨q, List.mem_append_left _ hq, shows⟩
  · exact ⟨{ p.current with exit := exit }, by simp [Paging.close], shows⟩

theorem remembers_add (h : p.Remembers url) (s : Statement) : (p.add s).Remembers url := by
  rcases h with old | ⟨shows, acts⟩
  · exact .inl old
  · exact .inr ⟨shows, OpenPage.hasActions_add (.inl acts)⟩

theorem remembers_noteTab (h : p.Remembers url) (s : Statement) : (p.noteTab s).Remembers url := by
  unfold Paging.noteTab
  split
  next => exact h
  next => exact h

theorem remembers_enter (h : p.Remembers url) (e : Entrance) : (p.enter e).Remembers url := by
  unfold Paging.enter
  split
  next => exact .inl (h.exists_shows_close e.boundary)
  next idle =>
    -- only a page without deeds gives way to another one
    rcases h with old | ⟨-, acts⟩
    · exact .inl (exists_withLastExit e.boundary old)
    · exact absurd acts idle

theorem remembers_arrive (h : p.Remembers url) (options : PageOptions) (s : Statement) :
    (p.arrive options s).Remembers url := by
  rcases arrive_cases options p s with ⟨he, -⟩ | ⟨history, e, -, he⟩
  · rw [he]
    exact h.remembers_noteTab s
  · have noted : ({ p.noteTab s with history := history } : Paging).Remembers url :=
      h.remembers_noteTab s
    rw [he]
    exact noted.remembers_enter e

theorem remembers_of_step (h : p.Remembers url) {options : PageOptions} {q : Paging}
    (hs : p.step options s = .ok q) : q.Remembers url := by
  cases turn_of_step hs with
  | idles => exact h.remembers_add s
  | stays => exact (h.remembers_arrive options s).remembers_add s
  | leaves => exact .inl (((h.remembers_arrive options s).remembers_add s).exists_shows_close _)

theorem remembers_of_run (h : p.Remembers url) {options : PageOptions} {statements : List Statement}
    {q : Paging}
    (hr : p.run options statements = .ok q) : q.Remembers url := by
  induction statements generalizing p with
  | nil =>
    cases Except.ok.inj hr
    exact h
  | cons s rest ih =>
    obtain ⟨next, hs, hr⟩ := exists_ok_of_bind hr
    exact ih (h.remembers_of_step hs) hr

theorem exists_shows_finish (h : p.Remembers url) : ∃ q ∈ p.finish, q.Shows url := by
  by_cases acts : p.current.hasActions = true
  · rw [finish_of_hasActions acts]
    exact h.exists_shows_close _
  · rcases h with ⟨q, hq, shows⟩ | ⟨-, acts'⟩
    · rcases List.eq_nil_or_concat' p.closed with hc | ⟨pages, last, hc⟩
      · rw [hc] at hq
        cases hq
      · -- what stands behind the last deed goes to the last closed page, which keeps its URL
        rw [finish_of_concat (Bool.eq_false_iff.mpr acts) hc]
        rw [hc] at hq
        rcases List.mem_append.mp hq with hq | hq
        · exact ⟨q, List.mem_append_left _ hq, shows⟩
        · rw [List.mem_singleton.mp hq] at shows
          exact ⟨_, List.mem_append_right _ List.mem_cons_self, shows⟩
    · exact absurd acts' acts

end Remembers

/-- Whatever page was open, a visit opens or becomes one that shows its URL. -/
theorem remembers_of_visit {options : PageOptions} {p q : Paging} {s : Statement} {url : Text}
    (visit : s.Visits url) (h : p.step options s = .ok q) : q.Remembers url := by
  have deed : s.isStructural = false := by simp [Content.isStructural, visit.kind]
  have shows : (p.arrive options s).current.Shows url := by
    simp only [arrive, visit.kind, if_true, navigate, visit.verb, enter]
    split
    next => exact ⟨visit.url, visit.plain⟩
    next => exact ⟨visit.url, visit.plain⟩
  rw [step_of_deed deed, if_neg (by simp [visit.kind])] at h
  cases Except.ok.inj h
  exact .inr ⟨shows, OpenPage.hasActions_add (.inr deed)⟩

theorem remembers_of_mem_visit {options : PageOptions} {p q : Paging} {statements : List Statement}
    {s : Statement} {url : Text} (visit : s.Visits url) (hs : s ∈ statements)
    (h : p.run options statements = .ok q) : q.Remembers url := by
  induction statements generalizing p with
  | nil => cases hs
  | cons t rest ih =>
    obtain ⟨next, ht, hr⟩ := exists_ok_of_bind h
    rcases List.mem_cons.mp hs with rfl | hs
    · exact (remembers_of_visit visit ht).remembers_of_run hr
    · exact ih hs hr

end Paging

/-- Pages that are named have URLs with a path. -/
theorem exists_pattern_of_nameSpans {titles taken : List Text} {pages : List ClosedPage}
    {spans : List PageSpan} (h : nameSpans titles taken pages = .ok spans) :
    ∀ p ∈ pages, ∃ pattern, p.pattern = .ok pattern := by
  induction pages generalizing titles taken spans with
  | nil =>
    intro p hp
    cases hp
  | cons page rest ih =>
    obtain ⟨title, -, h⟩ := exists_ok_of_bind h
    obtain ⟨pattern, hp, h⟩ := exists_ok_of_bind h
    obtain ⟨others, hr, -⟩ := exists_ok_of_bind h
    exact List.forall_mem_cons.mpr ⟨⟨pattern, hp⟩, ih hr⟩

/-- Statements that have pages visit no URL whose path cannot be split off. -/
theorem Statement.Visits.exists_urlPath {options : PageOptions} {statements : List Statement}
    {spans : List PageSpan} {s : Statement} {url : Text} (visit : s.Visits url)
    (hs : s ∈ statements) (h : PageSpan.ofStatements options statements = .ok spans) :
    ∃ path, urlPath url = .ok path := by
  obtain ⟨p, hr, hn⟩ := exists_ok_of_bind h
  obtain ⟨q, hq, hu, plain⟩ := (Paging.remembers_of_mem_visit visit hs hr).exists_shows_finish
  obtain ⟨pattern, hp⟩ := exists_pattern_of_nameSpans hn q hq
  simp only [ClosedPage.pattern, hu, plain, urlPattern, pathSegments] at hp
  cases found : urlPath url with
  | ok path => exact ⟨path, rfl⟩
  | error e =>
    rw [found] at hp
    cases hp

end PageObjects
