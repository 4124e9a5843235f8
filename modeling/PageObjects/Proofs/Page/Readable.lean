import PageObjects.Proofs.Entries
import PageObjects.Proofs.Page.Partition

namespace PageObjects

/-- A URL that can be split, as a whole for its host and without leading stars for its path. -/
structure CanSplit (url : Text) : Prop where
  host : ∃ host, urlHost? url = .ok host
  path : ∃ path, urlPath url = .ok path

/-- A statement whose URL, if it has one, can be split; one that is a pattern can also be looked
for. -/
def Statement.Readable (s : Statement) : Prop :=
  ∀ url, s.url = some url → CanSplit url ∧
    (isPatternArgument s.arguments.head? = true → ∀ t, ∃ found, patternOccurs url t = .ok found)

/-- All URLs that paging keeps have a property. -/
structure Paging.UrlsAre (P : Text → Prop) (p : Paging) : Prop where
  closed : ∀ q ∈ p.closed, ∀ url, q.url = some url → P url
  current : ∀ url, p.current.url = some url → P url
  history : ∀ url, some url ∈ p.history → P url
  tabs : ∀ entry ∈ p.tabUrls, ∀ url, entry.2 = some url → P url

namespace Paging

theorem urlsAre_start (P : Text → Prop) : ({} : Paging).UrlsAre P where
  closed := by simp
  current := by simp [OpenPage.first]
  history := by simp
  tabs := by simp

theorem closed_url_withLastExit {P : Text → Prop} {pages : List ClosedPage}
    (h : ∀ q ∈ pages, ∀ url, q.url = some url → P url) (exit : Boundary) :
    ∀ q ∈ withLastExit exit pages, ∀ url, q.url = some url → P url := by
  rcases List.eq_nil_or_concat' pages with rfl | ⟨init, last, rfl⟩
  · simp [withLastExit]
  · rw [withLastExit_concat]
    intro q hq
    rcases List.mem_append.mp hq with hq | hq
    · exact h q (List.mem_append_left _ hq)
    · rw [List.mem_singleton.mp hq]
      exact h last (by simp)

namespace UrlsAre

variable {P : Text → Prop} {options : PageOptions} {p : Paging} {s : Statement}
  {history : List (Option Text)} {e : Entrance}

theorem url_of_mem_close (h : p.UrlsAre P) (exit : Boundary) :
    ∀ q ∈ p.close exit, ∀ url, q.url = some url → P url := by
  intro q hq
  rcases List.mem_append.mp hq with hq | hq
  · exact h.closed q hq
  · rw [List.mem_singleton.mp hq]
    exact h.current

theorem url_of_mem_tabUrlsWith (h : p.UrlsAre P) {url : Option Text}
    (hu : ∀ u, url = some u → P u) :
    ∀ entry ∈ p.tabUrlsWith url, ∀ u, entry.2 = some u → P u := by
  unfold Paging.tabUrlsWith
  split
  next v =>
    intro entry he
    rcases eq_or_mem_of_mem_setEntry he with rfl | he
    · exact hu
    · exact h.tabs entry he
  next => exact h.tabs

theorem urlsAre_enter (h : p.UrlsAre P) (he : ∀ u, e.url = some u → P u) :
    (p.enter e).UrlsAre P := by
  unfold Paging.enter
  split
  next => exact ⟨h.url_of_mem_close _, he, h.history, h.url_of_mem_tabUrlsWith h.current⟩
  next =>
    exact ⟨closed_url_withLastExit h.closed _, he, h.history, h.url_of_mem_tabUrlsWith h.current⟩

theorem urlsAre_add (h : p.UrlsAre P) :
    (p.add s).UrlsAre P := ⟨h.closed, h.current, h.history, h.tabs⟩

theorem urlsAre_noteTab (h : p.UrlsAre P) : (p.noteTab s).UrlsAre P := by
  unfold Paging.noteTab
  split
  next => exact ⟨h.closed, h.current, h.history, h.tabs⟩
  next => exact h

theorem of_mem_history_concat (h : p.UrlsAre P) {url : Option Text} (hu : ∀ u, url = some u → P u) :
    ∀ u, some u ∈ p.history ++ [url] → P u := by
  intro u there
  rcases List.mem_append.mp there with there | there
  · exact h.history u there
  · exact hu u (List.mem_singleton.mp there).symm

theorem of_mem_history_dropLast (h : p.UrlsAre P) : ∀ u, some u ∈ p.history.dropLast → P u :=
  fun u hu => h.history u ((List.dropLast_sublist _).subset hu)

theorem history_of_opens (h : p.UrlsAre P) (hs : ∀ u, s.url = some u → P u)
    (opens : p.Opens options s history e) : ∀ u, some u ∈ history → P u := by
  cases opens with
  | visit => exact h.of_mem_history_concat hs
  | back => exact h.of_mem_history_dropLast
  | _ => exact h.history

/-- A page opens with a URL of the statement, or with one that is kept. -/
theorem url_of_opens (h : p.UrlsAre P) (hs : ∀ u, s.url = some u → P u)
    (opens : p.Opens options s history e) : ∀ u, e.url = some u → P u := by
  intro u hu
  cases opens with
  | visit => exact hs u hu
  | back => exact h.of_mem_history_dropLast u (List.mem_of_getLast? (Option.join_eq_some_iff.mp hu))
  | lost => cases hu
  | switch => exact h.tabs _ (mem_of_valueAt? (Option.join_eq_some_iff.mp hu)) u rfl
  | dialog => exact h.current u hu
  | closing =>
    obtain ⟨q, hq, hu⟩ := Option.bind_eq_some_iff.mp hu
    obtain ⟨n, -, hn⟩ := Option.bind_eq_some_iff.mp hq
    exact h.closed q (List.mem_of_getElem? hn) u hu
  | tab => exact h.current u hu

theorem urlsAre_arrive (h : p.UrlsAre P) (hs : ∀ u, s.url = some u → P u) (options : PageOptions) :
    (p.arrive options s).UrlsAre P := by
  have noted : (p.noteTab s).UrlsAre P := h.urlsAre_noteTab
  rcases arrive_opens options p s with ⟨stays, -⟩ | ⟨history, e, opens, he⟩
  · rw [stays]
    exact noted
  · have moved : ({ p.noteTab s with history := history } : Paging).UrlsAre P :=
      ⟨noted.closed, noted.current, noted.history_of_opens hs opens, noted.tabs⟩
    rw [he]
    exact moved.urlsAre_enter (noted.url_of_opens hs opens)

theorem urlsAre_leaveFor (h : p.UrlsAre P) {target : Text} (ht : P target) :
    (p.leaveFor s target).UrlsAre P := by
  have only : ∀ u, some target = some u → P u := fun u hu => Option.some.inj hu ▸ ht
  exact ⟨h.url_of_mem_close _, only, h.of_mem_history_concat only, h.url_of_mem_tabUrlsWith only⟩

theorem urlsAre_of_step {q : Paging} (h : p.UrlsAre P) (hs : ∀ u, s.url = some u → P u)
    (hq : p.step options s = .ok q) : q.UrlsAre P := by
  cases turn_of_step hq with
  | idles => exact h.urlsAre_add
  | stays => exact (h.urlsAre_arrive hs options).urlsAre_add
  | leaves _ there =>
    obtain ⟨-, -, -, url⟩ := Statement.awaits?_eq_some there
    exact (h.urlsAre_arrive hs options).urlsAre_add.urlsAre_leaveFor (hs _ url)

theorem url_of_mem_finish (h : p.UrlsAre P) : ∀ q ∈ p.finish, ∀ u, q.url = some u → P u := by
  by_cases acts : p.current.hasActions = true
  · rw [finish_of_hasActions acts]
    exact h.url_of_mem_close _
  · rcases List.eq_nil_or_concat' p.closed with hc | ⟨pages, last, hc⟩
    · have hf : p.finish = p.close (.after p.current.statements) := by
        simp [Paging.finish, Paging.close, hc]
      rw [hf]
      exact h.url_of_mem_close _
    · have hclosed := h.closed
      rw [hc] at hclosed
      rw [finish_of_concat (Bool.eq_false_iff.mpr acts) hc]
      intro q hq
      rcases List.mem_append.mp hq with hq | hq
      · exact hclosed q (List.mem_append_left _ hq)
      · rw [List.mem_singleton.mp hq]
        exact hclosed last (by simp)

end UrlsAre

end Paging

/-- Comparing with the open page succeeds on URLs that can be split. -/
theorem exists_samePage (threshold : UrlThreshold) {isPattern : Bool} {target : Text}
    {current : Option Text} (ht : CanSplit target)
    (hp : isPattern = true → ∀ t, ∃ found, patternOccurs target t = .ok found)
    (hc : ∀ url, current = some url → CanSplit url) :
    ∃ same, samePage threshold isPattern target current = .ok same := by
  cases current with
  | none => exact ⟨false, rfl⟩
  | some url =>
    obtain ⟨⟨host, hhost⟩, path, hpath⟩ := ht
    obtain ⟨⟨currentHost, hcurrentHost⟩, currentPath, hcurrentPath⟩ := hc url rfl
    cases threshold with
    | domain =>
      simp only [samePage, sameDomain, hhost, hcurrentHost]
      cases host with
      | none => exact ⟨true, rfl⟩
      | some host => exact ⟨_, rfl⟩
    | full =>
      cases isPattern with
      | true => exact hp rfl url
      | false => exact ⟨_, rfl⟩
    | path =>
      cases isPattern with
      | true =>
        simp only [samePage, hcurrentPath]
        exact hp rfl currentPath
      | false =>
        simp only [samePage, samePath, hpath, hcurrentPath, bind, Except.bind]
        split
        next => exact ⟨_, rfl⟩
        next => exact ⟨_, rfl⟩

namespace Paging

theorem exists_step (options : PageOptions) {p : Paging} {s : Statement}
    (urls : p.UrlsAre CanSplit) (hs : s.Readable) : ∃ q, p.step options s = .ok q := by
  by_cases structural : s.isStructural = true
  · exact ⟨_, step_of_structural structural⟩
  · rw [step_of_deed (Bool.eq_false_iff.mpr structural)]
    split
    next =>
      have arrived := (urls.urlsAre_arrive (fun u hu => (hs u hu).1) options).urlsAre_add (s := s)
      unfold waitForUrl
      split
      next => exact ⟨_, rfl⟩
      next target hu =>
        split
        next => exact ⟨_, rfl⟩
        next =>
          obtain ⟨ht, hp⟩ := hs target hu
          obtain ⟨same, hsame⟩ := exists_samePage options.threshold ht hp
            arrived.current
          simp only [hsame]
          cases same with
          | true => exact ⟨_, rfl⟩
          | false => exact ⟨_, rfl⟩
    next => exact ⟨_, rfl⟩

/-- Paging gets through readable statements. -/
theorem exists_run (options : PageOptions) {statements : List Statement} {p : Paging}
    (urls : p.UrlsAre CanSplit) (hs : ∀ s ∈ statements, s.Readable) :
    ∃ q, p.run options statements = .ok q ∧ q.UrlsAre CanSplit := by
  induction statements generalizing p with
  | nil => exact ⟨p, rfl, urls⟩
  | cons s rest ih =>
    obtain ⟨next, hstep⟩ := exists_step options urls (hs s (by simp))
    have kept := urls.urlsAre_of_step (fun u hu => (hs s (by simp) u hu).1) hstep
    obtain ⟨q, hq, hurls⟩ := ih kept fun t ht => hs t (by simp [ht])
    refine ⟨q, ?_, hurls⟩
    simp only [run, List.foldlM_cons, hstep] at hq ⊢
    exact hq

end Paging

theorem exists_meaningfulSegments {url : Text} (h : CanSplit url) :
    ∃ segments, meaningfulSegments url = .ok segments := by
  obtain ⟨path, hp⟩ := h.path
  exact ⟨_, by rw [meaningfulSegments, pathSegments, hp]; rfl⟩

theorem exists_urlPattern {url : Text} (h : CanSplit url) :
    ∃ pattern, urlPattern url = .ok pattern := by
  obtain ⟨path, hp⟩ := h.path
  exact ⟨_, by rw [urlPattern, pathSegments, hp]; rfl⟩

namespace ClosedPage

theorem exists_pattern {p : ClosedPage} (h : ∀ url, p.url = some url → CanSplit url) :
    ∃ pattern, p.pattern = .ok pattern := by
  unfold pattern
  split
  next => exact ⟨_, rfl⟩
  next url hu =>
    split
    next => exact ⟨_, rfl⟩
    next =>
      obtain ⟨pattern, hp⟩ := exists_urlPattern (h url hu)
      exact ⟨some pattern, by rw [hp]; rfl⟩

theorem exists_urlWords {p : ClosedPage} (h : ∀ url, p.url = some url → CanSplit url) :
    ∃ words, p.urlWords = .ok words := by
  unfold urlWords
  split
  next => exact ⟨_, rfl⟩
  next url hu =>
    split
    next => exact ⟨_, rfl⟩
    next =>
      obtain ⟨segments, hs⟩ := exists_meaningfulSegments (h url hu)
      exact ⟨_, by rw [hs]; rfl⟩

theorem exists_ownTitle {p : ClosedPage} (h : ∀ url, p.url = some url → CanSplit url) :
    ∃ title, p.ownTitle = .ok title := by
  obtain ⟨words, hw⟩ := p.exists_urlWords h
  rw [ownTitle, hw]
  cases words with
  | none => exact ⟨_, rfl⟩
  | some words =>
    cases words with
    | nil => exact ⟨_, rfl⟩
    | cons word more => exact ⟨_, rfl⟩

theorem exists_title {p : ClosedPage} (h : ∀ url, p.url = some url → CanSplit url)
    (titles : List Text) : ∃ title, p.title titles = .ok title := by
  unfold title
  dsimp only
  split
  next => exact ⟨_, rfl⟩
  next => exact ⟨_, rfl⟩
  next => exact ⟨_, rfl⟩
  next => exact p.exists_ownTitle h

end ClosedPage

theorem exists_nameSpans {pages : List ClosedPage}
    (h : ∀ p ∈ pages, ∀ url, p.url = some url → CanSplit url) (titles taken : List Text) :
    ∃ spans, nameSpans titles taken pages = .ok spans := by
  induction pages generalizing titles taken with
  | nil => exact ⟨[], rfl⟩
  | cons page rest ih =>
    have hpage := h page (by simp)
    obtain ⟨title, ht⟩ := page.exists_title hpage titles
    obtain ⟨pattern, hp⟩ := page.exists_pattern hpage
    obtain ⟨spans, hs⟩ := ih (fun p hp => h p (by simp [hp])) (titles ++ [title])
      (uniqueName title taken :: taken)
    refine ⟨{ page with name := uniqueName title taken, urlPattern := pattern } :: spans, ?_⟩
    simp only [nameSpans, ht, hp, hs, bind, Except.bind, pure, Except.pure]

/-- Readable statements have pages. -/
theorem PageSpan.exists_ofStatements {options : PageOptions} {statements : List Statement}
    (h : ∀ s ∈ statements, s.Readable) :
    ∃ spans, PageSpan.ofStatements options statements = .ok spans := by
  obtain ⟨p, hr, urls⟩ := Paging.exists_run options (Paging.urlsAre_start CanSplit) h
  obtain ⟨spans, hs⟩ := exists_nameSpans urls.url_of_mem_finish [] []
  exact ⟨spans, by rw [PageSpan.ofStatements, hr]; exact hs⟩

/-- The pages that are found partition the statements, and readable statements have pages. -/
theorem PageSpan.ofStatements_partitions (options : PageOptions) {statements : List Statement}
    (deed : ∃ s ∈ statements, s.isStructural = false) :
    (∀ spans, PageSpan.ofStatements options statements = .ok spans →
      PagePartition statements (spans.map fun span => span.toClosedPage)) ∧
    ((∀ s ∈ statements, s.Readable) →
      ∃ spans, PageSpan.ofStatements options statements = .ok spans) :=
  ⟨fun _ h => PageSpan.pagePartition_ofStatements deed h, PageSpan.exists_ofStatements⟩

/-- A visit, a wait for another URL, and a comment in front of the next visit: the page of the
awaited URL never does anything and becomes that of the visit. -/
def relabeledVisit : List Statement := [
  { kind := .navigation, verb := some ("goto" : Text), url := some "/cart", line := 1, endLine := 1,
    source := "page.goto('/cart');" },
  { kind := .wait, verb := some ("waitForURL" : Text), url := some "/done", line := 2, endLine := 2,
    source := "page.waitForURL('/done');" },
  { kind := .structural, role := some .comment, line := 3, endLine := 3, source := "// back" },
  { kind := .navigation, verb := some ("goto" : Text), url := some "/home", line := 4, endLine := 4,
    source := "page.goto('/home');" }]

theorem ofStatements_partitions_relabeledVisit :
    (∃ s ∈ relabeledVisit, s.isStructural = false) ∧
    ∃ spans, PageSpan.ofStatements {} relabeledVisit = .ok spans ∧
      (spans.map fun span => span.origin) = [.navigation, .navigation] ∧
      PagePartition relabeledVisit (spans.map fun span => span.toClosedPage) := by
  have deed : ∃ s ∈ relabeledVisit, s.isStructural = false := ⟨_, List.mem_cons_self, rfl⟩
  have found : (PageSpan.ofStatements {} relabeledVisit).toOption.any (fun spans =>
      (spans.map fun span => span.origin) == [.navigation, .navigation]) = true := by
    decide +kernel
  obtain ⟨spans, hs, ho⟩ := exists_ok_of_any found
  exact ⟨deed, spans, hs, beq_iff_eq.mp ho,
    (PageSpan.ofStatements_partitions {} deed).1 spans hs⟩

end PageObjects
