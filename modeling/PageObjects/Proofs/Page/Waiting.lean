import PageObjects.Proofs.Page.Reach
import PageObjects.Proofs.Url.Glob
import PageObjects.Script.Extract

namespace PageObjects

namespace Paging

variable {options : PageOptions} {p : Paging} {s : Statement} {url : Text}

theorem switchedTab?_noteTab (p : Paging) (s : Statement) :
    (p.noteTab s).switchedTab? s = p.switchedTab? s := by
  unfold noteTab switchedTab?
  cases tab : p.current.pageVariable with
  | some v => simp [tab]
  | none =>
    cases s.pageVariable with
    | none => simp
    | some v => simp

/-- A wait for a URL in the tab of the open page leaves it open, or opens a dialog on it. -/
theorem arrive_of_wait (options : PageOptions) (kind : s.kind = .wait)
    (verb : s.verb = some ("waitForURL" : Text)) (here : p.switchedTab? s = none) :
    p.arrive options s = p.noteTab s ∨
      ∃ e, e.origin = .modal ∧ e.url = p.current.url ∧
        p.arrive options s = (p.noteTab s).enter e := by
  have calm : s.kind ≠ .navigation := by
    rw [kind]
    decide
  rcases arrive_opens options p s with ⟨stays, -⟩ | ⟨history, e, opens, he⟩
  · exact .inl stays
  · right
    have noted : (p.noteTab s).current.url = p.current.url := by
      rw [noteTab_eq]
    cases opens with
    | dialog => exact ⟨_, rfl, noted, he⟩
    | visit navigates => exact absurd navigates calm
    | back navigates => exact absurd navigates calm
    | lost navigates => exact absurd navigates calm
    | switch _ other =>
      rw [switchedTab?_noteTab, here] at other
      cases other
    | closing _ _ _ _ acts => exact absurd kind acts
    | tab _ _ _ signal =>
      have clicks : s.verbIn tabVerbs = true := (Bool.and_eq_true_iff.mp signal).1
      rw [Content.verbIn, verb] at clicks
      exact absurd clicks (by decide)

/-- Where waits have opened pages. -/
def waitEntries (p : Paging) : List Boundary :=
  (p.pages.filter fun page => page.origin = .urlChange).map fun page => page.entry

theorem waitEntries_eq (p : Paging) : p.waitEntries =
    (p.past.filter fun page => page.origin = .urlChange).map (fun page => page.entry) ++
      if p.current.origin = .urlChange then [p.current.entry] else [] := by
  rw [waitEntries, pages, List.filter_append, List.map_append, List.filter_singleton]
  congr 1
  by_cases opened : p.current.origin = .urlChange
  · simp [opened]
  · simp [opened]

@[simp] theorem waitEntries_noteTab (p : Paging) (s : Statement) :
    (p.noteTab s).waitEntries = p.waitEntries := by
  rw [waitEntries_eq, waitEntries_eq, noteTab_eq]
  rfl

@[simp] theorem waitEntries_add (p : Paging) (s : Statement) :
    (p.add s).waitEntries = p.waitEntries := by
  rw [waitEntries_eq, waitEntries_eq]
  rfl

/-- A page that no wait opens adds nothing; one without deeds may give way to it. -/
theorem waitEntries_enter_sublist {e : Entrance} (p : Paging) (other : e.origin ≠ .urlChange) :
    (p.enter e).waitEntries.Sublist p.waitEntries := by
  have origin : (p.enter e).current.origin = e.origin := by
    rw [current_enter]
    rfl
  rw [waitEntries_eq (p.enter e), origin, if_neg other, List.append_nil, past_enter]
  split
  next => exact List.Sublist.refl _
  next =>
    rw [waitEntries_eq]
    exact List.sublist_append_left _ _

/-- What a wait does that finds the open page to be the one that it waits for. -/
theorem step_of_same (kind : s.kind = .wait) (verb : s.verb = some ("waitForURL" : Text))
    (target : s.url = some url)
    (same : samePage options.threshold (isPatternArgument s.arguments.head?) url
      (p.arrive options s).current.url = .ok true) :
    p.step options s = .ok ((p.arrive options s).add s) := by
  have deed : s.isStructural = false := by
    rw [Content.isStructural, kind]
    rfl
  rw [step_of_deed deed, if_pos ⟨kind, verb⟩, waitForUrl, target]
  dsimp only
  split
  next => rfl
  next =>
    have compared : samePage options.threshold (isPatternArgument s.arguments.head?) url
        ((p.arrive options s).add s).current.url = .ok true := same
    rw [compared]
    rfl

theorem step_at_own_url (noSet : '[' ∉ url) (splits : options.threshold.Splits url)
    (kind : s.kind = .wait) (verb : s.verb = some ("waitForURL" : Text))
    (target : s.url = some url) (plain : isPatternArgument s.arguments.head? = false)
    (shown : p.current.url = some url) (here : p.switchedTab? s = none) :
    ∃ q, p.step options s = .ok q ∧ q.current.url = some url ∧
      q.current.statements.getLast? = some s ∧ q.history = p.history ∧
      q.waitEntries.Sublist p.waitEntries := by
  have url_noted : (p.noteTab s).current.url = some url := by
    rw [noteTab_eq]
    exact shown
  have history_noted : (p.noteTab s).history = p.history := by
    rw [noteTab_eq]
  obtain ⟨url_arrive, history_arrive, keeps⟩ : (p.arrive options s).current.url = some url ∧
      (p.arrive options s).history = p.history ∧
      (p.arrive options s).waitEntries.Sublist p.waitEntries := by
    rcases arrive_of_wait options kind verb here with stays | ⟨e, dialog, own, he⟩
    · rw [stays]
      refine ⟨url_noted, history_noted, ?_⟩
      rw [waitEntries_noteTab]
    · rw [he]
      refine ⟨?_, ?_, ?_⟩
      · rw [current_enter]
        exact own.trans shown
      · rw [history_enter, history_noted]
      · rw [← waitEntries_noteTab p s]
        apply waitEntries_enter_sublist
        rw [dialog]
        decide
  rw [← waitEntries_add _ s] at keeps
  refine ⟨(p.arrive options s).add s, ?_, url_arrive, List.getLast?_concat, history_arrive, keeps⟩
  apply step_of_same kind verb target
  rw [url_arrive, plain]
  exact samePage_self noSet splits

end Paging

/-- Waiting for the URL that is shown is no boundary. A URL or a glob without sets is the same page
as itself, if the part of it that counts can be split off. In any state, a wait for the URL of the
open page on the same tab, not written as a regular expression, stays on a page with this URL and
opens none, unless its locator speaks of a dialog. -/
theorem own_url_no_boundary {url : Text} (noSet : '[' ∉ url) :
    (∀ threshold : UrlThreshold, threshold.Splits url →
      samePage threshold false url (some url) = .ok true) ∧
    ∀ (options : PageOptions) (p : Paging) (s : Statement), options.threshold.Splits url →
      s.kind = .wait → s.verb = some ("waitForURL" : Text) → s.url = some url →
      isPatternArgument s.arguments.head? = false → p.current.url = some url →
      p.switchedTab? s = none →
        ∃ q, p.step options s = .ok q ∧ q.current.url = some url ∧
          q.current.statements.getLast? = some s ∧ q.history = p.history ∧
          q.waitEntries.Sublist p.waitEntries :=
  ⟨fun _ splits => samePage_self noSet splits,
    fun _ _ _ splits kind verb target plain shown here =>
      Paging.step_at_own_url noSet splits kind verb target plain shown here⟩

/-- A visit, and two waits for one glob. -/
def patientVisit : Text :=
  "await page.goto('/');\nawait page.waitForURL('**/cart?step=*');\n" ++
    "await page.waitForURL('**/cart?step=*');"

/-- The first wait opens a page, and the second one finds it open. -/
theorem own_url_no_boundary_patientVisit : ∃ turns p s q, Paging.Reaches {} turns p ∧
    turns.map Prod.snd = (Statement.ofText patientVisit).dropLast ∧
    (Statement.ofText patientVisit).getLast? = some s ∧ p.current.origin = .urlChange ∧
    '[' ∉ ("**/cart?step=*" : Text) ∧ UrlThreshold.path.Splits "**/cart?step=*" ∧
    samePage .path false "**/cart?step=*" (some "**/cart?step=*") = .ok true ∧
    p.step {} s = .ok q ∧ q.current.url = some "**/cart?step=*" ∧
    q.current.statements.getLast? = some s ∧ q.history = p.history ∧
    q.waitEntries.Sublist p.waitEntries := by
  have found : (Paging.run {} {} (Statement.ofText patientVisit).dropLast).toOption.any (fun p =>
      (Statement.ofText patientVisit).getLast?.any fun s => decide (s.kind = .wait ∧
        s.verb = some ("waitForURL" : Text) ∧ s.url = some ("**/cart?step=*" : Text) ∧
        isPatternArgument s.arguments.head? = false ∧
        p.current.url = some ("**/cart?step=*" : Text) ∧ p.switchedTab? s = none ∧
        p.current.origin = .urlChange)) = true := by
    decide +kernel
  obtain ⟨p, hr, found⟩ := exists_ok_of_any found
  obtain ⟨s, hs, found⟩ := (Option.any_eq_true _ _).mp found
  obtain ⟨kind, verb, target, plain, shown, here, origin⟩ := of_decide_eq_true found
  obtain ⟨turns, reached, same⟩ := Paging.reaches_of_run hr
  have noSet : '[' ∉ ("**/cart?step=*" : Text) := by decide
  have splits : UrlThreshold.path.Splits "**/cart?step=*" := ⟨_, rfl⟩
  obtain ⟨alike, stays⟩ := own_url_no_boundary noSet
  obtain ⟨q, hq, url, last, history, keeps⟩ :=
    stays {} p s splits kind verb target plain shown here
  exact ⟨turns, p, s, q, reached, same, hs, origin, noSet, splits, alike .path splits, hq, url,
    last, history, keeps⟩

end PageObjects
