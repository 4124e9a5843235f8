import PageObjects.Page.Paging
import PageObjects.Proofs.Outcome

namespace PageObjects

/-- Verbs that go to a URL, back or forward. -/
def movingVerbs : List Text := ["goto", "goBack", "goForward"]

/-- Whether a statement goes to a URL, back or forward. -/
def Content.navigates (c : Content) : Bool := c.kind == .navigation && c.verbIn movingVerbs

namespace Origin

/-- The kind of boundary at which pages of an origin are entered. -/
def boundaryKind : Origin → BoundaryKind
  | start => .startOfInput
  | navigation => .navigation
  | history => .navigation
  | urlChange => .urlChange
  | pageSwitch => .pageSwitch
  | modal => .modalOpen
  | modalClose => .modalClose
  | tab => .tabSwitch

/-- Whether a page of an origin is opened by its own first deed. -/
def isOwnDeed : Origin → Bool
  | start => false
  | urlChange => false
  | _ => true

end Origin

theorem Content.navigates_of_isStructural {c : Content} (h : c.isStructural = true) :
    c.navigates = false := by
  have hk : c.kind = .structural := by simpa [isStructural] using h
  simp [navigates, hk]

/-- What an entrance before a statement is: the statement makes its boundary. -/
structure Entrance.OpensAt (e : Entrance) (s : Statement) : Prop where
  boundary : e.boundary = .at e.origin.boundaryKind s
  own : e.origin.isOwnDeed = true

/-- The URL of another page that a statement waits for, on a page that shows a URL. -/
def Statement.awaits? (options : PageOptions) (s : Statement) (shown : Option Text) :
    Option Text :=
  if s.kind = .wait ∧ s.verb = some ("waitForURL" : Text) ∧ options.urlChangeOpensPage = true then
    s.url.filter fun target =>
      (samePage options.threshold (isPatternArgument s.arguments.head?) target shown).toOption =
        some false
  else none

theorem Statement.awaits?_eq_none {options : PageOptions} {s : Statement} {shown : Option Text}
    (h : s.kind ≠ .wait) : s.awaits? options shown = none :=
  if_neg fun waits => h waits.1

theorem Statement.awaits?_eq_some {options : PageOptions} {s : Statement} {shown : Option Text}
    {target : Text} (h : s.awaits? options shown = some target) :
    s.kind = .wait ∧ s.verb = some ("waitForURL" : Text) ∧ options.urlChangeOpensPage = true ∧
      s.url = some target := by
  unfold awaits? at h
  split at h
  next waits => exact ⟨waits.1, waits.2.1, waits.2.2, Option.eq_some_of_filter_eq_some h⟩
  next => cases h

namespace Paging

/-- The pages when a statement that does something arrives, before it is added. -/
def arrive (options : PageOptions) (p : Paging) (s : Statement) : Paging :=
  let p := p.noteTab s
  if s.kind = .navigation then p.navigate s
  else match p.entrance? options s with
    | some e => p.enter e
    | none => p

/-- The pages once a statement has waited for the URL of another page. -/
def leaveFor (p : Paging) (s : Statement) (target : Text) : Paging :=
  let boundary := Boundary.at .urlChange s
  { p with
    closed := p.close boundary
    current :=
      { origin := .urlChange
        confidence :=
          if p.current.url.isSome then Origin.urlChange.confidence else unknownOriginConfidence
        entry := boundary
        url := some target
        urlIsPattern := isPatternArgument s.arguments.head?
        pageVariable := p.current.pageVariable }
    history := p.history ++ [some target]
    tabUrls := p.tabUrlsWith (some target) }

theorem step_of_structural {options : PageOptions} {p : Paging} {s : Statement}
    (h : s.isStructural = true) : p.step options s = .ok (p.add s) := by
  simp [step, h]

theorem step_of_deed {options : PageOptions} {p : Paging} {s : Statement}
    (h : s.isStructural = false) : p.step options s =
      if s.kind = .wait ∧ s.verb = some ("waitForURL" : Text) then
        ((p.arrive options s).add s).waitForUrl options s
      else .ok ((p.arrive options s).add s) := by
  by_cases hk : s.kind = .navigation
  · simp [step, h, hk, arrive]
  · cases he : (p.noteTab s).entrance? options s with
    | none => simp only [step, arrive, h, hk, he, Bool.false_eq_true, if_false]
    | some e => simp only [step, arrive, h, hk, he, Bool.false_eq_true, if_false]

/-- The ways in which a statement opens a page when it arrives: what navigation has gone through
then, and the entrance. -/
inductive Opens (options : PageOptions) (p : Paging) (s : Statement) :
    List (Option Text) → Entrance → Prop
  | visit (kind : s.kind = .navigation) (verb : s.verb = some ("goto" : Text)) :
      Opens options p s (p.history ++ [s.url]) {
        origin := .navigation
        boundary := .at .navigation s
        url := s.url
        urlIsPattern := isPatternArgument s.arguments.head?
        pageVariable := s.pageVariable }
  | back (kind : s.kind = .navigation) (verb : s.verb = some ("goBack" : Text))
      (far : 2 ≤ p.history.length) :
      Opens options p s p.history.dropLast {
        origin := .history
        boundary := .at .navigation s
        url := p.history.dropLast.getLast?.join
        pageVariable := s.pageVariable }
  | lost (kind : s.kind = .navigation)
      (verb : s.verb = some ("goForward" : Text) ∨
        s.verb = some ("goBack" : Text) ∧ p.history.length < 2) :
      Opens options p s p.history {
        origin := .history
        boundary := .at .navigation s
        pageVariable := s.pageVariable }
  | switch {tab : Text} (kind : s.kind ≠ .navigation) (other : p.switchedTab? s = some tab) :
      Opens options p s p.history {
        origin := .pageSwitch
        boundary := .at .pageSwitch s
        pageVariable := some tab
        url := (valueAt? tab p.tabUrls).join
        nameHint := some tab }
  | dialog (kind : s.kind ≠ .navigation) (same : p.switchedTab? s = none)
      (pages : options.modals = .page) (signal : s.isModalSignal = true)
      (fresh : p.current.origin ≠ .modal) (onPage : s.subtype ≠ some .dialog) :
      Opens options p s p.history {
        origin := .modal
        boundary := .at .modalOpen s
        url := p.current.url
        nameHint := s.selector
        host := some p.number }
  | closing (kind : s.kind ≠ .navigation) (same : p.switchedTab? s = none)
      (dialog : p.current.origin = .modal) (signal : s.isModalSignal = false)
      (acts : s.kind ≠ .wait) (onPage : s.subtype ≠ some .dialog) :
      Opens options p s p.history {
        origin := .modalClose
        boundary := .at .modalClose s
        url := (p.current.host.bind fun n => p.closed[n]?).bind fun h => h.url
        host := p.current.host }
  | tab (kind : s.kind ≠ .navigation) (same : p.switchedTab? s = none)
      (pages : options.tabsOpenPages = true) (signal : s.isTabSignal = true) :
      Opens options p s p.history {
        origin := .tab
        boundary := .at .tabSwitch s
        url := p.current.url
        nameHint := s.selector
        host := if p.current.origin = .tab then p.current.host else some p.number }

namespace Opens

variable {options : PageOptions} {p : Paging} {s : Statement} {history : List (Option Text)}
  {e : Entrance}

theorem opensAt (h : p.Opens options s history e) : e.OpensAt s := by
  cases h <;> exact ⟨rfl, rfl⟩

theorem of_modal (h : p.Opens options s history e) (dialog : e.origin = .modal) :
    e.url = p.current.url ∧ e.host = some p.number := by
  cases h with
  | dialog => exact ⟨rfl, rfl⟩
  | _ => cases dialog

theorem of_modalClose (h : p.Opens options s history e) (closing : e.origin = .modalClose) :
    p.current.origin = .modal ∧
      e.url = (p.current.host.bind fun n => p.closed[n]?).bind fun q => q.url := by
  cases h with
  | closing _ _ dialog => exact ⟨dialog, rfl⟩
  | _ => cases closing

end Opens

theorem opens_of_entrance? {options : PageOptions} {p : Paging} {s : Statement} {e : Entrance}
    (kind : s.kind ≠ .navigation) (h : p.entrance? options s = some e) :
    p.Opens options s p.history e := by
  simp only [entrance?] at h
  split at h
  next tab other =>
    cases h
    exact .switch kind other
  next other =>
    have same : p.switchedTab? s = none := Option.eq_none_iff_forall_ne_some.mpr other
    split at h
    next dialog =>
      cases h
      obtain ⟨pages, signal, fresh, onPage⟩ := dialog
      exact .dialog kind same pages signal fresh (by simpa using onPage)
    next =>
      split at h
      next closing =>
        cases h
        obtain ⟨dialog, signal, acts, onPage⟩ := closing
        exact .closing kind same dialog (by simpa using signal) acts (by simpa using onPage)
      next =>
        split at h
        next tab =>
          cases h
          exact .tab kind same tab.1 tab.2
        next => cases h

/-- A statement that navigates opens a page; one of the kind that does not leaves it open. -/
theorem navigate_opens (options : PageOptions) (p : Paging) {s : Statement}
    (kind : s.kind = .navigation) :
    (p.navigate s = p ∧ s.navigates = false) ∨
      ∃ history e, p.Opens options s history e ∧
        p.navigate s = { p with history := history }.enter e := by
  unfold navigate
  split
  next goto => exact .inr ⟨_, _, .visit kind goto, rfl⟩
  next notGoto =>
    split
    next back =>
      split
      next far => exact .inr ⟨_, _, .back kind back far, rfl⟩
      next near => exact .inr ⟨_, _, .lost kind (.inr ⟨back, by omega⟩), rfl⟩
    next notBack =>
      split
      next forward => exact .inr ⟨_, _, .lost kind (.inl forward), rfl⟩
      next notForward =>
        refine .inl ⟨rfl, ?_⟩
        have hv : s.verbIn movingVerbs = false := by
          cases hs : s.verb with
          | none => simp [Content.verbIn, hs]
          | some v =>
            simp only [hs, Option.some.injEq] at notGoto notBack notForward
            simp only [Content.verbIn, movingVerbs, hs, Option.any_some, List.contains_cons,
              List.contains_nil, beq_eq_false_iff_ne.mpr notGoto, beq_eq_false_iff_ne.mpr notBack,
              beq_eq_false_iff_ne.mpr notForward, Bool.or_self]
        simp only [Content.navigates, hv, Bool.and_false]

/-- The pages when a deed arrives: the open one stays, or the deed opens another one. -/
theorem arrive_opens (options : PageOptions) (p : Paging) (s : Statement) :
    (p.arrive options s = p.noteTab s ∧ s.navigates = false) ∨
      ∃ history e, (p.noteTab s).Opens options s history e ∧
        p.arrive options s = { p.noteTab s with history := history }.enter e := by
  unfold arrive
  by_cases hk : s.kind = .navigation
  · simp only [hk, if_true]
    exact navigate_opens options (p.noteTab s) hk
  · simp only [hk, if_false]
    cases he : (p.noteTab s).entrance? options s with
    | none => exact .inl ⟨rfl, by simp [Content.navigates, hk]⟩
    | some e => exact .inr ⟨_, e, opens_of_entrance? hk he, rfl⟩

theorem arrive_cases (options : PageOptions) (p : Paging) (s : Statement) :
    (p.arrive options s = p.noteTab s ∧ s.navigates = false) ∨
      ∃ history e, e.OpensAt s ∧
        p.arrive options s = { p.noteTab s with history := history }.enter e := by
  rcases arrive_opens options p s with stays | ⟨history, e, opens, he⟩
  · exact .inl stays
  · exact .inr ⟨history, e, opens.opensAt, he⟩

/-- What a statement does to the pages: it is added to the open page, or to the one that is open
when it has arrived, and may have waited for the URL of yet another one. -/
inductive Turn (options : PageOptions) (p : Paging) (s : Statement) : Paging → Prop
  | idles (idle : s.isStructural = true) : Turn options p s (p.add s)
  | stays (deed : s.isStructural = false)
      (here : s.awaits? options (p.arrive options s).current.url = none) :
      Turn options p s ((p.arrive options s).add s)
  | leaves {target : Text} (deed : s.isStructural = false)
      (there : s.awaits? options (p.arrive options s).current.url = some target) :
      Turn options p s (((p.arrive options s).add s).leaveFor s target)

theorem turn_of_waitForUrl {options : PageOptions} {p q : Paging} {s : Statement}
    (deed : s.isStructural = false) (waits : s.kind = .wait ∧ s.verb = some ("waitForURL" : Text))
    (h : ((p.arrive options s).add s).waitForUrl options s = .ok q) : Turn options p s q := by
  unfold waitForUrl at h
  split at h
  next noUrl =>
    cases Except.ok.inj h
    refine .stays deed ?_
    simp only [Statement.awaits?, noUrl, Option.filter_none, ite_self]
  next target url =>
    split at h
    next off =>
      cases Except.ok.inj h
      exact .stays deed (if_neg fun ⟨_, _, on⟩ => by simp [on] at off)
    next on =>
      have all : s.kind = .wait ∧ s.verb = some ("waitForURL" : Text) ∧
          options.urlChangeOpensPage = true := ⟨waits.1, waits.2, by simpa using on⟩
      obtain ⟨same, found, h⟩ := exists_ok_of_bind h
      have shown : samePage options.threshold (isPatternArgument s.arguments.head?) target
          (p.arrive options s).current.url = .ok same := found
      cases same with
      | true =>
        cases Except.ok.inj h
        refine .stays deed ?_
        simp only [Statement.awaits?, if_pos all, url, Option.filter_some, shown]
        rfl
      | false =>
        cases Except.ok.inj h
        refine .leaves deed ?_
        simp only [Statement.awaits?, if_pos all, url, Option.filter_some, shown]
        rfl

/-- What a statement does is one of these. -/
theorem turn_of_step {options : PageOptions} {p q : Paging} {s : Statement}
    (h : p.step options s = .ok q) : Turn options p s q := by
  by_cases structural : s.isStructural = true
  · rw [step_of_structural structural] at h
    cases Except.ok.inj h
    exact .idles structural
  · have deed : s.isStructural = false := Bool.eq_false_iff.mpr structural
    rw [step_of_deed deed] at h
    split at h
    next waits => exact turn_of_waitForUrl deed waits h
    next calm =>
      cases Except.ok.inj h
      exact .stays deed (if_neg fun waits => calm ⟨waits.1, waits.2.1⟩)

end Paging

end PageObjects
