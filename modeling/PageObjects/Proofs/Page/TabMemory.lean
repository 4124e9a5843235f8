import PageObjects.Proofs.Entries
import PageObjects.Proofs.Page.Reach
import PageObjects.Script.Extract

namespace PageObjects

/-- The URL that a tab showed when it was open last. -/
def lastUrlOn (tab : Text) (turns : List (Paging × Statement)) : Option Text :=
  (turns.reverse.find? fun turn => turn.1.current.pageVariable = some tab).bind fun turn =>
    turn.1.current.url

theorem lastUrlOn_concat (tab : Text) (turns : List (Paging × Statement)) (p : Paging)
    (s : Statement) : lastUrlOn tab (turns ++ [(p, s)]) =
      if p.current.pageVariable = some tab then p.current.url else lastUrlOn tab turns := by
  rw [lastUrlOn, List.reverse_concat, List.find?_cons]
  by_cases here : p.current.pageVariable = some tab
  · simp [here]
  · simp [here, lastUrlOn]

/-- A page that is opened by a switch to another tab: it has the URL that this tab showed when it
was open last. -/
def OpenPage.SwitchedTo (turns : List (Paging × Statement)) (page : OpenPage) : Prop :=
  ∃ before q s after tab, turns = before ++ (q, s) :: after ∧
    page.entry = .at .pageSwitch s ∧ s.pageVariable = some tab ∧ page.pageVariable = some tab ∧
    q.current.pageVariable ≠ some tab ∧ page.url = lastUrlOn tab before

namespace OpenPage.SwitchedTo

variable {turns : List (Paging × Statement)} {page : OpenPage}

theorem switchedTo_concat (h : page.SwitchedTo turns) (turn : Paging × Statement) :
    page.SwitchedTo (turns ++ [turn]) := by
  obtain ⟨before, q, s, after, tab, rfl, facts⟩ := h
  exact ⟨before, q, s, after ++ [turn], tab, by simp, facts⟩

/-- The tab of such a page is known. -/
theorem or_pageVariable (h : page.SwitchedTo turns) (tab : Option Text) :
    page.pageVariable.or tab = page.pageVariable := by
  obtain ⟨-, -, -, -, own, -, -, -, known, -⟩ := h
  rw [known, Option.some_or]

end OpenPage.SwitchedTo

namespace Paging

variable {options : PageOptions} {p q : Paging} {s : Statement} {tab : Text}

/-- The URL that paging remembers for a tab. -/
def remembered (p : Paging) (tab : Text) : Option Text := (valueAt? tab p.tabUrls).join

theorem switchedTab?_eq_some : p.switchedTab? s = some tab ↔
    s.pageVariable = some tab ∧ ∃ own, p.current.pageVariable = some own ∧ own ≠ tab := by
  unfold switchedTab?
  cases s.pageVariable with
  | none => simp
  | some v =>
    cases p.current.pageVariable with
    | none => simp
    | some own => by_cases same : v = own <;> grind

theorem pageVariable_noteTab (p : Paging) (s : Statement) :
    (p.noteTab s).current.pageVariable = p.current.pageVariable.or s.pageVariable := by
  rw [noteTab_eq]

theorem pageVariable_enter (p : Paging) (e : Entrance) :
    (p.enter e).current.pageVariable = e.pageVariable.or p.current.pageVariable := by
  rw [current_enter]
  rfl

/-- A page that opens stays on its tab or goes to that of the statement. -/
theorem Opens.pageVariable_eq_none_or {history : List (Option Text)} {e : Entrance}
    (h : p.Opens options s history e) :
    e.pageVariable = none ∨ e.pageVariable = s.pageVariable := by
  cases h with
  | switch _ other => exact .inr (switchedTab?_eq_some.mp other).1.symm
  | dialog => exact .inl rfl
  | closing => exact .inl rfl
  | tab => exact .inl rfl
  | visit => exact .inr rfl
  | back => exact .inr rfl
  | lost => exact .inr rfl

theorem join_valueAt?_tabUrlsWith (p : Paging) (tab : Text) (url : Option Text) :
    (valueAt? tab (p.tabUrlsWith url)).join =
      if p.current.pageVariable = some tab then url else p.remembered tab := by
  unfold tabUrlsWith
  cases p.current.pageVariable with
  | none => rfl
  | some own =>
    simp only [valueAt?_setEntry, Option.some.injEq]
    split <;> rfl

theorem remembered_noteTab (p : Paging) (s : Statement) (tab : Text) :
    (p.noteTab s).remembered tab = p.remembered tab := by
  rw [noteTab_eq]
  rfl

theorem remembered_enter (p : Paging) (e : Entrance) (tab : Text) :
    (p.enter e).remembered tab =
      if p.current.pageVariable = some tab then p.current.url else p.remembered tab := by
  rw [remembered, tabUrls_enter, join_valueAt?_tabUrlsWith]

/-- When a statement arrives, what is remembered changes for the tab that it leaves, and for no
other. -/
theorem remembered_arrive (away : (p.arrive options s).current.pageVariable ≠ some tab) :
    (p.arrive options s).remembered tab =
      if p.current.pageVariable = some tab then p.current.url else p.remembered tab := by
  rcases arrive_opens options p s with ⟨stays, -⟩ | ⟨history, e, opens, he⟩
  · rw [stays, pageVariable_noteTab] at away
    rw [stays, remembered_noteTab, if_neg]
    intro here
    rw [here, Option.some_or] at away
    exact away rfl
  · have entered : (p.arrive options s).remembered tab =
        if (p.noteTab s).current.pageVariable = some tab then (p.noteTab s).current.url
        else (p.noteTab s).remembered tab := by
      rw [he]
      exact remembered_enter _ e tab
    have there : (p.arrive options s).current.pageVariable =
        e.pageVariable.or (p.noteTab s).current.pageVariable := by
      rw [he, pageVariable_enter]
    rw [there] at away
    rw [entered, remembered_noteTab]
    cases own : p.current.pageVariable with
    | some v => simp [noteTab_eq, own]
    | none =>
      -- The statement is the first one to name a tab, so it stays there.
      have noted : (p.noteTab s).current.pageVariable = s.pageVariable := by
        rw [pageVariable_noteTab, own, Option.none_or]
      rw [noted] at away ⊢
      have other : s.pageVariable ≠ some tab := by
        rcases opens.pageVariable_eq_none_or with stays | goes
        · rwa [stays, Option.none_or] at away
        · rwa [goes, Option.or_self] at away
      rw [if_neg other, if_neg (Option.some_ne_none tab).symm]

theorem remembered_leaveFor (target : Text) (away : p.current.pageVariable ≠ some tab) :
    (p.leaveFor s target).remembered tab = p.remembered tab := by
  rw [remembered, leaveFor, join_valueAt?_tabUrlsWith, if_neg away]

/-- What one statement does to the memory: it changes for the tab that is left, and for no other. -/
theorem remembered_step (h : p.step options s = .ok q)
    (away : q.current.pageVariable ≠ some tab) : q.remembered tab =
      if p.current.pageVariable = some tab then p.current.url else p.remembered tab := by
  cases turn_of_step h with
  | idles =>
    have here : p.current.pageVariable ≠ some tab := away
    rw [if_neg here]
    rfl
  | stays => exact remembered_arrive away
  | @leaves target =>
    have arrived : (p.arrive options s).current.pageVariable ≠ some tab := away
    rw [← remembered_arrive arrived]
    exact remembered_leaveFor target arrived

/-- A tab that is not open is remembered with the URL that it showed last. -/
theorem Reaches.remembered_eq {turns : List (Paging × Statement)} (h : Reaches options turns p)
    (away : p.current.pageVariable ≠ some tab) : p.remembered tab = lastUrlOn tab turns := by
  induction h with
  | start => rfl
  | @next turns p q s _ hs ih =>
    rw [remembered_step hs away, lastUrlOn_concat]
    by_cases here : p.current.pageVariable = some tab
    · rw [if_pos here, if_pos here]
    · rw [if_neg here, if_neg here, ih here]

/-- A statement that switches to another tab finds remembered what this tab showed last. -/
theorem Reaches.of_switchedTab? {turns : List (Paging × Statement)} (h : Reaches options turns p)
    (other : (p.noteTab s).switchedTab? s = some tab) : s.pageVariable = some tab ∧
      p.current.pageVariable ≠ some tab ∧
      (p.noteTab s).remembered tab = lastUrlOn tab turns := by
  obtain ⟨goes, own, here, ne⟩ := switchedTab?_eq_some.mp other
  have away : p.current.pageVariable ≠ some tab := by
    intro same
    rw [pageVariable_noteTab, same, Option.some_or] at here
    exact ne (Option.some.inj here).symm
  exact ⟨goes, away, (remembered_noteTab p s tab).trans (h.remembered_eq away)⟩

/-- What every statement keeps: a page that is opened by a switch has the URL that its tab showed
last. -/
structure Switched (turns : List (Paging × Statement)) (p : Paging) : Prop where
  past : ∀ page ∈ p.past, page.origin = .pageSwitch → page.SwitchedTo turns
  current : p.current.origin = .pageSwitch → p.current.SwitchedTo turns

namespace Switched

variable {turns : List (Paging × Statement)}

theorem switched_start : ({} : Paging).Switched [] where
  past := fun _ hp => absurd hp List.not_mem_nil
  current := by
    intro switch
    cases switch

theorem switched_add (h : p.Switched turns) (s : Statement) : (p.add s).Switched turns :=
  ⟨h.past, h.current⟩

theorem switchedTo_of_mem_pages (h : p.Switched turns) :
    ∀ page ∈ p.pages, page.origin = .pageSwitch → page.SwitchedTo turns := by
  intro page hp
  rcases List.mem_append.mp hp with past | last
  · exact h.past page past
  · rw [List.mem_singleton.mp last]
    exact h.current

theorem switched_concat (h : p.Switched turns) (turn : Paging × Statement) :
    p.Switched (turns ++ [turn]) :=
  ⟨fun page hp switch => (h.past page hp switch).switchedTo_concat turn,
    fun switch => (h.current switch).switchedTo_concat turn⟩

theorem switched_noteTab (h : p.Switched turns) (s : Statement) : (p.noteTab s).Switched turns := by
  rw [noteTab_eq]
  refine ⟨h.past, ?_⟩
  intro switch
  have switched := h.current switch
  rw [switched.or_pageVariable]
  exact switched

theorem switched_arrive (h : p.Switched turns) (reached : Reaches options turns p) (s : Statement) :
    (p.arrive options s).Switched (turns ++ [(p, s)]) := by
  have noted := (h.switched_noteTab s).switched_concat (p, s)
  rcases arrive_opens options p s with ⟨stays, -⟩ | ⟨history, e, opens, he⟩
  · rw [stays]
    exact noted
  · rw [he]
    refine ⟨?_, ?_⟩
    · rw [past_enter]
      split
      next => exact noted.switchedTo_of_mem_pages
      next => exact noted.past
    · rw [current_enter]
      intro switch
      cases opens with
      | @switch tab _ other =>
        obtain ⟨goes, away, url⟩ := reached.of_switchedTab? other
        exact ⟨turns, p, s, [], tab, rfl, rfl, goes, rfl, away, url⟩
      | _ => cases switch

theorem switched_of_step (h : p.Switched turns) (reached : Reaches options turns p)
    (hs : p.step options s = .ok q) : q.Switched (turns ++ [(p, s)]) := by
  cases turn_of_step hs with
  | idles => exact (h.switched_concat (p, s)).switched_add s
  | stays => exact (h.switched_arrive reached s).switched_add s
  | leaves =>
    have closed := ((h.switched_arrive reached s).switched_add s).switchedTo_of_mem_pages
    rw [← past_leaveFor] at closed
    refine ⟨closed, ?_⟩
    intro switch
    cases switch

theorem of_reaches (h : Reaches options turns p) : p.Switched turns := by
  induction h with
  | start => exact .switched_start
  | next reached hs ih => exact ih.switched_of_step reached hs

end Switched

end Paging

/-- What is remembered for a tab that is not open is the URL that it showed when it was open last,
and nothing if it never was. So a page that is opened by a switch to another tab has the URL with
which this tab was left. -/
theorem Paging.tabs_as_left {options : PageOptions} {turns : List (Paging × Statement)} {p : Paging}
    (h : Paging.Reaches options turns p) :
    (∀ tab, p.current.pageVariable ≠ some tab →
      (valueAt? tab p.tabUrls).join = lastUrlOn tab turns) ∧
    ∀ page ∈ p.pages, page.origin = .pageSwitch → page.SwitchedTo turns :=
  ⟨fun _ away => h.remembered_eq away, (Paging.Switched.of_reaches h).switchedTo_of_mem_pages⟩

/-- A visit, a wait and a click in a tab that it opens, and a click back on its page. -/
def visitWithPopup : Text :=
  "await page.goto('/docs');\nawait popup.waitForURL('/help');\nawait popup.click('#search');\n" ++
    "await page.click('#menu');"

/-- The first tab is open again with its own URL, and that of the second one is remembered. -/
theorem Paging.tabs_as_left_visitWithPopup :
    ∃ turns p, Paging.Reaches {} turns p ∧ turns.map Prod.snd = Statement.ofText visitWithPopup ∧
      p.current.pageVariable = some "page" ∧ p.current.url = some "/docs" ∧
      p.current.SwitchedTo turns ∧ lastUrlOn "popup" turns = some "/help" := by
  have found : (Paging.run {} {} (Statement.ofText visitWithPopup)).toOption.any (fun p =>
      decide (p.current.pageVariable = some ("page" : Text) ∧
        p.current.url = some ("/docs" : Text) ∧ p.current.origin = .pageSwitch ∧
        (valueAt? ("popup" : Text) p.tabUrls).join = some ("/help" : Text))) = true := by
    decide +kernel
  obtain ⟨p, hr, found⟩ := exists_ok_of_any found
  obtain ⟨tab, url, switch, left⟩ := of_decide_eq_true found
  obtain ⟨turns, reached, same⟩ := Paging.reaches_of_run hr
  obtain ⟨remembered, switched⟩ := Paging.tabs_as_left reached
  have away : p.current.pageVariable ≠ some ("popup" : Text) := by
    rw [tab]
    decide
  have last : p.current ∈ p.pages := List.mem_of_getLast? p.getLast?_pages
  exact ⟨turns, p, reached, same, tab, url, switched _ last switch,
    (remembered _ away).symm.trans left⟩

end PageObjects
