import PageObjects.Proofs.Page.Reach
import PageObjects.Script.Extract

namespace PageObjects

/-- What becomes of a page that a statement finds open, with `more` behind its statements. It stays
as it is and may get to know its tab, or the statement describes it anew as nothing has been done
there. -/
inductive OpenPage.Grows (s : Statement) (page : OpenPage) (more : List Statement) :
    OpenPage → Prop
  | same (tab : Option Text) : Grows s page more { page with
      pageVariable := page.pageVariable.or tab
      statements := page.statements ++ more }
  | relabeled {later : OpenPage} (idle : page.hasActions = false)
      (statements : later.statements = page.statements ++ more)
      (entry : later.entry = .at later.origin.boundaryKind s) : Grows s page more later

namespace OpenPage.Grows

variable {s : Statement} {page later : OpenPage} {more : List Statement}

theorem grows_noted (tab : Option Text) :
    page.Grows s [] { page with pageVariable := page.pageVariable.or tab } := by
  have same : page.Grows s [] { page with
      pageVariable := page.pageVariable.or tab
      statements := page.statements ++ [] } := .same tab
  rwa [List.append_nil] at same

theorem grows_add (h : page.Grows s more later) (t : Statement) :
    page.Grows s (more ++ [t]) (later.add t) := by
  cases h with
  | same tab =>
    have grown : page.Grows s (more ++ [t]) { page with
        pageVariable := page.pageVariable.or tab
        statements := page.statements ++ (more ++ [t]) } := .same tab
    rwa [← List.append_assoc] at grown
  | relabeled idle statements entry =>
    refine .relabeled idle ?_ entry
    have added : (later.add t).statements = later.statements ++ [t] := rfl
    rw [added, statements, List.append_assoc]

theorem statements_eq (h : page.Grows s more later) :
    later.statements = page.statements ++ more := by
  cases h with
  | same => rfl
  | relabeled _ statements => exact statements

end OpenPage.Grows

namespace Paging

variable {options : PageOptions} {p q r : Paging} {s : Statement}

/-- Which pages a statement closes, and the page that is open behind it. -/
inductive Closes (options : PageOptions) (p : Paging) (s : Statement) :
    List OpenPage → OpenPage → Prop
  | stays {page : OpenPage} (grown : p.current.Grows s [s] page) : Closes options p s [] page
  | before {page next : OpenPage} (left : p.current.Grows s [] page)
      (acts : p.current.hasActions = true) (alone : next.statements = [s]) :
      Closes options p s [page] next
  | behind {page next : OpenPage} {target : Text} (left : p.current.Grows s [s] page)
      (waits : s.awaits? options page.url = some target) (fresh : next.statements = []) :
      Closes options p s [page] next
  | twice {page other next : OpenPage} {target : Text} (left : p.current.Grows s [] page)
      (acts : p.current.hasActions = true)
      (opens : other.origin = .pageSwitch ∨ other.origin = .modal)
      (alone : other.statements = [s]) (waits : s.awaits? options other.url = some target)
      (fresh : next.statements = []) : Closes options p s [page, other] next

/-- What opens a page for a statement that waits for a URL. -/
theorem Opens.of_awaits {history : List (Option Text)} {e : Entrance} {shown : Option Text}
    {target : Text} (opens : p.Opens options s history e)
    (waits : s.awaits? options shown = some target) :
    e.origin = .pageSwitch ∨ e.origin = .modal := by
  obtain ⟨kind, verb, -, -⟩ := Statement.awaits?_eq_some waits
  have calm : s.kind ≠ .navigation := by
    rw [kind]
    decide
  cases opens with
  | switch => exact .inl rfl
  | dialog => exact .inr rfl
  | visit navigates => exact absurd navigates calm
  | back navigates => exact absurd navigates calm
  | lost navigates => exact absurd navigates calm
  | closing _ _ _ _ acts => exact absurd kind acts
  | tab _ _ _ signal =>
    have clicks : s.verbIn tabVerbs = true := (Bool.and_eq_true_iff.mp signal).1
    rw [Content.verbIn, verb] at clicks
    exact absurd clicks (by decide)

/-- When a statement arrives, the open page grows by nothing, or it is closed as it is and the one
that opens is empty. -/
theorem closes_arrive (options : PageOptions) (p : Paging) (s : Statement) :
    ((p.arrive options s).past = p.past ∧
      p.current.Grows s [] (p.arrive options s).current) ∨
    ∃ page history e, (p.arrive options s).past = p.past ++ [page] ∧
      p.current.Grows s [] page ∧ p.current.hasActions = true ∧
      (p.noteTab s).Opens options s history e ∧ (p.arrive options s).current.origin = e.origin ∧
      (p.arrive options s).current.statements = [] := by
  have noted : p.current.Grows s [] (p.noteTab s).current := by
    rw [noteTab_eq]
    exact .grows_noted s.pageVariable
  have past : (p.noteTab s).past = p.past := by
    rw [noteTab_eq]
    rfl
  have deeds : (p.noteTab s).current.hasActions = p.current.hasActions := by
    rw [noteTab_eq]
    rfl
  rcases arrive_opens options p s with ⟨stays, -⟩ | ⟨history, e, opens, he⟩
  · left
    rw [stays]
    exact ⟨past, noted⟩
  · have pages : (p.arrive options s).past =
        if p.current.hasActions then p.past ++ [(p.noteTab s).current] else p.past := by
      rw [he, past_enter]
      show (if (p.noteTab s).current.hasActions then _ else (p.noteTab s).past) = _
      rw [deeds, past, ← past]
      rfl
    have current : (p.arrive options s).current.statements =
        if p.current.hasActions then [] else p.current.statements := by
      rw [he, current_enter]
      show (if (p.noteTab s).current.hasActions then _ else (p.noteTab s).current.statements) = _
      rw [deeds, noted.statements_eq, List.append_nil]
    have origin : (p.arrive options s).current.origin = e.origin := by
      rw [he, current_enter]
      rfl
    cases acts : p.current.hasActions with
    | true =>
      rw [acts, if_pos rfl] at pages current
      exact .inr ⟨_, history, e, pages, noted, rfl, opens, origin, current⟩
    | false =>
      rw [acts, if_neg Bool.false_ne_true] at pages current
      refine .inl ⟨pages, .relabeled acts (by rw [current, List.append_nil]) ?_⟩
      rw [origin, he, current_enter]
      exact opens.opensAt.boundary

theorem closes_step (h : p.step options s = .ok q) :
    ∃ closed, q.past = p.past ++ closed ∧ p.Closes options s closed q.current := by
  have nothing : p.past = p.past ++ [] := (List.append_nil _).symm
  cases turn_of_step h with
  | idles =>
    refine ⟨[], nothing, .stays ?_⟩
    have same : p.current.Grows s [s] { p.current with
        pageVariable := p.current.pageVariable.or none
        statements := p.current.statements ++ [s] } := .same none
    rwa [Option.or_none] at same
  | stays =>
    rcases closes_arrive options p s with ⟨past, grown⟩ |
      ⟨page, history, e, past, grown, acts, -, -, empty⟩
    · exact ⟨[], past.trans nothing, .stays (grown.grows_add s)⟩
    · refine ⟨[page], past, .before grown acts ?_⟩
      show (p.arrive options s).current.statements ++ [s] = [s]
      rw [empty, List.nil_append]
  | @leaves target _ there =>
    have closed : (((p.arrive options s).add s).leaveFor s target).past =
        (p.arrive options s).past ++ [(p.arrive options s).current.add s] :=
      past_leaveFor _ s target
    rcases closes_arrive options p s with ⟨past, grown⟩ |
      ⟨page, history, e, past, grown, acts, opens, origin, empty⟩
    · rw [past] at closed
      exact ⟨_, closed, .behind (grown.grows_add s) there rfl⟩
    · rw [past, List.append_assoc] at closed
      have opened : e.origin = .pageSwitch ∨ e.origin = .modal := opens.of_awaits there
      refine ⟨_, closed, .twice grown acts ?_ ?_ there rfl⟩
      · rwa [← origin] at opened
      · show (p.arrive options s).current.statements ++ [s] = [s]
        rw [empty, List.nil_append]

/-- What later pages keep of those before: the closed ones, whatever they are left at, and where
each of them is left but the last; where that one is left too, once something has been done on the
open page. -/
structure LeadsTo (p q : Paging) : Prop where
  past : p.past <+: q.past
  exits : p.closed.dropLast <+: q.closed
  settled : p.current.hasActions = true →
    p.closed <+: q.closed ∧ (q.current.hasActions = true ∨ p.number < q.number)

namespace LeadsTo

/-- A page that grows keeps its deeds. -/
theorem of_closed_eq (closed : q.closed = p.closed)
    (acts : p.current.hasActions = true → q.current.hasActions = true) : p.LeadsTo q where
  past := by
    have same : q.past = p.past := congrArg (List.map ClosedPage.toOpenPage) closed
    exact same ▸ List.prefix_refl q.past
  exits := by
    rw [closed]
    exact List.dropLast_prefix _
  settled h := by
    rw [closed]
    exact ⟨List.prefix_refl _, .inl (acts h)⟩

theorem of_closed_concat {page : ClosedPage} (closed : q.closed = p.closed ++ [page]) :
    p.LeadsTo q where
  past := by
    rw [Paging.past, Paging.past, closed, List.map_append]
    exact List.prefix_append _ _
  exits := by
    rw [closed]
    exact (List.dropLast_prefix _).trans (List.prefix_append _ _)
  settled _ := by
    have longer : p.number < q.number := by
      show p.closed.length < q.closed.length
      rw [closed, List.length_append, List.length_singleton]
      omega
    rw [closed]
    exact ⟨List.prefix_append _ _, .inr longer⟩

theorem refl (p : Paging) : p.LeadsTo p := .of_closed_eq rfl id

theorem number_le (h : p.LeadsTo q) : p.number ≤ q.number := by
  have lengths := h.past.length_le
  rwa [length_past, length_past] at lengths

/-- A proper beginning of some pages is not touched where the last of them changes. -/
theorem prefix_closed (h : q.LeadsTo r) {pages : List ClosedPage} (within : pages <+: q.closed)
    (shorter : pages.length < q.number) : pages <+: r.closed := by
  have short : pages.length ≤ q.closed.dropLast.length := by
    rw [List.length_dropLast]
    show pages.length ≤ q.number - 1
    omega
  have inside : pages <+: q.closed.dropLast :=
    List.prefix_of_prefix_length_le within (List.dropLast_prefix _) short
  exact inside.trans h.exits

theorem trans (h : p.LeadsTo q) (h' : q.LeadsTo r) : p.LeadsTo r where
  past := h.past.trans h'.past
  exits := by
    rcases Nat.eq_zero_or_pos p.number with first | later
    · have empty : p.closed = [] := List.eq_nil_of_length_eq_zero first
      rw [empty]
      exact List.nil_prefix
    · have fewer : p.closed.dropLast.length < q.number := by
        have count := h.number_le
        rw [List.length_dropLast]
        show p.number - 1 < q.number
        omega
      exact h'.prefix_closed h.exits fewer
  settled acts := by
    obtain ⟨within, later⟩ := h.settled acts
    rcases later with acts' | more
    · obtain ⟨within', later'⟩ := h'.settled acts'
      refine ⟨within.trans within', later'.imp_right fun more => ?_⟩
      exact Nat.lt_of_le_of_lt h.number_le more
    · exact ⟨h'.prefix_closed within more, .inr (Nat.lt_of_lt_of_le more h'.number_le)⟩

theorem leadsTo_noteTab (p : Paging) (s : Statement) : p.LeadsTo (p.noteTab s) := by
  rw [noteTab_eq]
  exact .of_closed_eq rfl id

theorem leadsTo_add (p : Paging) (s : Statement) : p.LeadsTo (p.add s) :=
  .of_closed_eq rfl fun acts => OpenPage.hasActions_add (.inl acts)

/-- Only a page on which nothing has been done changes where the page before it is left. -/
theorem leadsTo_enter (p : Paging) (e : Entrance) : p.LeadsTo (p.enter e) := by
  cases acts : p.current.hasActions with
  | true =>
    have closed : (p.enter e).closed = p.closed ++ [{ p.current with exit := e.boundary }] := by
      simp only [Paging.enter, acts, if_true, Paging.close]
    exact .of_closed_concat closed
  | false =>
    have closed : (p.enter e).closed = withLastExit e.boundary p.closed := by
      simp only [Paging.enter, acts, Bool.false_eq_true, if_false]
    refine ⟨?_, ?_, fun h => ?_⟩
    · rw [past_enter, acts]
      exact List.prefix_refl _
    · rw [closed]
      rcases List.eq_nil_or_concat' p.closed with empty | ⟨init, last, filled⟩
      · rw [empty]
        exact List.nil_prefix
      · rw [filled, withLastExit_concat, List.dropLast_concat]
        exact List.prefix_append _ _
    · rw [acts] at h
      cases h

theorem leadsTo_arrive (options : PageOptions) (p : Paging) (s : Statement) :
    p.LeadsTo (p.arrive options s) := by
  rcases arrive_opens options p s with ⟨stays, -⟩ | ⟨history, e, -, he⟩
  · rw [stays]
    exact leadsTo_noteTab p s
  · have moved : p.LeadsTo { p.noteTab s with history := history } :=
      (leadsTo_noteTab p s).trans (.of_closed_eq rfl id)
    rw [he]
    exact moved.trans (leadsTo_enter _ e)

theorem leadsTo_of_step {p : Paging} (h : p.step options s = .ok q) : p.LeadsTo q := by
  have arrived : p.LeadsTo ((p.arrive options s).add s) :=
    (leadsTo_arrive options p s).trans (leadsTo_add _ s)
  cases turn_of_step h with
  | idles => exact leadsTo_add p s
  | stays => exact arrived
  | leaves => exact arrived.trans (.of_closed_concat rfl)

theorem leadsTo_of_run {p : Paging} {statements : List Statement}
    (h : p.run options statements = .ok q) :
    p.LeadsTo q := by
  induction statements generalizing p with
  | nil =>
    cases Except.ok.inj h
    exact refl _
  | cons s rest ih =>
    obtain ⟨next, hs, hr⟩ := exists_ok_of_bind h
    exact (leadsTo_of_step hs).trans (ih hr)

end LeadsTo

/-- What becomes of the pages at the end of the input: the open one is closed behind the others, or
goes to the last of them if nothing has been done there. -/
inductive Ends (p : Paging) : List ClosedPage → Prop
  | closes (filled : p.current.hasActions = true ∨ p.closed = []) :
      Ends p (p.closed ++ [{ p.current with exit := .after p.current.statements }])
  | folds {before : List ClosedPage} {last : ClosedPage} (idle : p.current.hasActions = false)
      (closed : p.closed = before ++ [last]) :
      Ends p (before ++ [{ last with
        statements := last.statements ++ p.current.statements
        exit := .after (last.statements ++ p.current.statements) }])

theorem ends_finish (p : Paging) : p.Ends p.finish := by
  cases acts : p.current.hasActions with
  | true =>
    rw [finish_of_hasActions acts]
    exact .closes (.inl acts)
  | false =>
    rcases List.eq_nil_or_concat' p.closed with empty | ⟨before, last, filled⟩
    · have single : p.finish = p.closed ++
          [{ p.current with exit := .after p.current.statements }] := by
        simp [finish, empty]
      rw [single]
      exact .closes (.inr empty)
    · rw [finish_of_concat acts filled]
      exact .folds acts filled

/-- A statement leaves the closed pages as they are and puts the open one behind them, if it closes
any; it closes two only if it opens another page in order to wait there for a URL. No later
statement changes a closed page, apart from where the last one is left as long as nothing has been
done behind it. At the end of the input only an open page on which nothing has been done goes to the
last of them. -/
theorem closed_pages_stay (options : PageOptions) (p : Paging) :
    (∀ s q, p.step options s = .ok q →
      (∃ closed, q.past = p.past ++ closed ∧ p.Closes options s closed q.current) ∧
        p.LeadsTo q) ∧
    (∀ statements q, p.run options statements = .ok q → p.LeadsTo q) ∧
    p.Ends p.finish :=
  ⟨fun _ _ h => ⟨closes_step h, .leadsTo_of_step h⟩, fun _ _ h => .leadsTo_of_run h, ends_finish p⟩

/-- A visit, and a wait for a URL in another tab. -/
def waitInPopup : Text := "await page.goto('/shop');\nawait popup.waitForURL('/help');"

theorem exists_step_waitInPopup : ∃ turns p s q, Reaches {} turns p ∧
    turns.map Prod.snd = (Statement.ofText waitInPopup).dropLast ∧
    (Statement.ofText waitInPopup).getLast? = some s ∧ p.step {} s = .ok q ∧
    p.past = [] ∧ (q.past.map fun page => page.origin) = [.navigation, .pageSwitch] := by
  have found : (Paging.run {} {} (Statement.ofText waitInPopup).dropLast).toOption.any (fun p =>
      (Statement.ofText waitInPopup).getLast?.any fun s => (p.step {} s).toOption.any fun q =>
        decide (p.number = 0 ∧
          (q.past.map fun page => page.origin) = [.navigation, .pageSwitch])) = true := by
    decide +kernel
  obtain ⟨p, hr, found⟩ := exists_ok_of_any found
  obtain ⟨s, hs, found⟩ := (Option.any_eq_true _ _).mp found
  obtain ⟨q, hq, found⟩ := exists_ok_of_any found
  obtain ⟨first, origins⟩ := of_decide_eq_true found
  obtain ⟨turns, reached, same⟩ := reaches_of_run hr
  have past : p.past = [] := List.eq_nil_of_length_eq_zero (p.length_past.trans first)
  exact ⟨turns, p, s, q, reached, same, hs, hq, past, origins⟩

/-- The visit is closed by the switch to the other tab, and this tab by the wait. -/
theorem closed_pages_stay_waitInPopup :
    ∃ (p q : Paging) (s : Statement) (page other : OpenPage),
      p.step {} s = .ok q ∧ p.run {} [s] = .ok q ∧ q.past = [page, other] ∧
      p.Closes {} s [page, other] q.current ∧ p.LeadsTo q ∧ q.Ends q.finish := by
  obtain ⟨turns, p, s, q, -, -, -, hq, past, origins⟩ := exists_step_waitInPopup
  have hr : p.run {} [s] = .ok q := by
    rw [Paging.run, List.foldlM_cons, hq]
    rfl
  obtain ⟨step, run, -⟩ := closed_pages_stay {} p
  obtain ⟨-, -, ends⟩ := closed_pages_stay {} q
  obtain ⟨⟨closed, added, closes⟩, -⟩ := step s q hq
  rw [past, List.nil_append] at added
  have two : closed.length = 2 := by
    have count := congrArg List.length origins
    rwa [List.length_map, added] at count
  obtain ⟨page, other, rfl⟩ := List.length_eq_two.mp two
  exact ⟨p, q, s, page, other, hq, hr, added, closes, run [s] q hr, ends⟩

/-- A statement may close more than the page that it finds open. -/
theorem two_pages_closed_at_once : ∃ turns p s q, Reaches {} turns p ∧
    turns.map Prod.snd ++ [s] = Statement.ofText waitInPopup ∧ p.step {} s = .ok q ∧
    q.past ≠ p.past ∧ ∀ page, q.past ≠ p.past ++ [page] := by
  obtain ⟨turns, p, s, q, reached, before, last, hq, past, origins⟩ := exists_step_waitInPopup
  have count : q.past.length = 2 := by
    have count := congrArg List.length origins
    rwa [List.length_map] at count
  refine ⟨turns, p, s, q, reached, ?_, hq, ?_, ?_⟩
  · rw [before]
    exact List.dropLast_append_getLast? s last
  · intro same
    rw [same, past] at count
    cases count
  · intro page same
    rw [same, past] at count
    cases count

end Paging

end PageObjects
