import PageObjects.Proofs.Page.Partition

namespace PageObjects

/-- Whether each element of a list stands in a relation to those before it. -/
def EachAfter {α : Type} (P : List α → α → Prop) (l : List α) : Prop :=
  ∀ before a after, l = before ++ a :: after → P before a

namespace EachAfter

variable {α : Type} {P : List α → α → Prop}

theorem nil : EachAfter P [] := by
  intro before a after h
  simp at h

theorem concat_iff {l : List α} {b : α} : EachAfter P (l ++ [b]) ↔ EachAfter P l ∧ P l b := by
  constructor
  · intro h
    exact ⟨fun before a after split => h before a (after ++ [b]) (by simp [split]), h l b [] rfl⟩
  · rintro ⟨h, last⟩ before a after split
    rcases List.eq_nil_or_concat' after with rfl | ⟨init, c, rfl⟩
    · obtain ⟨rfl, same⟩ := List.append_inj' split rfl
      rw [← (List.cons.inj same).1]
      exact last
    · have shorter : l ++ [b] = (before ++ a :: init) ++ [c] := by simpa using split
      exact h before a init (List.append_inj' shorter rfl).1

end EachAfter

theorem OpenPage.hasActions_add_structural {page : OpenPage} {s : Statement}
    (h : s.isStructural = true) : (page.add s).hasActions = page.hasActions := by
  simp [hasActions, add, h]

namespace Paging

/-- The closed pages, whatever they are left at. -/
def past (p : Paging) : List OpenPage := p.closed.map fun q => q.toOpenPage

/-- All pages, whatever they are left at. -/
def pages (p : Paging) : List OpenPage := p.past ++ [p.current]

@[simp] theorem length_past (p : Paging) : p.past.length = p.number := List.length_map _

@[simp] theorem length_pages (p : Paging) : p.pages.length = p.number + 1 := by
  rw [pages, List.length_append, length_past, List.length_singleton]

@[simp] theorem getLast?_pages (p : Paging) : p.pages.getLast? = some p.current :=
  List.getLast?_concat

theorem pages_ne_nil (p : Paging) : p.pages ≠ [] := List.concat_ne_nil _ _

/-- Noting the tab changes nothing but the tab of the open page. -/
theorem noteTab_eq (p : Paging) (s : Statement) :
    p.noteTab s = { p with
      current := { p.current with pageVariable := p.current.pageVariable.or s.pageVariable } } := by
  obtain ⟨closed, current, history, tabUrls⟩ := p
  cases h : current.pageVariable with
  | none => simp [noteTab, h]
  | some tab =>
    obtain ⟨⟩ := current
    cases h
    rfl

theorem map_toOpenPage_withLastExit (exit : Boundary) (pages : List ClosedPage) :
    (withLastExit exit pages).map (fun q => q.toOpenPage) = pages.map fun q => q.toOpenPage := by
  rcases List.eq_nil_or_concat' pages with rfl | ⟨init, last, rfl⟩
  · rfl
  · rw [withLastExit_concat, List.map_append, List.map_append]
    rfl

theorem current_enter (p : Paging) (e : Entrance) :
    (p.enter e).current = { p.opened e with
      host := if p.current.hasActions = false ∧ e.host = some p.number then none else e.host
      statements := if p.current.hasActions then [] else p.current.statements } := by
  unfold enter
  cases p.current.hasActions with
  | true => simp [opened]
  | false => simp [opened]

/-- A page with deeds is closed when another one opens; one without gives way to it. -/
theorem past_enter (p : Paging) (e : Entrance) :
    (p.enter e).past = if p.current.hasActions then p.pages else p.past := by
  unfold enter
  split
  next => simp [pages, past, close]
  next => exact map_toOpenPage_withLastExit e.boundary p.closed

@[simp] theorem history_enter (p : Paging) (e : Entrance) : (p.enter e).history = p.history := by
  unfold enter
  split <;> rfl

@[simp] theorem tabUrls_enter (p : Paging) (e : Entrance) :
    (p.enter e).tabUrls = p.tabUrlsWith p.current.url := by
  unfold enter
  split <;> rfl

@[simp] theorem past_leaveFor (p : Paging) (s : Statement) (target : Text) :
    (p.leaveFor s target).past = p.pages := by
  simp [leaveFor, past, pages, close]

/-- At the end of the input all pages are there, or the last one has gone to the one before it. -/
theorem map_toOpenPage_finish (p : Paging) :
    (p.finish.map fun q => q.toOpenPage) = p.pages ∨
      ∃ before last, p.past = before ++ [last] ∧ (p.finish.map fun q => q.toOpenPage) =
        before ++ [{ last with statements := last.statements ++ p.current.statements }] := by
  by_cases acts : p.current.hasActions = true
  · rw [finish_of_hasActions acts]
    simp [close, pages, past]
  · rcases List.eq_nil_or_concat' p.closed with hc | ⟨init, last, hc⟩
    · simp [finish, pages, past, hc]
    · right
      refine ⟨init.map fun q => q.toOpenPage, last.toOpenPage, ?_, ?_⟩
      · rw [past, hc, List.map_append]
        rfl
      · rw [finish_of_concat (Bool.eq_false_iff.mpr acts) hc, List.map_append]
        rfl

/-- The states that paging reaches, each with the turns before it: the statements so far and the
state that each of them found. -/
inductive Reaches (options : PageOptions) : List (Paging × Statement) → Paging → Prop
  | start : Reaches options [] {}
  | next {turns : List (Paging × Statement)} {p q : Paging} {s : Statement} :
      Reaches options turns p → p.step options s = .ok q → Reaches options (turns ++ [(p, s)]) q

theorem Reaches.exists_reaches_of_run {options : PageOptions} {turns : List (Paging × Statement)}
    {p q : Paging}
    {statements : List Statement} (h : Reaches options turns p)
    (hr : p.run options statements = .ok q) :
    ∃ more, Reaches options (turns ++ more) q ∧ more.map Prod.snd = statements := by
  induction statements generalizing p turns with
  | nil =>
    cases Except.ok.inj hr
    exact ⟨[], by simpa using h, rfl⟩
  | cons s rest ih =>
    obtain ⟨next, hs, hr⟩ := exists_ok_of_bind hr
    obtain ⟨more, reached, same⟩ := ih (h.next hs) hr
    exact ⟨(p, s) :: more, by simpa using reached, by rw [List.map_cons, same]⟩

/-- What all statements lead to is reached. -/
theorem reaches_of_run {options : PageOptions} {q : Paging} {statements : List Statement}
    (h : Paging.run options {} statements = .ok q) :
    ∃ turns, Reaches options turns q ∧ turns.map Prod.snd = statements :=
  Reaches.start.exists_reaches_of_run h

end Paging

/-- The pages of statements are those at the end of what all statements lead to. -/
theorem PageSpan.exists_reached {options : PageOptions} {statements : List Statement}
    {spans : List PageSpan} (h : PageSpan.ofStatements options statements = .ok spans) :
    ∃ turns p, Paging.Reaches options turns p ∧ turns.map Prod.snd = statements ∧
      (spans.map fun span => span.toClosedPage) = p.finish := by
  obtain ⟨p, hr, hn⟩ := exists_ok_of_bind h
  obtain ⟨turns, reached, same⟩ := Paging.reaches_of_run hr
  exact ⟨turns, p, reached, same, map_toClosedPage_nameSpans hn⟩

end PageObjects
