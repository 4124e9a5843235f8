import PageObjects.Proofs.Page.Reach

namespace PageObjects

/-- Whether a statement waits for a URL. -/
def Content.awaitsUrl (c : Content) : Bool := c.kind == .wait && c.verbIn ["waitForURL"]

/-- A page that is left for another URL is left by its last statement, which waits for it. -/
def ClosedPage.LeftByWait (q : ClosedPage) : Prop :=
  q.exit.kind = .urlChange → ∃ s, q.statements.getLast? = some s ∧ s.awaitsUrl = true ∧
    q.exit.line = some s.line

theorem ClosedPage.leftByWait_of_kind {q : ClosedPage} (h : q.exit.kind ≠ .urlChange) :
    q.LeftByWait :=
  fun left => absurd left h

theorem Entrance.OpensAt.kind_ne {e : Entrance} {s : Statement} (h : e.OpensAt s) :
    e.boundary.kind ≠ .urlChange := by
  rw [h.boundary]
  intro left
  have kind : e.origin.boundaryKind = .urlChange := left
  have own := h.own
  cases ho : e.origin <;> simp [ho, Origin.boundaryKind, Origin.isOwnDeed] at kind own

namespace Paging

/-- All closed pages are left as they should be. -/
def LeftByWaits (p : Paging) : Prop := ∀ q ∈ p.closed, q.LeftByWait

namespace LeftByWaits

variable {options : PageOptions} {p q : Paging} {s : Statement}

theorem leftByWaits_start : ({} : Paging).LeftByWaits := fun _ hq => absurd hq List.not_mem_nil

theorem leftByWaits_noteTab (h : p.LeftByWaits) (s : Statement) : (p.noteTab s).LeftByWaits := by
  rw [noteTab_eq]
  exact h

theorem leftByWait_of_mem_close (h : p.LeftByWaits) {exit : Boundary}
    (left : ({ p.current with exit := exit } : ClosedPage).LeftByWait) :
    ∀ q ∈ p.close exit, q.LeftByWait :=
  List.forall_mem_append.mpr ⟨h, List.forall_mem_singleton.mpr left⟩

theorem leftByWaits_enter (h : p.LeftByWaits) {e : Entrance} (opens : e.OpensAt s) :
    (p.enter e).LeftByWaits := by
  unfold Paging.enter
  split
  next => exact h.leftByWait_of_mem_close (ClosedPage.leftByWait_of_kind opens.kind_ne)
  next =>
    rcases List.eq_nil_or_concat' p.closed with hc | ⟨pages, last, hc⟩
    · rw [hc]
      exact leftByWaits_start
    · intro q hq
      rw [hc, withLastExit_concat] at hq
      rcases List.mem_append.mp hq with hq | hq
      · exact h q (by rw [hc]; exact List.mem_append_left _ hq)
      · rw [List.mem_singleton.mp hq]
        exact ClosedPage.leftByWait_of_kind opens.kind_ne

theorem leftByWaits_arrive (h : p.LeftByWaits) (options : PageOptions) (s : Statement) :
    (p.arrive options s).LeftByWaits := by
  rcases arrive_cases options p s with ⟨he, -⟩ | ⟨history, e, opens, he⟩
  · rw [he]
    exact h.leftByWaits_noteTab s
  · have noted : ({ p.noteTab s with history := history } : Paging).LeftByWaits :=
      h.leftByWaits_noteTab s
    rw [he]
    exact noted.leftByWaits_enter opens

theorem leftByWaits_of_step (h : p.LeftByWaits) (hs : p.step options s = .ok q) :
    q.LeftByWaits := by
  cases turn_of_step hs with
  | idles => exact h
  | stays => exact h.leftByWaits_arrive options s
  | leaves _ there =>
    have arrived : ((p.arrive options s).add s).LeftByWaits := h.leftByWaits_arrive options s
    refine arrived.leftByWait_of_mem_close fun _ => ⟨s, List.getLast?_concat, ?_, rfl⟩
    obtain ⟨kind, verb, -⟩ := Statement.awaits?_eq_some there
    simp [Content.awaitsUrl, Content.verbIn, kind, verb]

theorem of_reaches {turns : List (Paging × Statement)} (h : Reaches options turns p) :
    p.LeftByWaits := by
  induction h with
  | start => exact leftByWaits_start
  | next _ hs ih => exact ih.leftByWaits_of_step hs

/-- At the end of the input only the last page gets another exit. -/
theorem leftByWait_of_mem_finish (h : p.LeftByWaits) : ∀ q ∈ p.finish, q.LeftByWait := by
  have ends : BoundaryKind.endOfInput ≠ .urlChange := by decide
  by_cases acts : p.current.hasActions = true
  · rw [finish_of_hasActions acts]
    exact h.leftByWait_of_mem_close (ClosedPage.leftByWait_of_kind ends)
  · rcases List.eq_nil_or_concat' p.closed with hc | ⟨pages, last, hc⟩
    · intro q hq
      simp only [Paging.finish, hc, List.getLast?_nil, List.nil_append, List.mem_singleton] at hq
      rw [hq]
      exact ClosedPage.leftByWait_of_kind ends
    · rw [finish_of_concat (Bool.eq_false_iff.mpr acts) hc]
      refine List.forall_mem_append.mpr ⟨fun q hq => h q ?_, ?_⟩
      · rw [hc]
        exact List.mem_append_left _ hq
      · exact List.forall_mem_singleton.mpr (ClosedPage.leftByWait_of_kind ends)

end LeftByWaits

end Paging

/-- Pages that statements have are left for another URL by waits only. -/
theorem PageSpan.leftByWait_of_mem_ofStatements {options : PageOptions}
    {statements : List Statement}
    {spans : List PageSpan} (h : PageSpan.ofStatements options statements = .ok spans) :
    ∀ span ∈ spans, span.toClosedPage.LeftByWait := by
  obtain ⟨turns, p, reached, -, pages⟩ := PageSpan.exists_reached h
  intro span hspan
  have final : span.toClosedPage ∈ p.finish := pages ▸ List.mem_map_of_mem hspan
  exact (Paging.LeftByWaits.of_reaches reached).leftByWait_of_mem_finish _ final

end PageObjects
