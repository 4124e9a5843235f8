import Mathlib.Data.List.Chain
import PageObjects.Page.Span
import PageObjects.Proofs.Page.Turn

namespace PageObjects

/-- The first statement that does something on a page. -/
def firstDeed? (statements : List Statement) : Option Statement :=
  statements.find? fun s => !s.isStructural

/-- What holds inside a page: it is entered by its first deed, unless it is the start of the script
or the URL has changed, and only its first deed may navigate. -/
structure OpenPage.Sound (p : OpenPage) : Prop where
  entered : p.origin.isOwnDeed = true →
    ∃ s, firstDeed? p.statements = some s ∧ p.entry = .at p.origin.boundaryKind s
  leads : p.statements.Pairwise fun earlier later =>
    later.navigates = true → earlier.isStructural = true

/-- What holds between a page and the one behind it: the one is left where the other is entered,
which is at the last statement of the former if the URL has changed there. -/
structure ClosedPage.Precedes (a : ClosedPage) (b : OpenPage) : Prop where
  meets : a.exit = b.entry
  notStart : b.origin ≠ .start
  waited : b.origin = .urlChange →
    ∃ s, a.statements.getLast? = some s ∧ b.entry = .at .urlChange s

/-- Pages in a row: each does something and is sound, neighbours chain, and no change of the URL
opens the first one. -/
structure LinkedPages (pages : List ClosedPage) : Prop where
  active : ∀ p ∈ pages, p.hasActions = true
  sound : ∀ p ∈ pages, p.toOpenPage.Sound
  chained : pages.IsChain fun a b => a.Precedes b.toOpenPage
  first : ∀ p, pages.head? = some p → p.origin ≠ .urlChange

/-- What makes pages the pages of some statements: they hold all of them in order, they are linked,
and the last one is left at the end of the input. -/
structure PagePartition (statements : List Statement) (pages : List ClosedPage) : Prop
    extends LinkedPages pages where
  covers : (pages.flatMap fun p => p.statements) = statements
  last : ∃ p, pages.getLast? = some p ∧ p.exit = .after p.statements

theorem firstDeed?_append_of_some {l more : List Statement} {s : Statement}
    (h : firstDeed? l = some s) : firstDeed? (l ++ more) = some s := by
  simp only [firstDeed?, List.find?_append] at h ⊢
  rw [h, Option.some_or]

theorem firstDeed?_concat {l : List Statement} {s : Statement}
    (idle : ∀ t ∈ l, t.isStructural = true) (deed : s.isStructural = false) :
    firstDeed? (l ++ [s]) = some s := by
  have hl : firstDeed? l = none := by
    apply List.find?_eq_none.mpr
    intro t ht
    simp [idle t ht]
  simp only [firstDeed?, List.find?_append] at hl ⊢
  rw [hl, Option.none_or]
  simp [deed]

namespace OpenPage

theorem structural_of_not_hasActions {p : OpenPage} (h : p.hasActions = false) :
    ∀ t ∈ p.statements, t.isStructural = true := by
  intro t ht
  simpa using List.any_eq_false.mp h t ht

theorem hasActions_add {p : OpenPage} {s : Statement}
    (h : p.hasActions = true ∨ s.isStructural = false) : (p.add s).hasActions = true := by
  simp only [hasActions, add, List.any_append, List.any_cons, List.any_nil, Bool.or_false,
    Bool.or_eq_true, Bool.not_eq_true'] at h ⊢
  exact h

namespace Sound

/-- A page stays sound with statements that do not navigate. -/
theorem sound_append {p : OpenPage} (h : p.Sound) {more : List Statement}
    (calm : ∀ s ∈ more, s.navigates = false) :
    ({ p with statements := p.statements ++ more } : OpenPage).Sound := by
  refine ⟨?_, ?_⟩
  · intro own
    obtain ⟨s, hs, he⟩ := h.entered own
    exact ⟨s, firstDeed?_append_of_some hs, he⟩
  · apply List.pairwise_append.mpr
    refine ⟨h.leads, ?_, ?_⟩
    · apply List.pairwise_of_forall_mem_list
      intro a _ b hb nav
      rw [calm b hb] at nav
      cases nav
    · intro a _ b hb nav
      rw [calm b hb] at nav
      cases nav

/-- A page without deeds is sound once the deed that opens it is there. -/
theorem sound_add_of_idle {p : OpenPage} {s : Statement}
    (idle : ∀ t ∈ p.statements, t.isStructural = true)
    (deed : s.isStructural = false) (entry : p.entry = .at p.origin.boundaryKind s) :
    (p.add s).Sound := by
  refine ⟨?_, ?_⟩
  · intro _
    exact ⟨s, firstDeed?_concat idle deed, entry⟩
  · apply List.pairwise_append.mpr
    refine ⟨?_, by simp, ?_⟩
    · apply List.pairwise_of_forall_mem_list
      intro a ha _ _ _
      exact idle a ha
    · intro a ha _ _ _
      exact idle a ha

end Sound

end OpenPage

namespace LinkedPages

variable {pages : List ClosedPage} {last : ClosedPage}

theorem nil : LinkedPages [] := ⟨by simp, by simp, .nil, by simp⟩

theorem concat (h : LinkedPages pages) (acts : last.hasActions = true)
    (sound : last.toOpenPage.Sound)
    (meets : ∀ q, pages.getLast? = some q → q.Precedes last.toOpenPage)
    (fresh : pages = [] → last.origin ≠ .urlChange) : LinkedPages (pages ++ [last]) where
  active := by
    intro q hq
    rcases List.mem_append.mp hq with hq | hq
    · exact h.active q hq
    · exact List.mem_singleton.mp hq ▸ acts
  sound := by
    intro q hq
    rcases List.mem_append.mp hq with hq | hq
    · exact h.sound q hq
    · exact List.mem_singleton.mp hq ▸ sound
  chained := by
    refine List.isChain_append.mpr ⟨h.chained, .singleton _, ?_⟩
    intro a ha b hb
    cases Option.mem_some.mp hb
    exact meets a ha
  first := by
    intro q hq
    cases pages with
    | nil =>
      cases Option.some.inj hq
      exact fresh rfl
    | cons first rest => exact h.first q hq

theorem of_concat (h : LinkedPages (pages ++ [last])) :
    LinkedPages pages ∧ (∀ q, pages.getLast? = some q → q.Precedes last.toOpenPage) ∧
      (pages = [] → last.origin ≠ .urlChange) := by
  obtain ⟨hpages, -, hmeets⟩ := List.isChain_append.mp h.chained
  refine ⟨⟨?_, ?_, hpages, ?_⟩, ?_, ?_⟩
  · exact fun q hq => h.active q (List.mem_append_left _ hq)
  · exact fun q hq => h.sound q (List.mem_append_left _ hq)
  · intro q hq
    exact h.first q (by rw [List.head?_append, hq, Option.some_or])
  · exact fun q hq => hmeets q hq last rfl
  · rintro rfl
    exact h.first last rfl

/-- Another last page that is entered like the one before. -/
theorem replaceLast (h : LinkedPages (pages ++ [last])) {other : ClosedPage}
    (origin : other.origin = last.origin) (entry : other.entry = last.entry)
    (acts : other.hasActions = true) (sound : other.toOpenPage.Sound) :
    LinkedPages (pages ++ [other]) := by
  obtain ⟨hpages, hmeets, hfresh⟩ := h.of_concat
  refine hpages.concat acts sound ?_ ?_
  · intro q hq
    have old := hmeets q hq
    exact ⟨by rw [old.meets, entry], by rw [origin]; exact old.notStart,
      by rw [origin, entry]; exact old.waited⟩
  · rw [origin]
    exact hfresh

end LinkedPages

/-- What every step of paging keeps: the pages hold the statements so far, the closed ones are
linked, and the open one is sound and chains with the last of them. -/
structure Paging.Sound (done : List Statement) (p : Paging) : Prop where
  covers : (p.closed.flatMap fun q => q.statements) ++ p.current.statements = done
  linked : LinkedPages p.closed
  meets : ∀ q, p.closed.getLast? = some q → q.Precedes p.current
  fresh : p.closed = [] → p.current.origin ≠ .urlChange
  current : p.current.Sound

namespace Paging

theorem sound_start : ({} : Paging).Sound [] where
  covers := rfl
  linked := .nil
  meets := by simp
  fresh := by simp [OpenPage.first]
  current := ⟨fun own => (by cases own), .nil⟩

theorem withLastExit_concat (exit : Boundary) (pages : List ClosedPage) (last : ClosedPage) :
    withLastExit exit (pages ++ [last]) = pages ++ [{ last with exit := exit }] := by
  simp [withLastExit]

theorem finish_of_hasActions {p : Paging} (h : p.current.hasActions = true) :
    p.finish = p.close (.after p.current.statements) := by
  simp [finish, close, h]

theorem finish_of_concat {p : Paging} {pages : List ClosedPage} {last : ClosedPage}
    (h : p.current.hasActions = false) (hc : p.closed = pages ++ [last]) :
    p.finish = pages ++ [{ last with
      statements := last.statements ++ p.current.statements
      exit := .after (last.statements ++ p.current.statements) }] := by
  simp [finish, h, hc]

namespace Sound

variable {done : List Statement} {p : Paging} {s : Statement}

/-- Neither the tab nor the history matters to the boundaries. -/
theorem sound_noteTab (h : p.Sound done) : (p.noteTab s).Sound done := by
  unfold Paging.noteTab
  split
  next =>
    refine ⟨h.covers, h.linked, ?_, h.fresh, ⟨h.current.entered, h.current.leads⟩⟩
    exact fun q hq => ⟨(h.meets q hq).meets, (h.meets q hq).notStart, (h.meets q hq).waited⟩
  next => exact h

theorem sound_withHistory (h : p.Sound done) (history : List (Option Text)) :
    ({ p with history := history } : Paging).Sound done :=
  ⟨h.covers, h.linked, h.meets, h.fresh, h.current⟩

theorem sound_add (h : p.Sound done) (calm : s.navigates = false) :
    (p.add s).Sound (done ++ [s]) where
  covers := by
    rw [← h.covers]
    simp [Paging.add, OpenPage.add]
  linked := h.linked
  meets := fun q hq => ⟨(h.meets q hq).meets, (h.meets q hq).notStart, (h.meets q hq).waited⟩
  fresh := h.fresh
  current := h.current.sound_append (by simpa using calm)

theorem linkedPages_close (h : p.Sound done) (acts : p.current.hasActions = true)
    (exit : Boundary) :
    LinkedPages (p.close exit) :=
  h.linked.concat acts ⟨h.current.entered, h.current.leads⟩
    (fun q hq => ⟨(h.meets q hq).meets, (h.meets q hq).notStart, (h.meets q hq).waited⟩) h.fresh

/-- The page of an entrance opens behind one that is closed, or takes over one without deeds. -/
theorem sound_enter_add (h : p.Sound done) {e : Entrance} (opens : e.OpensAt s)
    (deed : s.isStructural = false) : ((p.enter e).add s).Sound (done ++ [s]) := by
  have notStart : e.origin ≠ .start := fun he => by simpa [he, Origin.isOwnDeed] using opens.own
  have notUrl : e.origin ≠ .urlChange := fun he => by simpa [he, Origin.isOwnDeed] using opens.own
  by_cases acts : p.current.hasActions = true
  · simp only [Paging.enter, acts, if_true]
    refine ⟨?_, h.linkedPages_close acts _, ?_, fun _ => notUrl, ?_⟩
    · rw [← h.covers]
      simp [Paging.add, OpenPage.add, Paging.close, Paging.opened]
    · intro q hq
      have hlast : q = { p.current with exit := e.boundary } := by
        simpa [Paging.add, Paging.close] using hq.symm
      subst hlast
      exact ⟨rfl, notStart, fun hu => absurd hu notUrl⟩
    · exact OpenPage.Sound.sound_add_of_idle (by simp [Paging.opened]) deed opens.boundary
  · have idle := OpenPage.structural_of_not_hasActions (Bool.eq_false_iff.mpr acts)
    simp only [Paging.enter, acts, Bool.false_eq_true, if_false]
    have current : (({ p.opened e with
        host := if e.host = some p.number then none else e.host
        statements := p.current.statements } : OpenPage).add s).Sound :=
      OpenPage.Sound.sound_add_of_idle idle deed opens.boundary
    rcases List.eq_nil_or_concat' p.closed with hc | ⟨pages, last, hc⟩
    · refine ⟨?_, ?_, ?_, fun _ => notUrl, current⟩
      · rw [← h.covers]
        simp [Paging.add, OpenPage.add, hc, withLastExit]
      · simpa [Paging.add, hc, withLastExit] using LinkedPages.nil
      · simp [Paging.add, hc, withLastExit]
    · -- only the exit of the last closed page changes, which no other page looks at
      have linked := h.linked
      rw [hc] at linked
      have hlast := linked.sound last (by simp)
      refine ⟨?_, ?_, ?_, fun _ => notUrl, current⟩
      · rw [← h.covers]
        simp [Paging.add, OpenPage.add, hc, withLastExit_concat]
      · rw [Paging.add, hc, withLastExit_concat]
        exact linked.replaceLast rfl rfl (linked.active last (by simp))
          ⟨hlast.entered, hlast.leads⟩
      · intro q hq
        rw [Paging.add, hc, withLastExit_concat, List.getLast?_concat] at hq
        cases Option.some.inj hq
        exact ⟨rfl, notStart, fun hu => absurd hu notUrl⟩

/-- Waiting for another URL closes the open page behind the statement that waits. -/
theorem sound_leaveFor (h : p.Sound done) (target : Text) (acts : p.current.hasActions = true)
    (waits : p.current.statements.getLast? = some s) : (p.leaveFor s target).Sound done := by
  refine ⟨?_, h.linkedPages_close acts _, ?_, ?_, ⟨fun own => (by cases own), .nil⟩⟩
  · rw [← h.covers]
    simp [Paging.leaveFor, Paging.close]
  · intro q hq
    have hlast : q = { p.current with exit := .at .urlChange s } := by
      simpa [Paging.leaveFor, Paging.close] using hq.symm
    subst hlast
    exact ⟨rfl, by simp [Paging.leaveFor], fun _ => ⟨s, waits, rfl⟩⟩
  · intro hc
    simp [Paging.leaveFor, Paging.close] at hc

theorem sound_arrive_add (h : p.Sound done) (options : PageOptions)
    (deed : s.isStructural = false) :
    ((p.arrive options s).add s).Sound (done ++ [s]) := by
  rcases arrive_cases options p s with ⟨he, calm⟩ | ⟨history, e, opens, he⟩
  · rw [he]
    exact h.sound_noteTab.sound_add calm
  · rw [he]
    exact (h.sound_noteTab.sound_withHistory history).sound_enter_add opens deed

/-- One more statement keeps everything. -/
theorem sound_of_step {options : PageOptions} {q : Paging} (h : p.Sound done)
    (hs : p.step options s = .ok q) : q.Sound (done ++ [s]) := by
  cases turn_of_step hs with
  | idles idle => exact h.sound_add (Content.navigates_of_isStructural idle)
  | stays deed => exact h.sound_arrive_add options deed
  | leaves deed =>
    refine (h.sound_arrive_add options deed).sound_leaveFor _
      (OpenPage.hasActions_add (.inr deed)) ?_
    simp [Paging.add, OpenPage.add]

/-- All statements keep everything. -/
theorem sound_of_run {options : PageOptions} {q : Paging} {statements : List Statement}
    (h : p.Sound done)
    (hr : p.run options statements = .ok q) : q.Sound (done ++ statements) := by
  induction statements generalizing p done with
  | nil =>
    cases Except.ok.inj hr
    simpa using h
  | cons s rest ih =>
    obtain ⟨next, hs, hr⟩ := exists_ok_of_bind hr
    simpa using ih (h.sound_of_step hs) hr

/-- At the end of the input the pages partition the statements: one without deeds has gone to the
page before it, and there is one before it as some statement is a deed. -/
theorem pagePartition_finish (h : p.Sound done) (deed : ∃ s ∈ done, s.isStructural = false) :
    PagePartition done p.finish := by
  by_cases acts : p.current.hasActions = true
  · rw [finish_of_hasActions acts]
    refine ⟨h.linkedPages_close acts _, ?_, ?_⟩
    · rw [← h.covers]
      simp [Paging.close]
    · exact ⟨{ p.current with exit := .after p.current.statements }, by simp [Paging.close], rfl⟩
  · have acts := Bool.eq_false_iff.mpr acts
    have idle := OpenPage.structural_of_not_hasActions acts
    rcases List.eq_nil_or_concat' p.closed with hc | ⟨pages, last, hc⟩
    · obtain ⟨s, hs, hd⟩ := deed
      rw [← h.covers, hc] at hs
      rw [idle s (by simpa using hs)] at hd
      cases hd
    · have linked := h.linked
      rw [hc] at linked
      have hacts := linked.active last (by simp)
      rw [finish_of_concat acts hc]
      refine ⟨linked.replaceLast rfl rfl ?_ ?_, ?_, ⟨_, List.getLast?_concat, rfl⟩⟩
      · simp only [OpenPage.hasActions] at hacts
        simp only [OpenPage.hasActions, List.any_append, hacts, Bool.true_or]
      · exact (linked.sound last (by simp)).sound_append fun s hs =>
          Content.navigates_of_isStructural (idle s hs)
      · rw [← h.covers]
        simp [hc]

end Sound

end Paging

/-- Naming leaves the pages as they are. -/
theorem map_toClosedPage_nameSpans {titles taken : List Text} {pages : List ClosedPage}
    {spans : List PageSpan} (h : nameSpans titles taken pages = .ok spans) :
    (spans.map fun span => span.toClosedPage) = pages := by
  induction pages generalizing titles taken spans with
  | nil =>
    cases Except.ok.inj h
    rfl
  | cons page rest ih =>
    obtain ⟨title, -, h⟩ := exists_ok_of_bind h
    obtain ⟨pattern, -, h⟩ := exists_ok_of_bind h
    obtain ⟨others, hr, h⟩ := exists_ok_of_bind h
    cases Except.ok.inj h
    simp [ih hr]

/-- The pages of statements, one of which is a deed, partition them. -/
theorem PageSpan.pagePartition_ofStatements {options : PageOptions} {statements : List Statement}
    {spans : List PageSpan} (deed : ∃ s ∈ statements, s.isStructural = false)
    (h : PageSpan.ofStatements options statements = .ok spans) :
    PagePartition statements (spans.map fun span => span.toClosedPage) := by
  obtain ⟨p, hr, hn⟩ := exists_ok_of_bind h
  rw [map_toClosedPage_nameSpans hn]
  exact (Paging.sound_start.sound_of_run hr).pagePartition_finish deed

end PageObjects
