import PageObjects.Proofs.Page.Closed
import PageObjects.Proofs.Page.Dialog
import PageObjects.Proofs.Script.Verb

namespace PageObjects

/-- Whether the options let a page of an origin be opened. -/
def Origin.IsEnabled (options : PageOptions) : Origin → Prop
  | urlChange => options.urlChangeOpensPage = true
  | modal => options.modals = .page
  | modalClose => options.modals = .page
  | tab => options.tabsOpenPages = true
  | start => True
  | navigation => True
  | history => True
  | pageSwitch => True

/-- Whether a statement may stand in a dialog: it is about one, waits, handles a native dialog or
reloads. -/
def Statement.StaysInDialog (s : Statement) : Prop :=
  s.isModalSignal = true ∨ s.kind = .wait ∨ s.subtype = some .dialog ∨
    s.kind = .navigation ∧ s.verb = some ("reload" : Text)

/-- Of the verbs of navigation only a reload stays where it is. -/
theorem Statement.staysInDialog_of_navigation {s : Statement} (fits : s.VerbFits)
    (kind : s.kind = .navigation) (stays : s.navigates = false) : s.StaysInDialog := by
  have verb : s.verbIn navigationVerbs = true := fits.navigates kind
  have calm : s.verbIn movingVerbs = false := by
    simpa [Content.navigates, kind] using stays
  cases found : s.verb with
  | none =>
    rw [Content.verbIn, found] at verb
    cases verb
  | some v =>
    rw [Content.verbIn, found, Option.any_some] at verb calm
    have known : v ∈ navigationVerbs := List.contains_iff_mem.mp verb
    have still : v ∉ movingVerbs := fun moves => by
      rw [List.contains_iff_mem.mpr moves] at calm
      cases calm
    simp only [navigationVerbs, movingVerbs, List.mem_cons, List.not_mem_nil, or_false,
      not_or] at known still
    rcases known with goto | back | forward | reload
    · exact absurd goto still.1
    · exact absurd back still.2.1
    · exact absurd forward still.2.2
    · exact .inr (.inr (.inr ⟨kind, by rw [found, reload]⟩))

/-- What a page is by itself: the options let it be opened, and a dialog holds only deeds that leave
it open. -/
structure OpenPage.Allowed (options : PageOptions) (page : OpenPage) : Prop where
  enabled : page.origin.IsEnabled options
  within : page.origin = .modal →
    ∀ s ∈ page.statements, s.isStructural = false → s.StaysInDialog

namespace OpenPage.Allowed

variable {options : PageOptions} {page other : OpenPage} {s : Statement}

/-- Statements that do nothing do not matter. -/
theorem of_statements (h : page.Allowed options) (origin : other.origin = page.origin)
    (statements : ∀ s ∈ other.statements, s ∈ page.statements ∨ s.isStructural = true) :
    other.Allowed options := by
  refine ⟨?_, ?_⟩
  · rw [origin]
    exact h.enabled
  · intro dialog s hs deed
    rw [origin] at dialog
    rcases statements s hs with old | structural
    · exact h.within dialog s old deed
    · rw [structural] at deed
      cases deed

theorem of_structural (enabled : page.origin.IsEnabled options)
    (idle : ∀ s ∈ page.statements, s.isStructural = true) : page.Allowed options := by
  refine ⟨enabled, ?_⟩
  intro _ s hs deed
  rw [idle s hs] at deed
  cases deed

theorem allowed_add (h : page.Allowed options) (stays : page.origin = .modal → s.StaysInDialog) :
    (page.add s).Allowed options := by
  refine ⟨h.enabled, ?_⟩
  intro dialog t ht deed
  rcases List.mem_append.mp ht with old | new
  · exact h.within dialog t old deed
  · rw [List.mem_singleton.mp new]
    exact stays dialog

end OpenPage.Allowed

namespace Paging

variable {options : PageOptions} {p q : Paging} {s : Statement} {history : List (Option Text)}
  {e : Entrance}

theorem Opens.isEnabled_of_opens (h : p.Opens options s history e)
    (here : p.current.origin.IsEnabled options) : e.origin.IsEnabled options := by
  cases h with
  | visit => trivial
  | back => trivial
  | lost => trivial
  | switch => trivial
  | dialog _ _ pages => exact pages
  | closing _ _ dialog =>
    rw [dialog] at here
    exact here
  | tab _ _ pages => exact pages

theorem Opens.isModalSignal_of_dialog (h : p.Opens options s history e)
    (dialog : e.origin = .modal) :
    s.isModalSignal = true := by
  cases h with
  | dialog _ _ _ signal => exact signal
  | _ => cases dialog

/-- A dialog is closed by every other deed that does not navigate. -/
theorem staysInDialog_of_entrance? (h : p.entrance? options s = none)
    (dialog : p.current.origin = .modal) : s.StaysInDialog := by
  simp only [entrance?] at h
  split at h
  next => cases h
  next =>
    split at h
    next => cases h
    next =>
      split at h
      next => cases h
      next stays =>
        by_contra leaves
        simp only [Statement.StaysInDialog, not_or] at leaves
        obtain ⟨signal, wait, native, -⟩ := leaves
        exact stays ⟨dialog, by simpa using signal, wait, by simpa using native⟩

/-- A statement that finds a dialog open, or opens one, leaves it open when it arrives. -/
theorem staysInDialog_of_arrive (fits : s.VerbFits)
    (dialog : (p.arrive options s).current.origin = .modal) : s.StaysInDialog := by
  unfold arrive at dialog
  by_cases kind : s.kind = .navigation
  · simp only [kind, if_true] at dialog
    rcases navigate_opens options (p.noteTab s) kind with ⟨-, stays⟩ | ⟨history, e, opens, he⟩
    · exact Statement.staysInDialog_of_navigation fits kind stays
    · rw [he, current_enter] at dialog
      exact .inl (opens.isModalSignal_of_dialog dialog)
  · simp only [kind, if_false] at dialog
    cases he : (p.noteTab s).entrance? options s with
    | none =>
      rw [he] at dialog
      exact staysInDialog_of_entrance? he dialog
    | some e =>
      rw [he] at dialog
      have modal : e.origin = .modal := by
        rw [current_enter] at dialog
        exact dialog
      exact .inl ((opens_of_entrance? kind he).isModalSignal_of_dialog modal)

/-- What every statement keeps. -/
def Allowed (options : PageOptions) (p : Paging) : Prop :=
  ∀ page ∈ p.pages, page.Allowed options

namespace Allowed

theorem allowed_iff : p.Allowed options ↔
    (∀ page ∈ p.past, page.Allowed options) ∧ p.current.Allowed options := by
  simp only [Allowed, pages, List.mem_append, List.mem_singleton, or_imp, forall_and,
    forall_eq]

theorem allowed_start : ({} : Paging).Allowed options := by
  refine allowed_iff.mpr ⟨?_, .of_structural trivial ?_⟩
  · intro page hp
    cases hp
  · intro s hs
    cases hs

theorem allowed_noteTab (h : p.Allowed options) (s : Statement) :
    (p.noteTab s).Allowed options := by
  obtain ⟨past, current⟩ := allowed_iff.mp h
  rw [noteTab_eq]
  exact allowed_iff.mpr ⟨past, current.of_statements rfl fun t ht => .inl ht⟩

theorem allowed_enter (h : p.Allowed options) (enabled : e.origin.IsEnabled options) :
    (p.enter e).Allowed options := by
  obtain ⟨past, -⟩ := allowed_iff.mp h
  refine allowed_iff.mpr ⟨?_, ?_⟩
  · rw [past_enter]
    split
    next => exact h
    next => exact past
  · rw [current_enter]
    refine .of_structural enabled ?_
    intro t ht
    dsimp only at ht
    split at ht
    next => cases ht
    next idle => exact OpenPage.structural_of_not_hasActions (Bool.eq_false_iff.mpr idle) t ht

theorem allowed_arrive (h : p.Allowed options) (s : Statement) :
    (p.arrive options s).Allowed options := by
  rcases arrive_opens options p s with ⟨stays, -⟩ | ⟨history, e, opens, he⟩
  · rw [stays]
    exact h.allowed_noteTab s
  · have noted : ({ p.noteTab s with history := history } : Paging).Allowed options :=
      h.allowed_noteTab s
    have here : (p.noteTab s).current.origin.IsEnabled options :=
      (allowed_iff.mp (h.allowed_noteTab s)).2.enabled
    rw [he]
    exact noted.allowed_enter (opens.isEnabled_of_opens here)

/-- One more statement keeps everything, if it navigates only with a verb for it. -/
theorem allowed_of_step (h : p.Allowed options) (fits : s.VerbFits)
    (hs : p.step options s = .ok q) :
    q.Allowed options := by
  have added : ((p.arrive options s).add s).Allowed options := by
    obtain ⟨past, current⟩ := allowed_iff.mp (h.allowed_arrive s)
    exact allowed_iff.mpr ⟨past, current.allowed_add (staysInDialog_of_arrive fits)⟩
  cases turn_of_step hs with
  | idles idle =>
    obtain ⟨past, current⟩ := allowed_iff.mp h
    refine allowed_iff.mpr ⟨past, current.of_statements rfl ?_⟩
    intro t ht
    rcases List.mem_append.mp ht with old | new
    · exact .inl old
    · rw [List.mem_singleton.mp new]
      exact .inr idle
  | stays => exact added
  | leaves deed there =>
    have enabled : options.urlChangeOpensPage = true := (Statement.awaits?_eq_some there).2.2.1
    refine allowed_iff.mpr ⟨?_, .of_structural enabled ?_⟩
    · rw [past_leaveFor]
      exact added
    · intro t ht
      cases ht

theorem of_reaches {turns : List (Paging × Statement)} (reached : Reaches options turns p)
    (fits : ∀ turn ∈ turns, turn.2.VerbFits) : p.Allowed options := by
  induction reached with
  | start => exact allowed_start
  | next _ hs ih =>
    obtain ⟨before, last⟩ := List.forall_mem_append.mp fits
    exact (ih before).allowed_of_step (last _ List.mem_cons_self) hs

/-- What stands behind the last deed may go to a dialog as well. -/
theorem allowed_of_mem_finish (h : p.Allowed options) :
    ∀ page ∈ p.finish.map fun q => q.toOpenPage, page.Allowed options := by
  obtain ⟨past, current⟩ := allowed_iff.mp h
  have ends : p.Ends p.finish := ends_finish p
  generalize p.finish = finished at ends
  cases ends with
  | closes =>
    rw [List.map_append]
    exact List.forall_mem_append.mpr ⟨past, List.forall_mem_singleton.mpr current⟩
  | @folds before last idle closed =>
    rw [Paging.past, closed, List.map_append] at past
    obtain ⟨init, folded⟩ := List.forall_mem_append.mp past
    rw [List.map_append]
    refine List.forall_mem_append.mpr ⟨init, List.forall_mem_singleton.mpr ?_⟩
    refine (List.forall_mem_singleton.mp folded).of_statements rfl ?_
    intro t ht
    refine (List.mem_append.mp ht).imp id ?_
    exact OpenPage.structural_of_not_hasActions idle t

end Allowed

end Paging

/-- Pages have an origin that the options let them have, and a dialog holds only deeds about a
dialog, waits, handlers of native dialogs and reloads. The page behind a dialog stands directly
after it. -/
theorem PageSpan.origins_allowed {options : PageOptions} {statements : List Statement}
    {spans : List PageSpan} (extracted : ∀ s ∈ statements, s.IsExtracted)
    (h : PageSpan.ofStatements options statements = .ok spans) :
    (∀ page ∈ spans, page.Allowed options) ∧
    ∀ before page after, spans = before ++ page :: after → page.origin = .modalClose →
      ∃ earlier dialog, before = earlier ++ [dialog] ∧ dialog.origin = .modal := by
  obtain ⟨turns, p, reached, same, ends⟩ := PageSpan.exists_reached h
  have pages : (spans.map fun span => span.toOpenPage) = p.finish.map fun q => q.toOpenPage := by
    rw [← ends, List.map_map]
    rfl
  refine ⟨?_, ?_⟩
  · have fits : ∀ turn ∈ turns, turn.2.VerbFits := by
      intro turn ht
      have hs : turn.2 ∈ statements := by
        rw [← same]
        exact List.mem_map_of_mem ht
      exact (extracted _ hs).verbFits
    have allowed := (Paging.Allowed.of_reaches reached fits).allowed_of_mem_finish
    rw [← pages] at allowed
    intro page hp
    exact allowed _ (List.mem_map_of_mem hp)
  · intro before page after split closing
    have returns := (Paging.Returning.of_reaches reached).returns_finish
    rw [← pages, split, List.map_append, List.map_cons] at returns
    obtain ⟨others, below, last, dialog, -⟩ := (returns _ _ _ rfl).closing closing
    obtain ⟨earlier, single, rfl, -, last⟩ := List.map_eq_append_iff.mp last
    obtain ⟨modal, rfl, rfl⟩ := List.map_eq_singleton_iff.mp last
    exact ⟨earlier, modal, rfl, dialog⟩

/-- A dialog that is still there when the page has been reloaded. -/
def reloadedDialog : Text :=
  "await page.goto('/order');\nawait page.click('.modal .ok');\n" ++
    "await page.reload();\nawait page.click('#done');"

theorem PageSpan.origins_allowed_reloadedDialog :
    ∃ visit dialog page : PageSpan,
      PageSpan.ofStatements dialogPages (Statement.ofText reloadedDialog) =
        .ok [visit, dialog, page] ∧
      dialog.origin = .modal ∧ page.origin = .modalClose ∧
      (∀ s ∈ dialog.statements, s.isStructural = false → s.StaysInDialog) ∧
      ∃ s ∈ dialog.statements, s.verb = some ("reload" : Text) := by
  have found : (PageSpan.ofStatements dialogPages (Statement.ofText reloadedDialog)).toOption.any
      (fun spans => decide (
        spans.map (fun span => span.origin) = [.navigation, .modal, .modalClose] ∧
        ∃ span ∈ spans.tail.take 1, ∃ s ∈ span.statements, s.verb = some ("reload" : Text))) =
      true := by
    decide +kernel
  obtain ⟨spans, h, found⟩ := exists_ok_of_any found
  obtain ⟨origins, reload⟩ := of_decide_eq_true found
  have three : spans.length = 3 := by simpa using congrArg List.length origins
  obtain ⟨visit, dialog, page, rfl⟩ := List.length_eq_three.mp three
  obtain ⟨-, modal, closing⟩ : visit.origin = .navigation ∧ dialog.origin = .modal ∧
      page.origin = .modalClose := by simpa using origins
  have extracted : ∀ s ∈ Statement.ofText reloadedDialog, s.IsExtracted :=
    fun s hs => ⟨reloadedDialog, hs⟩
  obtain ⟨allowed, -⟩ := PageSpan.origins_allowed extracted h
  exact ⟨visit, dialog, page, h, modal, closing, (allowed dialog (by simp)).within modal,
    by simpa using reload⟩

end PageObjects
