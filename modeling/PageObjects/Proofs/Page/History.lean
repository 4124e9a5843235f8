import PageObjects.Proofs.Page.Reach
import PageObjects.Script.Extract

namespace PageObjects

/-- What navigation does in a tab. -/
inductive TabMove where
  | visit (url : Text)
  | back
  | forward
  deriving DecidableEq, Repr

namespace TabMove

/-- Whether a statement makes a move. -/
def IsOf : TabMove → Statement → Prop
  | visit url, s => s.kind = .navigation ∧ s.verb = some ("goto" : Text) ∧ s.url = some url
  | back, s => s.kind = .navigation ∧ s.verb = some ("goBack" : Text)
  | forward, s => s.kind = .navigation ∧ s.verb = some ("goForward" : Text)

instance : (move : TabMove) → (s : Statement) → Decidable (move.IsOf s)
  | visit _, _ => inferInstanceAs (Decidable (_ ∧ _ ∧ _))
  | back, _ => inferInstanceAs (Decidable (_ ∧ _))
  | forward, _ => inferInstanceAs (Decidable (_ ∧ _))

theorem IsOf.kind_eq {move : TabMove} {s : Statement} (h : move.IsOf s) : s.kind = .navigation := by
  cases move with
  | visit => exact h.1
  | back => exact h.1
  | forward => exact h.1

end TabMove

/-- A browser tab: the URL that it shows, those it can go back to and those it can go forward to,
the nearest first. -/
structure BrowserTab where
  shown : Option Text := none
  behind : List Text := []
  ahead : List Text := []
  deriving DecidableEq, Repr

namespace BrowserTab

/-- The tab after one move. A visit forgets what is ahead; going where nothing is does nothing. -/
def move (tab : BrowserTab) : TabMove → BrowserTab
  | .visit url => { shown := some url, behind := tab.shown.toList ++ tab.behind }
  | .back =>
    match tab.behind with
    | [] => tab
    | url :: rest =>
      { shown := some url, behind := rest, ahead := tab.shown.toList ++ tab.ahead }
  | .forward =>
    match tab.ahead with
    | [] => tab
    | url :: rest =>
      { shown := some url, behind := tab.shown.toList ++ tab.behind, ahead := rest }

/-- The tab after some moves. -/
def after (moves : List TabMove) : BrowserTab := moves.foldl move {}

/-- The tab after some moves, if it does not go forward. -/
def afterBackOnly (moves : List TabMove) : BrowserTab := after (moves.filter (· ≠ .forward))

/-- All URLs that a tab has gone through and not come back from, the one shown last. -/
def trail (tab : BrowserTab) : List Text := tab.behind.reverse ++ tab.shown.toList

end BrowserTab

/-- Whether going forward has led nowhere in a tab so far. -/
def NeverForward (moves : List TabMove) : Prop :=
  ∀ earlier, earlier ++ [.forward] <+: moves → (BrowserTab.after earlier).ahead = []

/-- The URL that is recorded after some moves: the one that was visited last, or where the tab goes
back to if it does not go forward. It is unknown where going forward leads. -/
def recordedUrl (moves : List TabMove) : Option Text :=
  match moves.getLast? with
  | some (.visit url) => some url
  | some .back =>
    if (BrowserTab.afterBackOnly moves.dropLast).behind = [] then none
    else (BrowserTab.afterBackOnly moves).shown
  | _ => none

namespace BrowserTab

variable {tab : BrowserTab}

theorem after_concat (moves : List TabMove) (m : TabMove) :
    after (moves ++ [m]) = (after moves).move m := by
  rw [after, List.foldl_concat]
  rfl

theorem afterBackOnly_forward (moves : List TabMove) :
    afterBackOnly (moves ++ [.forward]) = afterBackOnly moves := by
  simp [afterBackOnly]

theorem afterBackOnly_concat {m : TabMove} (h : m ≠ .forward) (moves : List TabMove) :
    afterBackOnly (moves ++ [m]) = (afterBackOnly moves).move m := by
  have kept : (moves ++ [m]).filter (· ≠ .forward) = moves.filter (· ≠ .forward) ++ [m] := by
    simp [h]
  rw [afterBackOnly, kept, after_concat]
  rfl

/-- A tab that shows nothing has nothing to go back to. -/
def Settled (tab : BrowserTab) : Prop := tab.shown = none → tab.behind = []

theorem settled_of_shown {url : Text} (h : tab.shown = some url) : tab.Settled := by
  intro nothing
  rw [h] at nothing
  cases nothing

theorem Settled.settled_move (h : tab.Settled) (m : TabMove) : (tab.move m).Settled := by
  cases m with
  | visit url => exact settled_of_shown rfl
  | back =>
    rw [BrowserTab.move]
    split
    next => exact h
    next => exact settled_of_shown rfl
  | forward =>
    rw [BrowserTab.move]
    split
    next => exact h
    next => exact settled_of_shown rfl

theorem settled_after (moves : List TabMove) : (after moves).Settled := by
  induction moves using List.reverseRecOn with
  | nil => exact fun _ => rfl
  | append_singleton moves m ih =>
    rw [after_concat]
    exact ih.settled_move m

theorem trail_visit (tab : BrowserTab) (url : Text) :
    (tab.move (.visit url)).trail = tab.trail ++ [url] := by
  cases shown : tab.shown <;> simp [trail, move, shown]

theorem trail_of_behind_eq_nil (h : tab.behind = []) : tab.trail = tab.shown.toList := by
  simp [trail, h]

/-- Going back takes the last URL off the trail. -/
theorem Settled.trail_back (h : tab.Settled) {url : Text} {rest : List Text}
    (far : tab.behind = url :: rest) :
    ∃ last, tab.trail = (tab.move .back).trail ++ [last] ∧
      (tab.move .back).trail = rest.reverse ++ [url] := by
  cases shown : tab.shown with
  | none =>
    rw [h shown] at far
    cases far
  | some last => exact ⟨last, by simp [trail, BrowserTab.move, far, shown], by
      simp [trail, BrowserTab.move, far]⟩

end BrowserTab

theorem afterBackOnly_of_neverForward {moves : List TabMove} (h : NeverForward moves) :
    BrowserTab.afterBackOnly moves = BrowserTab.after moves := by
  induction moves using List.reverseRecOn with
  | nil => rfl
  | append_singleton moves m ih =>
    have same := ih fun earlier hp => h earlier (hp.trans (List.prefix_append _ _))
    rw [BrowserTab.after_concat, ← same]
    by_cases forward : m = .forward
    · subst forward
      have nowhere : (BrowserTab.after moves).ahead = [] := h moves (List.prefix_refl _)
      rw [BrowserTab.afterBackOnly_forward, BrowserTab.move, same, nowhere]
    · exact BrowserTab.afterBackOnly_concat forward moves

/-- What every move keeps: paging remembers the trail of a tab that does not go forward. -/
structure Paging.Follows (moves : List TabMove) (p : Paging) : Prop where
  history : p.history = (BrowserTab.afterBackOnly moves).trail.map some
  url : p.current.url = recordedUrl moves

namespace Paging.Follows

variable {moves : List TabMove} {p : Paging} {s : Statement}

theorem follows_start : ({} : Paging).Follows [] := ⟨rfl, rfl⟩

theorem follows_visit (h : p.Follows moves) {url : Text} (hs : (TabMove.visit url).IsOf s) :
    (p.navigate s).Follows (moves ++ [.visit url]) := by
  obtain ⟨-, verb, shown⟩ := hs
  rw [navigate, if_pos verb]
  refine ⟨?_, ?_⟩
  · rw [history_enter, BrowserTab.afterBackOnly_concat (by simp), BrowserTab.trail_visit,
      List.map_append, ← h.history, shown]
    rfl
  · rw [current_enter, recordedUrl, List.getLast?_concat]
    exact shown

theorem follows_forward (h : p.Follows moves) (hs : TabMove.forward.IsOf s) :
    (p.navigate s).Follows (moves ++ [.forward]) := by
  obtain ⟨-, verb⟩ := hs
  have goes : p.navigate s = p.enter {
      origin := .history
      boundary := .at .navigation s
      pageVariable := s.pageVariable } := by
    rw [navigate, verb]
    rfl
  rw [goes]
  refine ⟨?_, ?_⟩
  · rw [history_enter, BrowserTab.afterBackOnly_forward, h.history]
  · rw [current_enter, recordedUrl, List.getLast?_concat]
    rfl

theorem follows_back (h : p.Follows moves) (hs : TabMove.back.IsOf s) :
    (p.navigate s).Follows (moves ++ [.back]) := by
  obtain ⟨-, verb⟩ := hs
  have settled : (BrowserTab.afterBackOnly moves).Settled := BrowserTab.settled_after _
  have moved : BrowserTab.afterBackOnly (moves ++ [.back]) =
      (BrowserTab.afterBackOnly moves).move .back :=
    BrowserTab.afterBackOnly_concat (by decide) moves
  have recorded : recordedUrl (moves ++ [.back]) =
      if (BrowserTab.afterBackOnly moves).behind = [] then none
      else ((BrowserTab.afterBackOnly moves).move .back).shown := by
    rw [recordedUrl, List.getLast?_concat, List.dropLast_concat, ← moved]
  cases behind : (BrowserTab.afterBackOnly moves).behind with
  | nil =>
    have near : ¬ 2 ≤ p.history.length := by
      rw [h.history, List.length_map, BrowserTab.trail_of_behind_eq_nil behind]
      cases (BrowserTab.afterBackOnly moves).shown <;> simp
    have goes : p.navigate s = p.enter {
        origin := .history
        boundary := .at .navigation s
        pageVariable := s.pageVariable } := by
      rw [navigate, verb]
      exact if_neg near
    rw [goes]
    refine ⟨?_, ?_⟩
    · rw [history_enter, h.history, moved, BrowserTab.move, behind]
    · rw [current_enter, recorded, if_pos behind]
      rfl
  | cons url rest =>
    obtain ⟨last, trail, left⟩ := settled.trail_back behind
    have far : 2 ≤ p.history.length := by
      simp [h.history, trail, left]
    have goes : p.navigate s = { p with history := p.history.dropLast }.enter {
        origin := .history
        boundary := .at .navigation s
        url := p.history.dropLast.getLast?.join
        pageVariable := s.pageVariable } := by
      rw [navigate, verb]
      exact if_pos far
    rw [goes]
    refine ⟨?_, ?_⟩
    · rw [history_enter, moved, h.history, trail, List.map_append, List.map_singleton,
        List.dropLast_concat]
    · have left_some : (BrowserTab.afterBackOnly moves).behind ≠ [] := by
        rw [behind]
        exact List.cons_ne_nil url rest
      have shown : ((BrowserTab.afterBackOnly moves).move .back).shown = some url := by
        rw [BrowserTab.move, behind]
      rw [current_enter, recorded, if_neg left_some, shown]
      simp [opened, h.history, trail, left]

theorem follows_navigate {m : TabMove} (h : p.Follows moves) (hs : m.IsOf s) :
    (p.navigate s).Follows (moves ++ [m]) := by
  cases m with
  | visit url => exact h.follows_visit hs
  | back => exact h.follows_back hs
  | forward => exact h.follows_forward hs

theorem exists_follows_step {m : TabMove} (h : p.Follows moves) (hs : m.IsOf s)
    (options : PageOptions) :
    ∃ q, p.step options s = .ok q ∧ q.Follows (moves ++ [m]) := by
  have noted : (p.noteTab s).Follows moves := by
    rw [noteTab_eq]
    exact ⟨h.history, h.url⟩
  refine ⟨((p.noteTab s).navigate s).add s, ?_, ?_⟩
  · simp [Paging.step, Content.isStructural, hs.kind_eq]
  · exact ⟨(noted.follows_navigate hs).history, (noted.follows_navigate hs).url⟩

theorem exists_follows_run {more : List TabMove} {statements : List Statement} (h : p.Follows moves)
    (hs : List.Forall₂ TabMove.IsOf more statements) (options : PageOptions) :
    ∃ q, p.run options statements = .ok q ∧ q.Follows (moves ++ more) := by
  induction hs generalizing p moves with
  | nil => exact ⟨p, rfl, by simpa using h⟩
  | @cons m s more rest first _ ih =>
    obtain ⟨next, hn, follows⟩ := h.exists_follows_step first options
    obtain ⟨q, hq, last⟩ := ih follows
    refine ⟨q, ?_, by simpa using last⟩
    rw [Paging.run, List.foldlM_cons, hn]
    exact hq

end Paging.Follows

theorem recordedUrl_agrees {moves : List TabMove}
    (nowhere : moves.getLast? = some .back → NeverForward moves) :
    recordedUrl moves = none ∨ recordedUrl moves = (BrowserTab.after moves).shown := by
  rcases List.eq_nil_or_concat' moves with rfl | ⟨earlier, m, rfl⟩
  · exact .inl rfl
  · rw [List.getLast?_concat] at nowhere
    rw [recordedUrl, List.getLast?_concat, List.dropLast_concat]
    cases m with
    | visit url => exact .inr (by rw [BrowserTab.after_concat]; rfl)
    | back =>
      rw [← afterBackOnly_of_neverForward (nowhere rfl)]
      dsimp only
      split
      next => exact .inl rfl
      next => exact .inr rfl
    | forward => exact .inl rfl

/-- Whatever moves a script makes, the URL of the open page is the one that was visited last, or the
one to which a tab goes back that does not go forward, or unknown. So it is unknown or the one that
a tab shows, unless the script goes back and has gone forward before. -/
theorem Paging.history_follows_tab (options : PageOptions) {moves : List TabMove}
    {statements : List Statement} (h : List.Forall₂ TabMove.IsOf moves statements) :
    ∃ p, Paging.run options {} statements = .ok p ∧ p.current.url = recordedUrl moves ∧
      ((moves.getLast? = some .back → NeverForward moves) →
        p.current.url = none ∨ p.current.url = (BrowserTab.after moves).shown) := by
  obtain ⟨p, hr, follows⟩ := Paging.Follows.follows_start.exists_follows_run h options
  rw [List.nil_append] at follows
  refine ⟨p, hr, follows.url, ?_⟩
  rw [follows.url]
  exact recordedUrl_agrees

/-- Two visits and a way back. -/
def returningVisit : Text := "await page.goto('/a');\nawait page.goto('/b');\nawait page.goBack();"

/-- Behind the way back the first visit is shown, in the tab and by paging. -/
theorem Paging.history_follows_tab_returningVisit :
    ∃ p, Paging.run {} {} (Statement.ofText returningVisit) = .ok p ∧
      p.current.url = some "/a" ∧
      p.current.url = (BrowserTab.after [.visit "/a", .visit "/b", .back]).shown := by
  have moves : List.Forall₂ TabMove.IsOf [.visit "/a", .visit "/b", .back]
      (Statement.ofText returningVisit) := by
    decide +kernel
  have never : NeverForward [.visit "/a", .visit "/b", .back] := by
    intro earlier h
    have there := h.subset (List.mem_append_right earlier (List.mem_singleton_self _))
    simp at there
  obtain ⟨p, hr, url, agrees⟩ := Paging.history_follows_tab {} moves
  have shown : p.current.url = some "/a" := url.trans (by decide +kernel)
  exact ⟨p, hr, shown, (agrees fun _ => never).resolve_left (by simp [shown])⟩

/-- Three visits, a way back, one forward and one back. -/
def restlessVisit : Text :=
  "await page.goto('/a');\nawait page.goto('/b');\nawait page.goto('/c');\n" ++
    "await page.goBack();\nawait page.goForward();\nawait page.goBack();"

/-- The tab comes back to the second visit, but paging has taken it off its history before and
records the first one. -/
theorem Paging.history_skips_page :
    ∃ moves p, List.Forall₂ TabMove.IsOf moves (Statement.ofText restlessVisit) ∧
      Paging.run {} {} (Statement.ofText restlessVisit) = .ok p ∧
      (BrowserTab.after moves).shown = some "/b" ∧ p.current.url = some "/a" := by
  have moves : List.Forall₂ TabMove.IsOf
      [.visit "/a", .visit "/b", .visit "/c", .back, .forward, .back]
      (Statement.ofText restlessVisit) := by
    decide +kernel
  obtain ⟨p, hr, follows⟩ := Paging.Follows.follows_start.exists_follows_run moves {}
  exact ⟨_, p, moves, hr, by decide +kernel, follows.url.trans (by decide +kernel)⟩

end PageObjects
