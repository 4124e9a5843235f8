import PageObjects.Proofs.Page.Reach
import PageObjects.Script.Extract

namespace PageObjects

/-- The URL that a page is left for: that of another page, which its last statement waits for. -/
def OpenPage.leftFor? (options : PageOptions) (page : OpenPage) : Option Text :=
  page.statements.getLast?.bind fun s => s.awaits? options page.url

theorem OpenPage.leftFor?_add (options : PageOptions) (page : OpenPage) (s : Statement) :
    (page.add s).leftFor? options = s.awaits? options page.url := by
  simp [leftFor?, add]

/-- The URL that the last of some pages is left for. -/
def awaitedUrl (options : PageOptions) (before : List OpenPage) : Option Text :=
  before.getLast?.bind fun page => page.leftFor? options

/-- The URL that is shown behind some pages as long as nothing else is opened: the one that the last
of them is left for, or its own. -/
def shownUrl (options : PageOptions) (before : List OpenPage) : Option Text :=
  (awaitedUrl options before).or (before.getLast?.bind fun page => page.url)

/-- The number of the page that a dialog behind some pages remembers: the last of them, unless it
has been left. -/
def coveredNumber (options : PageOptions) (before : List OpenPage) : Option Nat :=
  if before = [] ∨ (awaitedUrl options before).isSome then none else some (before.length - 1)

/-- What dialogs and the pages behind them show, given the pages before. -/
structure OpenPage.Returns (options : PageOptions) (before : List OpenPage) (page : OpenPage) :
    Prop where
  dialogUrl : page.origin = .modal → page.url = shownUrl options before
  dialogHost : page.origin = .modal → page.host = coveredNumber options before
  closing : page.origin = .modalClose → ∃ earlier dialog, before = earlier ++ [dialog] ∧
    dialog.origin = .modal ∧
    page.url = if (awaitedUrl options earlier).isSome then none else dialog.url

namespace OpenPage.Returns

variable {options : PageOptions} {before : List OpenPage} {page : OpenPage}

theorem of_origin (dialog : page.origin ≠ .modal) (closing : page.origin ≠ .modalClose) :
    page.Returns options before :=
  ⟨fun h => absurd h dialog, fun h => absurd h dialog, fun h => absurd h closing⟩

/-- Only the origin, the URL and the host matter. -/
theorem of_eq {other : OpenPage} (h : page.Returns options before)
    (origin : other.origin = page.origin) (url : other.url = page.url)
    (host : other.host = page.host) : other.Returns options before := by
  refine ⟨?_, ?_, ?_⟩
  · rw [origin, url]
    exact h.dialogUrl
  · rw [origin, host]
    exact h.dialogHost
  · rw [origin, url]
    exact h.closing

end OpenPage.Returns

/-- What every statement keeps: all pages show what they should, the open one is not left, and if
nothing has been done there it is no dialog and still shows what was shown when it opened. -/
structure Paging.Returning (options : PageOptions) (p : Paging) : Prop where
  pages : EachAfter (OpenPage.Returns options) p.pages
  here : p.current.leftFor? options = none
  idle : p.current.hasActions = false → p.current.origin ≠ .modal ∧
    p.current.url = shownUrl options p.past ∧ coveredNumber options p.past = none

namespace Paging.Returning

variable {options : PageOptions} {p : Paging} {s : Statement}

theorem returning_start : ({} : Paging).Returning options where
  pages := EachAfter.concat_iff.mpr ⟨.nil, .of_origin (by decide) (by decide)⟩
  here := rfl
  idle := fun _ => ⟨by decide, rfl, rfl⟩

theorem returning_noteTab (h : p.Returning options) : (p.noteTab s).Returning options := by
  obtain ⟨before, last⟩ := EachAfter.concat_iff.mp h.pages
  rw [noteTab_eq]
  exact ⟨EachAfter.concat_iff.mpr ⟨before, last.of_eq rfl rfl rfl⟩, h.here, h.idle⟩

theorem awaitedUrl_pages (h : p.Returning options) : awaitedUrl options p.pages = none := by
  rw [awaitedUrl, Paging.pages, List.getLast?_concat]
  exact h.here

/-- A page that is opened finds shown what the open page shows. -/
theorem shownUrl_past_enter (h : p.Returning options) (e : Entrance) :
    shownUrl options (p.enter e).past = p.current.url := by
  rw [past_enter]
  cases acts : p.current.hasActions with
  | true => simp [shownUrl, h.awaitedUrl_pages, getLast?_pages]
  | false => exact (h.idle acts).2.1.symm

theorem coveredNumber_past_enter (h : p.Returning options) (e : Entrance) :
    coveredNumber options (p.enter e).past =
      if p.current.hasActions = false then none else some p.number := by
  rw [past_enter]
  cases acts : p.current.hasActions with
  | true => simp [coveredNumber, h.awaitedUrl_pages, length_pages, pages_ne_nil]
  | false => exact (h.idle acts).2.2

/-- The host of a dialog shows what the dialog shows, if it has one. -/
theorem hostUrl_of_dialog (h : p.Returning options) (dialog : p.current.origin = .modal) :
    ((p.current.host.bind fun n => p.closed[n]?).bind fun q => q.url) =
      if (awaitedUrl options p.past).isSome then none else p.current.url := by
  obtain ⟨-, last⟩ := EachAfter.concat_iff.mp h.pages
  rw [last.dialogHost dialog, last.dialogUrl dialog, coveredNumber, shownUrl]
  cases awaited : awaitedUrl options p.past with
  | some target => simp
  | none =>
    rcases List.eq_nil_or_concat' p.closed with hc | ⟨pages, host, hc⟩
    · simp [Paging.past, hc]
    · simp [Paging.past, hc]

/-- A page that opens shows what it should, if a dialog opens over the open page and the page behind
a dialog at its host. -/
theorem returns_pages_enter (h : p.Returning options) {e : Entrance}
    (dialog : e.origin = .modal → e.url = p.current.url ∧ e.host = some p.number)
    (closing : e.origin = .modalClose → p.current.origin = .modal ∧
      e.url = (p.current.host.bind fun n => p.closed[n]?).bind fun q => q.url) :
    EachAfter (OpenPage.Returns options) (p.enter e).pages := by
  obtain ⟨before, -⟩ := EachAfter.concat_iff.mp h.pages
  refine EachAfter.concat_iff.mpr ⟨?_, ?_, ?_, ?_⟩
  · rw [past_enter]
    split
    next => exact h.pages
    next => exact before
  · intro opened
    rw [current_enter] at opened ⊢
    rw [h.shownUrl_past_enter]
    exact (dialog opened).1
  · intro opened
    rw [current_enter] at opened ⊢
    rw [h.coveredNumber_past_enter]
    simp only [(dialog opened).2, and_true]
  · intro opened
    rw [current_enter] at opened
    obtain ⟨below, url⟩ := closing opened
    have acts : p.current.hasActions = true :=
      Bool.of_not_eq_false fun idle => (h.idle idle).1 below
    refine ⟨p.past, p.current, by rw [past_enter, if_pos acts]; rfl, below, ?_⟩
    rw [current_enter, ← h.hostUrl_of_dialog below]
    exact url

theorem returns_pages_arrive (h : p.Returning options) :
    EachAfter (OpenPage.Returns options) (p.arrive options s).pages := by
  rcases arrive_opens options p s with ⟨stays, -⟩ | ⟨history, e, opens, he⟩
  · rw [stays]
    exact h.returning_noteTab.pages
  · have noted : ({ p.noteTab s with history := history } : Paging).Returning options :=
      ⟨h.returning_noteTab.pages, h.returning_noteTab.here, h.returning_noteTab.idle⟩
    rw [he]
    exact noted.returns_pages_enter opens.of_modal opens.of_modalClose

/-- One more statement keeps everything. -/
theorem returning_of_step {q : Paging} (h : p.Returning options) (hs : p.step options s = .ok q) :
    q.Returning options := by
  cases turn_of_step hs with
  | idles idle =>
    have calm : s.kind ≠ .wait := by
      rw [eq_of_beq idle]
      decide
    obtain ⟨before, last⟩ := EachAfter.concat_iff.mp h.pages
    refine ⟨EachAfter.concat_iff.mpr ⟨before, last.of_eq rfl rfl rfl⟩, ?_, ?_⟩
    · exact (OpenPage.leftFor?_add options p.current s).trans (Statement.awaits?_eq_none calm)
    · intro idles
      exact h.idle ((OpenPage.hasActions_add_structural idle).symm.trans idles)
  | stays deed here =>
    obtain ⟨before, last⟩ := EachAfter.concat_iff.mp (h.returns_pages_arrive (s := s))
    refine ⟨EachAfter.concat_iff.mpr ⟨before, last.of_eq rfl rfl rfl⟩, ?_, ?_⟩
    · exact (OpenPage.leftFor?_add options _ s).trans here
    · intro idles
      rw [Paging.add, OpenPage.hasActions_add (.inr deed)] at idles
      cases idles
  | @leaves target deed there =>
    obtain ⟨before, last⟩ := EachAfter.concat_iff.mp (h.returns_pages_arrive (s := s))
    have left : awaitedUrl options ((p.arrive options s).add s).pages = some target := by
      rw [awaitedUrl, getLast?_pages]
      exact (OpenPage.leftFor?_add options _ s).trans there
    have dialog : Origin.urlChange ≠ .modal := by decide
    have closing : Origin.urlChange ≠ .modalClose := by decide
    refine ⟨EachAfter.concat_iff.mpr ⟨?_, .of_origin dialog closing⟩, rfl,
      fun _ => ⟨dialog, ?_, ?_⟩⟩
    · rw [past_leaveFor]
      exact EachAfter.concat_iff.mpr ⟨before, last.of_eq rfl rfl rfl⟩
    · rw [past_leaveFor, shownUrl, left]
      rfl
    · rw [past_leaveFor, coveredNumber, left]
      simp

theorem of_reaches {turns : List (Paging × Statement)} (h : Paging.Reaches options turns p) :
    p.Returning options := by
  induction h with
  | start => exact .returning_start
  | next _ hs ih => exact ih.returning_of_step hs

/-- The end of the input changes nothing about that. -/
theorem returns_finish (h : p.Returning options) :
    EachAfter (OpenPage.Returns options) (p.finish.map fun q => q.toOpenPage) := by
  rcases p.map_toOpenPage_finish with same | ⟨before, last, hp, same⟩
  · rw [same]
    exact h.pages
  · obtain ⟨closed, -⟩ := EachAfter.concat_iff.mp h.pages
    rw [hp] at closed
    obtain ⟨init, fit⟩ := EachAfter.concat_iff.mp closed
    rw [same]
    exact EachAfter.concat_iff.mpr ⟨init, fit.of_eq rfl rfl rfl⟩

end Paging.Returning

/-- A dialog shows the URL of the page that it covers, and the page behind it shows that of the
dialog unless nothing has been done on the page that the dialog covers: then its URL is unknown,
though the dialog shows the one that the page before has been left for. -/
theorem PageSpan.dialogs_return {options : PageOptions} {statements : List Statement}
    {spans before after : List PageSpan} {page : PageSpan}
    (h : PageSpan.ofStatements options statements = .ok spans)
    (split : spans = before ++ page :: after) :
    (page.origin = .modal →
      page.url = shownUrl options (before.map fun span => span.toOpenPage)) ∧
    (page.origin = .modalClose → ∃ earlier dialog, before = earlier ++ [dialog] ∧
      dialog.origin = .modal ∧
      let awaited := awaitedUrl options (earlier.map fun span => span.toOpenPage)
      page.url = (if awaited.isSome then none else dialog.url) ∧
      (page.url = dialog.url ↔ awaited = none)) := by
  obtain ⟨p, hr, hn⟩ := exists_ok_of_bind h
  obtain ⟨turns, reached, -⟩ := Paging.reaches_of_run hr
  have finished := (Paging.Returning.of_reaches reached).returns_finish
  have returns : EachAfter (OpenPage.Returns options) (spans.map fun span => span.toOpenPage) := by
    rw [← map_toClosedPage_nameSpans hn, List.map_map] at finished
    exact finished
  have here := returns (before.map fun span => span.toOpenPage) page.toOpenPage
    (after.map fun span => span.toOpenPage) (by rw [split, List.map_append, List.map_cons])
  refine ⟨here.dialogUrl, ?_⟩
  intro closing
  obtain ⟨others, below, same, modal, url⟩ := here.closing closing
  rcases List.eq_nil_or_concat' before with rfl | ⟨earlier, dialog, rfl⟩
  · simp at same
  · rw [List.map_append] at same
    obtain ⟨rfl, found⟩ := List.append_inj' same rfl
    obtain rfl : dialog.toOpenPage = below := (List.cons.inj found).1
    have shown := (returns (earlier.map fun span => span.toOpenPage) dialog.toOpenPage
      ((page :: after).map fun span => span.toOpenPage) (by simp [split])).dialogUrl modal
    refine ⟨earlier, dialog, rfl, modal, url, ?_⟩
    cases awaited : awaitedUrl options (earlier.map fun span => span.toOpenPage) with
    | none => simp [url, awaited]
    | some target => simp [url, shown, shownUrl, awaited]

/-- A dialog is a page by itself. -/
def dialogPages : PageOptions := { modals := .page }

/-- A visit, a click in a dialog and a click behind it. -/
def confirmedVisit : Text :=
  "await page.goto('/order');\nawait page.click('.modal .ok');\nawait page.click('#done');"

theorem PageSpan.dialogs_return_confirmedVisit :
    ∃ visit dialog page : PageSpan,
      PageSpan.ofStatements dialogPages (Statement.ofText confirmedVisit) =
        .ok [visit, dialog, page] ∧
      page.origin = .modalClose ∧ page.url = dialog.url ∧ dialog.url = some "/order" := by
  have found : (PageSpan.ofStatements dialogPages (Statement.ofText confirmedVisit)).toOption.any
      (fun spans => decide (
        spans.map (fun span => span.origin) = [.navigation, .modal, .modalClose] ∧
        shownUrl dialogPages ((spans.take 1).map fun span => span.toOpenPage) = some "/order" ∧
        awaitedUrl dialogPages ((spans.take 1).map fun span => span.toOpenPage) = none)) =
      true := by
    decide +kernel
  obtain ⟨spans, h, found⟩ := exists_ok_of_any found
  obtain ⟨origins, shown, awaited⟩ := of_decide_eq_true found
  have three : spans.length = 3 := by simpa using congrArg List.length origins
  obtain ⟨visit, dialog, page, rfl⟩ := List.length_eq_three.mp three
  obtain ⟨-, modal, closing⟩ : visit.origin = .navigation ∧ dialog.origin = .modal ∧
      page.origin = .modalClose := by simpa using origins
  have second : [visit, dialog, page] = [visit] ++ dialog :: [page] := rfl
  have third : [visit, dialog, page] = [visit, dialog] ++ page :: [] := rfl
  obtain ⟨overPage, -⟩ := PageSpan.dialogs_return h second
  obtain ⟨-, behind⟩ := PageSpan.dialogs_return h third
  obtain ⟨earlier, below, same, -, -, agrees⟩ := behind closing
  have before : [visit] ++ [dialog] = earlier ++ [below] := same
  obtain ⟨rfl, last⟩ := List.append_inj' before rfl
  obtain rfl := (List.cons.inj last).1
  exact ⟨visit, dialog, page, h, closing, agrees.mpr awaited, (overPage modal).trans shown⟩

/-- A wait for another URL, a click in a dialog there and a click behind it. -/
def awaitedPayment : Text :=
  "await page.goto('/checkout');\nawait page.waitForURL('/pay');\n" ++
    "await page.click('.modal .ok');\nawait page.click('#done');"

/-- The dialog opens on a page on which nothing has been done. It takes this page over and keeps its
URL, but the page behind it has none. -/
theorem PageSpan.dialog_url_lost :
    ∃ visit dialog page : PageSpan,
      PageSpan.ofStatements dialogPages (Statement.ofText awaitedPayment) =
        .ok [visit, dialog, page] ∧
      dialog.origin = .modal ∧ page.origin = .modalClose ∧
      dialog.url = some "/pay" ∧ page.url = none := by
  have found : (PageSpan.ofStatements dialogPages (Statement.ofText awaitedPayment)).toOption.any
      (fun spans => decide (spans.map (fun span => (span.origin, span.url)) =
        ([(.navigation, some "/checkout"), (.modal, some "/pay"), (.modalClose, none)] :
          List (Origin × Option Text)))) = true := by
    decide +kernel
  obtain ⟨spans, h, found⟩ := exists_ok_of_any found
  have parts := of_decide_eq_true found
  have three : spans.length = 3 := by simpa using congrArg List.length parts
  obtain ⟨visit, dialog, page, rfl⟩ := List.length_eq_three.mp three
  simp only [List.map_cons, List.map_nil, List.cons.injEq, Prod.mk.injEq, and_true] at parts
  obtain ⟨-, ⟨modal, dialogUrl⟩, closing, url⟩ := parts
  exact ⟨visit, dialog, page, h, modal, closing, dialogUrl, url⟩

end PageObjects
