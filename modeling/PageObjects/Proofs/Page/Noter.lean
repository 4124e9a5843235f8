import PageObjects.Proofs.Entries
import PageObjects.Proofs.Page.Reach
import PageObjects.Proofs.Lists
import PageObjects.Script.Extract

namespace PageObjects

/-- Whether the URL of a statement is written as a pattern. -/
def Content.writesPattern (c : Content) : Bool := isPatternArgument c.arguments.head?

/-- Whether a statement tells a URL: it goes there or waits for it. -/
def Content.TellsUrl (c : Content) : Prop :=
  c.kind = .navigation ∧ c.verb = some ("goto" : Text) ∨
    c.kind = .wait ∧ c.verb = some ("waitForURL" : Text)

/-- Whether pages of an origin are opened by the statement that tells their URL. -/
def Origin.tellsUrl : Origin → Bool
  | navigation => true
  | urlChange => true
  | _ => false

/-- The URL that a statement has noted, if there is one. -/
def notedUrl (noter : Option Statement) : Option Text := noter.bind fun s => s.url

theorem join_map_notedUrl (noter : Option (Option Statement)) :
    (noter.map notedUrl).join = notedUrl noter.join := by
  cases noter <;> rfl

/-- The statements that noted the URLs which paging keeps: those of the closed pages, of the open
one, of navigation and of the tabs. -/
structure Noters where
  closed : List (Option Statement) := []
  current : Option Statement := none
  history : List (Option Statement) := []
  tabs : List (Text × Option Statement) := []

namespace Noters

/-- The noters of all pages. -/
def pages (n : Noters) : List (Option Statement) := n.closed ++ [n.current]

/-- The noters of the tabs once the tab of the open page is known to show what `noter` noted. -/
def tabsWith (n : Noters) (p : Paging) (noter : Option Statement) :
    List (Text × Option Statement) :=
  match p.current.pageVariable with
  | some tab => setEntry tab noter n.tabs
  | none => n.tabs

/-- The noters when a page opens with the URL that `noter` noted. -/
def enter (n : Noters) (p : Paging) (noter : Option Statement) : Noters :=
  { n with
    closed := if p.current.hasActions then n.pages else n.closed
    current := noter
    tabs := n.tabsWith p n.current }

/-- The noters when a statement goes to a URL, which it notes, or back or forward. -/
def navigate (n : Noters) (p : Paging) (s : Statement) : Noters :=
  if s.verb = some ("goto" : Text) then
    { n with history := n.history ++ [some s] }.enter p (some s)
  else if s.verb = some ("goBack" : Text) then
    if 2 ≤ n.history.length then
      { n with history := n.history.dropLast }.enter p n.history.dropLast.getLast?.join
    else n.enter p none
  else if s.verb = some ("goForward" : Text) then n.enter p none
  else n

/-- The noter of the URL of a page that opens before a statement which does not navigate: that of
the tab, of the host behind a dialog, or of the open page. -/
def heir (n : Noters) (p : Paging) (e : Entrance) : Option Statement :=
  match e.origin with
  | .pageSwitch => (e.pageVariable.bind fun tab => valueAt? tab n.tabs).join
  | .modalClose => (p.current.host.bind fun k => n.closed[k]?).join
  | _ => n.current

/-- The noters when a statement that does something arrives. -/
def arrive (options : PageOptions) (n : Noters) (p : Paging) (s : Statement) : Noters :=
  let p := p.noteTab s
  if s.kind = .navigation then n.navigate p s
  else match p.entrance? options s with
    | some e => n.enter p (n.heir p e)
    | none => n

/-- The noters after one more statement. One that waits for the URL of another page notes it. -/
def turn (options : PageOptions) (n : Noters) (p : Paging) (s : Statement) : Noters :=
  if s.isStructural then n
  else
    let arrived := n.arrive options p s
    if (s.awaits? options (p.arrive options s).current.url).isSome then
      { closed := arrived.pages
        current := some s
        history := arrived.history ++ [some s]
        tabs := arrived.tabsWith (p.arrive options s) (some s) }
    else arrived

/-- The noters after some turns. -/
def after (options : PageOptions) (turns : List (Paging × Statement)) : Noters :=
  turns.foldl (fun n (p, s) => n.turn options p s) {}

end Noters

/-- A page that shows the URL which `noter` noted. It is marked as having a pattern if this is what
the noter wrote and the page is opened by the noter. -/
structure OpenPage.NotedBy (page : OpenPage) (noter : Option Statement) : Prop where
  url : page.url = notedUrl noter
  mark : page.urlIsPattern = (page.origin.tellsUrl && noter.any fun s => s.writesPattern)

/-- What every statement keeps: the noters are those of the URLs that paging keeps. -/
structure Paging.NotedBy (p : Paging) (n : Noters) : Prop where
  past : List.Forall₂ OpenPage.NotedBy p.past n.closed
  current : p.current.NotedBy n.current
  history : p.history = n.history.map notedUrl
  tabs : p.tabUrls = n.tabs.map fun (tab, noter) => (tab, notedUrl noter)

namespace Paging.NotedBy

variable {options : PageOptions} {p : Paging} {n : Noters} {s : Statement}

theorem notedBy_start : ({} : Paging).NotedBy {} := ⟨.nil, ⟨rfl, rfl⟩, rfl, rfl⟩

theorem notedBy_pages (h : p.NotedBy n) : List.Forall₂ OpenPage.NotedBy p.pages n.pages :=
  List.rel_append h.past (.cons h.current .nil)

theorem notedBy_add (h : p.NotedBy n) (s : Statement) : (p.add s).NotedBy n :=
  ⟨h.past, ⟨h.current.url, h.current.mark⟩, h.history, h.tabs⟩

theorem notedBy_noteTab (h : p.NotedBy n) (s : Statement) : (p.noteTab s).NotedBy n := by
  rw [noteTab_eq]
  exact ⟨h.past, ⟨h.current.url, h.current.mark⟩, h.history, h.tabs⟩

theorem notedBy_withHistory (h : p.NotedBy n) (history : List (Option Statement)) :
    ({ p with history := history.map notedUrl } : Paging).NotedBy { n with history := history } :=
  ⟨h.past, h.current, rfl, h.tabs⟩

theorem tabUrlsWith_eq (h : p.NotedBy n) (noter : Option Statement) :
    p.tabUrlsWith (notedUrl noter) =
      (n.tabsWith p noter).map fun (tab, noter) => (tab, notedUrl noter) := by
  unfold tabUrlsWith Noters.tabsWith
  cases p.current.pageVariable with
  | none => exact h.tabs
  | some tab =>
    rw [h.tabs]
    exact setEntry_map notedUrl tab noter n.tabs

theorem notedBy_enter (h : p.NotedBy n) {e : Entrance} {noter : Option Statement}
    (url : e.url = notedUrl noter)
    (mark : e.urlIsPattern = (e.origin.tellsUrl && noter.any fun s => s.writesPattern)) :
    (p.enter e).NotedBy (n.enter p noter) := by
  refine ⟨?_, ?_, ?_, ?_⟩
  · rw [past_enter, Noters.enter]
    split
    next => exact h.notedBy_pages
    next => exact h.past
  · rw [current_enter]
    exact ⟨url, mark⟩
  · rw [history_enter]
    exact h.history
  · rw [tabUrls_enter, h.current.url]
    exact h.tabUrlsWith_eq n.current

theorem notedBy_navigate (h : p.NotedBy n) (s : Statement) :
    (p.navigate s).NotedBy (n.navigate p s) := by
  have length : p.history.length = n.history.length := by rw [h.history, List.length_map]
  unfold Paging.navigate Noters.navigate
  rw [length]
  split
  next =>
    have noted := h.notedBy_withHistory (n.history ++ [some s])
    rw [List.map_append, ← h.history] at noted
    exact noted.notedBy_enter rfl (Bool.true_and _).symm
  next =>
    split
    next =>
      split
      next =>
        have left := h.notedBy_withHistory n.history.dropLast
        rw [List.map_dropLast, ← h.history] at left
        refine left.notedBy_enter ?_ rfl
        rw [h.history, ← List.map_dropLast, List.getLast?_map]
        exact join_map_notedUrl _
      next => exact h.notedBy_enter rfl rfl
    next =>
      split
      next => exact h.notedBy_enter rfl rfl
      next => exact h

theorem hostUrl_eq (h : p.NotedBy n) (host : Option Nat) :
    ((host.bind fun k => p.closed[k]?).bind fun q => q.url) =
      notedUrl (host.bind fun k => n.closed[k]?).join := by
  cases host with
  | none => rfl
  | some k =>
    have urls : p.past.map (fun q => q.url) = n.closed.map notedUrl := by
      rw [← List.forall₂_eq_eq_eq, List.forall₂_map_left_iff, List.forall₂_map_right_iff]
      exact h.past.imp fun _ _ noted => noted.url
    rw [Paging.past, List.map_map] at urls
    have here := congrArg (fun urls => urls[k]?.join) urls
    simp only [List.getElem?_map, join_map_notedUrl] at here
    rw [Option.bind_some, Option.bind_some, ← here]
    cases p.closed[k]? <;> rfl

/-- A page that opens before a statement which does not navigate has the URL that its heir noted. -/
theorem url_eq_of_opens (h : p.NotedBy n) {history : List (Option Text)} {e : Entrance}
    (opens : p.Opens options s history e) (kind : s.kind ≠ .navigation) :
    e.url = notedUrl (n.heir p e) ∧
      e.urlIsPattern = (e.origin.tellsUrl && (n.heir p e).any fun s => s.writesPattern) := by
  cases opens with
  | visit moves => exact absurd moves kind
  | back moves => exact absurd moves kind
  | lost moves => exact absurd moves kind
  | @switch tab =>
    refine ⟨?_, rfl⟩
    rw [h.tabs, valueAt?_map]
    exact join_map_notedUrl _
  | dialog => exact ⟨h.current.url, rfl⟩
  | closing => exact ⟨h.hostUrl_eq p.current.host, rfl⟩
  | tab => exact ⟨h.current.url, rfl⟩

theorem notedBy_arrive (h : p.NotedBy n) (s : Statement) :
    (p.arrive options s).NotedBy (n.arrive options p s) := by
  have noted := h.notedBy_noteTab s
  by_cases kind : s.kind = .navigation
  · simp only [Paging.arrive, Noters.arrive, if_pos kind]
    exact noted.notedBy_navigate s
  · simp only [Paging.arrive, Noters.arrive, if_neg kind]
    cases he : (p.noteTab s).entrance? options s with
    | none => exact noted
    | some e =>
      obtain ⟨url, mark⟩ := noted.url_eq_of_opens (opens_of_entrance? kind he) kind
      exact noted.notedBy_enter url mark

theorem notedBy_leaveFor (h : p.NotedBy n) {target : Text} (url : s.url = some target) :
    (p.leaveFor s target).NotedBy {
      closed := n.pages
      current := some s
      history := n.history ++ [some s]
      tabs := n.tabsWith p (some s) } := by
  have noted : some target = notedUrl (some s) := url.symm
  refine ⟨?_, ⟨noted, (Bool.true_and _).symm⟩, ?_, ?_⟩
  · rw [past_leaveFor]
    exact h.notedBy_pages
  · rw [List.map_append, ← h.history, List.map_singleton, ← noted]
    rfl
  · rw [← h.tabUrlsWith_eq, ← noted]
    rfl

/-- One more statement keeps the noters those of the URLs. -/
theorem notedBy_of_step {q : Paging} (h : p.NotedBy n) (hs : p.step options s = .ok q) :
    q.NotedBy (n.turn options p s) := by
  unfold Noters.turn
  cases turn_of_step hs with
  | idles idle =>
    rw [if_pos idle]
    exact h.notedBy_add s
  | stays deed here =>
    rw [if_neg (Bool.not_eq_true _ ▸ deed), here]
    exact (h.notedBy_arrive s).notedBy_add s
  | leaves deed there =>
    obtain ⟨-, -, -, url⟩ := Statement.awaits?_eq_some there
    rw [if_neg (Bool.not_eq_true _ ▸ deed), there]
    exact ((h.notedBy_arrive s).notedBy_add s).notedBy_leaveFor url

theorem of_reaches {turns : List (Paging × Statement)} (h : Paging.Reaches options turns p) :
    p.NotedBy (Noters.after options turns) := by
  induction h with
  | start => exact .notedBy_start
  | next _ hs ih =>
    rw [Noters.after, List.foldl_concat]
    exact ih.notedBy_of_step hs

end Paging.NotedBy

/-- All noters have a property. -/
structure Noters.Are (P : Statement → Prop) (n : Noters) : Prop where
  closed : ∀ t, some t ∈ n.closed → P t
  current : ∀ t, n.current = some t → P t
  history : ∀ t, some t ∈ n.history → P t
  tabs : ∀ entry ∈ n.tabs, ∀ t, entry.2 = some t → P t

namespace Noters.Are

variable {P : Statement → Prop} {n : Noters} {p : Paging} {s : Statement}

theorem are_start (P : Statement → Prop) : ({} : Noters).Are P :=
  ⟨by simp, by simp, by simp, by simp⟩

theorem mono {Q : Statement → Prop} (h : n.Are P) (weaker : ∀ t, P t → Q t) : n.Are Q :=
  ⟨fun t ht => weaker t (h.closed t ht), fun t ht => weaker t (h.current t ht),
    fun t ht => weaker t (h.history t ht), fun entry he t ht => weaker t (h.tabs entry he t ht)⟩

theorem of_mem_pages (h : n.Are P) : ∀ t, some t ∈ n.pages → P t := by
  intro t ht
  rcases List.mem_append.mp ht with ht | ht
  · exact h.closed t ht
  · exact h.current t (List.mem_singleton.mp ht).symm

theorem of_mem_tabsWith (h : n.Are P) (p : Paging) {noter : Option Statement}
    (hn : ∀ t, noter = some t → P t) :
    ∀ entry ∈ n.tabsWith p noter, ∀ t, entry.2 = some t → P t := by
  unfold Noters.tabsWith
  split
  next tab =>
    intro entry he
    rcases eq_or_mem_of_mem_setEntry he with rfl | he
    · exact hn
    · exact h.tabs entry he
  next => exact h.tabs

theorem are_enter (h : n.Are P) (p : Paging) {noter : Option Statement}
    (hn : ∀ t, noter = some t → P t) : (n.enter p noter).Are P := by
  refine ⟨?_, hn, h.history, h.of_mem_tabsWith p h.current⟩
  rw [Noters.enter]
  split
  next => exact h.of_mem_pages
  next => exact h.closed

theorem of_mem_history_concat (h : n.Are P) (hs : P s) :
    ∀ t, some t ∈ n.history ++ [some s] → P t := by
  intro t ht
  rcases List.mem_append.mp ht with ht | ht
  · exact h.history t ht
  · exact Option.some.inj (List.mem_singleton.mp ht) ▸ hs

theorem are_navigate (h : n.Are P) (p : Paging) (hs : s.verb = some ("goto" : Text) → P s) :
    (n.navigate p s).Are P := by
  unfold Noters.navigate
  split
  next goto =>
    have noted : ({ n with history := n.history ++ [some s] } : Noters).Are P :=
      ⟨h.closed, h.current, h.of_mem_history_concat (hs goto), h.tabs⟩
    exact noted.are_enter p fun t ht => Option.some.inj ht ▸ hs goto
  next =>
    split
    next =>
      split
      next =>
        have left : ({ n with history := n.history.dropLast } : Noters).Are P :=
          ⟨h.closed, h.current, fun t ht => h.history t ((List.dropLast_sublist _).subset ht),
            h.tabs⟩
        refine left.are_enter p ?_
        intro t ht
        exact left.history t (List.mem_of_getLast? (Option.join_eq_some_iff.mp ht))
      next => exact h.are_enter p (by simp)
    next =>
      split
      next => exact h.are_enter p (by simp)
      next => exact h

theorem of_heir_eq_some (h : n.Are P) (p : Paging) (e : Entrance) :
    ∀ t, n.heir p e = some t → P t := by
  unfold Noters.heir
  intro t ht
  split at ht
  next =>
    obtain ⟨tab, -, found⟩ := Option.bind_eq_some_iff.mp (Option.join_eq_some_iff.mp ht)
    exact h.tabs _ (mem_of_valueAt? found) t rfl
  next =>
    obtain ⟨k, -, found⟩ := Option.bind_eq_some_iff.mp (Option.join_eq_some_iff.mp ht)
    exact h.closed t (List.mem_of_getElem? found)
  next => exact h.current t ht

theorem are_arrive (h : n.Are P) (options : PageOptions) (p : Paging) (hs : s.TellsUrl → P s) :
    (n.arrive options p s).Are P := by
  by_cases kind : s.kind = .navigation
  · simp only [Noters.arrive, if_pos kind]
    exact h.are_navigate _ fun goto => hs (.inl ⟨kind, goto⟩)
  · simp only [Noters.arrive, if_neg kind]
    cases (p.noteTab s).entrance? options s with
    | none => exact h
    | some e => exact h.are_enter _ (h.of_heir_eq_some _ e)

theorem are_turn (h : n.Are P) (options : PageOptions) (p : Paging) (hs : s.TellsUrl → P s) :
    (n.turn options p s).Are P := by
  have arrived := h.are_arrive options p hs
  unfold Noters.turn
  dsimp only
  split
  next => exact h
  next =>
    split
    next there =>
      obtain ⟨target, there⟩ := Option.isSome_iff_exists.mp there
      obtain ⟨kind, verb, -, -⟩ := Statement.awaits?_eq_some there
      have noted : P s := hs (.inr ⟨kind, verb⟩)
      have only : ∀ t, some s = some t → P t := fun t ht => Option.some.inj ht ▸ noted
      exact ⟨arrived.of_mem_pages, only, arrived.of_mem_history_concat noted,
        arrived.of_mem_tabsWith _ only⟩
    next => exact arrived

/-- All noters are statements so far that tell a URL. -/
theorem are_after (options : PageOptions) (turns : List (Paging × Statement)) :
    (Noters.after options turns).Are fun t => t ∈ turns.map Prod.snd ∧ t.TellsUrl := by
  induction turns using List.reverseRecOn with
  | nil => exact .are_start _
  | append_singleton turns turn ih =>
    rw [Noters.after, List.foldl_concat, List.map_append]
    refine (ih.mono ?_).are_turn options turn.1 ?_
    · exact fun t ht => ⟨List.mem_append_left _ ht.1, ht.2⟩
    · exact fun tells => ⟨by simp, tells⟩

end Noters.Are

theorem OpenPage.NotedBy.exists_noter {page : OpenPage} {noter : Option Statement} {url : Text}
    (h : page.NotedBy noter) (shown : page.url = some url) :
    ∃ t, noter = some t ∧ t.url = some url ∧
      (page.urlIsPattern = true ↔ t.writesPattern = true ∧ page.origin.tellsUrl = true) := by
  rw [h.url] at shown
  obtain ⟨t, rfl, url⟩ := Option.bind_eq_some_iff.mp shown
  refine ⟨t, rfl, url, ?_⟩
  rw [h.mark, Bool.and_eq_true, and_comm]
  rfl

theorem ClosedPage.pattern_eq_of_notedBy {a b : ClosedPage} {t : Statement}
    (ha : a.NotedBy (some t)) (hb : b.NotedBy (some t)) (plain : t.writesPattern = false) :
    a.pattern = b.pattern := by
  have unmarked : ∀ page : OpenPage, page.NotedBy (some t) → page.urlIsPattern = false := by
    intro page noted
    rw [noted.mark, Option.any_some, plain, Bool.and_false]
  rw [pattern, pattern, ha.url, hb.url, unmarked a.toOpenPage ha, unmarked b.toOpenPage hb]

/-- Every page that shows a URL shows one that a statement so far has told, and is marked as having
a pattern if this statement wrote one and opened the page itself. Pages with a URL that the same
statement told, and not as a pattern, are given one pattern. -/
theorem Paging.patterns_as_noted {options : PageOptions} {turns : List (Paging × Statement)}
    {p : Paging} (h : Paging.Reaches options turns p) :
    (∀ (k : Nat) (page : OpenPage), p.pages[k]? = some page → ∀ url, page.url = some url →
      ∃ t : Statement, (Noters.after options turns).pages[k]? = some (some t) ∧
        t ∈ turns.map Prod.snd ∧ t.TellsUrl ∧ t.url = some url ∧
        (page.urlIsPattern = true ↔ t.writesPattern = true ∧ page.origin.tellsUrl = true)) ∧
    ∀ (k l : Nat) (a b : ClosedPage) (t : Statement),
      p.closed[k]? = some a → p.closed[l]? = some b →
      (Noters.after options turns).closed[k]? = some (some t) →
      (Noters.after options turns).closed[l]? = some (some t) → t.writesPattern = false →
      a.pattern = b.pattern := by
  have noted := Paging.NotedBy.of_reaches h
  refine ⟨?_, ?_⟩
  · intro k page here url shown
    obtain ⟨noter, there, label⟩ := exists_getElem?_of_forall₂ noted.notedBy_pages here
    obtain ⟨t, rfl, tells, mark⟩ := label.exists_noter shown
    obtain ⟨said, kind⟩ :=
      (Noters.Are.are_after options turns).of_mem_pages t (List.mem_of_getElem? there)
    exact ⟨t, there, said, kind, tells, mark⟩
  · intro k l a b t ha hb hk hl plain
    have closed : ∀ (k : Nat) (a : ClosedPage), p.closed[k]? = some a →
        (Noters.after options turns).closed[k]? = some (some t) → a.NotedBy (some t) := by
      intro k a ha hk
      have here : p.past[k]? = some a.toOpenPage := by rw [past, List.getElem?_map, ha]; rfl
      obtain ⟨noter, there, label⟩ := exists_getElem?_of_forall₂ noted.past here
      rw [hk] at there
      exact Option.some.inj there ▸ label
    exact ClosedPage.pattern_eq_of_notedBy (closed k a ha hk) (closed l b hb hl) plain

/-- Numbered orders. -/
def ordersPattern : Text := "/orders\\/\\d+/"

/-- A wait for a pattern. -/
def awaitedOrder : Text :=
  "await page.goto('/home');\nawait page.waitForURL(/orders\\/\\d+/);\nawait page.click('#pay');"

/-- The page behind the wait is marked, so what was waited for is a pattern. -/
theorem Paging.patterns_as_noted_awaitedOrder :
    ∃ turns p, Paging.Reaches {} turns p ∧ turns.map Prod.snd = Statement.ofText awaitedOrder ∧
      p.current.url = some ordersPattern ∧
      ∃ t ∈ Statement.ofText awaitedOrder, t.TellsUrl ∧ t.url = some ordersPattern ∧
        t.writesPattern = true := by
  have found : (Paging.run {} {} (Statement.ofText awaitedOrder)).toOption.any (fun p =>
      decide (p.current.url = some ordersPattern ∧ p.current.urlIsPattern = true)) = true := by
    decide +kernel
  obtain ⟨p, hr, found⟩ := exists_ok_of_any found
  obtain ⟨shown, marked⟩ := of_decide_eq_true found
  obtain ⟨turns, reached, same⟩ := Paging.reaches_of_run hr
  obtain ⟨noted, -⟩ := Paging.patterns_as_noted reached
  have last : p.pages[p.past.length]? = some p.current := List.getElem?_concat_length
  obtain ⟨t, -, said, tells, url, mark⟩ := noted _ _ last _ shown
  exact ⟨turns, p, reached, same, shown, t, same ▸ said, tells, url, (mark.mp marked).1⟩

/-- A wait for a pattern, and a way back to it. -/
def revisitedOrder : Text :=
  "await page.goto('/home');\nawait page.waitForURL(/orders\\/\\d+/);\n" ++
    "await page.click('#pay');\nawait page.goto('/cart');\nawait page.goBack();"

/-- Every statement that told the URL to which navigation returns wrote it as a pattern, but the
page that is opened there is not marked. -/
theorem Paging.pattern_mark_lost :
    ∃ p, Paging.run {} {} (Statement.ofText revisitedOrder) = .ok p ∧
      p.current.url = some ordersPattern ∧ p.current.urlIsPattern = false ∧
      (∃ t ∈ Statement.ofText revisitedOrder, t.url = p.current.url) ∧
      ∀ t ∈ Statement.ofText revisitedOrder, t.url = p.current.url → t.writesPattern = true := by
  have found : (Paging.run {} {} (Statement.ofText revisitedOrder)).toOption.any (fun p =>
      decide (p.current.url = some ordersPattern ∧ p.current.urlIsPattern = false ∧
        (∃ t ∈ Statement.ofText revisitedOrder, t.url = p.current.url) ∧
        ∀ t ∈ Statement.ofText revisitedOrder, t.url = p.current.url → t.writesPattern = true)) =
      true := by
    decide +kernel
  obtain ⟨p, hr, found⟩ := exists_ok_of_any found
  exact ⟨p, hr, of_decide_eq_true found⟩

end PageObjects
