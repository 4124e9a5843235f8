import PageObjects.Proofs.Entries
import PageObjects.Proofs.Method.Reference
import PageObjects.Proofs.Name.Identifier
import PageObjects.Proofs.Script.Verb

namespace PageObjects

open Text

theorem isWord_of_lastUrlWords {url : Option Text} {words : List Text}
    (h : lastUrlWords url = .ok words) : ∀ w ∈ words, w.IsWord := by
  unfold lastUrlWords at h
  split at h
  next =>
    cases Except.ok.inj h
    exact nofun
  next =>
    obtain ⟨segments, -, rfl⟩ := exists_ok_of_map h
    exact isWord_of_getLast? segments

theorem isWord_of_mem_nounWords {a : Action} {w : Text} (h : w ∈ a.nounWords) : w.IsWord := by
  unfold Action.nounWords at h
  extract_lets noun at h
  have inside := List.mem_of_mem_drop h
  split at inside
  next => exact isWord_of_mem_wordsOf inside
  next => exact isWord_of_mem_words (List.mem_filter.mp inside).1

/-- Whether a word can begin a name, or be one. -/
def IsLead (w : Text) : Prop := w.IsWord ∧ IsMethodName w

theorem isLead_of_all {w : Text} (h : (decide (IsMethodName w) && w.all Char.isAlpha) = true) :
    IsLead w := by
  obtain ⟨usable, letters⟩ := Bool.and_eq_true_iff.mp h
  have name := of_decide_eq_true usable
  exact ⟨⟨ne_nil_of_startsWithLetter name.leads, .inl (List.all_eq_true.mp letters)⟩, name⟩

theorem verbWords_usable : (verbWords.all fun entry =>
    decide (IsMethodName entry.2) && entry.2.all Char.isAlpha) = true := by
  decide +kernel

theorem isLead_verbWord (a : Option Action) : IsLead (verbWord "perform" a) := by
  unfold verbWord
  cases known : (a.bind Action.verb).bind fun v => valueAt? v verbWords with
  | none => exact isLead_of_all (by decide +kernel)
  | some word =>
    obtain ⟨v, -, hv⟩ := Option.bind_eq_some_iff.mp known
    exact isLead_of_all (List.all_eq_true.mp verbWords_usable _ (mem_of_valueAt? hv))

theorem IsLead.camel {w : Text} {ws : List Text} (h : IsLead w) (words : ∀ v ∈ ws, v.IsWord)
    (more : ws ≠ []) : IsMethodName (camel (w :: ws)) := by
  obtain ⟨v, vs, rfl⟩ := List.exists_cons_of_ne_nil more
  exact .camel (List.forall_mem_cons.mpr ⟨h.1, words⟩) h.2.leads

theorem IsMethodName.unique {name : Text} (h : IsMethodName name) (taken : List Text) :
    IsMethodName (uniqueName name taken) ∧ uniqueName name taken ∉ taken :=
  ⟨h.of_isVariant (uniqueName_isVariant name taken), uniqueName_notMem name taken⟩

theorem navigationVerbs_usable : ∀ v ∈ navigationVerbs, IsMethodName v := by
  decide +kernel

theorem waitVerbs_usable : ∀ v ∈ waitVerbs, IsMethodName (camel (Text.words v)) := by
  decide +kernel

theorem Action.exists_verb {a : Action} {verbs : List Text} (h : a.verbIn verbs = true) :
    ∃ v ∈ verbs, a.verb = some v := by
  rw [Action.verbIn, Content.verbIn] at h
  cases known : a.statement.verb with
  | none =>
    rw [known] at h
    cases h
  | some v =>
    rw [known] at h
    exact ⟨v, List.contains_iff_mem.mp h, known⟩

namespace Draft

/-- A draft whose actions have verbs for their kinds, and which starts by navigating if that is what
it is for. -/
structure Nameable (d : Draft) : Prop where
  fits : ∀ a ∈ d.actions, a.statement.VerbFits
  navigates : d.kind = .navigation → ∃ a, d.actions.head? = some a ∧ a.kind = .navigation

variable {d : Draft} {name : Text} {urlWords : List Text}

theorem isMethodName_explicitName? (h : d.explicitName? = some name) : IsMethodName name := by
  unfold explicitName? at h
  extract_lets terminal verb content at h
  have lead : IsLead verb := isLead_verbWord terminal
  have words : ∀ w ∈ content, w.IsWord :=
    fun w hw => isWord_of_mem_wordsOf (List.mem_of_mem_take hw)
  clear_value content
  split at h
  next => cases h
  next first rest =>
    cases h
    refine isMethodName_safeMethodName (fun c hc => ?_) lead.2
    split at hc
    next => exact isNameChar_of_mem_camel words hc
    next => exact isNameChar_of_mem_camel (List.forall_mem_cons.mpr ⟨lead.1, words⟩) hc

theorem isMethodName_urlName? (words : ∀ w ∈ urlWords, w.IsWord)
    (h : d.urlName? urlWords = some name) : IsMethodName name := by
  unfold urlName? at h
  extract_lets terminal at h
  have submit : IsLead "submit" := isLead_of_all (by decide +kernel)
  have fill : IsLead "fill" := isLead_of_all (by decide +kernel)
  have form : IsLead "form" := isLead_of_all (by decide +kernel)
  have wait : IsLead "wait" := isLead_of_all (by decide +kernel)
  split at h
  next => cases h
  next hasWords =>
    have filled : urlWords ≠ [] := fun empty => hasWords (List.isEmpty_iff.mpr empty)
    split at h
    next =>
      cases h
      exact submit.camel words filled
    next =>
      split at h
      next =>
        cases h
        refine fill.camel (fun w hw => ?_) (by simp)
        rw [List.concat_eq_append] at hw
        rcases List.mem_append.mp hw with own | last
        · exact words w own
        · rw [List.mem_singleton.mp last]
          exact form.1
      next =>
        split at h
        next =>
          cases h
          have target : IsWord "for" := .of_isAlpha (by decide) (by decide +kernel)
          exact wait.camel (List.forall_mem_cons.mpr ⟨target, words⟩) (List.cons_ne_nil _ _)
        next =>
          cases h
          exact (isLead_verbWord terminal).camel words filled

theorem mem_of_terminal? {a : Action} (h : d.terminal? = some a) : a ∈ d.actions := by
  rcases Option.or_eq_some_iff.mp h with deed | ⟨-, last⟩
  · exact List.mem_reverse.mp (List.mem_of_find?_eq_some deed)
  · exact List.mem_of_getLast? last

theorem isMethodName_verbNounName? (h : d.Nameable) (named : d.verbNounName? = some name) :
    IsMethodName name := by
  obtain ⟨terminal, ht, named⟩ := Option.bind_eq_some_iff.mp named
  extract_lets verb noun at named
  have lead : IsLead verb := isLead_verbWord (some terminal)
  split at named
  next =>
    have words : ∀ w ∈ noun, w.IsWord := by
      intro w hw
      rw [show noun = if terminal.selector.isSome then terminal.nounWords else [] from rfl] at hw
      split at hw
      next => exact isWord_of_mem_nounWords hw
      next => cases hw
    cases named
    refine isMethodName_safeMethodName (fun c hc => ?_) lead.2
    exact isNameChar_of_mem_camel (List.forall_mem_cons.mpr ⟨lead.1, words⟩) hc
  next =>
    split at named
    next waits =>
      have own : terminal ∈ d.actions := mem_of_terminal? ht
      obtain ⟨v, hv, known⟩ := Action.exists_verb ((h.fits terminal own).waits waits)
      cases named
      rw [known]
      exact waitVerbs_usable v hv
    next => cases named

theorem isMethodName_of_mem_names (h : d.Nameable) (words : ∀ w ∈ urlWords, w.IsWord)
    {rule : NameRule} {others : List (NameRule × Text)}
    (first : d.names urlWords = (rule, name) :: others) : IsMethodName name := by
  unfold names at first
  extract_lets all found at first
  have inside : (rule, name) ∈ found := by
    cases hf : found with
    | nil => simp [hf] at first
    | cons e es =>
      rw [hf, List.eraseDupsBy_cons] at first
      rw [(List.cons.inj first).1]
      exact List.mem_cons_self
  obtain ⟨⟨_, suggestion⟩, suggested, hn⟩ := List.mem_filterMap.mp inside
  obtain ⟨n, known, he⟩ := Option.map_eq_some_iff.mp hn
  cases he
  have origin : suggestion = some name := (Option.filter_eq_some_iff.mp known).1
  simp only [all, List.mem_cons, List.not_mem_nil, or_false, Prod.mk.injEq] at suggested
  rcases suggested with ⟨-, rfl⟩ | ⟨-, rfl⟩ | ⟨-, rfl⟩
  · exact isMethodName_explicitName? origin
  · exact isMethodName_urlName? words origin
  · exact isMethodName_verbNounName? h origin

/-- What naming a draft gives: a name for a method that was free and is then taken. -/
structure Named (book : NameBook) (found : Naming × NameBook) : Prop where
  usable : IsMethodName found.1.name
  fresh : found.1.name ∉ book.taken
  noted : found.2.taken = found.1.name :: book.taken

theorem actionName_named (h : d.Nameable) (words : ∀ w ∈ urlWords, w.IsWord) (book : NameBook) :
    Named book (d.actionName urlWords book) := by
  unfold actionName
  split
  next rule name more found =>
    have unique := (isMethodName_of_mem_names h words found).unique book.taken
    exact ⟨unique.1, unique.2, rfl⟩
  next =>
    have generic : IsMethodName "performAction" := by decide +kernel
    have unique := (generic.numbered (book.generics + 1)).unique book.taken
    exact ⟨unique.1, unique.2, rfl⟩

theorem navigationName_named (h : d.Nameable) (navigates : d.kind = .navigation) {book : NameBook}
    {found : Naming × NameBook} (named : d.navigationName book = .ok found) : Named book found := by
  obtain ⟨words, -, named⟩ := exists_ok_of_bind named
  cases Except.ok.inj named
  obtain ⟨a, first, kind⟩ := h.navigates navigates
  have own : a ∈ d.actions := List.mem_of_head? first
  obtain ⟨v, hv, known⟩ := Action.exists_verb ((h.fits a own).navigates kind)
  have usable : IsMethodName ((nonEmpty (d.actions.head?.bind Action.verb)).getD "goto") := by
    rw [first, Option.bind_some, known]
    have name := navigationVerbs_usable v hv
    have filled : nonEmpty (some v) = some v :=
      Option.filter_eq_some_iff.mpr ⟨rfl, by simpa using ne_nil_of_startsWithLetter name.leads⟩
    rwa [filled]
  have unique := usable.unique book.taken
  exact ⟨unique.1, unique.2, rfl⟩

theorem isWord_of_subjectWords {a : Assertion} {words : List Text}
    (h : subjectWords a = .ok words) : ∀ w ∈ words, w.IsWord := by
  unfold subjectWords at h
  split at h
  next =>
    cases Except.ok.inj h
    exact fun w hw => isWord_of_mem_wordsOf (List.mem_of_mem_take hw)
  next => exact isWord_of_lastUrlWords h
  next =>
    cases Except.ok.inj h
    exact nofun

theorem isWord_of_mem_checkWords {type : AssertionType} {w : Text} (h : w ∈ checkWords type) :
    w.IsWord := by
  have letters : (checkWords type).all (fun w => !w.isEmpty && w.all Char.isAlpha) = true := by
    cases type <;> decide +kernel
  obtain ⟨filled, letters⟩ := Bool.and_eq_true_iff.mp (List.all_eq_true.mp letters w h)
  exact .of_isAlpha (by simpa using filled) letters

/-- A check is named with the words of its subject and the word of its type, which may both be
missing. -/
theorem isMethodName_check {subject : List Text} (words : ∀ w ∈ subject, w.IsWord)
    (a : Option Assertion) :
    IsMethodName (camel ("verify" :: (subject ++ (a.map fun a => checkWords a.type).getD []))) := by
  have all : ∀ w ∈ subject ++ (a.map fun a => checkWords a.type).getD [], w.IsWord := by
    intro w hw
    rcases List.mem_append.mp hw with own | type
    · exact words w own
    · cases a with
      | none => cases type
      | some a => exact isWord_of_mem_checkWords type
  cases found : subject ++ (a.map fun a => checkWords a.type).getD [] with
  | nil => decide +kernel
  | cons w ws =>
    rw [found] at all
    have verify : IsLead "verify" := isLead_of_all (by decide +kernel)
    exact verify.camel all (List.cons_ne_nil w ws)

theorem checkName_named {book : NameBook} {found : Naming × NameBook}
    (named : d.checkName book = .ok found) : Named book found := by
  unfold checkName at named
  extract_lets finish at named
  have finished : ∀ subject : List Text, (∀ w ∈ subject, w.IsWord) →
      finish subject = .ok found → Named book found := by
    intro subject words named
    cases Except.ok.inj named
    have unique := (isMethodName_check words d.assertions.head?).unique book.taken
    exact ⟨unique.1, unique.2, rfl⟩
  split at named
  next a _ =>
    obtain ⟨subject, hs, named⟩ := exists_ok_of_bind named
    exact finished subject (isWord_of_subjectWords hs) named
  next => exact finished [] nofun named

theorem naming_named (h : d.Nameable) {url : Option Text} {book : NameBook}
    {found : Naming × NameBook} (named : d.naming url book = .ok found) : Named book found := by
  unfold naming at named
  split at named
  next navigates => exact navigationName_named h navigates named
  next => exact checkName_named named
  next =>
    obtain ⟨words, hw, rfl⟩ := exists_ok_of_map named
    exact actionName_named h (isWord_of_lastUrlWords hw) book

/-- Drafts of items can be named: one that navigates starts with the navigation it is for. -/
theorem nameable_of_mem_ofItems {options : MethodOptions} {usages : List (Nat × Nat)}
    {items : List Item} (fits : ∀ a, Item.action a ∈ items → a.statement.VerbFits)
    (hd : d ∈ ofItems options usages items) : d.Nameable := by
  refine ⟨fun a ha => fits a (mem_of_mem_ofItems options usages hd (mem_actions.mp ha)), ?_⟩
  intro navigates
  rcases mem_ofItems options usages hd with ⟨sound, -⟩ | ⟨check, -⟩
  · obtain ⟨a, first, kind⟩ := sound.navigates navigates
    refine ⟨a, ?_, kind⟩
    obtain ⟨rest, items⟩ := List.head?_eq_some_iff.mp first
    rw [actions, items]
    rfl
  · rw [check] at navigates
    cases navigates

end Draft

/-- What the names of the methods of one owner are like, given those that are taken before. -/
structure MethodNames (taken names : List Text) : Prop where
  usable : ∀ name ∈ names, IsMethodName name
  fresh : ∀ name ∈ names, name ∉ taken
  distinct : names.Nodup

theorem buildMethods_names {owner : Owner} {drafts : List Draft} {book : NameBook}
    {methods : List Method} {warnings : List Warning} (nameable : ∀ d ∈ drafts, d.Nameable)
    (h : buildMethods owner book drafts = .ok (methods, warnings)) :
    MethodNames book.taken (methods.map Method.name) := by
  induction drafts generalizing book methods warnings with
  | nil =>
    cases Except.ok.inj h
    exact ⟨nofun, nofun, .nil⟩
  | cons d rest ih =>
    obtain ⟨⟨naming, next⟩, hn, h⟩ := exists_ok_of_bind h
    obtain ⟨⟨others, more⟩, hr, h⟩ := exists_ok_of_bind h
    cases Except.ok.inj h
    have named := Draft.naming_named (nameable d List.mem_cons_self) hn
    have names := ih (fun e he => nameable e (List.mem_cons_of_mem d he)) hr
    have later : ∀ name ∈ others.map Method.name, name ∉ naming.name :: book.taken :=
      named.noted ▸ names.fresh
    refine ⟨?_, ?_, ?_⟩
    · exact List.forall_mem_cons.mpr ⟨named.usable, names.usable⟩
    · refine List.forall_mem_cons.mpr ⟨named.fresh, fun name hm known => ?_⟩
      exact later name hm (List.mem_cons_of_mem _ known)
    · exact List.nodup_cons.mpr ⟨fun again => later _ again List.mem_cons_self, names.distinct⟩

theorem Owner.Entry.names {options : MethodOptions} {usages : List (Nat × Nat)}
    {owner : Owner × List Item} {entry : Id × List Method}
    (h : Owner.Entry options usages owner entry)
    (fits : ∀ a, Item.action a ∈ owner.2 → a.statement.VerbFits) :
    MethodNames [] (entry.2.map Method.name) := by
  obtain ⟨-, methods, warnings, n, built, numbered⟩ := h
  rw [numbered, map_numberMethods fun _ _ => rfl]
  exact buildMethods_names (fun _ hd => Draft.nameable_of_mem_ofItems fits hd) built

end PageObjects
