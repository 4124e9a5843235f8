import PageObjects.Proofs.Component.Occurrence
import PageObjects.Proofs.Entries
import PageObjects.Proofs.Method.Owner

namespace PageObjects

theorem map_number_numberMethods (n : Nat) (methods : List Method) :
    (numberMethods n methods).map Method.number = List.range' n methods.length := by
  induction methods generalizing n with
  | nil => rfl
  | cons m rest ih => rw [numberMethods, List.map_cons, ih, List.length_cons, List.range'_succ]

theorem length_numberMethods (n : Nat) (methods : List Method) :
    (numberMethods n methods).length = methods.length := by
  have numbers := congrArg List.length (map_number_numberMethods n methods)
  simpa using numbers

/-- Numbering changes nothing but the numbers. -/
theorem mem_numberMethods {n : Nat} {methods : List Method} {m : Method}
    (h : m ∈ numberMethods n methods) : ∃ m' ∈ methods, ∃ k, m = { m' with number := k } := by
  induction methods generalizing n with
  | nil => cases h
  | cons first rest ih =>
    rcases List.mem_cons.mp h with h | h
    · exact ⟨first, by simp, n, h⟩
    · obtain ⟨m', hm, k, he⟩ := ih h
      exact ⟨m', by simp [hm], k, he⟩

theorem map_numberMethods {α : Type} {f : Method → α}
    (same : ∀ m k, f { m with number := k } = f m) (n : Nat) (methods : List Method) :
    (numberMethods n methods).map f = methods.map f := by
  induction methods generalizing n with
  | nil => rfl
  | cons m rest ih => rw [numberMethods, List.map_cons, List.map_cons, ih, same]

theorem map_number_numberOwners (n : Nat) (entries : List (Id × List Method)) :
    ((numberOwners n entries).flatMap Prod.snd).map Method.number =
      List.range' n ((numberOwners n entries).flatMap Prod.snd).length := by
  induction entries generalizing n with
  | nil => rfl
  | cons entry rest ih =>
    obtain ⟨owner, methods⟩ := entry
    rw [numberOwners, List.flatMap_cons, List.map_append, ih, map_number_numberMethods,
      List.length_append, length_numberMethods, List.range'_append_1]

/-- The entry that the methods of an owner make, numbered on from some number. -/
def Owner.Entry (options : MethodOptions) (usages : List (Nat × Nat)) (owner : Owner × List Item)
    (entry : Id × List Method) : Prop :=
  entry.1 = owner.1.id ∧ ∃ methods warnings n,
    methodsOf options usages owner.1 owner.2 = .ok (methods, warnings) ∧
      entry.2 = numberMethods n methods

/-- Every method of an entry comes from a draft of the items of its owner. -/
theorem Owner.Entry.exists_draft {options : MethodOptions} {usages : List (Nat × Nat)}
    {owner : Owner × List Item} {entry : Id × List Method}
    (h : Owner.Entry options usages owner entry) {m : Method} (hm : m ∈ entry.2) :
    ∃ d ∈ Draft.ofItems options usages owner.2, ∃ naming n,
      m = { d.toMethod owner.1.id naming owner.1.page owner.1.next with number := n } := by
  obtain ⟨-, methods, warnings, n, built, numbered⟩ := h
  rw [numbered] at hm
  obtain ⟨m', hm', k, rfl⟩ := mem_numberMethods hm
  obtain ⟨d, hd, naming, rfl⟩ := exists_draft_of_mem_methodsOf built hm'
  exact ⟨d, hd, naming, k, rfl⟩

theorem forall₂_numberOwners {options : MethodOptions} {usages : List (Nat × Nat)}
    {owners : List (Owner × List Item)} {found : List (Id × List Method)} {warnings : List Warning}
    (h : methodsOfAll options usages owners = .ok (found, warnings)) (n : Nat) :
    List.Forall₂ (Owner.Entry options usages) owners (numberOwners n found) := by
  induction owners generalizing found warnings n with
  | nil =>
    cases Except.ok.inj h
    exact .nil
  | cons first rest ih =>
    obtain ⟨owner, items⟩ := first
    obtain ⟨⟨methods, doubts⟩, hm, h⟩ := exists_ok_of_bind h
    obtain ⟨⟨others, more⟩, hr, h⟩ := exists_ok_of_bind h
    cases Except.ok.inj h
    exact .cons ⟨rfl, methods, doubts, n, hm, rfl⟩ (ih hr _)

theorem numberOwners_append (n : Nat) (own shared : List (Id × List Method)) :
    numberOwners n (own ++ shared) =
      numberOwners n own ++ numberOwners (n + (own.flatMap Prod.snd).length) shared := by
  induction own generalizing n with
  | nil => rfl
  | cons entry rest ih =>
    obtain ⟨owner, methods⟩ := entry
    rw [List.cons_append, numberOwners, numberOwners, ih, List.cons_append, List.flatMap_cons,
      List.length_append, Nat.add_assoc]

/-- What suggesting methods gives: entries for the pages, then entries for the components, and
methods that are numbered through. -/
structure SuggestedMethods (options : MethodOptions) (pages : List Page)
    (components : List Component) (own shared : List (Id × List Method)) : Prop where
  pages : List.Forall₂ (Owner.Entry options (usages components)) (pageOwners pages) own
  components : List.Forall₂ (Owner.Entry options []) (components.map componentOwner) shared
  numbers : ((own ++ shared).flatMap Prod.snd).map Method.number =
    List.range' 1 ((own ++ shared).flatMap Prod.snd).length

theorem exists_suggestedMethods {options : MethodOptions} {pages : List Page}
    {components : List Component} {found : MethodFindings}
    (h : suggestMethods options pages components = .ok found) :
    ∃ own shared, found.methods = own ++ shared ∧
      SuggestedMethods options pages components own shared := by
  obtain ⟨⟨own, warnings⟩, ho, h⟩ := exists_ok_of_bind h
  obtain ⟨⟨shared, more⟩, hs, h⟩ := exists_ok_of_bind h
  cases Except.ok.inj h
  refine ⟨_, _, numberOwners_append 1 own shared, forall₂_numberOwners ho 1,
    forall₂_numberOwners hs _, ?_⟩
  rw [← numberOwners_append]
  exact map_number_numberOwners 1 (own ++ shared)

theorem map_id_pageOwners (pages : List Page) :
    ((pageOwners pages).map fun owner => owner.1.id) = pages.map Page.id := by
  induction pages with
  | nil => rfl
  | cons p rest ih => rw [pageOwners, List.map_cons, List.map_cons, ih]

/-- Every page is an owner, and the page behind it is one of the pages. -/
theorem mem_pageOwners {pages : List Page} {owner : Owner × List Item}
    (h : owner ∈ pageOwners pages) :
    ∃ p ∈ pages, ∃ next, owner = (p.owner next, p.items) ∧ ∀ n, next = some n → n ∈ pages := by
  induction pages with
  | nil => cases h
  | cons p rest ih =>
    rcases List.mem_cons.mp h with h | h
    · refine ⟨p, by simp, rest.head?, h, ?_⟩
      intro n hn
      exact List.mem_cons_of_mem _ (List.mem_of_head? hn)
    · obtain ⟨q, hq, next, he, hn⟩ := ih h
      exact ⟨q, by simp [hq], next, he, fun n h => List.mem_cons_of_mem _ (hn n h)⟩

/-- The page behind the page of an owner is the one that comes next. -/
theorem getElem?_pageOwners (pages : List Page) (k : Nat) :
    (pageOwners pages)[k]? = pages[k]?.map fun p => (p.owner pages[k + 1]?, p.items) := by
  induction pages generalizing k with
  | nil => rfl
  | cons p rest ih =>
    cases k with
    | zero =>
      show some (p.owner rest.head?, p.items) = some (p.owner rest[0]?, p.items)
      rw [List.head?_eq_getElem?]
    | succ k => exact ih k

theorem exists_mem_pageOwners {pages : List Page} {p : Page} (h : p ∈ pages) :
    ∃ next, (p.owner next, p.items) ∈ pageOwners pages := by
  induction pages with
  | nil => cases h
  | cons first rest ih =>
    rcases List.mem_cons.mp h with rfl | h
    · exact ⟨rest.head?, List.mem_cons_self⟩
    · obtain ⟨next, hn⟩ := ih h
      exact ⟨next, List.mem_cons_of_mem _ hn⟩

theorem map_fst_entries {options : MethodOptions} {usages : List (Nat × Nat)}
    {owners : List (Owner × List Item)} {entries : List (Id × List Method)}
    (h : List.Forall₂ (Owner.Entry options usages) owners entries) :
    entries.map Prod.fst = owners.map fun owner => owner.1.id := by
  induction h with
  | nil => rfl
  | cons he _ ih => rw [List.map_cons, List.map_cons, he.1, ih]

theorem SuggestedMethods.owners {options : MethodOptions} {pages : List Page}
    {components : List Component} {own shared : List (Id × List Method)}
    (h : SuggestedMethods options pages components own shared) :
    own.map Prod.fst = pages.map Page.id ∧ shared.map Prod.fst = components.map Component.id := by
  constructor
  · rw [map_fst_entries h.pages, map_id_pageOwners]
  · rw [map_fst_entries h.components, List.map_map]
    rfl

end PageObjects
