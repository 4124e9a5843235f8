import PageObjects.Proofs.Component.Occurrence
import PageObjects.Proofs.Name.Title

namespace PageObjects

open Text

namespace ComponentDraft

/-- The words of what a component works on first. -/
def targetWords (d : ComponentDraft) : List Text :=
  let first := (d.instances.head?.bind fun o => o.actions.head?).bind (·.selector)
  (wordsOf (first.bind fun s => s.content?)).filter fun w => !kindWords.contains w

/-- The words that a component is named after: headers and footers have their type only. -/
def nameWords (d : ComponentDraft) : List Text :=
  if d.type = .header ∨ d.type = .footer then [] else d.targetWords

theorem isWord_of_mem_targetWords {d : ComponentDraft} {w : Text} (h : w ∈ d.targetWords) :
    w.IsWord :=
  isWord_of_mem_wordsOf (List.mem_filter.mp h).1

theorem isIdentifier_suffix (type : ComponentType) : IsIdentifier type.suffix := by
  cases type <;> decide +kernel

theorem isTitleOf_title (d : ComponentDraft) : IsTitleOf d.nameWords.head? d.title := by
  have words : ∀ w ∈ d.targetWords, w.IsWord := fun w hw => isWord_of_mem_targetWords hw
  have suffix : d.type.suffix.all isNameChar = true :=
    List.all_eq_true.mpr (isIdentifier_suffix d.type).made
  unfold title nameWords
  extract_lets first own
  change ∀ w ∈ own, w.IsWord at words
  change IsTitleOf (if d.type = .header ∨ d.type = .footer then [] else own).head? _
  clear_value own
  split
  next => exact .of_isIdentifier (isIdentifier_suffix d.type)
  next =>
    cases own with
    | nil =>
      rw [List.isEmpty_nil, if_pos rfl]
      split
      next => exact .of_isIdentifier (by decide +kernel)
      next => exact .of_isIdentifier (by decide +kernel)
      next => exact .of_isIdentifier (isIdentifier_suffix d.type)
    | cons w ws =>
      have name := IsTitleOf.pascal words (List.cons_ne_nil w ws)
      rw [List.isEmpty_cons, if_neg Bool.false_ne_true]
      split
      next => exact name
      next => exact name.append suffix

end ComponentDraft

theorem map_name_nameComponents (drafts : List ComponentDraft) :
    (nameComponents drafts).map Component.name = (uniqueNames [] ((drafts.mergeSort
      fun a b => a.firstLine ≤ b.firstLine).map ComponentDraft.title)).1 := by
  unfold nameComponents
  extract_lets sorted names
  have count : names.length ≤ sorted.length := by
    rw [length_uniqueNames, List.length_map]
  calc
    _ = (((sorted.zip names).zipIdx).map Prod.fst).map Prod.snd := by
      rw [List.map_map, List.map_map]
      rfl
    _ = names := by
      rw [List.zipIdx_map_fst, List.map_snd_zip count]

/-- Components are named after their titles, each apart from the others. -/
theorem nameComponents_named (drafts : List ComponentDraft) :
    (∀ c ∈ nameComponents drafts, IsVariant c.title c.name ∧ IsTitleOf c.nameWords.head? c.name) ∧
      ((nameComponents drafts).map Component.name).Nodup := by
  constructor
  · intro c hc
    obtain ⟨⟨⟨d, name⟩, i⟩, hd, rfl⟩ := List.mem_map.mp hc
    have paired := List.fst_mem_of_mem_zipIdx hd
    have variants := forall₂_uniqueNames [] ((drafts.mergeSort
      fun a b => a.firstLine ≤ b.firstLine).map ComponentDraft.title)
    have variant : IsVariant d.title name :=
      (List.forall₂_iff_zip.mp (List.forall₂_map_left_iff.mp variants)).2 paired
    exact ⟨variant, d.isTitleOf_title.of_isVariant variant⟩
  · rw [map_name_nameComponents]
    exact (nodup_uniqueNames [] _).1

end PageObjects
