import PageObjects.Proofs.Report.Completeness
import PageObjects.Proofs.Report.References

namespace PageObjects

/-- What makes a document whole: whatever it refers to is in it, parameters belong to actions of
their method, and no selector, strategy or action that is looked up is missing. -/
structure Document.Intact (d : Document) : Prop where
  resolves : d.Resolves references d.toJson
  parameters : ∀ owners ∈ ([["pages", "suggested_methods"], ["components", "suggested_methods"]] :
    List (List Text)), ∀ m ∈ d.toJson.along owners,
      m.along ["parameters", "action_ids"] ⊆ m.along ["action_ids"]
  selectors : ∀ i ∈ allItems d.pages, ∀ s, i.selector = some s →
    ∃ e ∈ d.registry, d.registry.numberOf? s.raw = some e.number
  strategies : ∀ e ∈ d.registry, ∃ n, 0 < n ∧
    valueAt? e.selector.strategy d.registry.byStrategy = some n
  models : ∀ c ∈ d.components, ∀ a ∈ c.model, ∃ p ∈ d.pages, a ∈ p.actions
  usages : ∀ u ∈ usages d.components, ∃ p ∈ d.pages, ∃ a ∈ p.actions, a.number = u.1

/-- The strategy of every entry is counted. -/
theorem Registry.exists_count {r : Registry} {e : RegistryEntry} (h : e ∈ r) :
    ∃ n, 0 < n ∧ valueAt? e.selector.strategy r.byStrategy = some n := by
  have distinct : (r.byStrategy.map Prod.fst).Nodup := of_decide_eq_true rfl
  refine ⟨r.countP fun f => f.selector.strategy == e.selector.strategy, ?_, ?_⟩
  · exact List.countP_pos_iff.mpr ⟨e, h, beq_self_eq_true _⟩
  · refine valueAt?_of_mem distinct (List.mem_map.mpr ⟨e.selector.strategy, ?_, rfl⟩)
    exact Registry.mem_countedStrategies _

variable {d : Document}

/-- The components that a page leaves actions to, with these actions, are in the usages. -/
theorem mem_pageUsages {usages : List (Nat × Nat)} {p : Page} {u : Nat × List Nat}
    (h : u ∈ pageUsages usages p) :
    (∃ n, (n, u.1) ∈ usages) ∧ ∀ n ∈ u.2, (n, u.1) ∈ usages := by
  simp only [pageUsages] at h
  obtain ⟨c, hc, rfl⟩ := List.mem_map.mp h
  have used : ∀ v ∈ p.actions.filterMap (fun a =>
      (valueAt? a.number usages).map fun c => (c, a.number)), (v.2, v.1) ∈ usages := by
    intro v hv
    obtain ⟨a, -, hv⟩ := List.mem_filterMap.mp hv
    obtain ⟨c, hc, rfl⟩ := Option.map_eq_some_iff.mp hv
    exact mem_of_valueAt? hc
  constructor
  · obtain ⟨v, hv, rfl⟩ := List.mem_map.mp (List.mem_eraseDups.mp hc)
    exact ⟨v.2, used v hv⟩
  · intro n hn
    obtain ⟨v, hv, rfl⟩ := List.mem_map.mp hn
    obtain ⟨hv, same⟩ := List.mem_filter.mp hv
    exact beq_iff_eq.mp same ▸ used v hv

variable {config : Config} {spans : List PageSpan} {own shared : List (Id × List Method)}

namespace Document.MadeOf

theorem page_resolves (h : d.MadeOf config spans own shared) {p : Page} (hp : p ∈ d.pages) :
    d.Resolves pageReferences (p.toJson d) := by
  have methods : ∀ m ∈ d.methodsOf p.id, d.Resolves methodReferences m.toJson := by
    intro m hm
    have listed : m ∈ d.listedMethods := List.mem_append_left _ (List.mem_flatMap.mpr ⟨p, hp, hm⟩)
    exact (h.definedIn_of_mem_listedMethods listed).resolves
  refine .append (.append (.append (.under_list rfl ?_) (.under_list rfl ?_))
    (.under_list rfl methods)) (.under_list rfl ?_)
  · intro a ha
    refine a.resolves (fun u hu => (h.defines_of_mem_usages hu).2) ?_
    intro q hq n hn
    rw [h.binds.parameters p hp a ha q hq, List.mem_singleton] at hn
    exact hn ▸ ⟨p, hp, a, ha, rfl⟩
  · exact fun a _ => a.resolves
  · intro u hu
    obtain ⟨⟨n, first⟩, all⟩ := mem_pageUsages hu
    refine .cons (Document.mem_idsAt_of_id rfl (h.defines_of_mem_usages first).2.refersTo)
      (.cons (Document.mem_idsAt_of_ids rfl ?_) .nil)
    intro i hi
    obtain ⟨k, hk, rfl⟩ := List.mem_map.mp hi
    exact (h.defines_of_mem_usages (all k hk)).1.refersTo

theorem component_resolves (h : d.MadeOf config spans own shared) {c : Component}
    (hc : c ∈ d.components) : d.Resolves componentReferences (c.toJson d) := by
  have methods : ∀ m ∈ d.methodsOf c.id, d.Resolves methodReferences m.toJson := by
    intro m hm
    have listed : m ∈ d.listedMethods := List.mem_append_right _ (List.mem_flatMap.mpr ⟨c, hc, hm⟩)
    exact (h.definedIn_of_mem_listedMethods listed).resolves
  refine .cons (Document.mem_idsAt_of_ids rfl ?_)
    (.append (.under_list rfl ?_) (.under_list rfl methods))
  · intro i hi
    obtain ⟨o, ho, rfl⟩ := List.mem_map.mp hi
    exact (h.definedIn_of_mem_instances hc ho).page.refersTo
  · exact fun o ho => (h.definedIn_of_mem_instances hc ho).resolves

theorem sequence_resolves (h : d.MadeOf config spans own shared) (paged : d.Paged)
    {q : Sequence} (hq : q ∈ d.sequences) (number : Nat) :
    d.Resolves (under "steps" stepReferences) (q.toJson number) := by
  refine .under_list rfl ?_
  intro entry he
  exact (h.definedIn_of_mem_steps paged hq (List.fst_mem_of_mem_zipIdx he)).resolves (entry.2 + 1)

theorem registry_resolves (h : d.MadeOf config spans own shared) :
    d.Resolves registryReferences d.registry.toJson := by
  have entry : ∀ e ∈ d.registry, d.Defines (.selector e.number) := fun e he => ⟨e, he, rfl⟩
  have users : ∀ e ∈ d.registry, ∀ i ∈ e.users.map Prod.fst,
      d.RefersTo (actionIds ++ assertionIds) i := by
    intro e he i hi
    obtain ⟨user, hu, rfl⟩ := List.mem_map.mp hi
    obtain ⟨j, hj, same⟩ := h.exists_item_of_mem_users he hu
    rw [same]
    refine ⟨Document.defines_of_mem_allItems hj, ?_⟩
    cases j with
    | action a => exact List.subset_append_left _ _
    | assertion a => exact List.subset_append_right _ _
  refine .append (.append (.under_list rfl ?_) (.under_list rfl ?_)) (.under_list rfl ?_)
  · intro e he
    have he := (List.mem_filter.mp he).1
    exact .cons (Document.mem_idsAt_of_id rfl (entry e he).refersTo) .nil
  · intro e he
    have he := (List.mem_filter.mp he).1
    exact .cons (Document.mem_idsAt_of_id rfl (entry e he).refersTo)
      (.cons (Document.mem_idsAt_of_ids rfl (users e he)) .nil)
  · intro e he
    exact .cons (Document.mem_idsAt_of_ids rfl (users e he)) .nil

end Document.MadeOf

/-- Recommendations are about things of the document, whatever their kind. -/
theorem Recommendation.resolves {r : Recommendation} (h : ∀ i ∈ r.related, d.Defines i) :
    d.Resolves adviceReferences r.toJson := by
  refine .cons (Document.mem_idsAt_of_ids rfl ?_) .nil
  intro i hi
  refine ⟨h i hi, ?_⟩
  intro place hp
  simp only [List.mem_append]
  cases i with
  | page n => exact .inl (.inl (.inl (.inl (.inl (.inl hp)))))
  | action n => exact .inl (.inl (.inl (.inl (.inl (.inr hp)))))
  | assertion n => exact .inl (.inl (.inl (.inl (.inr hp))))
  | component n => exact .inl (.inl (.inl (.inr hp)))
  | selector n => exact .inl (.inl (.inr hp))
  | method n => exact .inl (.inr hp)
  | sequence n => exact .inr hp

theorem Document.MadeOf.resolves (h : d.MadeOf config spans own shared) (paged : d.Paged) :
    d.Resolves references d.toJson := by
  have advice : ∀ {list : List Recommendation}, (∀ r ∈ list, ∀ i ∈ r.related, d.Defines i) →
      ∀ r ∈ list, d.Resolves adviceReferences r.toJson :=
    fun hl r hr => Recommendation.resolves (hl r hr)
  refine .append (.append (.append (.append ?_ ?_) ?_) ?_) ?_
  · exact .under_list rfl fun p hp => h.page_resolves hp
  · exact .under_list rfl fun c hc => h.component_resolves hc
  · refine .under_list rfl ?_
    intro entry he
    exact h.sequence_resolves paged (List.fst_mem_of_mem_zipIdx he) (entry.2 + 1)
  · exact .under_object rfl h.registry_resolves
  · refine .under_object rfl (.append (.append (.under_list rfl ?_) (.under_list rfl ?_))
      (.under_list rfl ?_))
    · exact advice h.defines_of_architectural
    · exact advice h.defines_of_refactoring
    · exact advice h.defines_of_quality

/-- The parameters of a listed method belong to actions of that method. -/
theorem Method.DefinedIn.parameters_subset {m : Method} (h : m.DefinedIn d) :
    m.toJson.along ["parameters", "action_ids"] ⊆ m.toJson.along ["action_ids"] := by
  intro v hv
  rw [Method.toJson, Json.along_presentFields (of_decide_eq_true rfl)] at hv ⊢
  rw [Json.along_of_list rfl] at hv
  obtain ⟨p, hp, hv⟩ := List.mem_flatMap.mp hv
  rw [Parameter.toJson, Json.along_of_texts rfl] at hv
  obtain ⟨n, hn, rfl⟩ := List.mem_map.mp hv
  rw [Json.along_of_ids rfl]
  exact List.mem_map_of_mem (List.mem_map_of_mem (h.parameters p hp hn))

theorem mem_methods_along {α : Type} {f : α → Json} {o : α → Id} {l : List α} {key : Text}
    (h : d.toJson.field? key = some (.list (l.map f)))
    (each : ∀ x, (f x).field? "suggested_methods" =
      some (.list ((d.methodsOf (o x)).map Method.toJson))) {v : Json}
    (hv : v ∈ d.toJson.along [key, "suggested_methods"]) :
    ∃ x ∈ l, ∃ m ∈ d.methodsOf (o x), v = m.toJson := by
  rw [Json.along_of_list h] at hv
  obtain ⟨x, hx, hv⟩ := List.mem_flatMap.mp hv
  rw [Json.along_of_list (each x)] at hv
  obtain ⟨m, hm, hv⟩ := List.mem_flatMap.mp hv
  exact ⟨x, hx, m, hm, List.mem_singleton.mp hv⟩

theorem Document.MadeOf.parameters (h : d.MadeOf config spans own shared) :
    ∀ owners ∈ ([["pages", "suggested_methods"], ["components", "suggested_methods"]] :
      List (List Text)), ∀ v ∈ d.toJson.along owners,
        v.along ["parameters", "action_ids"] ⊆ v.along ["action_ids"] := by
  intro owners ho v hv
  have listed : ∃ m ∈ d.listedMethods, v = m.toJson := by
    rcases List.mem_pair.mp ho with rfl | rfl
    · obtain ⟨p, hp, m, hm, he⟩ := mem_methods_along (o := Page.id) rfl (fun _ => rfl) hv
      exact ⟨m, List.mem_append_left _ (List.mem_flatMap.mpr ⟨p, hp, hm⟩), he⟩
    · obtain ⟨c, hc, m, hm, he⟩ := mem_methods_along (o := Component.id) rfl (fun _ => rfl) hv
      exact ⟨m, List.mem_append_right _ (List.mem_flatMap.mpr ⟨c, hc, hm⟩), he⟩
  obtain ⟨m, hm, rfl⟩ := listed
  exact (h.definedIn_of_mem_listedMethods hm).parameters_subset

theorem Document.MadeOf.intact (h : d.MadeOf config spans own shared) (paged : d.Paged) :
    d.Intact where
  resolves := h.resolves paged
  parameters := h.parameters
  selectors := by
    rw [h.registry]
    exact fun i hi s hs => Registry.exists_numberOf? hi hs
  strategies := fun e he => Registry.exists_count he
  models := fun c hc a ha => h.exists_page_of_mem_model hc ha
  usages := fun u hu => (h.defines_of_mem_usages hu).1

/-- No document of a script has an id that dangles, and making it never looks up in vain. -/
theorem analyze_intact {config : Config} {name : Option Text} {script : Text} {d : Document}
    (h : analyze config name script = .ok d) : d.Intact := by
  obtain ⟨extracted, spans, own, shared, made⟩ := exists_madeOf h
  exact made.intact (made.paged extracted)

theorem analyze_intact_menuScript :
    ∃ d, analyze {} none menuScript = .ok d ∧ usages d.components = [(1, 1), (3, 1)] ∧
      d.sequences.map (fun q => q.steps.map Step.target) =
        [[.method 1 (some 1), .method 2 (some 1), .item (.assertion 1)]] ∧ d.Intact := by
  have found : (analyze {} none menuScript).toOption.any (fun d =>
      usages d.components == [(1, 1), (3, 1)] &&
        d.sequences.map (fun q => q.steps.map Step.target) ==
          [[.method 1 (some 1), .method 2 (some 1), .item (.assertion 1)]]) = true := by
    decide +kernel
  obtain ⟨d, h, found⟩ := exists_ok_of_any found
  obtain ⟨used, steps⟩ := Bool.and_eq_true_iff.mp found
  exact ⟨d, h, beq_iff_eq.mp used, beq_iff_eq.mp steps, analyze_intact h⟩

end PageObjects
