import AttributeViews.Proofs.Registry.Validity

/-!
# What the breadth-first walk finds

The walk takes a name off the queue, queues its successors behind the others and does not come back
to it.  Though it never sees a name twice, it misses none: what can be reached by way of a name that
has been taken off is still reached from the successors that were queued then.

* `Reached` — the names to which a queue leads; **`mem_reachable_iff`**.
* `nodup_reachable` — every name is found once.
* `InheritsFrom` — a view is another one or inherits it, directly or by way of others.
* **`Registry.mem_closure_iff`** — so the closure of a view holds the providers that it inherits
  from, and its own.
-/

namespace AttributeViews

variable {successors : String → List String} {unseen queue rest : List String}
  {first name view other : String}

/-! ## The walk -/

/-- A name that has not been seen is reached if it is queued or is a successor of one that is. -/
inductive Reached (successors : String → List String) (unseen queue : List String) : String → Prop
  | queued {name : String} (mem : name ∈ queue) (new : name ∈ unseen) :
      Reached successors unseen queue name
  | next {name other : String} (before : Reached successors unseen queue name)
      (mem : other ∈ successors name) (new : other ∈ unseen) :
      Reached successors unseen queue other

lemma Reached.new (h : Reached successors unseen queue name) : name ∈ unseen := by
  cases h with
  | queued _ new => exact new
  | next _ _ new => exact new

lemma not_reached (h : queue.filter (· ∈ unseen) = []) : ¬ Reached successors unseen queue name := by
  intro hr
  induction hr with
  | queued mem new =>
      have := List.filter_eq_nil_iff.1 h _ mem
      simp [new] at this
  | next _ _ _ ih => exact ih

/-- Once a name is taken off the queue, what lies behind it is reached from its successors. -/
lemma reached_iff (h : queue.filter (· ∈ unseen) = first :: rest) :
    Reached successors unseen queue name ↔
      name = first ∨ Reached successors (unseen.erase first) (rest ++ successors first) name := by
  have hmem : ∀ {other}, other ∈ first :: rest ↔ other ∈ queue ∧ other ∈ unseen := by
    intro other
    rw [← h, List.mem_filter, decide_eq_true_eq]
  constructor
  · intro hr
    induction hr with
    | queued mem new =>
        rename_i name
        by_cases hn : name = first
        · exact Or.inl hn
        · have hrest : name ∈ rest := (List.mem_cons.1 (hmem.2 ⟨mem, new⟩)).resolve_left hn
          exact Or.inr (.queued (List.mem_append_left _ hrest) ((List.mem_erase_of_ne hn).2 new))
    | next _ mem new ih =>
        rename_i name other _
        by_cases hn : other = first
        · exact Or.inl hn
        · have hnew : other ∈ unseen.erase first := (List.mem_erase_of_ne hn).2 new
          rcases ih with rfl | ih
          · exact Or.inr (.queued (List.mem_append_right _ mem) hnew)
          · exact Or.inr (.next ih mem hnew)
  · have hfirst : Reached successors unseen queue first := by
      obtain ⟨mem, new⟩ := hmem.1 List.mem_cons_self
      exact .queued mem new
    rintro (rfl | hr)
    · exact hfirst
    · induction hr with
      | queued mem new =>
          have hnew := List.mem_of_mem_erase new
          rcases List.mem_append.1 mem with mem | mem
          · exact .queued (hmem.1 (List.mem_cons_of_mem _ mem)).1 hnew
          · exact .next hfirst mem hnew
      | next _ mem new ih => exact .next ih mem (List.mem_of_mem_erase new)

/-- **The walk finds what is reached**, and nothing else. -/
lemma mem_reachable_iff :
    name ∈ reachable successors unseen queue ↔ Reached successors unseen queue name := by
  induction unseen, queue using reachable.induct successors with
  | case1 unseen queue h =>
      rw [reachable_of_filter_eq_nil h]
      exact ⟨fun hm => absurd hm List.not_mem_nil, fun hr => absurd hr (not_reached h)⟩
  | case2 unseen queue first rest h ih =>
      rw [reachable_of_filter_eq_cons h, List.mem_cons, ih, reached_iff h]

lemma nodup_reachable (nodup : unseen.Nodup) : (reachable successors unseen queue).Nodup := by
  induction unseen, queue using reachable.induct successors with
  | case1 unseen queue h =>
      rw [reachable_of_filter_eq_nil h]
      exact List.nodup_nil
  | case2 unseen queue first rest h ih =>
      rw [reachable_of_filter_eq_cons h, List.nodup_cons]
      refine ⟨fun hm => ?_, ih (nodup.erase first)⟩
      exact nodup.not_mem_erase (mem_reachable_iff.1 hm).new

/-! ## Inheritance -/

/-- A view is another one, or inherits it directly or by way of others. -/
abbrev InheritsFrom (providers : List Provider) : String → String → Prop :=
  Relation.ReflTransGen (Inherits providers)

variable {providers : List Provider} {defaults : Table String Value} {r : Registry} {p : Provider}

lemma Inherits.of_subset {providers' : List Provider}
    (subset : ∀ p ∈ providers, p ∈ providers') (h : Inherits providers view other) :
    Inherits providers' view other := by
  obtain ⟨p, hp, hname, ho⟩ := h
  exact ⟨p, subset p hp, hname, ho⟩

/-- Where all that is inherited has a provider, the walk follows inheritance to its end, from each
view that it is begun with. -/
lemma reached_iff_inheritsFrom (distinct : ViewsDistinct providers)
    (complete : InheritanceComplete providers) :
    Reached (inheritedBy providers) (providers.map (·.name)) queue other ↔
      ∃ view ∈ queue, view ∈ providers.map (·.name) ∧ InheritsFrom providers view other := by
  constructor
  · intro h
    induction h with
    | queued mem new => exact ⟨_, mem, new, .refl⟩
    | next _ mem _ ih =>
        obtain ⟨view, hq, registered, hi⟩ := ih
        exact ⟨view, hq, registered, hi.tail ((mem_inheritedBy_iff distinct).1 mem)⟩
  · rintro ⟨view, hq, registered, hi⟩
    induction hi with
    | refl => exact .queued hq registered
    | tail _ step ih =>
        obtain ⟨q, hq, hname⟩ := complete _ _ step
        exact .next ih ((mem_inheritedBy_iff distinct).2 step) (List.mem_map.2 ⟨q, hq, hname⟩)

namespace Registry

/-- The providers of a registry are those it was built from. -/
lemma perm_of_build (built : build providers defaults = .ok r) : r.providers.Perm providers := by
  obtain ⟨distinct, complete, -⟩ := fits_of_build built
  exact perm_of_arrange distinct complete
    (fitTogether_eq_ok_iff.1 (build_eq_ok_iff.1 built).1).2.2.1

lemma viewsDistinct_of_build (built : build providers defaults = .ok r) :
    ViewsDistinct r.providers := by
  obtain ⟨distinct, -⟩ := fits_of_build built
  exact ((perm_of_build built).map Provider.name).nodup_iff.2 distinct

lemma inheritanceComplete_of_build (built : build providers defaults = .ok r) :
    InheritanceComplete r.providers := by
  obtain ⟨-, complete, -⟩ := fits_of_build built
  have hmem : ∀ {q}, q ∈ r.providers ↔ q ∈ providers := (perm_of_build built).mem_iff
  rintro view other ⟨p, hp, hname, ho⟩
  obtain ⟨q, hq, hother⟩ := complete view other ⟨p, hmem.1 hp, hname, ho⟩
  exact ⟨q, hmem.2 hq, hother⟩

lemma inheritanceAcyclic_of_build (built : build providers defaults = .ok r) :
    InheritanceAcyclic r.providers := by
  obtain ⟨-, -, acyclic, -⟩ := fits_of_build built
  intro view circle
  exact acyclic view (Relation.TransGen.mono
    (fun _ _ step => step.of_subset fun _ hp => (perm_of_build built).mem_iff.1 hp) _ _ circle)

lemma name_of_find? (h : r.find? name = some p) : p.name = name := by
  simpa using List.find?_some h

lemma exists_find? (registered : name ∈ r.names) : ∃ p, r.find? name = some p := by
  obtain ⟨p, hp, rfl⟩ := List.mem_map.1 registered
  exact Option.isSome_iff_exists.1 (List.find?_isSome.2 ⟨p, hp, by simp⟩)

lemma find?_eq_some_iff (built : build providers defaults = .ok r) :
    r.find? view = some p ↔ p ∈ r.providers ∧ p.name = view :=
  providerOf?_eq_some_iff (viewsDistinct_of_build built)

lemma mem_of_mem_closure (h : p ∈ r.closure view) : p ∈ r.providers := by
  obtain ⟨other, -, hf⟩ := List.mem_filterMap.1 h
  exact List.mem_of_find?_eq_some hf

/-- **The closure of a view** holds the providers that it inherits from, and its own. -/
lemma mem_closure_iff (built : build providers defaults = .ok r) (registered : view ∈ r.names) :
    p ∈ r.closure view ↔ p ∈ r.providers ∧ InheritsFrom r.providers view p.name := by
  have hreached : ∀ {other}, Reached (inheritedBy r.providers) r.names [view] other ↔
      InheritsFrom r.providers view other := by
    intro other
    rw [names, reached_iff_inheritsFrom (viewsDistinct_of_build built)
      (inheritanceComplete_of_build built)]
    simp only [List.mem_singleton, exists_eq_left]
    exact and_iff_right registered
  simp only [closure, List.mem_filterMap, mem_reachable_iff, hreached, find?_eq_some_iff built]
  constructor
  · rintro ⟨other, hi, hp, rfl⟩
    exact ⟨hp, hi⟩
  · rintro ⟨hp, hi⟩
    exact ⟨p.name, hi, hp, rfl⟩

end Registry

end AttributeViews
