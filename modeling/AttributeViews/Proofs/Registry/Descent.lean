import AttributeViews.Proofs.Registry.Ordering

/-!
# Which of two names is finished first

The depth-first walk finishes names in blocks.  A start brings along what it leads to and what has
not been finished before, and stands behind all of it; within such a block the successors of the
start are walked from in the same way.  So which of two names comes first is decided by the first
start that leads to one of them, and if it leads to both, by its successors.

* `Leads` — a name is another one or leads to it.
* `FinishedFirst` — the rule for two names; **`FinishedFirst.asymm`** — it never says both.
* `Added` — the block that walking from some starts has added; **`exists_added_of_visit`**.
* **`precedes_iff_finishedFirst`** — the rule is exact.
-/

namespace AttributeViews

variable {successors : String → List String} {names starts rest order path done block : List String}
  {name start x y : String} {depth : Nat}

/-! ## The rule -/

/-- A name is another one, or leads to it by way of successors. -/
abbrev Leads (successors : String → List String) : String → String → Prop :=
  Relation.ReflTransGen fun a b => b ∈ successors a

/-- Walking from some starts, one name is finished before another one. -/
inductive FinishedFirst (successors : String → List String) : List String → String → String → Prop
  /-- A start leads to the one and not to the other. -/
  | only {start x y : String} {rest : List String} (leads : Leads successors start x)
      (apart : ¬ Leads successors start y) : FinishedFirst successors (start :: rest) x y
  /-- A start stands behind what it leads to. -/
  | behind {start x : String} {rest : List String} (leads : Leads successors start x)
      (ne : x ≠ start) : FinishedFirst successors (start :: rest) x start
  /-- Of two names to which a start leads, its successors decide. -/
  | within {start x y : String} {rest : List String} (leads : Leads successors start x)
      (also : Leads successors start y) (deeper : FinishedFirst successors (successors start) x y) :
      FinishedFirst successors (start :: rest) x y
  /-- A start that leads to neither is passed over. -/
  | later {start x y : String} {rest : List String} (apart : ¬ Leads successors start x)
      (apart' : ¬ Leads successors start y) (further : FinishedFirst successors rest x y) :
      FinishedFirst successors (start :: rest) x y

/-- What is finished first is found. -/
lemma FinishedFirst.exists_leads (h : FinishedFirst successors starts x y) :
    ∃ start ∈ starts, Leads successors start x := by
  induction h with
  | only leads _ => exact ⟨_, List.mem_cons_self, leads⟩
  | behind leads _ => exact ⟨_, List.mem_cons_self, leads⟩
  | within leads _ _ _ => exact ⟨_, List.mem_cons_self, leads⟩
  | later _ _ _ ih =>
      obtain ⟨start, hm, leads⟩ := ih
      exact ⟨start, List.mem_cons_of_mem _ hm, leads⟩

/-- What is finished before a start is led to by this start or by an earlier one. -/
lemma FinishedFirst.exists_start (h : FinishedFirst successors starts x y) (hy : y ∈ starts) :
    ∃ start, Leads successors start x ∧ (start = y ∨ Precedes starts start y) := by
  induction h with
  | only leads apart =>
      rcases List.mem_cons.1 hy with rfl | hy
      · exact absurd .refl apart
      · exact ⟨_, leads, Or.inr (precedes_cons_iff.2 (Or.inl ⟨rfl, hy⟩))⟩
  | behind leads _ => exact ⟨_, leads, Or.inl rfl⟩
  | within leads _ _ _ =>
      rcases List.mem_cons.1 hy with rfl | hy
      · exact ⟨_, leads, Or.inl rfl⟩
      · exact ⟨_, leads, Or.inr (precedes_cons_iff.2 (Or.inl ⟨rfl, hy⟩))⟩
  | later _ apart' _ ih =>
      rcases List.mem_cons.1 hy with rfl | hy
      · exact absurd .refl apart'
      · obtain ⟨start, leads, hs⟩ := ih hy
        exact ⟨start, leads, hs.imp_right fun h => precedes_cons_iff.2 (Or.inr h)⟩

/-- Where no name leads to itself, a start is not finished before anything that it leads to. -/
lemma not_finishedFirst_successors
    (acyclic : ∀ name, ¬ Relation.TransGen (fun a b => b ∈ successors a) name name) :
    ¬ FinishedFirst successors (successors start) start x := by
  intro h
  obtain ⟨next, hnext, back⟩ := h.exists_leads
  exact acyclic start (Relation.TransGen.head' hnext back)

/-- **The rule never says both**, if no name leads to itself. -/
lemma FinishedFirst.asymm
    (acyclic : ∀ name, ¬ Relation.TransGen (fun a b => b ∈ successors a) name name)
    (h : FinishedFirst successors starts x y) : ¬ FinishedFirst successors starts y x := by
  induction h with
  | only leads apart =>
      intro h
      cases h with
      | only leads' => exact apart leads'
      | behind leads' => exact apart leads'
      | within leads' => exact apart leads'
      | later _ apart' => exact apart' leads
  | behind leads ne =>
      intro h
      cases h with
      | only _ apart => exact apart leads
      | behind _ _ => exact ne rfl
      | within _ _ deeper => exact not_finishedFirst_successors acyclic deeper
      | later apart _ => exact apart .refl
  | within leads also deeper ih =>
      intro h
      cases h with
      | only _ apart => exact apart leads
      | behind _ _ => exact not_finishedFirst_successors acyclic deeper
      | within _ _ deeper' => exact ih deeper'
      | later apart _ => exact apart also
  | later apart apart' further ih =>
      intro h
      cases h with
      | only leads _ => exact apart' leads
      | behind leads _ => exact apart' leads
      | within leads _ _ => exact apart' leads
      | later _ _ further' => exact ih further'

/-! ## What a walk adds -/

/-- The block that walking from some starts adds to the names that are finished. -/
structure Added (successors : String → List String) (starts done block : List String) : Prop where
  /-- It holds what the starts lead to and what was not finished. -/
  found : ∀ x, x ∈ block ↔ (∃ start ∈ starts, Leads successors start x) ∧ x ∉ done
  ordered : ∀ x y, Precedes block x y → FinishedFirst successors starts x y

lemma Added.nil : Added successors [] done [] :=
  ⟨by simp, fun _ _ h => absurd h.mem_left List.not_mem_nil⟩

/-- A start that has been finished adds nothing. -/
lemma Added.of_mem (arranged : Arranged successors done) (hm : start ∈ done) :
    Added successors [start] done [] := by
  refine ⟨fun x => ?_, fun _ _ h => absurd h.mem_left List.not_mem_nil⟩
  simp only [List.not_mem_nil, List.mem_singleton, exists_eq_left, false_iff, not_and, not_not]
  exact arranged.mem_of_reflTransGen hm

/-- A start that has not been finished is put behind what its successors add. -/
lemma Added.snoc (added : Added successors (successors start) done block) (new : start ∉ done)
    (fresh : start ∉ block) : Added successors [start] done (block ++ [start]) := by
  have hleads : ∀ {x}, x ∈ block → Leads successors start x := by
    intro x hx
    obtain ⟨⟨next, hnext, leads⟩, -⟩ := (added.found x).1 hx
    exact .head hnext leads
  refine ⟨fun x => ?_, fun x y h => ?_⟩
  · simp only [List.mem_append, List.mem_singleton, exists_eq_left, added.found]
    constructor
    · rintro (⟨⟨next, hnext, leads⟩, hx⟩ | rfl)
      · exact ⟨.head hnext leads, hx⟩
      · exact ⟨.refl, new⟩
    · rintro ⟨leads, hx⟩
      rcases Relation.ReflTransGen.cases_head leads with rfl | ⟨next, hnext, leads⟩
      · exact Or.inr rfl
      · exact Or.inl ⟨⟨next, hnext, leads⟩, hx⟩
  · rcases precedes_snoc_iff.1 h with h | ⟨hx, rfl⟩
    · exact .within (hleads h.mem_left) (hleads h.mem_right) (added.ordered x y h)
    · exact .behind (hleads hx) fun he => fresh (he ▸ hx)

/-- The blocks of starts that are walked from one after the other. -/
lemma Added.append {block' : List String} (first : Added successors [start] done block)
    (further : Added successors rest (done ++ block) block') :
    Added successors (start :: rest) done (block ++ block') := by
  have hfirst : ∀ {x}, x ∈ block ↔ Leads successors start x ∧ x ∉ done := by
    intro x
    simp only [first.found, List.mem_singleton, exists_eq_left]
  have hfurther : ∀ {x}, x ∈ block' ↔
      (∃ next ∈ rest, Leads successors next x) ∧ x ∉ done ∧ x ∉ block := by
    intro x
    rw [further.found, List.mem_append, not_or]
  -- what is found later is found by none of the earlier starts
  have apart : ∀ {x}, x ∈ block' → ¬ Leads successors start x := by
    intro x hx leads
    obtain ⟨-, hd, hb⟩ := hfurther.1 hx
    exact hb (hfirst.2 ⟨leads, hd⟩)
  refine ⟨fun x => ?_, fun x y h => ?_⟩
  · rw [List.mem_append, hfirst, hfurther]
    simp only [List.mem_cons, exists_eq_or_imp]
    constructor
    · rintro (⟨leads, hd⟩ | ⟨leads, hd, -⟩)
      · exact ⟨Or.inl leads, hd⟩
      · exact ⟨Or.inr leads, hd⟩
    · rintro ⟨leads, hd⟩
      by_cases hs : Leads successors start x
      · exact Or.inl ⟨hs, hd⟩
      · exact Or.inr ⟨leads.resolve_left hs, hd, fun hb => hs (hfirst.1 hb).1⟩
  · rcases precedes_append_iff.1 h with h | ⟨hx, hy⟩ | h
    · cases first.ordered x y h with
      | only leads apart => exact .only leads apart
      | behind leads ne => exact .behind leads ne
      | within leads also deeper => exact .within leads also deeper
      | later _ _ further => cases further
    · exact .only (hfirst.1 hx).1 (apart hy)
    · exact .later (apart h.mem_left) (apart h.mem_right) (further.ordered x y h)

/-- Walking from names one after the other adds a block, if walking from each of them does. -/
lemma exists_added_of_foldlM {ε : Type} {keeps : List String → Prop}
    {f : List String → String → Except ε (List String)} (starts : List String)
    (step : ∀ start ∈ starts, ∀ {done done' : List String}, keeps done → f done start = .ok done' →
      keeps done' ∧ ∃ block, done' = done ++ block ∧ Added successors [start] done block) :
    ∀ {done done' : List String}, keeps done → starts.foldlM f done = .ok done' →
      ∃ block, done' = done ++ block ∧ Added successors starts done block := by
  induction starts with
  | nil =>
      intro done done' _ h
      obtain rfl := Except.ok.inj h
      exact ⟨[], (List.append_nil _).symm, .nil⟩
  | cons start rest ih =>
      intro done done' hk h
      rw [List.foldlM_cons, bind_eq_ok_iff] at h
      obtain ⟨next, hnext, hrest⟩ := h
      obtain ⟨hk, block, rfl, first⟩ := step start List.mem_cons_self hk hnext
      obtain ⟨block', rfl, further⟩ :=
        ih (fun other ho => step other (List.mem_cons_of_mem _ ho)) hk hrest
      exact ⟨block ++ block', List.append_assoc .., first.append further⟩

/-- **A visit that succeeds adds a block**, which ends with the visited name. -/
lemma exists_added_of_visit (closed : ∀ name ∈ names, successors name ⊆ names) :
    ∀ (depth : Nat) {path done done' : List String} {name : String},
      path.Nodup → path ⊆ names → path.length + depth = names.length + 1 → name ∈ names →
        Progress successors names path done → visit successors depth path done name = .ok done' →
          ∃ block, done' = done ++ block ∧ Added successors [name] done block
  | 0, path, done, done', name, nodup, known, total, hname, progress, h => by
      obtain rfl := Except.ok.inj h
      obtain ⟨-, -, hm⟩ := progress_of_visit closed 0 nodup known total hname progress h
      exact ⟨[], (List.append_nil _).symm, .of_mem progress.arranged hm⟩
  | depth + 1, path, done, done', name, nodup, known, total, hname, progress, h => by
      have hend := (progress_of_visit closed _ nodup known total hname progress h).1
      rw [visit] at h
      split_ifs at h with hdone hpath
      · obtain rfl := Except.ok.inj h
        exact ⟨[], (List.append_nil _).symm, .of_mem progress.arranged hdone⟩
      · obtain ⟨finished, hf, h⟩ := bind_eq_ok_iff.1 h
        obtain rfl := Except.ok.inj h
        have nodup' : (name :: path).Nodup := List.nodup_cons.2 ⟨hpath, nodup⟩
        have known' : name :: path ⊆ names := List.cons_subset.2 ⟨hname, known⟩
        have total' : (name :: path).length + depth = names.length + 1 := by
          rw [List.length_cons]
          omega
        obtain ⟨block, rfl, added⟩ := exists_added_of_foldlM _ (fun other ho _ _ hk hv =>
          have hother := closed name hname ho
          ⟨(progress_of_visit closed depth nodup' known' total' hother hk hv).1,
            exists_added_of_visit closed depth nodup' known' total' hother hk hv⟩)
          (progress.push hdone) hf
        have fresh : name ∉ done ++ block := fun hm =>
          List.disjoint_of_nodup_append hend.arranged.nodup hm (List.mem_singleton_self name)
        exact ⟨block ++ [name], List.append_assoc .., added.snoc hdone fun hm =>
          fresh (List.mem_append_right _ hm)⟩

/-- The order that the whole walk answers is one block. -/
lemma added_of_postorder (closed : ∀ name ∈ names, successors name ⊆ names)
    (known : starts ⊆ names) (h : postorder successors names.length starts = .ok order) :
    Added successors starts [] order := by
  have hbegin : Progress successors names [] [] := ⟨.nil, List.nil_subset _, by simp⟩
  have total : ([] : List String).length + (names.length + 1) = names.length + 1 := by simp
  obtain ⟨block, rfl, added⟩ := exists_added_of_foldlM starts (fun start hm _ _ hk hv =>
    ⟨(progress_of_visit closed _ List.nodup_nil (List.nil_subset _) total (known hm) hk hv).1,
      exists_added_of_visit closed _ List.nodup_nil (List.nil_subset _) total (known hm) hk hv⟩)
    hbegin h
  exact added

/-- **The rule is exact**: a name precedes another one in the order of the walk exactly if the rule
says that it is finished first. -/
lemma precedes_iff_finishedFirst (added : Added successors starts [] order)
    (acyclic : ∀ name, ¬ Relation.TransGen (fun a b => b ∈ successors a) name name)
    (hx : x ∈ order) (hy : y ∈ order) :
    Precedes order x y ↔ FinishedFirst successors starts x y := by
  refine ⟨added.ordered x y, fun h => ?_⟩
  have hne : x ≠ y := by
    rintro rfl
    exact h.asymm acyclic h
  rcases precedes_or_precedes hx hy hne with hp | hp
  · exact hp
  · exact absurd (added.ordered y x hp) (h.asymm acyclic)

end AttributeViews
