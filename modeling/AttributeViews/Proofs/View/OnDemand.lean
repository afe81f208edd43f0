import AttributeViews.Proofs.View.Request

/-!
# Building on demand follows the order of inheritance

A request comes upon its views in the order in which the depth-first walk does, and finds built what
the walk finds finished.  So it calls the providers in the order that the walk answers and comes to
the same as building the views in that order one after the other.

* `Request.building` — what a request has done, told without its calls.
* `Registry.Follows` — a part of a request comes to the same as building a list of views.
* `Registry.block_of_visit` — what a visit of the walk adds.
* **`Registry.follows_handed`** — the loop over the inherited views.
* **`Registry.follows_buildView`** — a view, with all that it inherits from.
* **`Registry.agrees_viewOnDemand`** — a whole request.
-/

namespace AttributeViews

variable {σ : Type} {r : Registry} {l : Lookup σ} {s s' : Request σ} {p : Provider} {v : View σ}
  {first : Nat} {name view : String} {handed : List (String × View σ)}
  {names path block : List String}

/-! ## Requests and buildings -/

namespace Request

/-- What a request has done, without its calls. -/
def building (s : Request σ) : Building σ := ⟨s.next, s.built, s.names⟩

/-- What is handed over is what is picked of all that has been built. -/
lemma Hands.pick_building (h : s.Hands names handed) : s.building.pick names = handed := by
  obtain ⟨rfl, hbuilt⟩ := h
  rw [Building.pick, List.filterMap_map]
  have hself : ∀ x ∈ handed,
      ((fun name => (s.building.built.get? name).map (name, ·)) ∘ Prod.fst) x = some x := by
    intro x hx
    simp [building, hbuilt x hx]
  rw [List.filterMap_congr hself, List.filterMap_some]

end Request

/-! ## Building in a row -/

namespace Registry

/-- What is refused is refused whatever would have come after it. -/
lemma buildViews_append_of_error {b b' : Building σ} {e : Error} (rest names : List String)
    (h : r.buildViews l names b = (b', .error e)) :
    r.buildViews l (names ++ rest) b = (b', .error e) := by
  induction names generalizing b with
  | nil => cases h
  | cons name names ih =>
      rw [buildViews] at h
      rw [List.cons_append, buildViews]
      cases hf : r.find? name with
      | none =>
          rw [hf] at h
          exact ih h
      | some p =>
          rw [hf] at h
          dsimp only at h ⊢
          split at h
          · exact h
          · exact ih h

lemma buildViews_singleton_of_error {b : Building σ} {e : Error} (found : r.find? name = some p)
    (hm : View.make p b.next l (b.pick p.inherited) = .error e) :
    r.buildViews l [name] b
      = ({ b with next := b.next + 1, begun := b.begun ++ [name] }, .error e) := by
  simp only [buildViews, found, hm]

/-- What comes of a part of a request that calls the providers of `block`: the same as building
these views in a row. -/
inductive Follows (r : Registry) (l : Lookup σ) (first : Nat) (s : Request σ)
    (block : List String) {α : Type} (shown : Request σ → α → Prop) :
    EStateM.Result BuildStop (Request σ) α → Prop
  | done {a : α} {s' : Request σ}
      (same : r.buildViews l block s.building = (s'.building, .ok ()))
      (names : s'.names = s.names ++ block) (sound : s'.Sound r l first) (kept : s.Kept s')
      (answer : shown s' a) : Follows r l first s block shown (.ok a s')
  | refused {e : Error} {s' : Request σ}
      (same : r.buildViews l block s.building = (s'.building, .error e)) :
      Follows r l first s block shown (.error (.refused e) s')

namespace Follows

variable {α β : Type} {shown : Request σ → α → Prop} {rest : List String}

/-- Nothing is called where the answer is known. -/
lemma pure {a : α} (sound : s.Sound r l first) (answer : shown s a) :
    r.Follows l first s [] shown (.ok a s) :=
  .done rfl (List.append_nil _).symm sound (fun _ _ h => h) answer

/-- Two parts of a request, one after the other. -/
lemma bind {x : Demand σ α} {f : α → Demand σ β} {final : Request σ → β → Prop}
    (followed : r.Follows l first s block shown (x.run s))
    (next : ∀ a s', s'.names = s.names ++ block → s'.Sound r l first → s.Kept s' → shown s' a →
      r.Follows l first s' rest final ((f a).run s')) :
    r.Follows l first s (block ++ rest) final ((x >>= f).run s) := by
  rw [EStateM.run_bind]
  generalize x.run s = outcome at followed
  cases followed with
  | refused same => exact .refused (buildViews_append_of_error _ _ same)
  | @done a s' same names sound kept answer =>
      have followed := next a s' names sound kept answer
      have hrow := buildViews_append rest block same
      show r.Follows l first s (block ++ rest) final ((f a).run s')
      generalize (f a).run s' = outcome at followed
      cases followed with
      | refused same' => exact .refused (hrow.trans same')
      | done same' names' sound' kept' answer' =>
          refine .done (hrow.trans same') ?_ sound' (fun _ _ h => kept' _ _ (kept _ _ h)) answer'
          rw [names', names, List.append_assoc]

/-- The answer of a request is turned into another one. -/
lemma map {x : Demand σ α} {f : α → β} {final : Request σ → β → Prop}
    (followed : r.Follows l first s block shown (x.run s))
    (turned : ∀ a s', s.Kept s' → shown s' a → final s' (f a)) :
    r.Follows l first s block final ((x >>= fun a => Pure.pure (f a)).run s) := by
  rw [← List.append_nil block]
  exact followed.bind fun a s' _ sound kept answer => .pure sound (turned a s' kept answer)

/-- Where all views of a row can be built, the request comes to its end. -/
lemma exists_ok {result : EStateM.Result BuildStop (Request σ) α} {b : Building σ}
    (followed : r.Follows l first s block shown result)
    (all : r.buildViews l block s.building = (b, .ok ())) :
    ∃ a s', result = .ok a s' ∧ s'.building = b ∧ s'.names = s.names ++ block ∧
      s'.Sound r l first ∧ shown s' a := by
  cases followed with
  | refused same =>
      rw [same] at all
      cases all
  | @done a s' same names sound _ answer =>
      rw [same] at all
      exact ⟨a, s', rfl, (Prod.mk.inj all).1, names, sound, answer⟩

end Follows

/-! ## The walk -/

lemma prefix_of_foldlM {ε : Type} {f : List String → String → Except ε (List String)}
    (starts : List String)
    (step : ∀ start ∈ starts, ∀ {done done'}, f done start = .ok done' → done <+: done') :
    ∀ {done done' : List String}, starts.foldlM f done = .ok done' → done <+: done' := by
  induction starts with
  | nil =>
      intro done done' h
      obtain rfl := Except.ok.inj h
      exact List.prefix_refl _
  | cons start rest ih =>
      intro done done' h
      rw [List.foldlM_cons, bind_eq_ok_iff] at h
      obtain ⟨next, hnext, hrest⟩ := h
      exact (step start List.mem_cons_self hnext).trans
        (ih (fun other ho => step other (List.mem_cons_of_mem _ ho)) hrest)

/-- A visit puts what it finishes behind what has been finished. -/
lemma prefix_of_visit {successors : String → List String} :
    ∀ (depth : Nat) {path done done' : List String} {name : String},
      visit successors depth path done name = .ok done' → done <+: done'
  | 0, path, done, done', name, h => by
      obtain rfl := Except.ok.inj h
      exact List.prefix_refl _
  | depth + 1, path, done, done', name, h => by
      rw [visit] at h
      split_ifs at h
      · obtain rfl := Except.ok.inj h
        exact List.prefix_refl _
      · obtain ⟨finished, hf, h⟩ := bind_eq_ok_iff.1 h
        obtain rfl := Except.ok.inj h
        exact (prefix_of_foldlM _ (fun _ _ _ _ h => prefix_of_visit depth h) hf).trans
          (List.prefix_append _ _)

/-- **What a visit adds**: nothing if the name is finished, and else what the successors of the name
add, and the name behind it. -/
lemma block_of_visit {successors : String → List String} {depth : Nat} {done : List String}
    (h : visit successors (depth + 1) path done name = .ok (done ++ block)) :
    (name ∈ done ∧ block = []) ∨
      (name ∉ done ∧ name ∉ path ∧ ∃ inner, block = inner ++ [name] ∧
        (successors name).foldlM (visit successors depth (name :: path)) done
          = .ok (done ++ inner)) := by
  rw [visit] at h
  split_ifs at h with hdone hpath
  · have hblock : [] = block := List.append_cancel_left
      ((List.append_nil _).trans (Except.ok.inj h))
    exact Or.inl ⟨hdone, hblock.symm⟩
  · obtain ⟨finished, hf, h⟩ := bind_eq_ok_iff.1 h
    obtain ⟨inner, rfl⟩ := prefix_of_foldlM _ (fun _ _ _ _ h => prefix_of_visit _ h) hf
    have hblock := Except.ok.inj h
    rw [List.append_assoc, List.append_cancel_left_eq] at hblock
    exact Or.inr ⟨hdone, hpath, inner, hblock.symm, hf⟩

/-! ## Requests -/

variable {depth : Nat}

lemma inheritedBy_of_find? (found : r.find? name = some p) :
    inheritedBy r.providers name = p.inherited := by
  have hprovider : providerOf? r.providers name = some p := found
  rw [inheritedBy, hprovider]

lemma run_built? (name : String) (s : Request σ) :
    (Demand.built? name).run s = .ok (s.built.get? name) s := rfl

lemma run_buildView_of_built (h : s.built.get? name = some v) :
    (r.buildView l (depth + 1) name).run s = .ok v s := by
  rw [buildView, EStateM.run_bind, run_built?, h]
  rfl

/-- Calling a provider when its inherited views are there is building one view. -/
lemma follows_call (sound : s.Sound r l first) (found : r.find? p.name = some p)
    (new : p.name ∉ s.names) (hands : s.Hands p.inherited handed) :
    r.Follows l first s [p.name] (fun s' v => s'.built.get? p.name = some v)
      ((do
        let v ← Demand.call p l handed
        Demand.keep p.name v
        return v).run s) := by
  have hmake : View.make p s.building.next l (s.building.pick p.inherited)
      = ProviderCall.answer ⟨p, s.next, handed⟩ l := by
    rw [hands.pick_building]
    rfl
  simp only [Demand.call, EStateM.run_bind, EStateM.run_get, EStateM.run_set]
  cases answer : ProviderCall.answer ⟨p, s.next, handed⟩ l with
  | error e =>
      have same : r.buildViews l [p.name] s.building
          = ((s.asked p handed).building, .error e) := by
        rw [buildViews_singleton_of_error found (hmake.trans answer), Request.building,
          Request.building, Request.names_asked]
        rfl
      exact .refused same
  | ok v =>
      have here : (s.called p handed v).built.get? p.name = some v := by
        rw [Request.called, Table.get?_insert, if_pos rfl]
      have same : r.buildViews l [p.name] s.building
          = ((s.called p handed v).building, .ok ()) := by
        rw [buildViews_singleton found (hmake.trans answer), Request.building, Request.building,
          Request.names_called]
        rfl
      exact .done same Request.names_called (sound.called found new hands answer)
        (Request.kept_called sound new) here

/-- **The loop over the inherited views.** -/
lemma follows_handed (build : String → Demand σ (View σ)) (starts : List String)
    (step : ∀ start ∈ starts, ∀ {s : Request σ} {block : List String}, s.Sound r l first →
      Progress (inheritedBy r.providers) names path s.names →
      visit (inheritedBy r.providers) depth path s.names start = .ok (s.names ++ block) →
        Progress (inheritedBy r.providers) names path (s.names ++ block) ∧
        r.Follows l first s block (fun s' v => s'.built.get? start = some v)
          ((build start).run s)) :
    ∀ {s : Request σ} {block : List String}, s.Sound r l first →
      Progress (inheritedBy r.providers) names path s.names →
      starts.foldlM (visit (inheritedBy r.providers) depth path) s.names
        = .ok (s.names ++ block) →
        r.Follows l first s block (fun s' handed => s'.Hands starts handed)
          ((starts.mapM fun name => do
            let v ← build name
            return (name, v)).run s) := by
  induction starts with
  | nil =>
      intro s block sound _ h
      have hblock : [] = block := List.append_cancel_left
        ((List.append_nil _).trans (Except.ok.inj h))
      subst hblock
      exact .pure sound ⟨rfl, by simp⟩
  | cons start rest ih =>
      intro s block sound progress h
      rw [List.foldlM_cons, bind_eq_ok_iff] at h
      obtain ⟨next, hnext, hrest⟩ := h
      obtain ⟨block₁, rfl⟩ := prefix_of_visit _ hnext
      obtain ⟨block₂, hblock⟩ := prefix_of_foldlM _ (fun _ _ _ _ h => prefix_of_visit _ h) hrest
      rw [List.append_assoc, List.append_cancel_left_eq] at hblock
      subst hblock
      obtain ⟨progress, followed⟩ := step start List.mem_cons_self sound progress hnext
      rw [List.mapM_cons]
      have handed : r.Follows l first s block₁ (fun s' x => s'.Hands [start] [x])
          ((do
            let v ← build start
            return (start, v)).run s) :=
        followed.map fun v s' _ answer => ⟨rfl, List.forall_mem_singleton.2 answer⟩
      refine handed.bind fun x s' names₁ sound₁ _ here => ?_
      rw [← List.append_assoc, ← names₁] at hrest
      rw [← names₁] at progress
      refine (ih (fun other ho => step other (List.mem_cons_of_mem _ ho)) sound₁ progress
        hrest).map fun xs s'' kept hands => ?_
      exact (here.kept kept).cons hands

/-- **A view, with all that it inherits from.**  The path and the depth make up for each other, so
the request does not end for want of depth; more depth does not change anything. -/
lemma follows_buildView (closed : ∀ name ∈ r.names, inheritedBy r.providers name ⊆ r.names)
    (extra : Nat) :
    ∀ (depth : Nat) {path : List String} {s : Request σ} {block : List String} {name : String},
      path.Nodup → path ⊆ r.names → path.length + depth = r.names.length + 1 → name ∈ r.names →
        s.Sound r l first → Progress (inheritedBy r.providers) r.names path s.names →
        visit (inheritedBy r.providers) depth path s.names name = .ok (s.names ++ block) →
          r.Follows l first s block (fun s' v => s'.built.get? name = some v)
            ((r.buildView l (depth + extra) name).run s)
  | 0, path, s, block, name, nodup, known, total, _, _, _, _ => by
      have := (nodup.subperm known).length_le
      omega
  | depth + 1, path, s, block, name, nodup, known, total, hname, sound, progress, h => by
      have hend := (progress_of_visit closed _ nodup known total hname progress h).1
      rw [Nat.succ_add]
      rcases block_of_visit h with ⟨hdone, rfl⟩ | ⟨hdone, hpath, inner, rfl, hf⟩
      · obtain ⟨v, hv⟩ := sound.mem_names_iff.1 hdone
        rw [run_buildView_of_built hv]
        exact .pure sound hv
      · -- the inherited views are built first, and the view itself is not among them
        have fresh : name ∉ s.names ++ inner := by
          rw [← List.append_assoc] at hend
          exact fun hm => List.disjoint_of_nodup_append hend.arranged.nodup hm
            (List.mem_singleton_self name)
        have hnone : s.built.get? name = none := by
          rw [← Option.not_isSome_iff_eq_none]
          exact fun hb => hdone (sound.begun name hb)
        obtain ⟨p, found⟩ := exists_find? hname
        have nodup' : (name :: path).Nodup := List.nodup_cons.2 ⟨hpath, nodup⟩
        have known' : name :: path ⊆ r.names := List.cons_subset.2 ⟨hname, known⟩
        have total' : (name :: path).length + depth = r.names.length + 1 := by
          rw [List.length_cons]
          omega
        rw [inheritedBy_of_find? found] at hf
        have followed := follows_handed (r.buildView l (depth + extra))
          p.inherited (fun other ho s block sound progress hv =>
            have hother := closed name hname (by rwa [inheritedBy_of_find? found])
            ⟨(progress_of_visit closed depth nodup' known' total' hother progress hv).1,
              follows_buildView closed extra depth nodup' known' total' hother sound progress hv⟩)
          sound (progress.push hdone) hf
        obtain rfl := name_of_find? found
        rw [buildView, EStateM.run_bind, run_built?, hnone]
        dsimp only
        rw [found]
        refine followed.bind fun handed s' names sound _ hands => ?_
        exact follows_call sound found (by rwa [names]) hands

/-! ## A whole request -/

/-- What comes of a request, told as a list of views that are built. -/
inductive Agrees : Building σ × Except Error (Option (View σ)) →
    EStateM.Result BuildStop (Request σ) (Option (View σ)) → Prop
  | done {answer : Option (View σ)} {s : Request σ} :
      Agrees (s.building, .ok answer) (.ok answer s)
  | refused {e : Error} {s : Request σ} :
      Agrees (s.building, .error e) (.error (.refused e) s)

variable {providers : List Provider} {defaults : Table String Value}

lemma mem_names_of_find? (found : r.find? name = some p) : name ∈ r.names := by
  rw [← name_of_find? found]
  exact List.mem_map_of_mem (mem_of_find? found)

/-- The order in which a request builds its views is that of the walk. -/
lemma postorder_buildOrder (built : build providers defaults = .ok r)
    (registered : view ∈ r.names) :
    postorder (inheritedBy r.providers) r.names.length [view] = .ok (r.buildOrder view) := by
  obtain ⟨order, ho, -⟩ :=
    exists_postorder (viewsDistinct_of_build built) (inheritanceComplete_of_build built)
      (inheritanceAcyclic_of_build built) (List.cons_subset.2 ⟨registered, List.nil_subset _⟩)
  have horder : r.buildOrder view = order := by
    rw [List.length_map] at ho
    rw [buildOrder, ho]
  rw [horder]
  exact ho

/-- A request for a registered view is followed from its beginning to its end. -/
lemma follows_start (built : build providers defaults = .ok r) (registered : view ∈ r.names)
    (l : Lookup σ) (first extra : Nat) :
    r.Follows l first (.start first) (r.buildOrder view) (fun s v => s.built.get? view = some v)
      ((r.buildView l (r.names.length + 1 + extra) view).run (.start first)) := by
  have closed := inheritedBy_subset (viewsDistinct_of_build built)
    (inheritanceComplete_of_build built)
  have hwalk := postorder_buildOrder built registered
  rw [postorder, List.foldlM_cons] at hwalk
  obtain ⟨order, hvisit, hrest⟩ := bind_eq_ok_iff.1 hwalk
  rw [Except.ok.inj hrest] at hvisit
  exact follows_buildView closed extra _ List.nodup_nil (List.nil_subset _) (by simp) registered
    Request.sound_start ⟨.nil, List.nil_subset _, by simp⟩ hvisit

lemma follows_viewOnDemand (built : build providers defaults = .ok r)
    (registered : view ∈ r.names) (l : Lookup σ) (first : Nat) :
    r.Follows l first (.start first) (r.buildOrder view)
      (fun s answer => ∃ v, answer = some v ∧ s.built.get? view = some v)
      ((r.viewOnDemand view l).run (.start first)) := by
  obtain ⟨p, found⟩ := exists_find? registered
  rw [viewOnDemand, found]
  exact (follows_start built registered l first 0).map fun v _ _ answer => ⟨v, rfl, answer⟩

/-- **On demand a request comes to the same.** -/
theorem agrees_viewOnDemand (built : build providers defaults = .ok r) (view : String)
    (l : Lookup σ) (serial : Nat) :
    Agrees (r.getView view l serial) ((r.viewOnDemand view l).run (.start serial)) := by
  rw [getView]
  cases found : r.find? view with
  | none =>
      rw [viewOnDemand, found]
      exact .done (s := .start serial)
  | some p =>
      have followed := follows_viewOnDemand built (mem_names_of_find? found) l serial
      have hstart : (Request.start serial : Request σ).building = .start serial := rfl
      generalize (r.viewOnDemand view l).run (.start serial) = outcome at followed
      cases followed with
      | refused same =>
          rw [← hstart, same]
          exact .refused
      | @done answer s same _ _ _ shown =>
          obtain ⟨v, rfl, hv⟩ := shown
          have hbuilt : s.building.built.get? view = some v := hv
          rw [← hstart, same]
          dsimp only
          rw [hbuilt]
          exact .done

end Registry

end AttributeViews
