import AttributeViews.Proofs.Answers
import AttributeViews.Registry.Inheritance
import Mathlib.Data.List.Chain
import Mathlib.Data.List.Nodup
import Mathlib.Data.List.Perm.Subperm
import Mathlib.Logic.Relation

/-!
# What the depth-first walk finds

The walk either puts every name behind its successors or comes back to a name that is still being
visited.  In the first case no name leads to itself, and in the second one the path from there to
here is closed to a circle, so the walk succeeds exactly on relations without circles.

* `Arranged` — a list of names, each behind its successors; **`Arranged.not_transGen`**.
* `Circle` — a walk back to where it began; **`Circle.transGen`**.
* **`circle_of_visit`** — a visit that fails has found a circle.
* **`progress_of_visit`** — a visit that succeeds has added the name behind all that it needs, and
  nothing of the path that led to it.
* **`circle_of_postorder`**, **`arranged_of_postorder`** — the two outcomes of the whole walk.

The depth of a visit is bounded by a number, at which it would give up.  It never does: the path
holds no name twice, so there is a name left for every turn.
-/

namespace AttributeViews

variable {successors : String → List String} {names path done done' order cycle : List String}
  {name : String} {depth : Nat}

/-! ## Orders and circles -/

/-- Every name stands once and behind all of its successors. -/
inductive Arranged (successors : String → List String) : List String → Prop
  | nil : Arranged successors []
  | snoc {order : List String} {name : String} (before : Arranged successors order)
      (new : name ∉ order) (behind : ∀ other ∈ successors name, other ∈ order) :
      Arranged successors (order ++ [name])

lemma Arranged.nodup (h : Arranged successors order) : order.Nodup := by
  induction h with
  | nil => exact List.nodup_nil
  | snoc _ new _ ih => exact List.nodup_append.2 ⟨ih, List.nodup_singleton _, by
      intro a ha b hb
      rw [List.mem_singleton.1 hb]
      rintro rfl
      exact new ha⟩

lemma Arranged.acc (h : Arranged successors order) :
    ∀ name ∈ order, Acc (fun b a => b ∈ successors a) name := by
  induction h with
  | nil =>
      intro name hm
      cases hm
  | snoc _ _ behind ih =>
      intro name hm
      rcases List.mem_append.1 hm with hm | hm
      · exact ih name hm
      · obtain rfl := List.mem_singleton.1 hm
        exact Acc.intro _ fun other ho => ih other (behind other ho)

/-- **No name of an arranged list leads to itself.** -/
lemma Arranged.not_transGen (h : Arranged successors order) (hm : name ∈ order) :
    ¬ Relation.TransGen (fun a b => b ∈ successors a) name name := by
  have hacc := h.acc name hm
  clear hm
  induction hacc with
  | intro a _ ih =>
      intro loop
      -- the circle can be entered at the next name as well
      obtain ⟨b, hab, hba⟩ := Relation.TransGen.head'_iff.1 loop
      exact ih b hab (Relation.TransGen.tail' hba hab)

/-- A walk along the successors that ends where it began and passes no other name twice. -/
structure Circle (successors : String → List String) (cycle : List String) : Prop where
  closed : ∃ name between, cycle = name :: between ++ [name]
  steps : cycle.IsChain fun a b => b ∈ successors a
  distinct : cycle.dropLast.Nodup

/-- Every name on a circle leads to every other one, and to itself. -/
lemma Circle.transGen (h : Circle successors cycle) {other : String} (hn : name ∈ cycle)
    (ho : other ∈ cycle) : Relation.TransGen (fun a b => b ∈ successors a) name other := by
  obtain ⟨start, between, rfl⟩ := h.closed
  have hpairs : (start :: (between ++ [start])).Pairwise
      (Relation.TransGen fun a b => b ∈ successors a) :=
    List.isChain_iff_pairwise.1 (h.steps.imp fun _ _ => .single)
  -- the first name leads to all behind it, and all before the last name lead to that
  have hfrom : ∀ next ∈ between ++ [start],
      Relation.TransGen (fun a b => b ∈ successors a) start next :=
    (List.pairwise_cons.1 hpairs).1
  have hto : ∀ next ∈ start :: between,
      Relation.TransGen (fun a b => b ∈ successors a) next start := fun next hm =>
    (List.pairwise_append.1 hpairs).2.2 next hm start (List.mem_singleton_self start)
  have hback : Relation.TransGen (fun a b => b ∈ successors a) name start := by
    rcases List.mem_append.1 hn with hn | hn
    · exact hto name hn
    · rw [List.mem_singleton.1 hn]
      exact hto start List.mem_cons_self
  have hforth : Relation.TransGen (fun a b => b ∈ successors a) start other := by
    rcases List.mem_cons.1 ho with rfl | ho
    · exact hfrom _ (List.mem_append_right _ (List.mem_singleton_self _))
    · exact hfrom other ho
  exact hback.trans hforth

/-! ## A circle is found -/

/-- A path is cut behind the first occurrence of a name. -/
lemma exists_pathTo (hm : name ∈ path) :
    ∃ later earlier, path = later ++ name :: earlier ∧ pathTo name path = later ++ [name] := by
  induction path with
  | nil => cases hm
  | cons n rest ih =>
      by_cases hn : n = name
      · subst hn
        exact ⟨[], rest, rfl, by simp [pathTo]⟩
      · rcases List.mem_cons.1 hm with he | hm
        · exact absurd he.symm hn
        · obtain ⟨later, earlier, he, hp⟩ := ih hm
          exact ⟨n :: later, earlier, by rw [he]; rfl, by simp [pathTo, hn, hp]⟩

/-- The path from a name back to itself is a circle. -/
lemma circle_of_mem_path (hm : name ∈ path) (nodup : path.Nodup)
    (chain : (name :: path).IsChain fun a b => a ∈ successors b) :
    Circle successors ((pathTo name path).reverse ++ [name]) := by
  obtain ⟨later, earlier, rfl, hp⟩ := exists_pathTo hm
  have hreverse : (pathTo name (later ++ name :: earlier)).reverse ++ [name]
      = (name :: later ++ [name]).reverse := by
    simp [hp]
  have hsplit : name :: (later ++ name :: earlier) = (name :: later) ++ name :: earlier := rfl
  rw [hsplit, List.isChain_split] at chain
  refine ⟨⟨name, later.reverse, by simp [hp]⟩, ?_, ?_⟩
  · rw [hreverse, List.isChain_reverse]
    exact chain.1
  · rw [List.dropLast_concat, List.nodup_reverse, hp]
    have hsub : (later ++ [name]).Sublist (later ++ name :: earlier) :=
      (List.Sublist.refl later).append (by simp)
    exact hsub.nodup nodup

lemma exists_error_of_foldlM {α β ε : Type} {f : β → α → Except ε β} {e : ε} (l : List α) :
    ∀ {b : β}, l.foldlM f b = .error e → ∃ a ∈ l, ∃ b', f b' a = .error e := by
  induction l with
  | nil =>
      intro b h
      cases h
  | cons a rest ih =>
      intro b h
      rw [List.foldlM_cons] at h
      cases ha : f b a with
      | error e' =>
          rw [ha, error_bind] at h
          exact ⟨a, List.mem_cons_self, b, by rw [ha, Except.error.inj h]⟩
      | ok b' =>
          rw [ha, ok_bind] at h
          obtain ⟨a', hm, hb⟩ := ih h
          exact ⟨a', List.mem_cons_of_mem _ hm, hb⟩

/-- **A visit that fails has found a circle**, whatever had been finished before it began. -/
lemma circle_of_visit :
    ∀ (depth : Nat) {path done : List String} {name : String},
      (name :: path).IsChain (fun a b => a ∈ successors b) → path.Nodup →
        visit successors depth path done name = .error cycle → Circle successors cycle
  | 0, path, done, name, _, _, h => by cases h
  | depth + 1, path, done, name, chain, nodup, h => by
      rw [visit] at h
      split_ifs at h with hdone hpath
      · rw [← Except.error.inj h]
        exact circle_of_mem_path hpath nodup chain
      · cases hf : (successors name).foldlM (visit successors depth (name :: path)) done with
        | ok finished =>
            rw [hf] at h
            cases h
        | error e =>
            rw [hf, error_bind] at h
            obtain ⟨other, hm, done', hother⟩ := exists_error_of_foldlM _ hf
            rw [Except.error.inj h] at hother
            exact circle_of_visit depth (List.isChain_cons_cons.2 ⟨hm, chain⟩)
              (List.nodup_cons.2 ⟨hpath, nodup⟩) hother

/-! ## An order is found -/

/-- What has been finished while a path is being visited. -/
structure Progress (successors : String → List String) (names path done : List String) : Prop where
  arranged : Arranged successors done
  known : done ⊆ names
  apart : ∀ name ∈ path, name ∉ done

/-- A name that has not been finished can be visited itself. -/
lemma Progress.push (progress : Progress successors names path done) (new : name ∉ done) :
    Progress successors names (name :: path) done := by
  refine ⟨progress.arranged, progress.known, fun other ho => ?_⟩
  rcases List.mem_cons.1 ho with rfl | ho
  · exact new
  · exact progress.apart other ho

/-- Visits one after the other keep what each of them keeps and finish what each of
them finishes. -/
lemma finished_of_foldlM {ε : Type} {keeps : List String → Prop}
    {f : List String → String → Except ε (List String)} (l : List String)
    (step : ∀ name ∈ l, ∀ {done done' : List String}, keeps done → f done name = .ok done' →
      keeps done' ∧ done ⊆ done' ∧ name ∈ done') :
    ∀ {done done' : List String}, keeps done → l.foldlM f done = .ok done' →
      keeps done' ∧ done ⊆ done' ∧ ∀ name ∈ l, name ∈ done' := by
  induction l with
  | nil =>
      intro done done' hk h
      obtain rfl := Except.ok.inj h
      exact ⟨hk, List.Subset.refl _, by simp⟩
  | cons name rest ih =>
      intro done done' hk h
      rw [List.foldlM_cons, bind_eq_ok_iff] at h
      obtain ⟨next, hnext, hrest⟩ := h
      obtain ⟨hk, hsub, hm⟩ := step name List.mem_cons_self hk hnext
      obtain ⟨hk, hsub', hall⟩ :=
        ih (fun other ho => step other (List.mem_cons_of_mem _ ho)) hk hrest
      refine ⟨hk, List.Subset.trans hsub hsub', fun other ho => ?_⟩
      rcases List.mem_cons.1 ho with rfl | ho
      · exact hsub' hm
      · exact hall other ho

/-- **A visit that succeeds** has finished the name and what it leads to.  `total` says that the
depth and the path make up for each other, so the visit does not end for want of depth. -/
lemma progress_of_visit (closed : ∀ name ∈ names, successors name ⊆ names) :
    ∀ (depth : Nat) {path done done' : List String} {name : String},
      path.Nodup → path ⊆ names → path.length + depth = names.length + 1 → name ∈ names →
        Progress successors names path done → visit successors depth path done name = .ok done' →
          Progress successors names path done' ∧ done ⊆ done' ∧ name ∈ done'
  | 0, path, done, done', name, nodup, known, total, _, _, _ => by
      have := (nodup.subperm known).length_le
      omega
  | depth + 1, path, done, done', name, nodup, known, total, hname, progress, h => by
      rw [visit] at h
      split_ifs at h with hdone hpath
      · obtain rfl := Except.ok.inj h
        exact ⟨progress, List.Subset.refl _, hdone⟩
      · obtain ⟨finished, hf, h⟩ := bind_eq_ok_iff.1 h
        obtain rfl := Except.ok.inj h
        obtain ⟨hend, hsub, hall⟩ := finished_of_foldlM _ (fun other ho _ _ hk hv =>
          progress_of_visit closed depth (List.nodup_cons.2 ⟨hpath, nodup⟩)
            (List.cons_subset.2 ⟨hname, known⟩) (by rw [List.length_cons]; omega)
            (closed name hname ho) hk hv) (progress.push hdone) hf
        have hnew : name ∉ finished := hend.apart name List.mem_cons_self
        refine ⟨⟨.snoc hend.arranged hnew hall, ?_, ?_⟩,
          List.Subset.trans hsub (List.subset_append_left _ _), by simp⟩
        · exact List.append_subset.2 ⟨hend.known, by simpa using hname⟩
        · intro other ho hm
          rcases List.mem_append.1 hm with hm | hm
          · exact hend.apart other (List.mem_cons_of_mem _ ho) hm
          · exact hpath (List.mem_singleton.1 hm ▸ ho)

/-! ## The whole walk -/

lemma circle_of_postorder {size : Nat} (h : postorder successors size names = .error cycle) :
    Circle successors cycle := by
  obtain ⟨name, -, done, hv⟩ := exists_error_of_foldlM _ h
  exact circle_of_visit _ (List.isChain_singleton _) List.nodup_nil hv

/-- A walk that succeeds has put the names that it was begun with in order, and all that they lead
to. -/
lemma arranged_of_postorder {starts : List String}
    (closed : ∀ name ∈ names, successors name ⊆ names) (known : starts ⊆ names)
    (h : postorder successors names.length starts = .ok order) :
    Arranged successors order ∧ order ⊆ names ∧ starts ⊆ order := by
  have hbegin : Progress successors names [] [] := ⟨.nil, List.nil_subset _, by simp⟩
  obtain ⟨hend, -, hall⟩ := finished_of_foldlM starts (fun name hm _ _ hk hv =>
    progress_of_visit closed _ List.nodup_nil (List.nil_subset _) (by simp) (known hm) hk hv)
    hbegin h
  exact ⟨hend.arranged, hend.known, fun name hm => hall name hm⟩

end AttributeViews
