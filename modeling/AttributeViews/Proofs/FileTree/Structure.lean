import AttributeViews.FileTree.Structure
import AttributeViews.Proofs.Answers
import AttributeViews.Proofs.Path

/-!
# When files are created, moved and deleted, and what that does to the indexes

Each operation of a file tree is brought into the form "it succeeds exactly if …, and then the tree
is …", so that nothing after this file opens the operations themselves.

* `FileTree.HasDirectory` — a directory is stored at a path.
* **`FileTree.checkVacant_eq_ok_iff`**, **`FileTree.move_eq_ok_iff`**,
  **`FileTree.delete_eq_ok_iff`** — the exact conditions.
* **`FileTree.Clear.get?_relocate_eq_some_iff`**, **`FileTree.Clear.get?_descend`** — the path index
  after a move, read back.
  `FileTree.relocate` is a loop that takes one path after the other out of the index and writes
  another one; **`FileTree.displaced_foldl`** says that no turn overwrites what an earlier one wrote
  or what a later one has still to take out.
-/

namespace AttributeViews

namespace FileTree

variable {t t' : FileTree} {path source target : Path}

/-- A directory is stored at a path. -/
def HasDirectory (t : FileTree) (path : Path) : Prop :=
  ∃ id node, t.paths.get? path = some id ∧ t.nodes.get? id = some node ∧ node.kind = .directory

/-! ## Conditions -/

lemma contains_eq_false_iff : t.contains path = false ↔ t.paths.get? path = none := by
  simp [contains, Table.contains]

lemma checkParent_eq_ok_iff : t.checkParent path = .ok () ↔ t.HasDirectory path.parent := by
  rw [checkParent, HasDirectory]
  cases hp : t.paths.get? path.parent with
  | none => simp
  | some id => cases hn : t.nodes.get? id <;> simp [hn]

/-- **A path is free for a new file** exactly if nothing is stored there and its parent is a
directory. -/
lemma checkVacant_eq_ok_iff :
    t.checkVacant path = .ok () ↔ t.paths.get? path = none ∧ t.HasDirectory path.parent := by
  rw [← checkParent_eq_ok_iff, ← contains_eq_false_iff, checkVacant]
  cases hc : t.contains path <;> simp

/-- The conditions of a move: the source is stored and not the root, the target is not at or below
it, and a new file could stand there. -/
structure Movable (t : FileTree) (source target : Path) : Prop where
  stored : ∃ id, t.paths.get? source = some id
  ne_root : source ≠ .root
  outside : target.within source = false
  vacant : t.paths.get? target = none
  parent : t.HasDirectory target.parent

lemma checkMove_eq_ok_iff : t.checkMove source target = .ok () ↔ t.Movable source target := by
  have hv : t.checkVacant target = .ok () ↔ _ := checkVacant_eq_ok_iff
  have hs : t.contains source = true ↔ ∃ id, t.paths.get? source = some id :=
    Table.contains_eq_true_iff
  have hsplit : t.checkMove source target = .ok () ↔
      t.contains source = true ∧ ¬ (source = .root ∨ target.within source = true) ∧
        t.checkVacant target = .ok () := by
    rw [checkMove]
    cases t.contains source
    · simp
    · by_cases hr : source = .root ∨ target.within source = true <;> simp [hr]
  rw [hsplit, hs, hv, not_or, Bool.not_eq_true]
  constructor
  · rintro ⟨stored, ⟨ne_root, outside⟩, vacant, parent⟩
    exact ⟨stored, ne_root, outside, vacant, parent⟩
  · intro h
    exact ⟨h.stored, ⟨h.ne_root, h.outside⟩, h.vacant, h.parent⟩

/-- **When a move succeeds**, and the tree after it. -/
lemma move_eq_ok_iff :
    t.move source target = .ok t' ↔
      t.Movable source target ∧ t' = { t with paths := relocate source target t.paths } := by
  rw [← checkMove_eq_ok_iff, move]
  cases t.checkMove source target with
  | error e => simp
  | ok _ => simp [eq_comm]

/-- Nothing but the root itself has the path as its parent. -/
lemma hasChildren_eq_false_iff :
    t.hasChildren path = false ↔
      ∀ p id, t.paths.get? p = some id → p ≠ .root → p.parent ≠ path := by
  simp only [hasChildren, List.any_eq_false, ← Table.contains_iff, Table.contains_eq_true_iff]
  simp only [Bool.and_eq_true, decide_eq_true_eq, not_and]
  constructor
  · intro h p id hp
    exact h p ⟨id, hp⟩
  · rintro h p ⟨id, hp⟩
    exact h p id hp

/-- **When a deletion succeeds**, and the tree after it. -/
lemma delete_eq_ok_iff :
    t.delete path = .ok t' ↔
      path ≠ .root ∧ t.hasChildren path = false ∧
        ∃ id, t.paths.get? path = some id ∧
          t' = { t with paths := t.paths.erase path, nodes := t.nodes.erase id } := by
  rw [delete]
  by_cases hr : path = .root
  · simp [hr]
  · cases hp : t.paths.get? path with
    | none => simp [hr]
    | some id =>
        cases hc : t.hasChildren path <;> simp [hr, pure_eq_ok, eq_comm]

/-! ## Relocating the paths of a subtree -/

/-- The effect of taking the paths `moved` out of an index one after the other, each with a new
place below the target: `after` is the index `before` with exactly these displaced. -/
structure Displaced (source target : Path) (moved : List Path)
    (before after : Table Path String) : Prop where
  arrived : ∀ p ∈ moved, after.get? (p.rebase source target) = before.get? p
  gone : ∀ p ∈ moved, after.get? p = none
  kept : ∀ q, q ∉ moved → (∀ p ∈ moved, p.rebase source target ≠ q) →
    after.get? q = before.get? q

/-- One turn of the loop. -/
lemma get?_relocateOne {paths : Table Path String} {p : Path} {id : String}
    (h : paths.get? p = some id) (q : Path) :
    (relocateOne source target paths p).get? q
      = if p.rebase source target = q then some id else if p = q then none else paths.get? q := by
  simp [relocateOne, h]

/-- Source and target have no path in common. -/
def Apart (source target : Path) : Prop :=
  ∀ p : Path, p.within source = true → p.within target = false

/-- A place that a turn writes is none of the source. -/
lemma Apart.rebase_ne (apart : Apart source target) (p : Path) {q : Path}
    (h : q.within source = true) : p.rebase source target ≠ q := by
  intro he
  have ht := Path.rebase_within p source target
  rw [he, apart q h] at ht
  cases ht

/-- **The loop of a move.**  The places that are written are none of those still to be taken out,
and no two of them are the same. -/
lemma displaced_foldl (apart : Apart source target) :
    ∀ (moved : List Path) (paths : Table Path String), moved.Nodup →
      (∀ p ∈ moved, p.within source = true) → (∀ p ∈ moved, ∃ id, paths.get? p = some id) →
      Displaced source target moved paths (moved.foldl (relocateOne source target) paths)
  | [], paths, _, _, _ => ⟨by simp, by simp, fun _ _ _ => rfl⟩
  | p :: moved, paths, hnodup, hwithin, hstored => by
      rcases List.nodup_cons.1 hnodup with ⟨hp, hnodup⟩
      rcases hstored p List.mem_cons_self with ⟨id, hid⟩
      have hpw : p.within source = true := hwithin p List.mem_cons_self
      have hwithin' : ∀ q ∈ moved, q.within source = true :=
        fun q hq => hwithin q (List.mem_cons_of_mem p hq)
      set paths' := relocateOne source target paths p with hpaths'
      have hrest : ∀ q ∈ moved, paths'.get? q = paths.get? q := by
        intro q hq
        have hne : p ≠ q := fun he => hp (he ▸ hq)
        rw [hpaths', get?_relocateOne hid, if_neg (apart.rebase_ne p (hwithin' q hq)), if_neg hne]
      have ih := displaced_foldl apart moved paths' hnodup hwithin' (fun q hq => by
        rw [hrest q hq]
        exact hstored q (List.mem_cons_of_mem p hq))
      rw [List.foldl_cons]
      refine ⟨?_, ?_, ?_⟩
      · intro q hq
        rcases List.mem_cons.1 hq with rfl | hq
        · have hout : q.rebase source target ∉ moved :=
            fun hm => apart.rebase_ne q (hwithin' _ hm) rfl
          have hinj : ∀ r ∈ moved, r.rebase source target ≠ q.rebase source target :=
            fun r hr he => hp (Path.rebase_injective (hwithin' r hr) hpw he ▸ hr)
          rw [ih.kept _ hout hinj, hpaths', get?_relocateOne hid, if_pos rfl, hid]
        · rw [ih.arrived q hq, hrest q hq]
      · intro q hq
        rcases List.mem_cons.1 hq with rfl | hq
        · rw [ih.kept q hp (fun r _ => apart.rebase_ne r hpw), hpaths', get?_relocateOne hid,
            if_neg (apart.rebase_ne q hpw), if_pos rfl]
        · exact ih.gone q hq
      · intro q hq hne
        rcases not_or.1 (mt List.mem_cons.2 hq) with ⟨hqp, hq⟩
        rw [ih.kept q hq (fun r hr => hne r (List.mem_cons_of_mem p hr)), hpaths',
          get?_relocateOne hid, if_neg (hne p List.mem_cons_self), if_neg (Ne.symm hqp)]

/-- A stored source can be moved to a target outside of it at and below which nothing is stored. -/
structure Clear (paths : Table Path String) (source target : Path) : Prop where
  stored : ∃ id, paths.get? source = some id
  outside : target.within source = false
  unused : ∀ p : Path, p.within target = true → paths.get? p = none

section Relocation

variable {paths : Table Path String} {id : String} {p q : Path}

lemma Clear.apart (clear : Clear paths source target) : Apart source target := by
  refine fun p h => Bool.eq_false_iff.2 fun ht => ?_
  rcases Path.within_or_within h ht with hs | hs
  · rcases clear.stored with ⟨id, hid⟩
    rw [clear.unused source hs] at hid
    cases hid
  · rw [clear.outside] at hs
    cases hs

lemma Clear.not_within_target (clear : Clear paths source target) (h : paths.get? p = some id) :
    p.within target = false := by
  refine Bool.eq_false_iff.2 fun ht => ?_
  rw [clear.unused p ht] at h
  cases h

lemma mem_moved_iff :
    p ∈ paths.keys.filter (·.within source) ↔
      (∃ id, paths.get? p = some id) ∧ p.within source = true := by
  rw [List.mem_filter, ← Table.contains_iff, Table.contains_eq_true_iff]

lemma Clear.displaced (clear : Clear paths source target) :
    Displaced source target (paths.keys.filter (·.within source)) paths
      (relocate source target paths) := by
  refine displaced_foldl clear.apart _ _ ?_ ?_ ?_
  · exact paths.keys_nodup.filter _
  · exact fun p hp => (mem_moved_iff.1 hp).2
  · exact fun p hp => (mem_moved_iff.1 hp).1

/-- A stored path of the source is found below the target. -/
lemma Clear.get?_rebase (clear : Clear paths source target) (h : paths.get? p = some id)
    (hw : p.within source = true) :
    (relocate source target paths).get? (p.rebase source target) = some id := by
  rw [clear.displaced.arrived p (mem_moved_iff.2 ⟨⟨id, h⟩, hw⟩), h]

/-- Nothing is left at or below the source. -/
lemma Clear.get?_source (clear : Clear paths source target) (hw : p.within source = true) :
    (relocate source target paths).get? p = none := by
  by_cases hm : p ∈ paths.keys.filter (·.within source)
  · exact clear.displaced.gone p hm
  · rw [clear.displaced.kept p hm fun q _ => clear.apart.rebase_ne q hw]
    cases hp : paths.get? p with
    | none => rfl
    | some id => exact absurd (mem_moved_iff.2 ⟨⟨id, hp⟩, hw⟩) hm

/-- Outside of source and target nothing changes. -/
lemma Clear.get?_other (clear : Clear paths source target) (hs : p.within source = false)
    (ht : p.within target = false) :
    (relocate source target paths).get? p = paths.get? p := by
  refine clear.displaced.kept p ?_ ?_
  · intro hm
    rw [(mem_moved_iff.1 hm).2] at hs
    cases hs
  · intro q _ he
    rw [← he, Path.rebase_within] at ht
    cases ht

/-- **The path index after a move**, read back: every path has gone where the move takes it, and
there is no other. -/
lemma Clear.get?_relocate_eq_some_iff (clear : Clear paths source target) :
    (relocate source target paths).get? q = some id ↔
      ∃ p, paths.get? p = some id ∧ q = p.relocated source target := by
  constructor
  · intro h
    cases hs : q.within source with
    | true =>
        rw [clear.get?_source hs] at h
        cases h
    | false =>
        cases ht : q.within target with
        | false =>
            rw [clear.get?_other hs ht] at h
            exact ⟨q, h, (Path.relocated_of_not_within hs).symm⟩
        | true =>
            -- what is found below the target has been put there
            by_cases hm : ∃ p ∈ paths.keys.filter (·.within source), p.rebase source target = q
            · obtain ⟨p, hp, rfl⟩ := hm
              have hw := (mem_moved_iff.1 hp).2
              rw [clear.displaced.arrived p hp] at h
              exact ⟨p, h, (Path.relocated_of_within hw).symm⟩
            · have hq : q ∉ paths.keys.filter (·.within source) := by
                intro hq
                rw [(mem_moved_iff.1 hq).2] at hs
                cases hs
              rw [clear.displaced.kept q hq fun p hp he => hm ⟨p, hp, he⟩,
                clear.unused q ht] at h
              cases h
  · rintro ⟨p, hp, rfl⟩
    cases hs : p.within source with
    | true =>
        rw [Path.relocated_of_within hs]
        exact clear.get?_rebase hp hs
    | false =>
        rw [Path.relocated_of_not_within hs, clear.get?_other hs (clear.not_within_target hp)]
        exact hp

/-- What stood below the source stands below the target, under the same names. -/
lemma Clear.get?_descend (clear : Clear paths source target) (names : List String) :
    (relocate source target paths).get? (target.descend names)
      = paths.get? (source.descend names) := by
  refine Option.ext fun id => ?_
  constructor
  · intro h
    rcases clear.get?_relocate_eq_some_iff.1 h with ⟨p, hp, he⟩
    cases hw : p.within source with
    | false =>
        rw [Path.relocated_of_not_within hw] at he
        rw [← he, clear.unused _ (Path.descend_within target names)] at hp
        cases hp
    | true =>
        rcases Path.within_iff.1 hw with ⟨names', rfl⟩
        rw [Path.relocated_of_within hw, Path.rebase_descend] at he
        rwa [Path.descend_injective he]
  · intro h
    rw [← Path.rebase_descend source target names]
    exact clear.get?_rebase h (Path.descend_within source names)

end Relocation

end FileTree

end AttributeViews
