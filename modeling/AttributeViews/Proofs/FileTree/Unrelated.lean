import AttributeViews.Proofs.FileTree.Moving

/-!
# Unrelated changes commute

A move or a deletion looks at the files at the paths that it names, at the directories above them
and at what stands directly below them.  It changes only what stands at or below these paths.  So
two of them do not notice each other if no path of one is at, above or below a path of the other.

* `Rearrangement` — a move or a deletion, with its answer and the tree after it.
* `FileTree.SameOutside` — two trees with the same files outside of some paths.
* **`Rearrangement.sameOutside_after`** — what a rearrangement leaves alone.
* **`FileTree.SameOutside.answer_eq`**, **`FileTree.SameOutside.get?_after`** — what it depends on.
* **`Session.unrelated_changes_commute`** — so the order of two unrelated ones does not matter.

The two can have the directory above their paths in common.  They do not delete it, as it is not
empty, nor is anything that they move a directory for the other one.
-/

namespace AttributeViews

/-- A file is moved, with all that is below it, or deleted. -/
inductive Rearrangement where
  | move (source target : Path)
  | delete (path : Path)

namespace Rearrangement

/-- The paths that are named. -/
def paths : Rearrangement → List Path
  | .move source target => [source, target]
  | .delete path => [path]

/-- The tree after a rearrangement, which is recorded. -/
def perform (t : FileTree) : Rearrangement → Logged FileTree
  | .move source target => t.moveRecorded source target
  | .delete path => t.deleteRecorded path

/-- Success or the error, and what is recorded. -/
def answer (t : FileTree) (x : Rearrangement) : Logged Unit :=
  ⟨(x.perform t).records, (x.perform t).result.map fun _ => ()⟩

/-- The tree afterwards; it is the old one after an error. -/
def after (t : FileTree) (x : Rearrangement) : FileTree := (x.perform t).result.toOption.getD t

/-- No path of the one is at, above or below a path of the other. -/
def Unrelated (x y : Rearrangement) : Prop :=
  ∀ p ∈ x.paths, ∀ q ∈ y.paths, p.within q = false ∧ q.within p = false

lemma Unrelated.symm {x y : Rearrangement} (h : x.Unrelated y) : y.Unrelated x :=
  fun q hq p hp => (h p hp q hq).symm

end Rearrangement

/-! ## Regions -/

namespace Path

variable {p q : Path} {bases : List Path}

/-- A path is neither one of some paths nor below one. -/
def Outside (bases : List Path) (p : Path) : Prop := ∀ base ∈ bases, p.within base = false

/-- Nor is it above one. -/
def Apart (bases : List Path) (p : Path) : Prop :=
  ∀ base ∈ bases, p.within base = false ∧ base.within p = false

lemma Apart.outside (h : Apart bases p) : Outside bases p := fun base hb => (h base hb).1

/-- What is below a path that is apart is outside. -/
lemma Apart.outside_of_within (h : Apart bases p) (hq : q.within p = true) : Outside bases q := by
  refine fun base hb => Bool.eq_false_iff.2 fun hw => ?_
  obtain ⟨hp, hbase⟩ := h base hb
  rcases within_or_within hq hw with hpw | hpw
  · rw [hp] at hpw
    cases hpw
  · rw [hbase] at hpw
    cases hpw

lemma Apart.outside_parent (h : Apart bases p) : Outside bases p.parent :=
  fun base hb => parent_not_within (h base hb).1

end Path

namespace FileTree

variable {t t' : FileTree} {bases : List Path} {p q : Path} {x y : Rearrangement}

/-- Outside of some paths two trees have the same files. -/
structure SameOutside (bases : List Path) (t t' : FileTree) : Prop where
  paths : ∀ p, Path.Outside bases p → t'.paths.get? p = t.paths.get? p
  nodes : ∀ p id, Path.Outside bases p → t.paths.get? p = some id →
    t'.nodes.get? id = t.nodes.get? id

namespace SameOutside

lemma refl (bases : List Path) (t : FileTree) : SameOutside bases t t :=
  ⟨fun _ _ => rfl, fun _ _ _ _ => rfl⟩

/-! ## What the conditions depend on -/

lemma contains_eq (same : SameOutside bases t t') (apart : Path.Apart bases p) :
    t'.contains p = t.contains p := by
  rw [contains, contains, Table.contains, Table.contains, same.paths p apart.outside]

lemma checkParent_eq (same : SameOutside bases t t') (apart : Path.Apart bases p) :
    t'.checkParent p = t.checkParent p := by
  rw [checkParent, checkParent, same.paths _ apart.outside_parent]
  cases hid : t.paths.get? p.parent with
  | none => rfl
  | some id =>
      dsimp only
      rw [same.nodes _ id apart.outside_parent hid]

lemma hasChildren_eq (same : SameOutside bases t t') (apart : Path.Apart bases p) :
    t'.hasChildren p = t.hasChildren p := by
  -- a child is below the path, so it is outside as well
  have hchild : ∀ q, q.parent = p → t'.paths.get? q = t.paths.get? q := by
    rintro q rfl
    exact same.paths q (apart.outside_of_within (Path.within_parent q))
  rw [Bool.eq_iff_iff, ← not_iff_not, Bool.not_eq_true, Bool.not_eq_true,
    hasChildren_eq_false_iff, hasChildren_eq_false_iff]
  constructor
  · intro none q id hq hne hparent
    exact none q id (by rw [hchild q hparent, hq]) hne hparent
  · intro none q id hq hne hparent
    exact none q id (by rw [← hchild q hparent, hq]) hne hparent

end SameOutside

end FileTree

namespace Rearrangement

variable {t t' : FileTree} {bases : List Path} {p : Path} {x y : Rearrangement}

/-! ## What a rearrangement leaves alone -/

@[simp] lemma result_perform_move (source target : Path) :
    (perform t (.move source target)).result = t.move source target :=
  FileTree.result_moveRecorded

@[simp] lemma result_perform_delete (path : Path) :
    (perform t (.delete path)).result = t.delete path := FileTree.result_deleteRecorded

lemma after_of_ok (h : (x.perform t).result = .ok t') : x.after t = t' := by
  rw [after, h]
  rfl

lemma after_of_error {e : Error} (h : (x.perform t).result = .error e) : x.after t = t := by
  rw [after, h]
  rfl

lemma sound_after (sound : t.Sound) (x : Rearrangement) : (x.after t).Sound := by
  cases h : (x.perform t).result with
  | error e => rwa [after_of_error h]
  | ok t' =>
      rw [after_of_ok h]
      cases x with
      | move source target => exact sound.move ((result_perform_move source target).symm.trans h)
      | delete path => exact sound.delete ((result_perform_delete path).symm.trans h)

/-- The identity of the file that is deleted, if one is. -/
def removed (t : FileTree) : Rearrangement → Option String
  | .move .. => none
  | .delete path => if (t.delete path).isOk then t.paths.get? path else none

/-- The nodes are those that were there but for the deleted one. -/
lemma nodes_after (t : FileTree) (x : Rearrangement) :
    (x.after t).nodes = (x.removed t).elim t.nodes t.nodes.erase := by
  cases x with
  | move source target =>
      cases h : t.move source target with
      | error e =>
          rw [after_of_error ((result_perform_move source target).trans h), removed, Option.elim_none]
      | ok t' =>
          rw [after_of_ok ((result_perform_move source target).trans h), removed, Option.elim_none]
          obtain ⟨-, rfl⟩ := FileTree.move_eq_ok_iff.1 h
          rfl
  | delete path =>
      cases h : t.delete path with
      | error e =>
          rw [after_of_error ((result_perform_delete path).trans h), removed, h]
          rfl
      | ok t' =>
          rw [after_of_ok ((result_perform_delete path).trans h), removed, h]
          obtain ⟨-, -, id, hid, rfl⟩ := FileTree.delete_eq_ok_iff.1 h
          rw [hid]
          rfl

lemma registry_after (t : FileTree) (x : Rearrangement) : (x.after t).registry = t.registry := by
  cases h : (x.perform t).result with
  | error e => rw [after_of_error h]
  | ok t' =>
      rw [after_of_ok h]
      cases x with
      | move source target =>
          obtain ⟨-, rfl⟩ :=
            FileTree.move_eq_ok_iff.1 ((result_perform_move source target).symm.trans h)
          rfl
      | delete path =>
          obtain ⟨-, -, id, -, rfl⟩ :=
            FileTree.delete_eq_ok_iff.1 ((result_perform_delete path).symm.trans h)
          rfl

/-- What is recorded after success. -/
lemma exists_record (x : Rearrangement) :
    ∃ record, ∀ t, (x.perform t).records = if (x.perform t).result.isOk then [record] else [] := by
  cases x with
  | move source target =>
      refine ⟨⟨.debug, "Moved " ++ source.toText ++ " to " ++ target.toText⟩, fun t => ?_⟩
      rw [result_perform_move, perform, FileTree.moveRecorded]
      cases t.move source target <;> rfl
  | delete path =>
      refine ⟨⟨.debug, "Deleted " ++ path.toText⟩, fun t => ?_⟩
      rw [result_perform_delete, perform, FileTree.deleteRecorded]
      cases t.delete path <;> rfl

/-- **Outside of its paths** a rearrangement changes nothing. -/
lemma sameOutside_after (sound : t.Sound) (x : Rearrangement) :
    FileTree.SameOutside x.paths t (x.after t) := by
  cases h : (x.perform t).result with
  | error e =>
      rw [after_of_error h]
      exact .refl _ t
  | ok t' =>
      rw [after_of_ok h]
      cases x with
      | move source target =>
          rw [result_perform_move] at h
          obtain ⟨movable, rfl⟩ := FileTree.move_eq_ok_iff.1 h
          refine ⟨fun p outside => ?_, fun _ _ _ _ => rfl⟩
          exact (sound.clear movable).get?_other (outside source (by simp [paths]))
            (outside target (by simp [paths]))
      | delete path =>
          rw [result_perform_delete] at h
          obtain ⟨-, -, id, hid, rfl⟩ := FileTree.delete_eq_ok_iff.1 h
          have hne : ∀ p, Path.Outside [path] p → path ≠ p := by
            rintro p outside rfl
            have hself := Path.descend_within path []
            rw [Path.descend_nil, outside path (by simp)] at hself
            cases hself
          refine ⟨fun p outside => ?_, fun p id' outside hp => ?_⟩
          · simp [hne p outside]
          · have hids : id ≠ id' := by
              rintro rfl
              exact hne p outside (sound.distinct hid hp)
            simp [hids]

end Rearrangement

namespace FileTree.SameOutside

variable {t t' : FileTree} {bases : List Path} {p : Path} {x : Rearrangement}

/-! ## What a rearrangement depends on -/

/-- Whether a rearrangement succeeds, and with which error it fails. -/
lemma map_result_eq (same : SameOutside bases t t')
    (apart : ∀ p ∈ x.paths, Path.Apart bases p) :
    (x.perform t').result.map (fun _ => ()) = (x.perform t).result.map fun _ => () := by
  cases x with
  | move source target =>
      have hsource := apart source (by simp [Rearrangement.paths])
      have htarget := apart target (by simp [Rearrangement.paths])
      have hcheck : t'.checkMove source target = t.checkMove source target := by
        simp only [checkMove, checkVacant, same.contains_eq hsource, same.contains_eq htarget,
          same.checkParent_eq htarget]
      simp only [Rearrangement.result_perform_move, move, hcheck]
      cases t.checkMove source target <;> rfl
  | delete path =>
      have hpath := apart path (by simp [Rearrangement.paths])
      simp only [Rearrangement.result_perform_delete, delete, same.hasChildren_eq hpath,
        same.paths path hpath.outside]
      by_cases hroot : path = .root
      · simp [hroot]
      · simp only [hroot, if_false]
        cases t.paths.get? path with
        | none => rfl
        | some id => cases t.hasChildren path <;> rfl

/-- A rearrangement fails on both trees, with the same error, or succeeds on both. -/
lemma result_cases (same : SameOutside bases t t') (apart : ∀ p ∈ x.paths, Path.Apart bases p) :
    (∃ e, (x.perform t).result = .error e ∧ (x.perform t').result = .error e) ∨
      ∃ tree tree', (x.perform t).result = .ok tree ∧ (x.perform t').result = .ok tree' := by
  have hresult := same.map_result_eq apart
  cases h : (x.perform t).result with
  | error e =>
      cases h' : (x.perform t').result with
      | error e' =>
          rw [h, h'] at hresult
          exact Or.inl ⟨e, rfl, congrArg Except.error (Except.error.inj hresult)⟩
      | ok tree' =>
          rw [h, h'] at hresult
          cases hresult
  | ok tree =>
      cases h' : (x.perform t').result with
      | error e' =>
          rw [h, h'] at hresult
          cases hresult
      | ok tree' => exact Or.inr ⟨tree, tree', rfl, rfl⟩

/-- **The answer** of a rearrangement is the same if nothing is changed around its paths. -/
lemma answer_eq (same : SameOutside bases t t') (apart : ∀ p ∈ x.paths, Path.Apart bases p) :
    x.answer t' = x.answer t := by
  obtain ⟨record, hrecords⟩ := x.exists_record
  simp only [Rearrangement.answer, hrecords]
  rcases same.result_cases apart with ⟨e, h, h'⟩ | ⟨tree, tree', h, h'⟩
  · rw [h, h']
  · rw [h, h']
    rfl

/-- **The path index** after a rearrangement is the same where it was and nothing else
was changed. -/
lemma get?_after (sound : t.Sound) (sound' : t'.Sound) (same : SameOutside bases t t')
    (apart : ∀ p ∈ x.paths, Path.Apart bases p) (outside : Path.Outside bases p) :
    (x.after t').paths.get? p = (x.after t).paths.get? p := by
  rcases same.result_cases apart with ⟨e, h, h'⟩ | ⟨tree, tree', h, h'⟩
  · rw [Rearrangement.after_of_error h, Rearrangement.after_of_error h', same.paths p outside]
  · rw [Rearrangement.after_of_ok h, Rearrangement.after_of_ok h']
    cases x with
    | move source target =>
        rw [Rearrangement.result_perform_move] at h h'
        obtain ⟨movable, rfl⟩ := move_eq_ok_iff.1 h
        obtain ⟨movable', rfl⟩ := move_eq_ok_iff.1 h'
        have hsource := apart source (by simp [Rearrangement.paths])
        have hfrom := same.paths _
          (hsource.outside_of_within (Path.rebase_within p target source))
        simp only [(sound.clear movable).get?_relocate, (sound'.clear movable').get?_relocate,
          hfrom, same.paths p outside]
    | delete path =>
        rw [Rearrangement.result_perform_delete] at h h'
        obtain ⟨-, -, id, -, rfl⟩ := delete_eq_ok_iff.1 h
        obtain ⟨-, -, id', -, rfl⟩ := delete_eq_ok_iff.1 h'
        simp only [Table.get?_erase, same.paths p outside]

/-- The identity that goes with a deletion is the same. -/
lemma removed_eq (same : SameOutside bases t t') (apart : ∀ p ∈ x.paths, Path.Apart bases p) :
    x.removed t' = x.removed t := by
  cases x with
  | move source target => rfl
  | delete path =>
      have hpath := apart path (by simp [Rearrangement.paths])
      have hsame := same.result_cases apart
      rw [Rearrangement.removed, Rearrangement.removed, same.paths path hpath.outside]
      simp only [Rearrangement.result_perform_delete] at hsame
      rcases hsame with ⟨e, h, h'⟩ | ⟨tree, tree', h, h'⟩
      · rw [h, h']
      · rw [h, h']
        rfl

end FileTree.SameOutside

namespace Rearrangement

variable {t : FileTree} {p : Path} {x y : Rearrangement}

/-! ## Two rearrangements -/

lemma Unrelated.apart (h : x.Unrelated y) : ∀ p ∈ x.paths, Path.Apart y.paths p :=
  fun p hp q hq => h p hp q hq

/-- What lies in the region of one lies outside that of the other. -/
lemma Unrelated.outside (h : x.Unrelated y) (hin : ¬ Path.Outside y.paths p) :
    Path.Outside x.paths p := by
  simp only [Path.Outside, not_forall, Bool.not_eq_false] at hin
  obtain ⟨q, hq, hw⟩ := hin
  exact (h.symm.apart q hq).outside_of_within hw

/-- The second one does not notice the first. -/
lemma Unrelated.answer_after (sound : t.Sound) (h : x.Unrelated y) :
    x.answer (y.after t) = x.answer t :=
  (sameOutside_after sound y).answer_eq h.apart

/-- Outside of the paths of one of them, only the other counts. -/
lemma Unrelated.get?_after_after (sound : t.Sound) (h : x.Unrelated y)
    (outside : Path.Outside y.paths p) :
    (x.after (y.after t)).paths.get? p = (y.after (x.after t)).paths.get? p := by
  rw [(sameOutside_after (sound_after sound x) y).paths p outside]
  exact (sameOutside_after sound y).get?_after sound (sound_after sound y) h.apart outside

lemma Unrelated.get?_comm (sound : t.Sound) (h : x.Unrelated y) (p : Path) :
    (x.after (y.after t)).paths.get? p = (y.after (x.after t)).paths.get? p := by
  by_cases outside : Path.Outside y.paths p
  · exact h.get?_after_after sound outside
  · exact (h.symm.get?_after_after sound (h.outside outside)).symm

lemma Unrelated.nodes_comm (sound : t.Sound) (h : x.Unrelated y) :
    (x.after (y.after t)).nodes = (y.after (x.after t)).nodes := by
  have hx := (sameOutside_after sound y).removed_eq h.apart
  have hy := (sameOutside_after sound x).removed_eq h.symm.apart
  rw [nodes_after, nodes_after, nodes_after, nodes_after, hx, hy]
  cases x.removed t with
  | none => rfl
  | some id =>
      cases y.removed t with
      | none => rfl
      | some id' => exact Table.erase_comm _ id' id

end Rearrangement

namespace Session

variable {s present : Session}

/-- **Unrelated changes commute.**  In a tree with any history, let each of two changes move or
delete files, and let no path of one be at, above or below a path of the other.  Whether it is made
before or after the other one, each of them succeeds with the same record or fails with the same
error; and whichever comes first, every path leads to the same identity in the end, and the nodes
are the same. -/
theorem unrelated_changes_commute {registry : Registry} {now : Moment} {supply : IdSupply}
    (distinct : supply.Distinct) (started : start registry now supply = .ok s)
    (history : List Operation) (reached : s.run history = present) (x y : Rearrangement)
    (unrelated : ∀ p ∈ x.paths, ∀ q ∈ y.paths, p.within q = false ∧ q.within p = false) :
    x.answer (y.after present.tree) = x.answer present.tree ∧
    y.answer (x.after present.tree) = y.answer present.tree ∧
    (∀ path, (x.after (y.after present.tree)).paths.get? path
      = (y.after (x.after present.tree)).paths.get? path) ∧
    (x.after (y.after present.tree)).nodes = (y.after (x.after present.tree)).nodes ∧
    (x.after (y.after present.tree)).registry = (y.after (x.after present.tree)).registry := by
  have sound : present.tree.Sound := by
    rw [← reached]
    exact (sound_run history (sound_start distinct started)).tree
  have h : x.Unrelated y := unrelated
  refine ⟨h.answer_after sound, h.symm.answer_after sound, h.get?_comm sound, h.nodes_comm sound, ?_⟩
  simp only [Rearrangement.registry_after]

/-- A directory is moved with the file in it, and a file that stood beside it is deleted.  In the
end the file that was moved along is found at its new place, and the other one is gone. -/
theorem unrelated_changes_commute_tally :
    ∃ s present, start ⟨[.basic], .empty⟩ default .tally = .ok s ∧
      s.run [.create default .directory "d" [] .empty, .create default .directory "d/a" [] .empty,
        .create default .file "d/a/x" [] .empty, .create default .file "d/b" [] .empty] = present ∧
      let x : Rearrangement := .move (.ofText "/d/a") (.ofText "/d/c")
      let y : Rearrangement := .delete (.ofText "/d/b")
      (∀ p ∈ x.paths, ∀ q ∈ y.paths, p.within q = false ∧ q.within p = false) ∧
      x.answer (y.after present.tree) = ⟨[⟨.debug, "Moved /d/a to /d/c"⟩], .ok ()⟩ ∧
      y.answer (x.after present.tree) = ⟨[⟨.debug, "Deleted /d/b"⟩], .ok ()⟩ ∧
      (x.after (y.after present.tree)).paths.get? (.ofText "/d/c/x") = some "|||" ∧
      (y.after (x.after present.tree)).paths.get? (.ofText "/d/c/x") = some "|||" ∧
      (x.after (y.after present.tree)).nodes = (y.after (x.after present.tree)).nodes := by
  have started : start ⟨[.basic], .empty⟩ default .tally = .ok _ := rfl
  have unrelated : ∀ p ∈ (Rearrangement.move (.ofText "/d/a") (.ofText "/d/c")).paths,
      ∀ q ∈ (Rearrangement.delete (.ofText "/d/b")).paths,
        p.within q = false ∧ q.within p = false := by
    decide
  obtain ⟨first, second, index, nodes, -⟩ := unrelated_changes_commute IdSupply.distinct_tally started
    [.create default .directory "d" [] .empty, .create default .directory "d/a" [] .empty,
      .create default .file "d/a/x" [] .empty, .create default .file "d/b" [] .empty] rfl _ _ unrelated
  exact ⟨_, _, started, rfl, unrelated, first.trans rfl, second.trans rfl, rfl,
    (index _).symm.trans rfl, nodes⟩

end Session

end AttributeViews
