import AttributeViews.Proofs.FileTree.Soundness

/-!
# Moving a subtree

A move takes every stored path at or below the source out of the path index and enters it below the
target under the same names.  In a tree with any history this relocates exactly one subtree: nothing
else is taken out or overwritten, and the nodes are not touched.

* `FileTree.exists_move_iff` — when a move succeeds.
* **`FileTree.Clear.get?_relocate`** — the whole index after a move, as an equation.
* `FileTree.Sound.existsUnique_path` — every node has one path.
* **`Session.move_relocates_subtree`** — both together, along histories.
-/

namespace AttributeViews

lemma Path.within_eq_false_iff {p base : Path} :
    p.within base = false ↔ ∀ names, p ≠ base.descend names := by
  rw [← Bool.not_eq_true, Path.within_iff, not_exists]

namespace FileTree

variable {t t' : FileTree} {source target : Path} {paths : Table Path String}

lemma exists_move_iff : (∃ t', t.move source target = .ok t') ↔ t.Movable source target := by
  simp only [move_eq_ok_iff, exists_and_left, exists_eq, and_true]

/-- **The path index after a move.**  Below the target it is the old index below the source, at and
below the source it is empty, and elsewhere it is the old one. -/
lemma Clear.get?_relocate (clear : Clear paths source target) (q : Path) :
    (relocate source target paths).get? q
      = if q.within target then paths.get? (q.rebase target source)
        else if q.within source then none else paths.get? q := by
  split_ifs with ht hs
  · obtain ⟨names, rfl⟩ := Path.within_iff.1 ht
    rw [clear.get?_descend, Path.rebase_descend]
  · exact clear.get?_source hs
  · exact clear.get?_other (Bool.eq_false_iff.2 hs) (Bool.eq_false_iff.2 ht)

/-- In a sound tree every node has exactly one path. -/
lemma Sound.existsUnique_path (h : t.Sound) {id : String} {node : Node}
    (hn : t.nodes.get? id = some node) : ∃! path, t.paths.get? path = some id := by
  obtain ⟨path, hp⟩ := (h.indexed id).2 ⟨node, hn⟩
  exact ⟨path, hp, fun other ho => h.distinct ho hp⟩

end FileTree

namespace Session

variable {s present : Session}

/-- **A move relocates exactly one subtree.**  In a tree with any history it succeeds exactly if the
source is stored and not the root, the target is neither at nor below the source, nothing is stored
at the target, and a directory is stored above it.  Then what stood below the source stands below
the target under the same names, every other path leads where it did, and there are no paths beside
these.  The nodes are as they were, and each of them has one path. -/
theorem move_relocates_subtree {registry : Registry} {now : Moment} {supply : IdSupply}
    (distinct : supply.Distinct) (started : start registry now supply = .ok s)
    (history : List Operation) (reached : s.run history = present) (source target : Path) :
    ((∃ tree, present.tree.move source target = .ok tree) ↔
      (∃ id, present.tree.paths.get? source = some id) ∧ source ≠ .root ∧
        (∀ names, target ≠ source.descend names) ∧ present.tree.paths.get? target = none ∧
          present.tree.HasDirectory target.parent) ∧
    ∀ tree, present.tree.move source target = .ok tree →
      (∀ names, tree.paths.get? (target.descend names)
        = present.tree.paths.get? (source.descend names)) ∧
      (∀ path id, (∀ names, path ≠ source.descend names) →
        present.tree.paths.get? path = some id → tree.paths.get? path = some id) ∧
      (∀ path id, tree.paths.get? path = some id →
        (∃ names, path = target.descend names) ∨
          (∀ names, path ≠ source.descend names) ∧ present.tree.paths.get? path = some id) ∧
      (∀ names, tree.paths.get? (source.descend names) = none) ∧
      tree.nodes = present.tree.nodes ∧ tree.registry = present.tree.registry ∧
      ∀ id node, tree.nodes.get? id = some node → ∃! path, tree.paths.get? path = some id := by
  have sound : present.tree.Sound := by
    rw [← reached]
    exact (sound_run history (sound_start distinct started)).tree
  constructor
  · rw [FileTree.exists_move_iff]
    constructor
    · intro h
      exact ⟨h.stored, h.ne_root, Path.within_eq_false_iff.1 h.outside, h.vacant, h.parent⟩
    · rintro ⟨stored, ne_root, outside, vacant, parent⟩
      exact ⟨stored, ne_root, Path.within_eq_false_iff.2 outside, vacant, parent⟩
  · intro tree moved
    have kept : tree.Sound := sound.move moved
    obtain ⟨movable, rfl⟩ := FileTree.move_eq_ok_iff.1 moved
    have clear := sound.clear movable
    refine ⟨clear.get?_descend, fun path id outside hp => ?_, fun path id hp => ?_, fun names => ?_,
      rfl, rfl, fun id node hn => kept.existsUnique_path hn⟩
    · have hs := Path.within_eq_false_iff.2 outside
      rw [clear.get?_other hs (clear.not_within_target hp), hp]
    · dsimp only at hp
      rw [clear.get?_relocate] at hp
      split_ifs at hp with ht hs
      · exact Or.inl (Path.within_iff.1 ht)
      · exact Or.inr ⟨Path.within_eq_false_iff.1 (Bool.eq_false_iff.2 hs), hp⟩
    · exact clear.get?_source (Path.descend_within source names)

/-- A directory with two files, one of them in a directory of its own, is moved into another one.
What it holds comes along, and a file beside it stays; it cannot be moved below itself. -/
theorem move_relocates_subtree_tally :
    ∃ s present tree, start ⟨[.basic], .empty⟩ default .tally = .ok s ∧
      s.run [.create default .directory "a" [] .empty, .create default .directory "a/b" [] .empty,
        .create default .file "a/b/x" [] .empty, .create default .file "a/y" [] .empty,
        .create default .file "ab" [] .empty, .create default .directory "c" [] .empty] = present ∧
      present.tree.move (.ofText "/a") (.ofText "/c/a") = .ok tree ∧
      tree.paths.get? (.ofText "/c/a/b/x") = some "|||" ∧
      tree.paths.get? (.ofText "/ab") = some "|||||" ∧
      tree.paths.get? (.ofText "/a/b/x") = none ∧
      (∃! path, tree.paths.get? path = some "|||") ∧
      ¬ ∃ tree, present.tree.move (.ofText "/a") (.ofText "/a/b/a") = .ok tree := by
  have started : start ⟨[.basic], .empty⟩ default .tally = .ok _ := rfl
  have facts := move_relocates_subtree IdSupply.distinct_tally started
    [.create default .directory "a" [] .empty, .create default .directory "a/b" [] .empty,
      .create default .file "a/b/x" [] .empty, .create default .file "a/y" [] .empty,
      .create default .file "ab" [] .empty, .create default .directory "c" [] .empty] rfl
  obtain ⟨-, relocated⟩ := facts (.ofText "/a") (.ofText "/c/a")
  obtain ⟨below, stays, -, gone, -, -, unique⟩ := relocated _ rfl
  obtain ⟨possible, -⟩ := facts (.ofText "/a") (.ofText "/a/b/a")
  refine ⟨_, _, _, started, rfl, rfl, below ["b", "x"], ?_, gone ["b", "x"], unique "|||" _ rfl,
    fun moved => ?_⟩
  · exact stays (.ofText "/ab") _ (Path.within_eq_false_iff.1 (by decide)) rfl
  · exact (possible.1 moved).2.2.1 ["b", "a"] rfl

end Session

end AttributeViews
