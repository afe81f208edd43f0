import AttributeViews.Proofs.FileTree.Moving

/-!
# Moves in a row

Where a move takes a path is a function of the path alone, `Path.relocated`, so what two moves do to
the path index is what that function does twice.  This leaves the conditions of the moves, which are
asked of different trees: those of a move back, and those of a single move instead of two, have to
be found in the tree as it was before the first one.

* `FileTree.UnderRoot` — there is one root; **`Session.underRoot_run`** — in every tree with a
  history.
* **`FileTree.Clear.get?_relocate_relocate`** — the path index after two moves in a row.
* **`FileTree.Sound.movable_back`**, **`FileTree.Sound.movable_through`** — the conditions of the
  move back, and of the single move.
* **`Session.moves_compose`** — a move can be undone, and two of them can be done at once.

That there is one root is needed for the way back: the root of two slashes is its own parent, and
could not return to its place if it had ever been stored.
-/

namespace AttributeViews

namespace FileTree

variable {t t₁ : FileTree} {a b c : Path} {paths : Table Path String}

/-! ## There is one root -/

/-- Every stored path is the root or below it. -/
def UnderRoot (t : FileTree) : Prop :=
  ∀ path id, t.paths.get? path = some id → path.within .root = true

lemma UnderRoot.of_parent (h : t.UnderRoot) (parent : t.HasDirectory a.parent) :
    a.within .root = true := by
  obtain ⟨id, hid⟩ := parent.stored
  exact Path.within_trans (Path.within_parent a) (h _ id hid)

lemma UnderRoot.link {node : Node} (h : t.UnderRoot) (vacant : t.checkVacant a = .ok ()) :
    (t.link a node).UnderRoot := by
  intro path id hp
  rw [FileTree.link, Table.get?_insert] at hp
  split_ifs at hp with he
  · rw [← he]
    exact h.of_parent (checkVacant_eq_ok_iff.1 vacant).2
  · exact h path id hp

lemma UnderRoot.move (h : t.UnderRoot) (sound : t.Sound) (moved : t.move a b = .ok t₁) :
    t₁.UnderRoot := by
  obtain ⟨movable, rfl⟩ := move_eq_ok_iff.1 moved
  intro path id hpath
  obtain ⟨p, hp, rfl⟩ := (sound.clear movable).get?_relocate_eq_some_iff.1 hpath
  cases hw : p.within a with
  | false =>
      rw [Path.relocated_of_not_within hw]
      exact h p id hp
  | true =>
      rw [Path.relocated_of_within hw]
      exact Path.within_trans (Path.rebase_within p a b) (h.of_parent movable.parent)

lemma UnderRoot.delete (h : t.UnderRoot) (deleted : t.delete a = .ok t₁) : t₁.UnderRoot := by
  obtain ⟨-, -, id', -, rfl⟩ := delete_eq_ok_iff.1 deleted
  intro path id hp
  rw [Table.get?_erase] at hp
  split_ifs at hp
  exact h path id hp

lemma underRoot_ofRoot {registry : Registry} {now : Moment} {id : String}
    (made : (FileTree.ofRoot registry now id).result = .ok t) : t.UnderRoot := by
  intro path id' hp
  rw [((paths_ofRoot made).1 hp).1]
  exact Path.descend_within .root []

end FileTree

namespace Session

variable {first : Nat} {s s' present : Session} {operation : Operation}

lemma underRoot_step (h : s.tree.UnderRoot) (sound : s.Sound first) (step : s.Step operation s') :
    s'.tree.UnderRoot := by
  cases step with
  | idle => exact h
  | refused => exact h
  | created made =>
      obtain ⟨vacant, rfl, -⟩ := FileTree.create_eq_ok_iff.1 made
      exact h.link vacant
  | moved made => exact h.move sound.tree made
  | deleted made => exact h.delete made
  | rewritten => exact h

/-- **There is one root** after every history. -/
lemma underRoot_run (history : List Operation) :
    ∀ {s : Session}, s.Sound first → s.tree.UnderRoot → (s.run history).tree.UnderRoot := by
  induction history with
  | nil => exact fun _ h => h
  | cons operation rest ih =>
      intro s sound h
      have step := step_perform s operation
      exact ih (sound_step sound step) (underRoot_step h sound step)

lemma underRoot_start {registry : Registry} {now : Moment} {supply : IdSupply}
    (started : start registry now supply = .ok s) : s.tree.UnderRoot := by
  obtain ⟨tree, made, rfl⟩ := start_eq_ok_iff.1 started
  exact FileTree.underRoot_ofRoot made

end Session

namespace FileTree

variable {t t₁ : FileTree} {a b c q : Path} {paths : Table Path String} {id : String}

/-! ## The path index -/

/-- **The path index after two moves in a row** is the one after a single move. -/
lemma Clear.get?_relocate_relocate (first : Clear paths a b)
    (second : Clear (relocate a b paths) b c) :
    (relocate b c (relocate a b paths)).get? q = some id ↔
      ∃ p, paths.get? p = some id ∧ q = p.relocated a c := by
  rw [second.get?_relocate_eq_some_iff]
  constructor
  · rintro ⟨_, h, rfl⟩
    obtain ⟨p, hp, rfl⟩ := first.get?_relocate_eq_some_iff.1 h
    exact ⟨p, hp, Path.relocated_relocated (first.not_within_target hp)⟩
  · rintro ⟨p, hp, rfl⟩
    exact ⟨p.relocated a b, first.get?_relocate_eq_some_iff.2 ⟨p, hp, rfl⟩,
      (Path.relocated_relocated (first.not_within_target hp)).symm⟩

/-- The index after a move and the move back. -/
lemma Clear.get?_relocate_back (first : Clear paths a b)
    (second : Clear (relocate a b paths) b a) (q : Path) :
    (relocate b a (relocate a b paths)).get? q = paths.get? q := by
  refine Option.ext fun id => ?_
  rw [first.get?_relocate_relocate second]
  simp

/-- The index after two moves, and after the single one in their place. -/
lemma Clear.get?_relocate_through (first : Clear paths a b)
    (second : Clear (relocate a b paths) b c) (single : Clear paths a c) (q : Path) :
    (relocate a c paths).get? q = (relocate b c (relocate a b paths)).get? q := by
  refine Option.ext fun id => ?_
  rw [first.get?_relocate_relocate second, single.get?_relocate_eq_some_iff]

/-! ## The conditions -/

/-- Outside of source and target a move leaves files and directories in their places. -/
lemma Clear.hasDirectory_other_iff (clear : Clear t.paths a b) (ha : q.within a = false)
    (hb : q.within b = false) :
    HasDirectory { t with paths := relocate a b t.paths } q ↔ t.HasDirectory q := by
  simp only [HasDirectory, clear.get?_other ha hb]

/-- **A moved file can be moved back**: its old place is free, and the directory above it was
neither moved nor replaced. -/
lemma Sound.movable_back (sound : t.Sound) (underRoot : t.UnderRoot)
    (moved : t.move a b = .ok t₁) : t₁.Movable b a := by
  obtain ⟨movable, rfl⟩ := move_eq_ok_iff.1 moved
  have clear := sound.clear movable
  obtain ⟨id, hid⟩ := movable.stored
  have hparent : t.HasDirectory a.parent := sound.parents hid movable.ne_root
  obtain ⟨above, habove⟩ := hparent.stored
  refine ⟨⟨id, ?_⟩, ?_, clear.not_within_target hid, clear.get?_source ?_, ?_⟩
  · have hb := clear.get?_descend []
    rwa [Path.descend_nil, Path.descend_nil, hid] at hb
  · rintro rfl
    obtain ⟨rootId, hroot⟩ := sound.root.stored
    have hvacant := movable.vacant
    rw [hroot] at hvacant
    cases hvacant
  · simpa using Path.descend_within a []
  · refine (clear.hasDirectory_other_iff ?_ (clear.not_within_target habove)).2 hparent
    exact Path.parent_not_within_self (underRoot a id hid) movable.ne_root

/-- **Two moves can be done at once**: the second target was as free before the first move as
after it, for it is neither at nor below the places that this move changed. -/
lemma Sound.movable_through (sound : t.Sound) (moved : t.move a b = .ok t₁)
    (second : t₁.Movable b c) (hne : c ≠ a) : t.Movable a c := by
  obtain ⟨movable, rfl⟩ := move_eq_ok_iff.1 moved
  have clear := sound.clear movable
  have hb : c.parent.within b = false := Path.parent_not_within second.outside
  have ha : c.parent.within a = false := by
    -- nothing is left at or below the first source, and a directory stands above the target
    obtain ⟨id, hid⟩ := second.parent.stored
    refine Bool.eq_false_iff.2 fun hw => ?_
    rw [clear.get?_source hw] at hid
    cases hid
  have outside : c.within a = false := Bool.eq_false_iff.2 fun hw => by
    rw [Path.parent_within hw hne] at ha
    cases ha
  refine ⟨movable.stored, movable.ne_root, outside, ?_, ?_⟩
  · rw [← clear.get?_other outside second.outside]
    exact second.vacant
  · exact (clear.hasDirectory_other_iff ha hb).1 second.parent

end FileTree

namespace Session

variable {s present : Session}

/-- **Moves compose and invert.**  In a tree with any history, a file that has been moved can be
moved back, and then every path leads where it did before; and if it is moved on instead, to a place
other than its first one, then it could have been moved there at once, and every path leads where it
does after the two moves.  The nodes are never touched. -/
theorem moves_compose {registry : Registry} {now : Moment} {supply : IdSupply}
    (distinct : supply.Distinct) (started : start registry now supply = .ok s)
    (history : List Operation) (reached : s.run history = present) (a b : Path) (tree : FileTree)
    (moved : present.tree.move a b = .ok tree) :
    (∃ back, tree.move b a = .ok back ∧
      (∀ path, back.paths.get? path = present.tree.paths.get? path) ∧
        back.nodes = present.tree.nodes) ∧
    ∀ c further, tree.move b c = .ok further → c ≠ a →
      ∃ single, present.tree.move a c = .ok single ∧
        (∀ path, single.paths.get? path = further.paths.get? path) ∧
          single.nodes = further.nodes := by
  have begun := sound_start distinct started
  have sound : present.tree.Sound := by
    rw [← reached]
    exact (sound_run history begun).tree
  have underRoot : present.tree.UnderRoot := by
    rw [← reached]
    exact underRoot_run history begun (underRoot_start started)
  have sound₁ : tree.Sound := sound.move moved
  have movable_back : tree.Movable b a := sound.movable_back underRoot moved
  have movable_through : ∀ {c}, tree.Movable b c → c ≠ a → present.tree.Movable a c :=
    sound.movable_through moved
  obtain ⟨movable, rfl⟩ := FileTree.move_eq_ok_iff.1 moved
  have clear := sound.clear movable
  constructor
  · exact ⟨_, FileTree.move_eq_ok_iff.2 ⟨movable_back, rfl⟩,
      clear.get?_relocate_back (sound₁.clear movable_back), rfl⟩
  · intro c further hfurther hne
    obtain ⟨second, rfl⟩ := FileTree.move_eq_ok_iff.1 hfurther
    have movable_single := movable_through second hne
    exact ⟨_, FileTree.move_eq_ok_iff.2 ⟨movable_single, rfl⟩,
      clear.get?_relocate_through (sound₁.clear second) (sound.clear movable_single), rfl⟩

/-- A directory with a file in it goes into another directory and on to a place at the root.  It can
go back instead, and it could have gone there at once.  That this is another place than the first
one is needed: a file cannot be moved to where it is. -/
theorem moves_compose_tally :
    ∃ s present tree further, start ⟨[.basic], .empty⟩ default .tally = .ok s ∧
      s.run [.create default .directory "a" [] .empty, .create default .file "a/x" [] .empty,
        .create default .directory "c" [] .empty] = present ∧
      present.tree.move (.ofText "/a") (.ofText "/c/a") = .ok tree ∧
      tree.move (.ofText "/c/a") (.ofText "/d") = .ok further ∧
      (∃ back, tree.move (.ofText "/c/a") (.ofText "/a") = .ok back ∧
        back.paths.get? (.ofText "/a/x") = present.tree.paths.get? (.ofText "/a/x")) ∧
      (∃ single, present.tree.move (.ofText "/a") (.ofText "/d") = .ok single ∧
        single.paths.get? (.ofText "/d/x") = further.paths.get? (.ofText "/d/x")) ∧
      further.paths.get? (.ofText "/d/x") = some "||" ∧
      present.tree.move (.ofText "/a") (.ofText "/a") = .error (.moveIntoItself "/a") := by
  have started : start ⟨[.basic], .empty⟩ default .tally = .ok _ := rfl
  obtain ⟨⟨back, hback, hundone, -⟩, onward⟩ := moves_compose IdSupply.distinct_tally started
    [.create default .directory "a" [] .empty, .create default .file "a/x" [] .empty,
      .create default .directory "c" [] .empty] rfl (.ofText "/a") (.ofText "/c/a") _ rfl
  obtain ⟨single, hsingle, hsame, -⟩ := onward (.ofText "/d") _ rfl (by decide)
  exact ⟨_, _, _, _, started, rfl, rfl, rfl, ⟨back, hback, hundone _⟩, ⟨single, hsingle, hsame _⟩,
    rfl, rfl⟩

end Session

end AttributeViews
