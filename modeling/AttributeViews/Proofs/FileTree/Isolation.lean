import AttributeViews.Proofs.FileTree.Lookups

/-!
# Files are isolated from each other

A path leads to an identity, and an identity to a node.  Storing something on a file changes one
node, and no other path leads there; creating, moving and deleting change the way to the nodes, and
none of those that stay.

* `FileTree.TouchedAt` — one attribute set at a path, or one call of a view of the file there.
* `FileTree.ChangedAt` — two trees with the same files at the same paths, that differ in nothing but
  the file at one path.
* **`FileTree.Sound.changedAt_of_touches`** — touching a file any number of times changes no other
  file.
* **`FileTree.Sound.node_descend_of_move`** — a moved directory brings all nodes below it along.
* **`Session.files_isolated`** — what this comes to for trees with any history.
-/

namespace AttributeViews

namespace FileTree

variable {t t' t'' : FileTree} {path p q source target : Path} {id address : String}
  {node node' : Node}

/-! ## Touching a file -/

/-- An attribute of the file at a path is set, or a view of this file is called.  The view may have
been obtained at any time, and at the path where the file stood then. -/
inductive TouchedAt (path : Path) (t : FileTree) : FileTree → Prop
  | set (address : String) (value : Value) :
      TouchedAt path t ((t.setAttribute path address value).result.toOption.getD t)
  | called (earlier : FileTree) (there : Path) (view : String) (serial : Nat) (call : ViewCall)
      {file node : Node} {v : View FileTree} {operation : FileTree → Outcome FileTree ViewAnswer}
      (obtained : (earlier.getView there view serial).2 = .ok (some v))
      (stood : earlier.node there = .ok file) (stands : t.node path = .ok node)
      (same : node.id = file.id) (offered : v.call? call = some operation) :
      TouchedAt path t (operation t).1

/-- A view that is obtained at a path and called at once touches the file there. -/
lemma touchedAt_of_getView (view : String) (serial : Nat) (call : ViewCall) {v : View FileTree}
    {operation : FileTree → Outcome FileTree ViewAnswer}
    (obtained : (t.getView path view serial).2 = .ok (some v))
    (offered : v.call? call = some operation) : TouchedAt path t (operation t).1 := by
  cases stands : t.node path with
  | error e =>
      rw [getView, lookupAt, stands] at obtained
      cases obtained
  | ok node => exact .called t path view serial call obtained stands stands rfl offered

/-- Two trees have the same files at the same paths, and they differ in nothing but what is stored
on the file at one path. -/
structure ChangedAt (path : Path) (t t' : FileTree) : Prop where
  registry : t'.registry = t.registry
  paths : t'.paths = t.paths
  elsewhere : ∀ q, q ≠ path → t'.node q = t.node q

lemma ChangedAt.refl (path : Path) (t : FileTree) : ChangedAt path t t := ⟨rfl, rfl, fun _ _ => rfl⟩

lemma ChangedAt.trans (h : ChangedAt path t t') (h' : ChangedAt path t' t'') :
    ChangedAt path t t'' :=
  ⟨h'.registry.trans h.registry, h'.paths.trans h.paths,
    fun q hq => (h'.elsewhere q hq).trans (h.elsewhere q hq)⟩

lemma boundTo_of_getView {view : String} {serial : Nat} {v : View FileTree}
    (obtained : (t.getView path view serial).2 = .ok (some v)) (stood : t.node path = .ok node) :
    v.BoundTo (lookup node.id) := by
  rw [getView, lookupAt, stood] at obtained
  exact Registry.boundTo_of_getView obtained

/-- **What a touch does**: nothing, or it puts back the node that stands at the path, with other
values stored on it. -/
lemma Sound.touched_cases (h : t.Sound) (touched : TouchedAt path t t') :
    t' = t ∨
      ∃ node node', t.node path = .ok node ∧ Node.SameFile node node' ∧ t' = t.putNode node' := by
  cases touched with
  | set address value =>
      cases hs : (t.setAttribute path address value).result with
      | error e => exact Or.inl rfl
      | ok tree =>
          rcases setAttribute_eq_ok_iff.1 hs with ⟨node, found, node', hset, rfl⟩
          exact Or.inr ⟨node, node', found, (Registry.rewritten_of_set hset).sameFile, rfl⟩
  | @called _ _ _ _ _ _ node _ _ obtained stood stands same offered =>
      -- wherever the view comes from, it finds the node that stands at the path now
      have found : (lookup node.id).resolve t = .ok node := by
        rcases node_eq_ok_iff.1 stands with ⟨id, -, hn⟩
        obtain rfl := h.named hn
        exact nodeById_eq_ok_iff.2 hn
      rw [same] at found
      rcases (boundTo_of_getView obtained stood).call_of_ok offered found with he | ⟨node', hr, he⟩
      · exact Or.inl he
      · exact Or.inr ⟨node, node', stands, hr.sameFile, he⟩

/-- Storing something on the node at a path is not seen through any other path. -/
lemma Sound.changedAt_putNode (h : t.Sound) (found : t.node path = .ok node)
    (same : Node.SameFile node node') : ChangedAt path t (t.putNode node') := by
  rcases node_eq_ok_iff.1 found with ⟨id, hp, hn⟩
  refine ⟨rfl, rfl, fun q hq => ?_⟩
  have hpaths : (t.putNode node').paths = t.paths := rfl
  rw [FileTree.node, FileTree.node, hpaths]
  cases hid : t.paths.get? q with
  | none => rfl
  | some id' =>
      have hne : id ≠ id' := by
        rintro rfl
        exact hq (h.distinct hid hp)
      rw [Option.bind_some, Option.bind_some, h.get?_putNode hn same, if_neg hne]

/-- **One touch** of a file changes no other file. -/
lemma Sound.changedAt_of_touched (h : t.Sound) (touched : TouchedAt path t t') :
    t'.Sound ∧ ChangedAt path t t' := by
  rcases h.touched_cases touched with rfl | ⟨node, node', found, same, rfl⟩
  · exact ⟨h, .refl path t'⟩
  · rcases node_eq_ok_iff.1 found with ⟨id, -, hn⟩
    exact ⟨h.putNode hn same, h.changedAt_putNode found same⟩

/-- **Touching a file any number of times** changes no other file. -/
lemma Sound.changedAt_of_touches (h : t.Sound)
    (touches : Relation.ReflTransGen (TouchedAt path) t t') : t'.Sound ∧ ChangedAt path t t' := by
  induction touches with
  | refl => exact ⟨h, .refl path t⟩
  | tail _ touched ih =>
      obtain ⟨sound, changed⟩ := ih
      obtain ⟨sound', changed'⟩ := sound.changedAt_of_touched touched
      exact ⟨sound', changed.trans changed'⟩

/-! ## Reading -/

/-- What is read through a path depends on nothing but the node there. -/
lemma getAttribute_congr (registry : t'.registry = t.registry) (node : t'.node q = t.node p)
    (address : String) : t'.getAttribute q address = t.getAttribute p address := by
  rw [getAttribute, getAttribute, registry, node]

/-- **A moved directory brings all nodes below it along.** -/
lemma Sound.node_descend_of_move (h : t.Sound) (moved : t.move source target = .ok t')
    (names : List String) :
    t'.node (target.descend names) = .ok node ↔ t.node (source.descend names) = .ok node := by
  rcases move_eq_ok_iff.1 moved with ⟨movable, rfl⟩
  rw [node_eq_ok_iff, node_eq_ok_iff]
  dsimp only
  rw [(h.clear movable).get?_descend names]

end FileTree

namespace Session

variable {first : Nat} {s : Session} {id : String} {node node' : Node}

/-- **Creating, moving and deleting** change nothing about the files that stay. -/
lemma node_unchanged_of_structural (h : s.Sound first) {after : List Operation}
    (structural : ∀ operation ∈ after, operation.Structural)
    (before : s.tree.nodes.get? id = some node)
    (still : (s.run after).tree.nodes.get? id = some node') : node' = node := by
  by_cases deleted : s.DeletesDuring id after
  · -- nothing comes back under an identity that was deleted
    rw [(gone_of_deletesDuring after h deleted).absent] at still
    cases still
  · rcases kept_run after h before deleted with ⟨kept, hkept, -, heq⟩
    rw [hkept] at still
    rw [← Option.some.inj still, heq structural]

/-- **Files are isolated from each other and from changes of the tree around them.**  In a tree with
any history: setting attributes at one path and calling views of the file there, any number of
times, does not change what is read through another path; creating, moving and deleting does not
change a node that is there before and after it; and after a move everything that was found and read
below the source is found and read below the target. -/
theorem files_isolated {registry : Registry} {now : Moment} {supply : IdSupply} {present : Session}
    (distinct : supply.Distinct) (started : start registry now supply = .ok s)
    (history : List Operation) (reached : s.run history = present) :
    (∀ {p q : Path} {touched : FileTree}, p ≠ q →
      Relation.ReflTransGen (FileTree.TouchedAt p) present.tree touched →
        ∀ address, touched.getAttribute q address = present.tree.getAttribute q address) ∧
    (∀ {after : List Operation}, (∀ operation ∈ after, operation.Structural) →
      ∀ {id node node'}, present.tree.nodes.get? id = some node →
        (present.run after).tree.nodes.get? id = some node' → node' = node) ∧
    (∀ {source target : Path} {moved : FileTree}, present.tree.move source target = .ok moved →
      ∀ (names : List String) (node : Node),
        (moved.node (target.descend names) = .ok node ↔
          present.tree.node (source.descend names) = .ok node) ∧
        (present.tree.node (source.descend names) = .ok node →
          ∀ address, moved.getAttribute (target.descend names) address
            = present.tree.getAttribute (source.descend names) address)) := by
  have sound : present.Sound supply.issued := by
    rw [← reached]
    exact sound_run history (sound_start distinct started)
  refine ⟨?_, fun structural => node_unchanged_of_structural sound structural, ?_⟩
  · intro p q touched hne touches address
    obtain ⟨-, changed⟩ := sound.tree.changedAt_of_touches touches
    exact FileTree.getAttribute_congr changed.registry (changed.elsewhere q (Ne.symm hne)) address
  · intro source target moved hmove names node
    have hnode : moved.node (target.descend names) = .ok node ↔
        present.tree.node (source.descend names) = .ok node :=
      sound.tree.node_descend_of_move hmove names
    refine ⟨hnode, fun found address => ?_⟩
    have hregistry : moved.registry = present.tree.registry := by
      rcases FileTree.move_eq_ok_iff.1 hmove with ⟨-, rfl⟩
      rfl
    exact FileTree.getAttribute_congr hregistry ((hnode.2 found).trans found.symm) address

/-- A file is hidden by a view.  Another one does not notice, and when the directory with it is
moved it is found and read as before; when it is deleted and a new one created in its place, the
first file does not notice. -/
theorem files_isolated_tally :
    ∃ s present view hide moved node,
      start ⟨[.basic, .dos], .empty⟩ default .tally = .ok s ∧
      s.run [.create default .directory "d" [] .empty, .create default .file "d/x" [] .empty,
        .create default .file "y" [] .empty] = present ∧
      (present.tree.getView (.ofText "y") "dos" 0).2 = .ok (some view) ∧
      view.call? (.setFlag .hidden (.bool true)) = some hide ∧
      ((hide present.tree).1.getAttribute (.ofText "y") "hidden").result = .ok (.bool true) ∧
      (∀ address, (hide present.tree).1.getAttribute (.ofText "d/x") address
        = present.tree.getAttribute (.ofText "d/x") address) ∧
      present.tree.nodes.get? "|||" = some node ∧
      (present.run [.delete "d/x", .create default .file "d/x" [] .empty]).tree.nodes.get? "|||"
        = some node ∧
      present.tree.move (.ofText "d") (.ofText "e") = .ok moved ∧
      (moved.getAttribute (.ofText "e/x") "hidden").result = .ok (.bool false) ∧
      ∀ address, moved.getAttribute (.ofText "e/x") address
        = present.tree.getAttribute (.ofText "d/x") address := by
  have started : start ⟨[.basic, .dos], .empty⟩ default .tally = .ok _ := rfl
  obtain ⟨touching, staying, moving⟩ := files_isolated IdSupply.distinct_tally started
    [.create default .directory "d" [] .empty, .create default .file "d/x" [] .empty,
      .create default .file "y" [] .empty] rfl
  refine ⟨_, _, _, _, _, _, started, rfl, rfl, rfl, rfl, ?_, rfl, ?_, rfl, rfl, ?_⟩
  · refine touching (p := .ofText "y") (by decide) (.single ?_)
    exact FileTree.touchedAt_of_getView "dos" 0 (.setFlag .hidden (.bool true)) rfl rfl
  · have unchanged := @staying [.delete "d/x", .create default .file "d/x" [] .empty]
      (by simp [Operation.Structural]) "|||" _ _ rfl rfl
    exact congrArg some unchanged
  · exact (@moving (.ofText "d") (.ofText "e") _ rfl ["x"] _).2 rfl

end Session

end AttributeViews
