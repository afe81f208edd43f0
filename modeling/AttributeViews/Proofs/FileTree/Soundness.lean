import AttributeViews.Proofs.FileTree.Steps
import AttributeViews.Provider.Standard
import Mathlib.Data.List.Induction

/-!
# The indexes of a file tree agree

A tree keeps its files in two indexes, and an operation may change either of them.  What keeps them
together is `FileTree.Sound`.  The conditions hold or fall together: a move would overwrite a file
if something could be stored below a free path, and a deletion would leave files without a parent if
something could be stored below a path without children; both are excluded by the last condition.

* `FileTree.Sound` — the conditions on one tree.
* `Session.Sound` — and on the supply that its identities came from.
* **`Session.sound_step`** — one operation keeps them.
* **`Session.tree_sound_of_run`** — so does every history, and a new tree has them.
-/

namespace AttributeViews

/-- The two indexes of a tree agree, and the stored paths form a tree of directories. -/
structure FileTree.Sound (t : FileTree) : Prop where
  /-- A directory is stored at the root. -/
  root : t.HasDirectory .root
  /-- Different paths lead to different identities. -/
  distinct : ∀ {p q id}, t.paths.get? p = some id → t.paths.get? q = some id → p = q
  /-- The identities that paths lead to are those that have a node. -/
  indexed : ∀ id, (∃ p, t.paths.get? p = some id) ↔ ∃ node, t.nodes.get? id = some node
  /-- A node is entered under its own identity. -/
  named : ∀ {id node}, t.nodes.get? id = some node → node.id = id
  /-- Above every stored path but the root a directory is stored. -/
  parents : ∀ {p id}, t.paths.get? p = some id → p ≠ .root → t.HasDirectory p.parent

namespace FileTree

variable {t t' : FileTree} {path base source target : Path} {id : String} {node node' : Node}

lemma HasDirectory.stored (h : t.HasDirectory path) : ∃ id, t.paths.get? path = some id := by
  obtain ⟨id, node, hp, -, -⟩ := h
  exact ⟨id, hp⟩

namespace Sound

/-- **Nothing is stored below a free path**: above what is stored there are only stored paths. -/
lemma stored_of_descend (h : t.Sound) (names : List String) :
    ∀ {id : String}, t.paths.get? (base.descend names) = some id →
      ∃ id', t.paths.get? base = some id' := by
  induction names using List.reverseRecOn with
  | nil => exact fun {id} hd => ⟨id, by rwa [Path.descend_nil] at hd⟩
  | append_singleton names name ih =>
      intro id hd
      rw [Path.descend_append] at hd
      have hdir := h.parents hd (Path.descend_ne_root _ name)
      rw [Path.parent_descend] at hdir
      rcases hdir.stored with ⟨id', hid'⟩
      exact ih hid'

lemma unused (h : t.Sound) (vacant : t.paths.get? base = none) {p : Path}
    (hw : p.within base = true) : t.paths.get? p = none := by
  rcases Path.within_iff.1 hw with ⟨names, rfl⟩
  cases hp : t.paths.get? (base.descend names) with
  | none => rfl
  | some id =>
      rcases h.stored_of_descend names hp with ⟨id', hid'⟩
      rw [vacant] at hid'
      cases hid'

/-- What a move asks for is enough for its loop. -/
lemma clear (h : t.Sound) (movable : t.Movable source target) : Clear t.paths source target :=
  ⟨movable.stored, movable.outside, fun _ => h.unused movable.vacant⟩

/-- An identity without a node has no path either. -/
lemma paths_ne (h : t.Sound) (fresh : t.nodes.get? id = none) (p : Path) :
    t.paths.get? p ≠ some id := by
  intro hp
  rcases (h.indexed id).1 ⟨p, hp⟩ with ⟨node, hn⟩
  rw [fresh] at hn
  cases hn

/-! ## Creating -/

lemma hasDirectory_link (vacant : t.paths.get? path = none) (fresh : t.nodes.get? node.id = none)
    {p : Path} (hd : t.HasDirectory p) : (t.link path node).HasDirectory p := by
  obtain ⟨id, parent, hp, hn, hk⟩ := hd
  have hpath : path ≠ p := by
    rintro rfl
    rw [vacant] at hp
    cases hp
  have hid : node.id ≠ id := by
    rintro rfl
    rw [fresh] at hn
    cases hn
  exact ⟨id, parent, by simp [link, hpath, hp], by simp [link, hid, hn], hk⟩

/-- A new file below a directory, under an identity that has not been used. -/
lemma link (h : t.Sound) (vacant : t.checkVacant path = .ok ())
    (fresh : t.nodes.get? node.id = none) : (t.link path node).Sound := by
  rcases checkVacant_eq_ok_iff.1 vacant with ⟨hpath, hparent⟩
  have hget : ∀ p, (t.link path node).paths.get? p
      = if path = p then some node.id else t.paths.get? p := fun p => Table.get?_insert ..
  have hnode : ∀ id, (t.link path node).nodes.get? id
      = if node.id = id then some node else t.nodes.get? id := fun id => Table.get?_insert ..
  refine ⟨hasDirectory_link hpath fresh h.root, ?_, ?_, ?_, ?_⟩
  · intro p q id hp hq
    rw [hget] at hp hq
    split_ifs at hp hq with hpp hpq hpq
    · rw [← hpp, hpq]
    · rw [← Option.some.inj hp] at hq
      exact absurd hq (h.paths_ne fresh q)
    · rw [← Option.some.inj hq] at hp
      exact absurd hp (h.paths_ne fresh p)
    · exact h.distinct hp hq
  · intro id
    simp only [hget, hnode]
    by_cases hid : node.id = id
    · exact ⟨fun _ => ⟨node, if_pos hid⟩, fun _ => ⟨path, by rw [if_pos rfl, hid]⟩⟩
    · simp only [hid, if_false]
      rw [← h.indexed id]
      refine exists_congr fun p => ?_
      split_ifs with hpp
      · rw [← hpp, hpath]
        simp [hid]
      · exact Iff.rfl
  · intro id node' hn
    rw [hnode] at hn
    split_ifs at hn with hid
    · rw [← Option.some.inj hn, hid]
    · exact h.named hn
  · intro p id hp hr
    rw [hget] at hp
    split_ifs at hp with hpp
    · rw [← hpp]
      exact hasDirectory_link hpath fresh hparent
    · exact hasDirectory_link hpath fresh (h.parents hp hr)

/-! ## Moving -/

lemma hasDirectory_relocate (clear : Clear t.paths source target) {p : Path}
    (hd : t.HasDirectory p) :
    HasDirectory { t with paths := relocate source target t.paths }
      (p.relocated source target) := by
  obtain ⟨id, node, hp, hn, hk⟩ := hd
  exact ⟨id, node, clear.get?_relocate_eq_some_iff.2 ⟨p, hp, rfl⟩, hn, hk⟩

/-- Every path goes where the move takes it, and its parent goes with it. -/
lemma move (h : t.Sound) (moved : t.move source target = .ok t') : t'.Sound := by
  rcases move_eq_ok_iff.1 moved with ⟨movable, rfl⟩
  have hclear := h.clear movable
  have hget := @Clear.get?_relocate_eq_some_iff source target t.paths
  refine ⟨?_, ?_, ?_, h.named, ?_⟩
  · have hroot : Path.within .root source = false :=
      Bool.eq_false_iff.2 fun hw => movable.ne_root (Path.eq_root_of_root_within hw)
    have hd := hasDirectory_relocate hclear h.root
    rwa [Path.relocated_of_not_within hroot] at hd
  · intro q₁ q₂ id h₁ h₂
    rcases (hget hclear).1 h₁ with ⟨p₁, hp₁, rfl⟩
    rcases (hget hclear).1 h₂ with ⟨p₂, hp₂, rfl⟩
    rw [h.distinct hp₁ hp₂]
  · intro id
    rw [← h.indexed id]
    constructor
    · rintro ⟨q, hq⟩
      rcases (hget hclear).1 hq with ⟨p, hp, -⟩
      exact ⟨p, hp⟩
    · rintro ⟨p, hp⟩
      exact ⟨_, (hget hclear).2 ⟨p, hp, rfl⟩⟩
  · intro q id hq hr
    rcases (hget hclear).1 hq with ⟨p, hp, rfl⟩
    cases hw : p.within source with
    | false =>
        rw [Path.relocated_of_not_within hw] at hr ⊢
        have hd := hasDirectory_relocate hclear (h.parents hp hr)
        rwa [Path.relocated_of_not_within (Path.parent_not_within hw)] at hd
    | true =>
        rw [Path.relocated_of_within hw]
        by_cases hs : p = source
        · -- the moved file itself comes below the parent of the target
          rw [hs, Path.rebase_self]
          have hd := hasDirectory_relocate hclear movable.parent
          rwa [Path.relocated_of_not_within (Path.parent_not_within movable.outside)] at hd
        · have hne : p ≠ .root := by
            rintro rfl
            exact hs (Path.eq_root_of_root_within hw).symm
          have hd := hasDirectory_relocate hclear (h.parents hp hne)
          rwa [Path.relocated_of_within (Path.parent_within hw hs),
            ← Path.parent_rebase hw hs] at hd

/-! ## Deleting -/

/-- A path without children goes with its node, and every other path keeps its parent. -/
lemma delete (h : t.Sound) (deleted : t.delete path = .ok t') : t'.Sound := by
  rcases delete_eq_ok_iff.1 deleted with ⟨hroot, hchildren, id, hid, rfl⟩
  have hchildren := hasChildren_eq_false_iff.1 hchildren
  have hget : ∀ p, (t.paths.erase path).get? p
      = if path = p then none else t.paths.get? p := fun p => Table.get?_erase ..
  have hnode : ∀ id', (t.nodes.erase id).get? id'
      = if id = id' then none else t.nodes.get? id' := fun id' => Table.get?_erase ..
  have hkeep : ∀ {p : Path}, p ≠ path → t.HasDirectory p →
      HasDirectory { t with paths := t.paths.erase path, nodes := t.nodes.erase id } p := by
    rintro p hne ⟨id', node, hp, hn, hk⟩
    have hid' : id ≠ id' := by
      rintro rfl
      exact hne (h.distinct hp hid)
    exact ⟨id', node, by rw [hget, if_neg (Ne.symm hne), hp], by rw [hnode, if_neg hid', hn], hk⟩
  refine ⟨hkeep (Ne.symm hroot) h.root, ?_, ?_, ?_, ?_⟩
  · intro p q id' hp hq
    rw [hget] at hp hq
    split_ifs at hp hq
    exact h.distinct hp hq
  · intro id'
    simp only [hget, hnode]
    split_ifs with he
    · constructor
      · rintro ⟨p, hp⟩
        split_ifs at hp with hpp
        rw [← he] at hp
        exact absurd (h.distinct hid hp) hpp
      · rintro ⟨node, hn⟩
        cases hn
    · rw [← h.indexed id']
      refine exists_congr fun p => ?_
      split_ifs with hpp
      · rw [← hpp, hid]
        simp [he]
      · exact Iff.rfl
  · intro id' node hn
    rw [hnode] at hn
    split_ifs at hn
    exact h.named hn
  · intro p id' hp hr
    rw [hget] at hp
    split_ifs at hp
    exact hkeep (hchildren p id' hp hr) (h.parents hp hr)

/-! ## Changing a node -/

lemma get?_putNode (h : t.Sound) (found : t.nodes.get? id = some node)
    (same : Node.SameFile node node') (id' : String) :
    (t.putNode node').nodes.get? id' = if id = id' then some node' else t.nodes.get? id' := by
  rw [putNode, Table.get?_insert, same.id, h.named found]

/-- Storing values on a node touches neither its identity nor its kind. -/
lemma putNode (h : t.Sound) (found : t.nodes.get? id = some node)
    (same : Node.SameFile node node') : (t.putNode node').Sound := by
  have hnode := h.get?_putNode found same
  have hkeep : ∀ {p : Path}, t.HasDirectory p → (t.putNode node').HasDirectory p := by
    rintro p ⟨id', parent, hp, hn, hk⟩
    by_cases hid : id = id'
    · subst hid
      rw [found] at hn
      refine ⟨id, node', hp, by rw [hnode, if_pos rfl], ?_⟩
      rw [same.kind, Option.some.inj hn, hk]
    · exact ⟨id', parent, hp, by rw [hnode, if_neg hid, hn], hk⟩
  refine ⟨hkeep h.root, h.distinct, ?_, ?_, fun hp hr => hkeep (h.parents hp hr)⟩
  · intro id'
    rw [hnode]
    refine (h.indexed id').trans ?_
    split_ifs with hid
    · subst hid
      exact ⟨fun _ => ⟨node', rfl⟩, fun _ => ⟨node, found⟩⟩
    · exact Iff.rfl
  · intro id' other hn
    rw [hnode] at hn
    split_ifs at hn with hid
    · rw [← Option.some.inj hn, same.id, h.named found, hid]
    · exact h.named hn

/-! ## A new tree -/

lemma ofRoot {registry : Registry} {now : Moment}
    (made : (FileTree.ofRoot registry now id).result = .ok t) : t.Sound := by
  rcases ofRoot_eq_ok_iff.1 made with ⟨root, hroot, -⟩
  have hsame := Registry.sameFile_of_seed hroot
  refine ⟨⟨id, root, (paths_ofRoot made).2 ⟨rfl, rfl⟩, (nodes_ofRoot made).2 ⟨rfl, hroot⟩,
    hsame.kind⟩, ?_, ?_, ?_, ?_⟩
  · intro p q id' hp hq
    rw [((paths_ofRoot made).1 hp).1, ((paths_ofRoot made).1 hq).1]
  · intro id'
    simp [paths_ofRoot made, nodes_ofRoot made, hroot]
  · intro id' node hn
    rcases (nodes_ofRoot made).1 hn with ⟨rfl, hs⟩
    exact (Registry.sameFile_of_seed hs).id
  · intro p id' hp hne
    exact absurd ((paths_ofRoot made).1 hp).1 hne

end Sound

end FileTree

/-! ## Histories -/

/-- The identities that a supply has still to give out differ from each other. -/
def IdSupply.Distinct (supply : IdSupply) : Prop :=
  ∀ i j, supply.issued ≤ i → supply.issued ≤ j → supply.name i = supply.name j → i = j

/-- The supply that counts in strokes. -/
def IdSupply.tally : IdSupply := ⟨fun n => String.ofList (List.replicate n '|'), 0⟩

lemma IdSupply.distinct_tally : tally.Distinct := by
  intro i j _ _ he
  simpa [tally] using congrArg String.length he

/-- An identity has been given out, after the first ones. -/
def IdSupply.Issued (supply : IdSupply) (first : Nat) (id : String) : Prop :=
  ∃ k, first ≤ k ∧ k < supply.issued ∧ supply.name k = id

lemma IdSupply.Issued.advance {supply : IdSupply} {first : Nat} {id : String}
    (h : supply.Issued first id) : supply.advance.Issued first id := by
  obtain ⟨k, hf, hk, he⟩ := h
  exact ⟨k, hf, Nat.lt_succ_of_lt hk, he⟩

namespace Session

/-- The tree of a session is sound, and its identities have been given out by a supply that does
not repeat itself; `first` is how many had been given out before the session began. -/
structure Sound (first : Nat) (s : Session) : Prop where
  tree : s.tree.Sound
  issued : ∀ {id node}, s.tree.nodes.get? id = some node → s.supply.Issued first id
  begun : first ≤ s.supply.issued
  distinct : ∀ i j, first ≤ i → first ≤ j → s.supply.name i = s.supply.name j → i = j

variable {first : Nat} {s s' : Session} {operation : Operation} {id : String}

/-- The next identity is none of those that have been given out. -/
lemma Sound.next_ne (h : s.Sound first) (issued : s.supply.Issued first id) :
    s.supply.next ≠ id := by
  rintro rfl
  obtain ⟨k, hf, hk, he⟩ := issued
  have := h.distinct k s.supply.issued hf h.begun he
  omega

lemma Sound.next_fresh (h : s.Sound first) : s.tree.nodes.get? s.supply.next = none := by
  cases hn : s.tree.nodes.get? s.supply.next with
  | none => rfl
  | some node => exact absurd rfl (h.next_ne (h.issued hn))

/-- **One operation** keeps a session sound. -/
lemma sound_step (h : s.Sound first) (step : s.Step operation s') : s'.Sound first := by
  cases step with
  | idle => exact h
  | refused =>
      exact ⟨h.tree, fun hn => (h.issued hn).advance, Nat.le_succ_of_le h.begun, h.distinct⟩
  | created made =>
      rename_i tree node
      rcases FileTree.create_eq_ok_iff.1 made with ⟨vacant, rfl, -⟩
      have hid : node.id = s.supply.next := (FileTree.sameFile_of_create made).id
      have hfresh : s.tree.nodes.get? node.id = none := by rw [hid, h.next_fresh]
      refine ⟨h.tree.link vacant hfresh, ?_, Nat.le_succ_of_le h.begun, h.distinct⟩
      intro id' node' hn
      rw [FileTree.link, Table.get?_insert] at hn
      split_ifs at hn with he
      · exact ⟨s.supply.issued, h.begun, Nat.lt_succ_self _, by rw [← he, hid]; rfl⟩
      · exact (h.issued hn).advance
  | moved made =>
      rcases FileTree.move_eq_ok_iff.1 made with ⟨-, rfl⟩
      exact ⟨h.tree.move made, h.issued, h.begun, h.distinct⟩
  | deleted made =>
      rcases FileTree.delete_eq_ok_iff.1 made with ⟨-, -, id', -, rfl⟩
      refine ⟨h.tree.delete made, ?_, h.begun, h.distinct⟩
      intro id'' node hn
      rw [Table.get?_erase] at hn
      split_ifs at hn
      exact h.issued hn
  | rewritten _ found stored =>
      have hsame := stored.sameFile
      refine ⟨h.tree.putNode found hsame, ?_, h.begun, h.distinct⟩
      intro id' node hn
      rw [h.tree.get?_putNode found hsame] at hn
      split_ifs at hn with he
      · exact he ▸ h.issued found
      · exact h.issued hn

lemma sound_run (history : List Operation) :
    ∀ {s : Session}, s.Sound first → (s.run history).Sound first := by
  induction history with
  | nil => exact fun h => h
  | cons operation rest ih => exact fun h => ih (sound_step h (step_perform _ operation))

lemma start_eq_ok_iff {registry : Registry} {now : Moment} {supply : IdSupply} :
    start registry now supply = .ok s ↔
      ∃ tree, (FileTree.ofRoot registry now supply.next).result = .ok tree ∧
        s = ⟨tree, supply.advance⟩ := by
  rw [← map_eq_ok_iff]
  rfl

/-- A new session is sound. -/
lemma sound_start {registry : Registry} {now : Moment} {supply : IdSupply}
    (distinct : supply.Distinct) (started : start registry now supply = .ok s) :
    s.Sound supply.issued := by
  rcases start_eq_ok_iff.1 started with ⟨tree, made, rfl⟩
  refine ⟨FileTree.Sound.ofRoot made, ?_, Nat.le_succ _, distinct⟩
  intro id node hn
  rcases (FileTree.nodes_ofRoot made).1 hn with ⟨rfl, -⟩
  exact ⟨supply.issued, Nat.le_refl _, Nat.lt_succ_self _, rfl⟩

/-- **Every history of a new tree keeps its indexes together**, whatever operations it is made of
and whether they succeed or fail, as long as no identity is given out twice. -/
theorem tree_sound_of_run {registry : Registry} {now : Moment} {supply : IdSupply}
    (distinct : supply.Distinct) (started : start registry now supply = .ok s)
    (history : List Operation) : (s.run history).tree.Sound :=
  (sound_run history (sound_start distinct started)).tree

/-- Two moves to places that have no parent fail, a third one takes a directory with the file in it,
and deleting the directory fails then. -/
theorem tree_sound_of_run_tally :
    ∃ s, start ⟨Provider.catalog, .empty⟩ default .tally = .ok s ∧
      let after := (s.run [.create default .directory "a" [] .empty,
        .create default .file "a/x" [] .empty, .move "/a" "//b", .move "/a" "/b/../b",
        .move "a" "b", .delete "b"]).tree
      after.paths.keys = [.ofText "/", .ofText "/b", .ofText "/b/x"] ∧ after.Sound := by
  have started : start ⟨Provider.catalog, .empty⟩ default .tally = .ok _ := rfl
  exact ⟨_, started, by decide +kernel, tree_sound_of_run IdSupply.distinct_tally started _⟩

end Session

end AttributeViews
