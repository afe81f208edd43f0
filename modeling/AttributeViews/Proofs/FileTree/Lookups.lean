import AttributeViews.Proofs.FileTree.Soundness

/-!
# Lookups follow their files

A lookup of a tree is bound to an identity.  Moves do not change identities and no identity is given
out twice, so the lookup finds the file that it was made for until that is deleted, and nothing at
all from then on.

* `Session.Deletes`, `Session.DeletesDuring` — an operation, or one of a history, deletes the file
  of an identity.
* `Session.Gone` — an identity that has been given out and has no file any more.
* **`Session.kept_run`**, **`Session.gone_run`** — the two halves, for a whole history.
* **`Session.lookup_follows_file`** — what a lookup and the views on it do.
-/

namespace AttributeViews

namespace Session

variable {first : Nat} {s s' : Session} {operation : Operation} {id : String} {node : Node}

/-- An operation deletes the file of an identity. -/
def Deletes (s : Session) (id : String) : Operation → Prop
  | .delete path =>
      s.tree.paths.get? (.ofText path) = some id ∧
        ∃ rest, s.tree.delete (.ofText path) = .ok rest
  | .create .. | .move .. | .setAttribute .. | .onNode .. | .onView .. => False

/-- One of the operations of a history deletes the file of an identity. -/
def DeletesDuring (s : Session) (id : String) : List Operation → Prop
  | [] => False
  | operation :: rest => s.Deletes id operation ∨ (s.perform operation).DeletesDuring id rest

/-- An identity has been given out, and there is no file of it. -/
structure Gone (first : Nat) (id : String) (s : Session) : Prop where
  absent : s.tree.nodes.get? id = none
  issued : s.supply.Issued first id

/-! ## One operation -/

/-- A file that is not deleted stays, and only what is stored on it may change. -/
lemma kept_step (h : s.Sound first) (step : s.Step operation s')
    (found : s.tree.nodes.get? id = some node) (kept : ¬ s.Deletes id operation) :
    ∃ node', s'.tree.nodes.get? id = some node' ∧ Node.SameFile node node' ∧
      (operation.Structural → node' = node) := by
  have hsame : ∃ node', s.tree.nodes.get? id = some node' ∧ Node.SameFile node node' ∧
      (operation.Structural → node' = node) := ⟨node, found, .refl node, fun _ => rfl⟩
  cases step with
  | idle => exact hsame
  | refused => exact hsame
  | created made =>
      rename_i tree new
      rcases FileTree.create_eq_ok_iff.1 made with ⟨-, rfl, -⟩
      have hid : new.id = s.supply.next := (FileTree.sameFile_of_create made).id
      have hne : new.id ≠ id := by
        rw [hid]
        exact h.next_ne (h.issued found)
      refine ⟨node, ?_, .refl node, fun _ => rfl⟩
      rw [FileTree.link, Table.get?_insert, if_neg hne, found]
  | moved made =>
      rcases FileTree.move_eq_ok_iff.1 made with ⟨-, rfl⟩
      exact hsame
  | deleted made =>
      have hmade := made
      rcases FileTree.delete_eq_ok_iff.1 hmade with ⟨-, -, id', hid', rfl⟩
      have hne : id' ≠ id := by
        rintro rfl
        exact kept ⟨hid', _, made⟩
      refine ⟨node, ?_, .refl node, fun _ => rfl⟩
      rw [Table.get?_erase, if_neg hne, found]
  | rewritten storing hfound stored =>
      rename_i id' other other'
      dsimp only
      rw [h.tree.get?_putNode hfound stored.sameFile]
      split_ifs with he
      · subst he
        rw [found] at hfound
        cases hfound
        exact ⟨other', rfl, stored.sameFile, fun hs => absurd hs storing⟩
      · exact ⟨node, found, .refl node, fun _ => rfl⟩

/-- A deleted file is gone. -/
lemma gone_of_deletes (h : s.Sound first) (deleted : s.Deletes id operation) :
    Gone first id (s.perform operation) := by
  cases operation with
  | delete path =>
      obtain ⟨hid, rest, made⟩ := deleted
      rcases (h.tree.indexed id).1 ⟨_, hid⟩ with ⟨node, hn⟩
      have hafter : s.perform (.delete path) = { s with tree := rest } := by
        rw [perform, FileTree.result_deleteRecorded, made]
        rfl
      rcases FileTree.delete_eq_ok_iff.1 made with ⟨-, -, id', hid', rfl⟩
      rw [hid] at hid'
      cases hid'
      rw [hafter]
      refine ⟨?_, h.issued hn⟩
      rw [Table.get?_erase, if_pos rfl]
  | _ => exact deleted.elim

/-- What is gone does not come back: its identity is not given out again. -/
lemma gone_step (h : s.Sound first) (step : s.Step operation s') (gone : Gone first id s) :
    Gone first id s' := by
  cases step with
  | idle => exact gone
  | refused => exact ⟨gone.absent, gone.issued.advance⟩
  | created made =>
      rename_i tree new
      rcases FileTree.create_eq_ok_iff.1 made with ⟨-, rfl, -⟩
      have hid : new.id = s.supply.next := (FileTree.sameFile_of_create made).id
      refine ⟨?_, gone.issued.advance⟩
      rw [FileTree.link, Table.get?_insert, hid, if_neg (h.next_ne gone.issued), gone.absent]
  | moved made =>
      rcases FileTree.move_eq_ok_iff.1 made with ⟨-, rfl⟩
      exact ⟨gone.absent, gone.issued⟩
  | deleted made =>
      rcases FileTree.delete_eq_ok_iff.1 made with ⟨-, -, id', -, rfl⟩
      refine ⟨?_, gone.issued⟩
      rw [Table.get?_erase, gone.absent, ite_self]
  | rewritten storing found stored =>
      rename_i id' other other'
      refine ⟨?_, gone.issued⟩
      dsimp only
      rw [h.tree.get?_putNode found stored.sameFile, gone.absent]
      refine if_neg ?_
      rintro rfl
      rw [gone.absent] at found
      cases found

/-! ## Histories -/

/-- A file that no operation deletes is there in the end, and unless something was stored on it, it
is as it was. -/
lemma kept_run (history : List Operation) :
    ∀ {s : Session} {node : Node}, s.Sound first → s.tree.nodes.get? id = some node →
      ¬ s.DeletesDuring id history →
      ∃ node', (s.run history).tree.nodes.get? id = some node' ∧ Node.SameFile node node' ∧
        ((∀ operation ∈ history, operation.Structural) → node' = node) := by
  induction history with
  | nil => exact fun _ found _ => ⟨_, found, .refl _, fun _ => rfl⟩
  | cons operation rest ih =>
      intro s node h found kept
      have hstep := step_perform s operation
      obtain ⟨next, hnext, hsame, heq⟩ :=
        kept_step h hstep found fun hd => kept (Or.inl hd)
      obtain ⟨last, hlast, hsame', heq'⟩ :=
        ih (sound_step h hstep) hnext fun hd => kept (Or.inr hd)
      refine ⟨last, hlast, hsame.trans hsame', fun hs => ?_⟩
      rw [heq' fun o ho => hs o (List.mem_cons_of_mem _ ho), heq (hs _ List.mem_cons_self)]

lemma gone_run (history : List Operation) :
    ∀ {s : Session}, s.Sound first → Gone first id s → Gone first id (s.run history) := by
  induction history with
  | nil => exact fun _ gone => gone
  | cons operation rest ih =>
      intro s h gone
      have hstep := step_perform s operation
      exact ih (sound_step h hstep) (gone_step h hstep gone)

/-- A file that is deleted at some time is gone in the end. -/
lemma gone_of_deletesDuring (history : List Operation) :
    ∀ {s : Session}, s.Sound first → s.DeletesDuring id history →
      Gone first id (s.run history) := by
  induction history with
  | nil => exact fun _ deleted => deleted.elim
  | cons operation rest ih =>
      intro s h deleted
      have hsound := sound_step h (step_perform s operation)
      rcases deleted with hd | hd
      · exact gone_run rest hsound (gone_of_deletes h hd)
      · exact ih hsound hd

/-- **A lookup follows its file, and nothing else.**  A lookup of the file at some path is taken in
the course of a history, which then goes on.  Unless the file is deleted on the way, the lookup
finds it later on, at exactly one path, and unchanged if nothing was stored.  Once the file is
deleted, the lookup fails forever, and every call of every view on it fails with the same error and
changes nothing. -/
theorem lookup_follows_file {registry : Registry} {now : Moment} {supply : IdSupply}
    {taken later : Session} {l : Lookup FileTree} (before after : List Operation) (path : Path)
    (distinct : supply.Distinct) (started : start registry now supply = .ok s)
    (reached : s.run before = taken) (went_on : taken.run after = later)
    (found : taken.tree.node path = .ok node) (bound : taken.tree.lookupAt path = .ok l) :
    (¬ taken.DeletesDuring node.id after →
      ∃ node', l.resolve later.tree = .ok node' ∧ Node.SameFile node node' ∧
        ((∀ operation ∈ after, operation.Structural) → node' = node) ∧
        (∃! p, later.tree.paths.get? p = some node.id) ∧
        ∀ p, later.tree.paths.get? p = some node.id → later.tree.node p = .ok node') ∧
    (taken.DeletesDuring node.id after →
      l.resolve later.tree = .error (.noSuchNode node.id) ∧
      ∀ (view : String) (serial : Nat) (v : View FileTree) (call : ViewCall)
        (operation : FileTree → Outcome FileTree ViewAnswer),
        (taken.tree.registry.getView view l serial).2 = .ok (some v) →
        v.call? call = some operation →
          operation later.tree = (later.tree, .error (.noSuchNode node.id))) := by
  have htaken : taken.Sound supply.issued := by
    rw [← reached]
    exact sound_run before (sound_start distinct started)
  have hlater : later.Sound supply.issued := by
    rw [← went_on]
    exact sound_run after htaken
  have hl : FileTree.lookup node.id = l := by
    rw [FileTree.lookupAt, found] at bound
    exact Except.ok.inj bound
  rcases FileTree.node_eq_ok_iff.1 found with ⟨id, hp, hn⟩
  obtain rfl := htaken.tree.named hn
  constructor
  · intro kept
    rcases kept_run after htaken hn kept with ⟨node', hn', hsame, heq⟩
    rw [went_on] at hn'
    rcases (hlater.tree.indexed node.id).2 ⟨node', hn'⟩ with ⟨p, hp'⟩
    refine ⟨node', ?_, hsame, heq, ⟨p, hp', fun q hq => hlater.tree.distinct hq hp'⟩, ?_⟩
    · rw [← hl]
      exact FileTree.nodeById_eq_ok_iff.2 hn'
    · exact fun q hq => FileTree.node_eq_ok_iff.2 ⟨node.id, hq, hn'⟩
  · intro deleted
    have hgone := gone_of_deletesDuring after htaken deleted
    rw [went_on] at hgone
    have hresolve : l.resolve later.tree = .error (.noSuchNode node.id) := by
      rw [← hl]
      show later.tree.nodeById node.id = _
      rw [FileTree.nodeById, hgone.absent]
    refine ⟨hresolve, fun view serial v call operation hv hc => ?_⟩
    exact (Registry.boundTo_of_getView hv).call_of_error hc hresolve

/-- A file is moved and another one put in its old place; then the first is deleted and a third one
put where it was.  From then on its view does not even look at the owner that it is to set. -/
theorem lookup_follows_file_tally :
    ∃ s taken moved replaced node l v setOwner,
      start ⟨[.owner], .empty⟩ default .tally = .ok s ∧
      s.run [.create default .file "/a" [] .empty] = taken ∧
      taken.run [.move "/a" "/b", .create default .file "/a" [] .empty] = moved ∧
      taken.run [.move "/a" "/b", .create default .file "/a" [] .empty,
        .delete "/b", .create default .file "/b" [] .empty] = replaced ∧
      taken.tree.node (.ofText "/a") = .ok node ∧ taken.tree.lookupAt (.ofText "/a") = .ok l ∧
      (taken.tree.registry.getView "owner" l 0).2 = .ok (some v) ∧
      v.call? (.setOwner .null) = some setOwner ∧
      l.resolve moved.tree = .ok node ∧
      l.resolve replaced.tree = .error (.noSuchNode node.id) ∧
      setOwner replaced.tree = (replaced.tree, .error (.noSuchNode node.id)) := by
  have started : start ⟨[.owner], .empty⟩ default .tally = .ok _ := rfl
  refine ⟨_, _, _, _, _, _, _, _, started, rfl, rfl, rfl, rfl, rfl, rfl, rfl, ?_, ?_⟩
  · obtain ⟨node', hr, -, heq, -⟩ := (lookup_follows_file [.create default .file "/a" [] .empty]
      [.move "/a" "/b", .create default .file "/a" [] .empty] (.ofText "/a")
      IdSupply.distinct_tally started rfl rfl rfl rfl).1 (by rintro (h | h | h) <;> exact h)
    rw [heq (by simp [Operation.Structural])] at hr
    exact hr
  · have hgone := (lookup_follows_file [.create default .file "/a" [] .empty]
      [.move "/a" "/b", .create default .file "/a" [] .empty, .delete "/b",
        .create default .file "/b" [] .empty] (.ofText "/a")
      IdSupply.distinct_tally started rfl rfl rfl rfl).2 (Or.inr (Or.inr (Or.inl ⟨rfl, _, rfl⟩)))
    exact ⟨hgone.1, hgone.2 "owner" 0 _ (.setOwner .null) _ rfl rfl⟩

end Session

end AttributeViews
