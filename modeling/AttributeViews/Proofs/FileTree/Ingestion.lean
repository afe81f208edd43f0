import AttributeViews.Proofs.FileTree.Soundness
import AttributeViews.Proofs.Registry.Canonical

/-!
# What nodes hold after all that is done to them

A node is filled when it is initialized, alone or in a tree, and from then on through its registry,
by name or through live views.  Everything but a raw write of the store passes the checks.

* `Registry.Ingested` — the nodes that come about in this way.
* **`Session.canonical_run`** — histories of a tree.
* `Registry.Ingested.canonical`, **`Registry.canonical_of_ingested`** — such a node is canonical.
-/

namespace AttributeViews

variable {r : Registry} {s s' : Session} {operation : Operation}

/-- The clock that an operation reads shows an aware moment. -/
def Operation.Timely : Operation → Prop
  | .create now .. => now.isAware = true
  | .move .. | .delete .. | .setAttribute .. | .onNode .. | .onView .. => True

/-! ## Histories of a tree -/

/-- All nodes of a tree are canonical for its registry. -/
structure Session.Canonical (r : Registry) (s : Session) : Prop where
  registry : s.tree.registry = r
  nodes : ∀ id node, s.tree.nodes.get? id = some node → r.Canonical node

namespace Session

lemma Canonical.insert {node : Node} (h : s.Canonical r) (new : r.Canonical node) (id : String) :
    ∀ id' node', (s.tree.nodes.insert id node).get? id' = some node' → r.Canonical node' := by
  intro id' node' hn
  rw [Table.get?_insert] at hn
  split_ifs at hn
  · rw [← Option.some.inj hn]
    exact new
  · exact h.nodes id' node' hn

/-- **One operation** that checks what it stores keeps all nodes canonical. -/
lemma canonical_step (standard : r.Standard) (h : s.Canonical r) (step : s.Step operation s')
    (timely : operation.Timely) (checked : ¬ operation.IsStore) : s'.Canonical r := by
  obtain ⟨rfl, hnodes⟩ := h
  have h : s.Canonical s.tree.registry := ⟨rfl, hnodes⟩
  cases step with
  | idle => exact h
  | refused => exact ⟨rfl, hnodes⟩
  | created made =>
      rcases FileTree.create_eq_ok_iff.1 made with ⟨-, rfl, started, hs, ha⟩
      have hstarted := standard.canonical_seed timely rfl hs
      have hnode := standard.canonical_rewritten hstarted
        ((FileTree.rewritten_of_setWhileCreating ha).mono fun _ _ => .byName)
      exact ⟨rfl, h.insert hnode _⟩
  | moved made =>
      rcases FileTree.move_eq_ok_iff.1 made with ⟨-, rfl⟩
      exact ⟨rfl, hnodes⟩
  | deleted made =>
      rcases FileTree.delete_eq_ok_iff.1 made with ⟨-, -, id, -, rfl⟩
      refine ⟨rfl, fun id' node hn => ?_⟩
      rw [Table.get?_erase] at hn
      split_ifs at hn
      exact h.nodes id' node hn
  | rewritten _ found stored =>
      have hnode := standard.canonical_rewritten (h.nodes _ _ found)
        (stored.mono fun _ _ allowed => allowed.resolve_left checked)
      exact ⟨rfl, h.insert hnode _⟩

lemma canonical_run (standard : r.Standard) (history : List Operation) :
    ∀ {s : Session}, s.Canonical r →
      (∀ operation ∈ history, operation.Timely ∧ ¬ operation.IsStore) →
      (s.run history).Canonical r := by
  induction history with
  | nil => exact fun h _ => h
  | cons operation rest ih =>
      intro s h hall
      rcases hall operation List.mem_cons_self with ⟨timely, checked⟩
      exact ih (canonical_step standard h (step_perform s operation) timely checked)
        fun other ho => hall other (List.mem_cons_of_mem _ ho)

lemma canonical_start {now : Moment} {supply : IdSupply} (standard : r.Standard)
    (aware : now.isAware = true) (started : start r now supply = .ok s) : s.Canonical r := by
  rcases start_eq_ok_iff.1 started with ⟨tree, made, rfl⟩
  constructor
  · rcases FileTree.ofRoot_eq_ok_iff.1 made with ⟨root, -, rfl⟩
    rfl
  · intro id node hn
    exact standard.canonical_seed aware rfl ((FileTree.nodes_ofRoot made).1 hn).2

end Session

/-! ## Single nodes -/

namespace Registry

/-- The nodes that a registry has initialized, alone or in a tree, and that have been changed
through it only. -/
inductive Ingested (r : Registry) : Node → Prop
  /-- A new node is initialized. -/
  | initialized {now : Moment} {blank node : Node} {overrides : Table String Value}
      (aware : now.isAware = true) (new : blank.attributes = .empty)
      (seeded : r.seed now blank overrides = .ok node) : Ingested r node
  /-- A node stands in a tree after some history. -/
  | filed {now : Moment} {supply : IdSupply} {s : Session} {history : List Operation} {id : String}
      {node : Node} (aware : now.isAware = true) (started : Session.start r now supply = .ok s)
      (checked : ∀ operation ∈ history, operation.Timely ∧ ¬ operation.IsStore)
      (found : (s.run history).tree.nodes.get? id = some node) : Ingested r node
  /-- A node is operated on, by name or through a live view, with success or without. -/
  | operated {node : Node} {operation : NodeOperation} (before : Ingested r node)
      (checked : ¬ operation.IsStore) : Ingested r (operation.perform r node)

/-- In a registry of standard views only, such a node is canonical. -/
lemma Ingested.canonical {node : Node} (ingested : r.Ingested node) (standard : r.Standard) :
    r.Canonical node := by
  induction ingested with
  | initialized aware new seeded => exact standard.canonical_seed aware new seeded
  | filed aware started checked found =>
      have start := Session.canonical_start standard aware started
      exact (Session.canonical_run standard _ start checked).nodes _ _ found
  | operated _ checked ih =>
      rename_i before operation _
      have rewritten := (operation.rewritten_perform r before).mono
        fun _ _ allowed => allowed.resolve_left checked
      exact standard.canonical_rewritten ih rewritten

/-- A new file with the posix view, to which a group of a directory service has been given. -/
def staffed : Node :=
  let registry : Registry := ⟨[.basic, .owner, .posix], .empty⟩
  let seeded := registry.seed ⟨default, default, some 0⟩ (.fresh "1" .file 0) .empty
  NodeOperation.perform registry
    (.setThrough "posix" "posix" "group" (.principal ⟨.otherGroup "LdapGroup", "staff"⟩) false)
    (seeded.toOption.getD default)

lemma ingested_staffed : Ingested ⟨[.basic, .owner, .posix], .empty⟩ staffed := by
  have seeded : seed ⟨[.basic, .owner, .posix], .empty⟩ ⟨default, default, some 0⟩
      (.fresh "1" .file 0) .empty = .ok _ := rfl
  have checked : ¬ (NodeOperation.setThrough "posix" "posix" "group"
      (.principal ⟨.otherGroup "LdapGroup", "staff"⟩) false).IsStore := fun h => h
  exact .operated (.initialized rfl rfl seeded) checked

/-- **What such a node holds.**  In a registry of standard views its keys are those of the
attributes that can be set, and under each of them stands a value in the stored form of that
attribute, whatever values have been tried on it. -/
theorem canonical_of_ingested {views : List String} {defaults : Table String Value} {node : Node}
    (built : buildOfViews views defaults = .ok r) (ingested : r.Ingested node) :
    r.Canonical node :=
  ingested.canonical (standard_of_buildOfViews built)

/-- A group of a directory service, given to a new file. -/
theorem canonical_of_ingested_posix :
    ∃ r node, buildOfViews ["posix"] .empty = .ok r ∧
      node.attributes.get? "posix:group" = some (.principal (.group "staff")) ∧
      r.Canonical node := by
  exact ⟨_, _, buildOfViews_posix, rfl, canonical_of_ingested buildOfViews_posix ingested_staffed⟩

end Registry

end AttributeViews
