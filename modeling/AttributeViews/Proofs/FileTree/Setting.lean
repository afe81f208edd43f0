import AttributeViews.FileTree.Setting
import AttributeViews.Proofs.Attribute.Refusals
import AttributeViews.Proofs.FileTree.InPlace

/-!
# Failing to set an attribute does nothing

In memory a value is checked first and stored then, so whatever is refused leaves the memory as it
was.  In the same way the starting values of a new node are all computed before one is stored.

* `Memory.replaced` — another node at a place.
* **`Procedure.run_setAttribute_of_ok`**, **`Procedure.run_setAttribute_of_error`** — in memory it
  comes to the same as on the node.
* **`Procedure.run_setCreating`** — the attributes of a new file are set in the same way.
* **`Procedure.initialAttributes_of_run_prepare`** — when preparing a node fails.
* **`Procedure.setAttribute_fails_exactly`** — why setting fails, and what it leaves behind.
-/

namespace AttributeViews

variable {r : Registry} {p : Provider} {spec : AttributeSpec} {m m' : Memory} {node : Node}
  {view name address : String} {value : Value} {creating : Bool} {place : Nat} {e : Error}

/-! ## Nodes at their places -/

namespace Memory

/-- Another node at a place. -/
def replaced (m : Memory) (place : Nat) (node : Node) : Memory :=
  { m with nodes := m.nodes.set place node }

/-- A node that is changed at its place is replaced by the changed one. -/
lemma modify_eq_replaced (f : Node → Node) :
    { m with nodes := m.nodes.modify place f } = m.replaced place (f (m.nodeAt place)) := by
  have hnodes : m.nodes.modify place f = m.nodes.set place (f (m.nodeAt place)) := by
    refine List.ext_getElem (by simp) fun i hi _ => ?_
    rw [List.getElem_modify, List.getElem_set]
    split_ifs with h
    · subst h
      rw [nodeAt, List.getD_eq_getElem]
    · rfl
  rw [replaced, hnodes]

@[simp] lemma replaced_nodeAt : m.replaced place (m.nodeAt place) = m := by
  have h : { m with nodes := m.nodes.modify place id } = m.replaced place (m.nodeAt place) :=
    modify_eq_replaced id
  rw [List.modify_id] at h
  exact h.symm

end Memory

/-- A refused address leads somewhere, so there is no record that it does not. -/
lemma Registry.missRecords_of_error {outcome : String}
    (h : r.set node address value creating = .error e) : r.missRecords address outcome = [] := by
  rw [set] at h
  rw [missRecords]
  cases hr : r.resolve? address with
  | none =>
      rw [hr] at h
      cases h
  | some owner => rfl

namespace Procedure

variable {α : Type} {a : α}

lemma run_ensure_of_ok {x : Except Error α} (h : x = .ok a) : (ensure x).run m = .ok a m := by
  rw [ensure, run_lift_of_ok h]
  exact congrArg _ Memory.recorded_nil

lemma run_ensure_of_error {x : Except Error α} (h : x = .error e) :
    (ensure x).run m = .error (.refused e) m := by
  rw [ensure, run_lift_of_error h]
  exact congrArg _ Memory.recorded_nil

lemma run_storeAt (place : Nat) (key : String) (value : Value) :
    (storeAt place key value).run m
      = .ok () (m.replaced place ((m.nodeAt place).write key value)) :=
  congrArg _ (Memory.modify_eq_replaced _)

/-- Whether the attribute can be set now is asked before its check is. -/
lemma run_ensureNotCreating {rest : Procedure α}
    (allowed : spec.creationRestricted = true → creating = false) :
    (if spec.creationRestricted = true then do
        ensure (checkNotCreating view name creating)
        rest
      else rest).run m = rest.run m := by
  split_ifs with hr
  · have accepted : checkNotCreating view name creating = .ok () :=
      checkNotCreating_eq_ok_iff.2 (allowed hr)
    rw [EStateM.run_bind, run_ensure_of_ok accepted]
  · rfl

lemma run_write_of_ok (h : p.write (m.nodeAt place) view name value creating = .ok node) :
    (write p place view name value creating).run m = .ok () (m.replaced place node) := by
  cases declared : p.attributes.get? name with
  | none =>
      rw [Provider.write_of_undeclared declared] at h
      obtain rfl := Except.ok.inj h
      rw [write, declared, Memory.replaced_nodeAt]
      rfl
  | some spec =>
      obtain ⟨hs, allowed, stored, hc, rfl⟩ := (Provider.write_eq_ok_iff declared).1 h
      simp only [write, declared, hs, Bool.not_true, Bool.false_eq_true, if_false,
        run_ensureNotCreating allowed, EStateM.run_bind, run_ensure_of_ok hc, run_storeAt]

lemma run_write_of_error (h : p.write (m.nodeAt place) view name value creating = .error e) :
    (write p place view name value creating).run m = .error (.refused e) m := by
  cases declared : p.attributes.get? name with
  | none =>
      rw [Provider.write_of_undeclared declared] at h
      cases h
  | some spec =>
      rcases (Provider.write_eq_error_iff declared).1 h with
        ⟨hs, rfl⟩ | ⟨hs, hr, hc, rfl⟩ | ⟨hs, allowed, hc⟩
      · simp only [write, declared, hs, Bool.not_false, if_true, EStateM.run_bind,
          EStateM.run_throw]
      · have refused : checkNotCreating view name creating
            = .error (.creationRestricted view name) :=
          checkNotCreating_eq_error_iff.2 ⟨hc, rfl⟩
        simp only [write, declared, hs, hr, Bool.not_true, Bool.false_eq_true, if_false, if_true,
          EStateM.run_bind, run_ensure_of_error refused]
      · simp only [write, declared, hs, Bool.not_true, Bool.false_eq_true, if_false,
          run_ensureNotCreating allowed, EStateM.run_bind, run_ensure_of_error hc]

/-- **Setting an address in memory** that is accepted on the node. -/
lemma run_setAttribute_of_ok
    (h : m.registry.set (m.nodeAt place) address value creating = .ok node) :
    (setAttribute place address value creating).run m
      = .ok () ((m.replaced place node).recorded
          (m.registry.missRecords address "ignoring set")) := by
  rw [Registry.set] at h
  rw [setAttribute, EStateM.run_bind, EStateM.run_get, Registry.missRecords]
  dsimp only
  cases hr : m.registry.resolve? address with
  | none =>
      rw [hr] at h
      obtain rfl := Except.ok.inj h
      have message : "No view recognizes attribute " ++ address ++ ", ignoring set"
          = "No view recognizes attribute " ++ address ++ ", " ++ "ignoring set" := by
        simp only [String.append_assoc]
        rfl
      dsimp only
      rw [Memory.replaced_nodeAt, message, run_lift_record]
  | some owner =>
      rw [hr] at h
      rw [Memory.recorded_nil]
      exact run_write_of_ok h

/-- **Setting an address in memory** that is refused on the node: nothing has been done. -/
lemma run_setAttribute_of_error
    (h : m.registry.set (m.nodeAt place) address value creating = .error e) :
    (setAttribute place address value creating).run m = .error (.refused e) m := by
  rw [Registry.set] at h
  rw [setAttribute, EStateM.run_bind, EStateM.run_get]
  dsimp only
  cases hr : m.registry.resolve? address with
  | none =>
      rw [hr] at h
      cases h
  | some owner =>
      rw [hr] at h
      exact run_write_of_error h

/-- **The attributes of a new file** are set in the same way, while it is being created. -/
lemma run_setCreating (place : Nat) (address : String) (value : Value) :
    (setCreating place address value).run m = (setAttribute place address value true).run m := by
  have hwrite : m.registry.write (m.nodeAt place) address value true
      = ⟨m.registry.missRecords address "ignoring set",
          m.registry.set (m.nodeAt place) address value true⟩ := by
    rw [Registry.write, Logged.bind_of_ok rfl]
    exact congrArg (Logged.mk · _) (List.append_nil _)
  rw [setCreating, EStateM.run_bind, EStateM.run_get]
  dsimp only
  rw [hwrite, EStateM.run_bind]
  cases h : m.registry.set (m.nodeAt place) address value true with
  | ok node =>
      rw [run_setAttribute_of_ok h, run_lift_of_ok rfl]
      rfl
  | error e =>
      rw [run_setAttribute_of_error h, run_lift_of_error rfl, Registry.missRecords_of_error h,
        Memory.recorded_nil]

/-- Storing is never refused. -/
lemma exists_run_storeAll (place : Nat) (entries : List (String × Value)) :
    ∀ m : Memory, ∃ m', (storeAll place entries).run m = .ok () m' := by
  induction entries with
  | nil => exact fun m => ⟨m, rfl⟩
  | cons entry rest ih =>
      intro m
      obtain ⟨m', h⟩ := ih (m.replaced place ((m.nodeAt place).write entry.1 entry.2))
      refine ⟨m', ?_⟩
      rw [storeAll, List.forM_cons, EStateM.run_bind, run_storeAt]
      exact h

/-- **Preparing a node** stores nothing if a starting value is refused: all of them are computed
before the first one is stored. -/
lemma initialAttributes_of_run_prepare {now : Moment} {overrides : Table String Value} {stop : Stop}
    (h : (prepare now overrides place).run m = .error stop m') :
    ∃ e, stop = .refused e ∧ m.registry.initialAttributes now overrides = .error e ∧
      m' = m.recorded (m.registry.initial now overrides).records := by
  have hresult : (m.registry.initial now overrides).result
      = m.registry.initialAttributes now overrides := by
    simp [Registry.initial]
  rw [prepare, EStateM.run_bind, EStateM.run_get] at h
  dsimp only at h
  cases hv : (m.registry.initial now overrides).result with
  | error e =>
      rw [EStateM.run_bind, run_lift_of_error hv] at h
      cases h
      exact ⟨e, rfl, hresult.symm.trans hv, rfl⟩
  | ok values =>
      rw [EStateM.run_bind, run_lift_of_ok hv] at h
      obtain ⟨stored, hstored⟩ :=
        exists_run_storeAll place values.entries
          (m.recorded (m.registry.initial now overrides).records)
      simp only [EStateM.run_bind, hstored, EStateM.run_get, run_lift_record] at h
      cases h

/-! ## Failing -/

/-- A procedure is refused with an error of some kind. -/
def FailsWith {α : Type} (procedure : Procedure α) (m : Memory) (kind : ErrorKind) : Prop :=
  ∃ e m', procedure.run m = .error (.refused e) m' ∧ e.kind = kind

/-- In memory it is refused as on the node. -/
lemma run_setAttribute_eq_error_iff {stop : Stop} :
    (setAttribute place address value creating).run m = .error stop m' ↔
      ∃ e, m.registry.set (m.nodeAt place) address value creating = .error e ∧
        stop = .refused e ∧ m' = m := by
  cases h : m.registry.set (m.nodeAt place) address value creating with
  | ok node => simp [run_setAttribute_of_ok h]
  | error cause =>
      rw [run_setAttribute_of_error h]
      simp [eq_comm]

lemma failsWith_setAttribute_iff {kind : ErrorKind} :
    (setAttribute place address value creating).FailsWith m kind ↔
      ∃ e, m.registry.set (m.nodeAt place) address value creating = .error e ∧ e.kind = kind := by
  simp [FailsWith, run_setAttribute_eq_error_iff]

/-- What is not refused succeeds. -/
lemma exists_run_setAttribute_iff :
    (∃ m', (setAttribute place address value creating).run m = .ok () m') ↔
      ∀ kind, ¬ (setAttribute place address value creating).FailsWith m kind := by
  constructor
  · rintro ⟨m', hrun⟩ kind ⟨e, left, hfail, -⟩
    rw [hrun] at hfail
    cases hfail
  · intro succeeds
    cases hset : m.registry.set (m.nodeAt place) address value creating with
    | ok node => exact ⟨_, run_setAttribute_of_ok hset⟩
    | error e =>
        have failed : (setAttribute place address value creating).FailsWith m e.kind :=
          failsWith_setAttribute_iff.2 ⟨e, hset, rfl⟩
        exact absurd failed (succeeds e.kind)

/-- **Setting by address fails for one of three reasons, or it succeeds.**  An attribute that cannot
be set is refused as such; one that can, while the file is being created, if it must not be given
then; and one that may be given now if its check does not take the value.  Every error is about the
key that the caller wrote, behind the name of the owner if that was a bare name, and quotes it; and
everything is as it was before.  Preparing a node fails before anything is stored, too. -/
theorem setAttribute_fails_exactly {views : List String} {defaults : Table String Value}
    (built : Registry.buildOfViews views defaults = .ok r) {m : Memory} (held : m.registry = r)
    (place : Nat) (address : String) (value : Value) (creating : Bool) :
    let procedure := setAttribute place address value creating
    (procedure.FailsWith m .unsettableAttribute ↔
      r.ResolvesTo address fun _ _ spec => spec.settable = false) ∧
    (procedure.FailsWith m .creationRestricted ↔
      r.ResolvesTo address fun _ _ spec =>
        spec.settable = true ∧ spec.creationRestricted = true ∧ creating = true) ∧
    (procedure.FailsWith m .invalidAttributeType ↔
      r.ResolvesTo address fun p name spec =>
        spec.settable = true ∧ (spec.creationRestricted = true → creating = false) ∧
          ∃ e, spec.check (Registry.reportedView address p) name value = .error e) ∧
    ((∃ m', procedure.run m = .ok () m') ↔
      ¬ procedure.FailsWith m .unsettableAttribute ∧
      ¬ procedure.FailsWith m .creationRestricted ∧
      ¬ procedure.FailsWith m .invalidAttributeType) ∧
    (∀ stop m', procedure.run m = .error stop m' →
      m' = m ∧ ∃ e p name, stop = .refused e ∧ r.Routes address p name ∧
        e.attribute? = some (Registry.reportedKey address p) ∧
        ∃ before after, e.message = before ++ Registry.reportedKey address p ++ after) ∧
    ∀ now overrides stop m', (prepare now overrides place).run m = .error stop m' →
      ∃ e records, stop = .refused e ∧ m' = m.recorded records := by
  intro procedure
  obtain rfl := held
  have standard := Registry.standard_of_buildOfViews built
  have fails : ∀ kind, procedure.FailsWith m kind ↔
      m.registry.ResolvesTo address fun p name spec =>
        spec.Refuses (Registry.reportedView address p) name value creating kind := fun kind =>
    failsWith_setAttribute_iff.trans standard.exists_set_eq_error_iff
  refine ⟨fails _, fails _, fails _, ⟨fun done => ?_, ?_⟩, ?_, ?_⟩
  · have succeeds := exists_run_setAttribute_iff.1 done
    exact ⟨succeeds _, succeeds _, succeeds _⟩
  · rintro ⟨unsettable, restricted, unfit⟩
    refine exists_run_setAttribute_iff.2 fun kind failed => ?_
    cases kind with
    | unsettableAttribute => exact unsettable failed
    | creationRestricted => exact restricted failed
    | invalidAttributeType => exact unfit failed
    | _ =>
        obtain ⟨p, name, spec, -, -, reason⟩ := (fails _).1 failed
        exact reason.elim
  · intro stop m' hrun
    obtain ⟨e, hset, rfl, rfl⟩ := run_setAttribute_eq_error_iff.1 hrun
    obtain ⟨p, name, routes, about⟩ := standard.attribute?_of_set hset
    exact ⟨rfl, e, p, name, rfl, routes, about, Error.quotes_attribute about⟩
  · intro now overrides stop m' hrun
    obtain ⟨e, rfl, -, rfl⟩ := initialAttributes_of_run_prepare hrun
    exact ⟨e, _, rfl, rfl⟩

/-- A text is no owner.  The owner is set through the posix view, and the error says so. -/
theorem setAttribute_fails_exactly_posix :
    ∃ r e, Registry.buildOfViews ["posix"] .empty = .ok r ∧
      let m := Memory.ofNode r (.fresh "1" .file 0) .tally
      (setAttribute 0 "posix:owner" (.text "root") false).run m = .error (.refused e) m ∧
      e.kind = .invalidAttributeType ∧ e.attribute? = some "posix:owner" := by
  have built := Registry.buildOfViews_posix
  have standard := Registry.standard_of_buildOfViews built
  have registered : "posix" ∈ (Registry.mk [.basic, .owner, .posix] .empty).names := by decide
  have inherited : .owner ∈ (Registry.mk [.basic, .owner, .posix] .empty).closure "posix" :=
    (Registry.mem_closure_iff_of_buildOfViews built registered).2
      ⟨by simp [Provider.catalog], Provider.inheritsFrom_posix_iff.2 (by decide)⟩
  have routes : Registry.Routes _ ("posix" ++ ":" ++ "owner") .owner "owner" :=
    standard.routes_of_mem_closure registered inherited rfl
  obtain ⟨-, -, unfit, -, harmless, -⟩ :=
    setAttribute_fails_exactly built (m := .ofNode _ (.fresh "1" .file 0) .tally) rfl 0
      ("posix" ++ ":" ++ "owner") (.text "root") false
  obtain ⟨e, m', hrun, hk⟩ := unfit.2 ⟨_, _, _, routes, rfl, rfl, by simp, _, rfl⟩
  obtain ⟨rfl, cause, p, name, hcause, -, about, -⟩ := harmless _ _ hrun
  obtain rfl := Stop.refused.inj hcause
  refine ⟨_, e, built, hrun, hk, about.trans ?_⟩
  rw [Registry.reportedKey, if_pos (by decide)]
  rfl

end Procedure

end AttributeViews
