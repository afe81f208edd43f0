import AttributeViews.Proofs.Registry.Canonical

/-!
# Live views set what is set by name

An attribute can be set through a live view or by its address.  The two ways are written down
separately, the first one even with an inherited view in between, but they check alike and store
alike, on the node that the lookup finds at that moment.

* `View.Genuine` — a view is of the make that its name promises;
  **`Registry.Standard.genuine_of_getView`**.
* `Registry.setAt` — setting an attribute by its address on whatever node a lookup finds.
* `ViewCall.SetsOne` — the calls that set one attribute.
* **`Registry.call_of_setsOne`** — each of them is `Registry.setAt`.
* `Switchboard` — a lookup that is switched between nodes; **`Switchboard.nodes_play`** says which
  of these are left alone.
* **`Registry.setters_refine_set`** — views and addresses come to the same in every run.
-/

namespace AttributeViews

variable {σ : Type} {r : Registry} {p : Provider} {l : Lookup σ} {v : View σ}
  {view name address key : String} {value stored : Value} {node : Node} {call : ViewCall}
  {views : List String} {defaults : Table String Value}

/-! ## The make of a built view -/

/-- A view is of the standard make for its name. -/
def View.Genuine (name : String) : View σ → Prop
  | .basic _ => name = "basic"
  | .owner _ => name = "owner"
  | .posix _ => name = "posix"
  | .dos _ => name = "dos"
  | .plain .. => False

lemma View.genuine_of_make {serial : Nat} {inherited : List (String × View σ)}
    (hp : p ∈ Provider.catalog) (h : make p serial l inherited = .ok v) : v.Genuine p.name := by
  simp only [Provider.catalog, List.mem_cons, List.not_mem_nil, or_false] at hp
  rcases hp with rfl | rfl | rfl | rfl
  · obtain rfl := Except.ok.inj h
    exact rfl
  · obtain rfl := Except.ok.inj h
    exact rfl
  · simp only [make, Provider.posix, Provider.standard] at h
    split at h
    · obtain rfl := Except.ok.inj h
      exact rfl
    · cases h
  · simp only [make, Provider.dos, Provider.standard] at h
    split at h
    · obtain rfl := Except.ok.inj h
      exact rfl
    · cases h

namespace View.Genuine

lemma eq_basic (h : v.Genuine "basic") : ∃ b, v = .basic b := by
  cases v with
  | basic b => exact ⟨b, rfl⟩
  | _ => simp [Genuine] at h

lemma eq_owner (h : v.Genuine "owner") : ∃ o, v = .owner o := by
  cases v with
  | owner o => exact ⟨o, rfl⟩
  | _ => simp [Genuine] at h

lemma eq_posix (h : v.Genuine "posix") : ∃ p, v = .posix p := by
  cases v with
  | posix p => exact ⟨p, rfl⟩
  | _ => simp [Genuine] at h

lemma eq_dos (h : v.Genuine "dos") : ∃ d, v = .dos d := by
  cases v with
  | dos d => exact ⟨d, rfl⟩
  | _ => simp [Genuine] at h

lemma exists_timesView (h : v.Genuine view) (has : view ∈ ["basic", "posix", "dos"]) :
    ∃ b, v.timesView? = some b := by
  cases v with
  | owner o =>
      obtain rfl : view = "owner" := h
      simp at has
  | plain => exact h.elim
  | _ => exact ⟨_, rfl⟩

lemma exists_ownerView (h : v.Genuine view) (has : view ∈ ["owner", "posix"]) :
    ∃ o, v.ownerView? = some o := by
  cases v with
  | basic b =>
      obtain rfl : view = "basic" := h
      simp at has
  | dos d =>
      obtain rfl : view = "dos" := h
      simp at has
  | plain => exact h.elim
  | _ => exact ⟨_, rfl⟩

end View.Genuine

/-- Genuine views are never refused what they are made from. -/
lemma View.exists_make {serial : Nat} {inherited : List (String × View σ)}
    (hp : p ∈ Provider.catalog) (genuine : ∀ x ∈ inherited, x.2.Genuine x.1)
    (complete : ∀ name ∈ p.inherited, ∃ v, Table.find? name inherited = some v) :
    ∃ v, make p serial l inherited = .ok v := by
  have found : ∀ {name v}, Table.find? name inherited = some v → v.Genuine name :=
    fun h => genuine _ (Table.mem_of_find? h)
  simp only [Provider.catalog, List.mem_cons, List.not_mem_nil, or_false] at hp
  rcases hp with rfl | rfl | rfl | rfl
  · exact ⟨_, rfl⟩
  · exact ⟨_, rfl⟩
  · obtain ⟨v, hv⟩ := complete "basic" (by decide)
    obtain ⟨w, hw⟩ := complete "owner" (by decide)
    obtain ⟨b, rfl⟩ := (found hv).eq_basic
    obtain ⟨o, rfl⟩ := (found hw).eq_owner
    refine ⟨.posix ⟨serial, l, b, o⟩, ?_⟩
    simp only [make, Provider.posix, Provider.standard, hv, hw]
  · obtain ⟨v, hv⟩ := complete "basic" (by decide)
    obtain ⟨b, rfl⟩ := (found hv).eq_basic
    refine ⟨.dos ⟨serial, l, b⟩, ?_⟩
    simp only [make, Provider.dos, Provider.standard, hv]

namespace Registry

lemma Standard.genuine_of_getView {serial : Nat} (standard : r.Standard)
    (built : (r.getView view l serial).2 = .ok (some v)) : v.Genuine view :=
  getView_induction (P := fun name v => v.Genuine name)
    (fun p hp _ _ _ _ hm => View.genuine_of_make (standard.catalog p hp) hm) built

/-- **A registry of standard views builds every view that it has.** -/
lemma exists_getView_of_buildOfViews (built : buildOfViews views defaults = .ok r)
    (registered : view ∈ r.names) (l : Lookup σ) (serial : Nat) :
    ∃ v, (r.getView view l serial).2 = .ok (some v) := by
  have standard := standard_of_buildOfViews built
  obtain ⟨providers, -, hb⟩ := bind_eq_ok_iff.1 built
  exact exists_getView (P := fun name v => v.Genuine name)
    (fun p hp _ _ _ _ hm => View.genuine_of_make (standard.catalog p hp) hm)
    (fun p hp _ _ genuine complete => View.exists_make (standard.catalog p hp) genuine complete)
    hb registered serial

end Registry

/-! ## Setting by address -/

/-- A change that is made as a whole or not at all. -/
def Outcome.whole (state : σ) : Except Error σ → Outcome σ Unit
  | .ok changed => (changed, .ok ())
  | .error e => (state, .error e)

/-- Set an attribute by its address on the node that a lookup finds. -/
def Registry.setAt (r : Registry) (l : Lookup σ) (address : String) (value : Value) :
    σ → Outcome σ Unit :=
  l.run fun node => Outcome.whole node (r.write node address value false).result

/-- **Setting the attribute of a key** checks the value under the attribute's own name. -/
lemma Registry.set_qualified {spec : AttributeSpec} (built : buildOfViews views defaults = .ok r)
    (hp : p ∈ r.providers) (declared : p.attributes.get? name = some spec)
    (settable : spec.settable = true) :
    r.set node (p.qualified name) value false
      = (spec.check p.name name value).map (node.write (p.qualified name)) := by
  have standard := standard_of_buildOfViews built
  obtain ⟨named, plain⟩ := standard.named_of_mem_names (List.mem_map_of_mem hp)
  have reported : reportedView (p.qualified name) p = p.name := by
    rw [Provider.qualified_of_mem_catalog (standard.catalog p hp), reportedView,
      splitAddress_append plain]
    split
    · exact rfl
    · exact rfl
    · next other _ he =>
      exact (Option.some.inj he).symm
  rw [set, resolve?_eq_some_iff_routes.2
    (routes_own built hp (Table.contains_eq_true_iff.2 ⟨_, declared⟩))]
  simp only [reported, Provider.write, declared, settable]
  cases spec.creationRestricted <;> rfl

lemma storeChecked_eq_whole (key : String) (answer : Except Error Value) (node : Node) :
    storeChecked key answer node = Outcome.whole node (answer.map (node.write key)) := by
  cases answer <;> rfl

lemma Registry.setAt_qualified {spec : AttributeSpec} (built : buildOfViews views defaults = .ok r)
    (hp : p ∈ r.providers) (declared : p.attributes.get? name = some spec)
    (settable : spec.settable = true) (l : Lookup σ) :
    r.setAt l (p.qualified name) value
      = l.run (storeChecked (p.qualified name) (spec.check p.name name value)) := by
  refine congrArg l.run (funext fun node => ?_)
  rw [result_write, set_qualified built hp declared settable, storeChecked_eq_whole]

/-! ## Setting through views -/

/-- Of the values for the three times one is given: the name of this time, and the value. -/
inductive OneTime : Value → Value → Value → String → Value → Prop
  | lastModified {value : Value} (given : value ≠ .null) :
      OneTime value .null .null "lastModifiedTime" value
  | lastAccess {value : Value} (given : value ≠ .null) :
      OneTime .null value .null "lastAccessTime" value
  | creation {value : Value} (given : value ≠ .null) :
      OneTime .null .null value "creationTime" value

/-- The calls of a view that set one attribute, with the address of the attribute and the value. -/
inductive ViewCall.SetsOne : String → ViewCall → String → Value → Prop
  | group (value : Value) : SetsOne "posix" (.setGroup value) "posix:group" value
  | permissions (value : Value) :
      SetsOne "posix" (.setPermissions value) "posix:permissions" value
  | owner {view : String} (value : Value) (has : view ∈ ["owner", "posix"]) :
      SetsOne view (.setOwner value) "owner:owner" value
  | flag (flag : DosFlag) (value : Value) :
      SetsOne "dos" (.setFlag flag value) ("dos:" ++ flag.name) value
  | time {view name : String} {lastModified lastAccess creation value : Value}
      (has : view ∈ ["basic", "posix", "dos"])
      (one : OneTime lastModified lastAccess creation name value) :
      SetsOne view (.setTimes lastModified lastAccess creation) ("basic:" ++ name) value

lemma OneTime.named {lastModified lastAccess creation : Value}
    (h : OneTime lastModified lastAccess creation name value) : name ∈ timeNames := by
  cases h <;> decide

/-- A time that is given alone is stored like any other attribute. -/
lemma OneTime.storeTimes_eq {lastModified lastAccess creation : Value}
    (h : OneTime lastModified lastAccess creation name value) (node : Node) :
    storeTimes node [("lastModifiedTime", lastModified), ("lastAccessTime", lastAccess),
        ("creationTime", creation)]
      = storeChecked ("basic:" ++ name) (checkTime "basic" name value) node := by
  have given : ∀ {v : Value}, v ≠ .null → v.isNull = false := by
    intro v hv
    cases v with
    | null => exact absurd rfl hv
    | _ => rfl
  cases h with
  | lastModified hv =>
      rw [storeTimes, given hv]
      cases checkTime "basic" "lastModifiedTime" value <;> rfl
  | lastAccess hv =>
      rw [storeTimes, storeTimes, given hv]
      cases checkTime "basic" "lastAccessTime" value <;> rfl
  | creation hv =>
      rw [storeTimes, storeTimes, storeTimes, given hv]
      cases checkTime "basic" "creationTime" value <;> rfl

namespace Registry

/-- **Every setter sets by address.**  The setter of a view, also of one that passes the value on to
an inherited view, is the setting of the attribute by its address. -/
lemma call_of_setsOne {serial : Nat} (built : buildOfViews views defaults = .ok r)
    (held : (r.getView view l serial).2 = .ok (some v)) (one : call.SetsOne view address value) :
    v.call? call = some (View.setting (r.setAt l address value)) := by
  have standard := standard_of_buildOfViews built
  have bound := boundTo_of_getView held
  have backed := standard.backed_of_getView held
  have genuine := standard.genuine_of_getView held
  cases one with
  | group =>
      obtain ⟨p, rfl⟩ := genuine.eq_posix
      cases bound
      have hd : Provider.posix.attributes.get? "group" = some groupAttribute := rfl
      exact congrArg (some ∘ View.setting) (setAt_qualified built backed.1 hd rfl l).symm
  | permissions =>
      obtain ⟨p, rfl⟩ := genuine.eq_posix
      cases bound
      have hd : Provider.posix.attributes.get? "permissions" = some permissionsAttribute := rfl
      exact congrArg (some ∘ View.setting) (setAt_qualified built backed.1 hd rfl l).symm
  | owner _ has =>
      obtain ⟨o, ho⟩ := genuine.exists_ownerView has
      obtain rfl := bound.ownerView ho
      have hd : Provider.owner.attributes.get? "owner" = some ownerAttribute := rfl
      rw [View.call?, ho]
      exact congrArg (some ∘ View.setting)
        (setAt_qualified built (backed.owner ho) hd rfl o.lookup).symm
  | flag flag =>
      obtain ⟨d, rfl⟩ := genuine.eq_dos
      cases bound
      exact congrArg (some ∘ View.setting)
        (setAt_qualified built backed.1 (Provider.get?_flag flag) rfl l).symm
  | time has one =>
      obtain ⟨b, hb⟩ := genuine.exists_timesView has
      obtain rfl := bound.timesView hb
      rw [View.call?, hb]
      refine congrArg (some ∘ View.setting) (Eq.trans ?_
        (setAt_qualified built (backed.basic hb) (Provider.get?_time one.named) rfl b.lookup).symm)
      exact congrArg b.lookup.run (funext fun node => one.storeTimes_eq node)

end Registry

/-! ## A lookup that is switched -/

/-- Nodes, and where a lookup leads at the moment: to one of them, or to no file at all. -/
structure Switchboard where
  nodes : Nat → Node
  target : Except Error Nat

namespace Switchboard

/-- The lookup that leads where the switchboard says. -/
def lookup : Lookup Switchboard where
  resolve s := s.target.map s.nodes
  store node s :=
    match s.target with
    | .ok i => { s with nodes := Function.update s.nodes i node }
    | .error _ => s

/-- One turn of a run: the lookup is switched, or a setter is called of a view that
somebody holds. -/
inductive Turn (r : Registry) where
  | switch (target : Except Error Nat)
  | set {view : String} {serial : Nat} (v : View Switchboard) (call : ViewCall) (address : String)
      (value : Value) (held : (r.getView view lookup serial).2 = .ok (some v))
      (one : call.SetsOne view address value)

/-- A turn as it is, with the setter of the view. -/
def Turn.throughView (r : Registry) : Turn r → Switchboard → Outcome Switchboard ViewAnswer
  | .switch target, s => ({ s with target := target }, .ok .done)
  | .set v call _ _ _ _, s =>
      match v.call? call with
      | some operation => operation s
      | none => (s, .ok .done)

/-- A turn in which the attribute is set by its address instead. -/
def Turn.byAddress (r : Registry) : Turn r → Switchboard → Outcome Switchboard ViewAnswer
  | .switch target, s => ({ s with target := target }, .ok .done)
  | .set _ _ address value _ _, s => View.setting (r.setAt lookup address value) s

/-- A run: the state that it ends in, and the answers of its turns. -/
def play (perform : Turn r → Switchboard → Outcome Switchboard ViewAnswer) :
    List (Turn r) → Switchboard → Switchboard × List (Except Error ViewAnswer)
  | [], s => (s, [])
  | turn :: rest, s =>
      let (next, answer) := perform turn s
      let (last, answers) := play perform rest next
      (last, answer :: answers)

lemma throughView_eq_byAddress (built : Registry.buildOfViews views defaults = .ok r) :
    Turn.throughView r = Turn.byAddress r := by
  funext turn s
  cases turn with
  | switch target => rfl
  | set v call address value held one =>
      rw [Turn.throughView, Registry.call_of_setsOne built held one]
      rfl

/-! ### What is left alone -/

variable {s : Switchboard} {i : Nat} {change : Node → Outcome Node Unit}

lemma target_run : (lookup.run change s).1.target = s.target := by
  cases ht : s.target with
  | error e => simp [Lookup.run, lookup, ht, Except.map]
  | ok j => simp [Lookup.run, lookup, ht, Except.map]

/-- Only the node that the lookup leads to is changed. -/
lemma nodes_run (away : s.target ≠ .ok i) : (lookup.run change s).1.nodes i = s.nodes i := by
  cases ht : s.target with
  | error e => simp [Lookup.run, lookup, ht, Except.map]
  | ok j =>
      have hij : i ≠ j := by
        rintro rfl
        exact away ht
      simp [Lookup.run, lookup, ht, Except.map, Function.update_of_ne hij]

/-- **A node that the lookup is never switched to** is left alone by the whole run. -/
lemma nodes_play (turns : List (Turn r)) (off : .switch (.ok i) ∉ turns) :
    ∀ {s : Switchboard}, s.target ≠ .ok i →
      (play (Turn.byAddress r) turns s).1.nodes i = s.nodes i := by
  induction turns with
  | nil => exact fun _ => rfl
  | cons turn rest ih =>
      intro s away
      obtain ⟨hturn, hrest⟩ := not_or.1 (mt List.mem_cons.2 off)
      have step : (turn.byAddress r s).1.nodes i = s.nodes i ∧
          (turn.byAddress r s).1.target ≠ .ok i := by
        cases turn with
        | switch target => exact ⟨rfl, fun ht => hturn (congrArg Turn.switch ht).symm⟩
        | set v call address value held one => exact ⟨nodes_run away, target_run.trans_ne away⟩
      exact (ih hrest step.2).trans step.1

end Switchboard

namespace Registry

open Switchboard

/-- **The setters of live views refine setting by address.**  A view of a registry of standard
views, on whatever lookup, has its setters; one that sets a single attribute has the outcome of
setting the attribute by its address on the node to which the lookup leads just then, the same
answer or error and the same state.  So in a run in which the lookup is switched between nodes in
any way, views that were got at any time answer what the addresses answer and leave the same nodes,
and the nodes that the lookup does not lead to stay as they were. -/
theorem setters_refine_set (built : buildOfViews views defaults = .ok r) :
    (∀ {σ : Type} (l : Lookup σ) (serial : Nat) {view : String} {call : ViewCall}
        {address : String} {value : Value}, view ∈ r.names → call.SetsOne view address value →
      ∃ v operation, (r.getView view l serial).2 = .ok (some v) ∧
        v.call? call = some operation ∧
        ∀ state, operation state = View.setting (r.setAt l address value) state) ∧
    ∀ (turns : List (Turn r)) (s : Switchboard),
      play (Turn.throughView r) turns s = play (Turn.byAddress r) turns s ∧
      ∀ i, s.target ≠ .ok i → .switch (.ok i) ∉ turns →
        (play (Turn.throughView r) turns s).1.nodes i = s.nodes i := by
  refine ⟨fun l serial view call address value registered one => ?_, fun turns s => ⟨?_, ?_⟩⟩
  · obtain ⟨v, held⟩ := exists_getView_of_buildOfViews built registered l serial
    exact ⟨v, _, held, call_of_setsOne built held one, fun _ => rfl⟩
  · rw [throughView_eq_byAddress built]
  · intro i away off
    rw [throughView_eq_byAddress built]
    exact nodes_play turns off away

/-- By their addresses, the group of one node is set and the owner of another one refused, as they
are through one view of which the lookup is switched. -/
theorem setters_refine_set_posix :
    ∃ (r : Registry) (group owner : Turn r), buildOfViews ["posix"] .empty = .ok r ∧
      let s : Switchboard := ⟨fun _ => .fresh "1" .file 0, .error .configUndecodable⟩
      let turns := [.switch (.ok 1), group, .switch (.ok 2), owner]
      (play (Turn.byAddress r) turns s).2 = [.ok .done, .ok .done, .ok .done,
        .error (.invalidType "owner" "owner" "str" ["UserPrincipal"])] ∧
      ((play (Turn.byAddress r) turns s).1.nodes 1).read "posix:group"
        = .principal (.group "staff") ∧
      (play (Turn.throughView r) turns s).1.nodes 0 = .fresh "1" .file 0 := by
  have held : (getView ⟨[.basic, .owner, .posix], .empty⟩ "posix" lookup 0).2
      = .ok (some (.posix ⟨2, lookup, ⟨0, lookup⟩, ⟨1, lookup⟩⟩)) := rfl
  have group := ViewCall.SetsOne.group (.principal ⟨.otherGroup "LdapGroup", "staff"⟩)
  have owner := ViewCall.SetsOne.owner (.text "root") (by decide : "posix" ∈ ["owner", "posix"])
  obtain ⟨same, untouched⟩ := (setters_refine_set buildOfViews_posix).2
    [.switch (.ok 1), .set _ _ _ _ held group, .switch (.ok 2), .set _ _ _ _ held owner]
    ⟨fun _ => .fresh "1" .file 0, .error .configUndecodable⟩
  refine ⟨_, .set _ _ _ _ held group, .set _ _ _ _ held owner, buildOfViews_posix, ?_, ?_, ?_⟩
  · rw [← same]
    rfl
  · rw [← same]
    rfl
  · exact untouched 0 (by simp) (by simp)

end Registry

end AttributeViews
