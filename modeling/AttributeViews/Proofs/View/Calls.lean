import AttributeViews.Proofs.View.Building
import AttributeViews.View.Call

/-!
# Calls of live views

A view that a registry builds holds one lookup, and so do all the views inside it.  Every operation
begins with that lookup; so without a file nothing happens but the error of the lookup, and with one
only its node changes, by values that the dedicated checks have accepted.

* `View.BoundTo` — a view and all the views inside it hold one lookup;
  **`Registry.boundTo_of_getView`**.
* `View.Sets` — what the setters of a view can store.
* **`View.BoundTo.call_of_error`** — a call without a file.
* **`View.BoundTo.call_of_ok`** — a call with one.
-/

namespace AttributeViews

variable {σ : Type} {l : Lookup σ} {v : View σ} {state : σ}

namespace View

/-! ## The lookup of a built view -/

/-- A view and all the views inside it hold the same lookup. -/
inductive BoundTo (l : Lookup σ) : View σ → Prop
  | basic (serial : Nat) : BoundTo l (.basic ⟨serial, l⟩)
  | owner (serial : Nat) : BoundTo l (.owner ⟨serial, l⟩)
  | posix (serial serial' serial'' : Nat) :
      BoundTo l (.posix ⟨serial, l, ⟨serial', l⟩, ⟨serial'', l⟩⟩)
  | dos (serial serial' : Nat) : BoundTo l (.dos ⟨serial, l, ⟨serial', l⟩⟩)
  | plain {serial : Nat} {name : String} {inherited : List (String × View σ)}
      (inside : ∀ x ∈ inherited, BoundTo l x.2) : BoundTo l (.plain serial l name inherited)

lemma BoundTo.lookup_eq (h : v.BoundTo l) : v.lookup = l := by
  cases h <;> rfl

lemma BoundTo.timesView {b : BasicView σ} (h : v.BoundTo l) (hb : v.timesView? = some b) :
    b.lookup = l := by
  cases h <;> cases hb <;> rfl

lemma BoundTo.ownerView {o : OwnerView σ} (h : v.BoundTo l) (ho : v.ownerView? = some o) :
    o.lookup = l := by
  cases h <;> cases ho <;> rfl

/-- A view made from views on a lookup is on that lookup. -/
lemma boundTo_of_make {p : Provider} {serial : Nat} {inherited : List (String × View σ)}
    (inside : ∀ x ∈ inherited, BoundTo l x.2) (h : make p serial l inherited = .ok v) :
    v.BoundTo l := by
  cases madeFrom_of_make h with
  | basic => exact .basic serial
  | owner => exact .owner serial
  | posix _ hb ho =>
      cases inside _ hb
      cases inside _ ho
      exact .posix _ _ _
  | dos _ hb =>
      cases inside _ hb
      exact .dos _ _
  | plain => exact .plain inside

end View

/-- **A built view is on the lookup that it was asked for.** -/
lemma Registry.boundTo_of_getView {r : Registry} {view : String} {serial : Nat}
    (h : (r.getView view l serial).2 = .ok (some v)) : v.BoundTo l :=
  getView_induction (P := fun _ v => v.BoundTo l)
    (fun _ _ _ _ _ inside hm => View.boundTo_of_make inside hm) h

/-! ## What setters store -/

/-- The names of the attributes that hold times. -/
def timeNames : List String := ["lastModifiedTime", "lastAccessTime", "creationTime"]

/-- The values that the setters of a view can store: what the strict check of an attribute answers,
under the key of that attribute. -/
inductive View.Sets (v : View σ) : String → Value → Prop
  | time {b : BasicView σ} {name : String} {value stored : Value} (has : v.timesView? = some b)
      (named : name ∈ timeNames) (accepted : checkTime "basic" name value = .ok stored) :
      Sets v ("basic:" ++ name) stored
  | owner {o : OwnerView σ} {value stored : Value} (has : v.ownerView? = some o)
      (accepted : checkUser "owner" "owner" value = .ok stored) : Sets v "owner:owner" stored
  | group {p : PosixView σ} {value stored : Value} (is : v = .posix p)
      (accepted : checkGroup "posix" "group" value = .ok stored) : Sets v "posix:group" stored
  | permissions {p : PosixView σ} {value stored : Value} (is : v = .posix p)
      (accepted : checkPermissions "posix" "permissions" value = .ok stored) :
      Sets v "posix:permissions" stored
  | flag {d : DosView σ} {value stored : Value} (is : v = .dos d) (flag : DosFlag)
      (accepted : checkBool "dos" flag.name value = .ok stored) :
      Sets v ("dos:" ++ flag.name) stored

section Setters

variable {allowed : String → Value → Prop}

lemma rewritten_storeChecked {key : String} {answer : Except Error Value}
    (h : ∀ stored, answer = .ok stored → allowed key stored) (node : Node) :
    Node.Rewritten allowed node (storeChecked key answer node).1 := by
  cases answer with
  | error e => exact .refl
  | ok stored => exact .write (h stored rfl)

/-- Times are stored one after the other, also if a later one is refused. -/
lemma rewritten_storeTimes
    (h : ∀ name ∈ timeNames, ∀ value stored, checkTime "basic" name value = .ok stored →
      allowed ("basic:" ++ name) stored) :
    ∀ (times : List (String × Value)) (node : Node), (∀ x ∈ times, x.1 ∈ timeNames) →
      Node.Rewritten allowed node (storeTimes node times).1
  | [], node, _ => .refl
  | (name, value) :: rest, node, hn => by
      have hrest : ∀ x ∈ rest, x.1 ∈ timeNames := fun x hx => hn x (List.mem_cons_of_mem _ hx)
      rw [storeTimes]
      split
      · exact rewritten_storeTimes h rest node hrest
      · split
        · exact .refl
        · next stored hs =>
          exact (Node.Rewritten.write (h name (hn _ List.mem_cons_self) value stored hs)).trans
            (rewritten_storeTimes h rest _ hrest)

end Setters

/-! ## Calls -/

/-- What is made of an answer can be made of it before it leaves the lookup. -/
lemma Lookup.map_ask {α β : Type} (l : Lookup σ) (question : Node → Except Error α) (f : α → β) :
    (fun state => (l.ask question state).map f)
      = l.ask fun node => (question node).map f := by
  funext state
  rw [Lookup.ask, Lookup.ask]
  cases l.resolve state <;> rfl

/-- Finding the node is asking for it. -/
lemma Lookup.map_resolve {β : Type} (l : Lookup σ) (f : Node → β) :
    (fun state => (l.resolve state).map f) = l.ask fun node => .ok (f node) := by
  funext state
  rw [Lookup.ask]
  cases l.resolve state <;> rfl

namespace View

/-- An operation that asks the node of a lookup something. -/
def IsQuestion (l : Lookup σ) (operation : σ → Outcome σ ViewAnswer) : Prop :=
  ∃ question : Node → Except Error ViewAnswer, operation = asking (l.ask question)

/-- An operation that stores allowed values on the node of a lookup. -/
def IsChange (l : Lookup σ) (allowed : String → Value → Prop)
    (operation : σ → Outcome σ ViewAnswer) : Prop :=
  ∃ change : Node → Outcome Node Unit,
    (∀ node, Node.Rewritten allowed node (change node).1) ∧ operation = setting (l.run change)

/-- **All that a call can be**: a question to the node of the lookup, or a change of it. -/
lemma BoundTo.call_cases {call : ViewCall} {operation : σ → Outcome σ ViewAnswer}
    (h : v.BoundTo l) (hc : v.call? call = some operation) :
    IsQuestion l operation ∨ IsChange l v.Sets operation := by
  cases call with
  | lookupNode =>
      cases hc
      rw [h.lookup_eq]
      exact Or.inl ⟨_, congrArg asking (l.map_resolve _)⟩
  | readAttributes =>
      rcases Option.map_eq_some_iff.1 hc with ⟨take, ht, rfl⟩
      cases h <;> cases ht
      all_goals exact Or.inl ⟨_, congrArg asking (l.map_ask _ _)⟩
  | getOwner =>
      rcases Option.map_eq_some_iff.1 hc with ⟨o, ho, rfl⟩
      cases h.ownerView ho
      exact Or.inl ⟨_, congrArg asking (o.lookup.map_ask _ _)⟩
  | setTimes lastModified lastAccess creation =>
      rcases Option.map_eq_some_iff.1 hc with ⟨b, hb, rfl⟩
      cases h.timesView hb
      refine Or.inr ⟨_, fun node => rewritten_storeTimes ?_ _ _ ?_, rfl⟩
      · exact fun name hn value stored hs => .time hb hn hs
      · simp [timeNames]
  | setOwner value =>
      rcases Option.map_eq_some_iff.1 hc with ⟨o, ho, rfl⟩
      cases h.ownerView ho
      exact Or.inr ⟨_, rewritten_storeChecked fun stored hs => .owner ho hs, rfl⟩
  | setGroup value =>
      cases h <;> cases hc
      exact Or.inr ⟨_, rewritten_storeChecked fun stored hs => .group rfl hs, rfl⟩
  | setPermissions value =>
      cases h <;> cases hc
      exact Or.inr ⟨_, rewritten_storeChecked fun stored hs => .permissions rfl hs, rfl⟩
  | setFlag flag value =>
      cases h <;> cases hc
      exact Or.inr ⟨_, rewritten_storeChecked fun stored hs => .flag rfl flag hs, rfl⟩

section Calls

variable {call : ViewCall} {operation : σ → Outcome σ ViewAnswer}

/-- **Without a file** a call ends with the error of the lookup and changes nothing, whatever its
arguments are. -/
lemma BoundTo.call_of_error {e : Error} (h : v.BoundTo l) (hc : v.call? call = some operation)
    (missing : l.resolve state = .error e) : operation state = (state, .error e) := by
  rcases h.call_cases hc with ⟨question, rfl⟩ | ⟨change, -, rfl⟩
  · rw [asking, Lookup.ask, missing, error_bind]
  · simp only [setting, Lookup.run, missing]
    rfl

/-- **With a file** a call changes at most the node of this file. -/
lemma BoundTo.call_of_ok {node : Node} (h : v.BoundTo l) (hc : v.call? call = some operation)
    (found : l.resolve state = .ok node) :
    (operation state).1 = state ∨
      ∃ node', Node.Rewritten v.Sets node node' ∧ (operation state).1 = l.store node' state := by
  rcases h.call_cases hc with ⟨question, rfl⟩ | ⟨change, hr, rfl⟩
  · exact Or.inl rfl
  · refine Or.inr ⟨(change node).1, hr node, ?_⟩
    simp only [setting, Lookup.run, found]

end Calls

end View

end AttributeViews
