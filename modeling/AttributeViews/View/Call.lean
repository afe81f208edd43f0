import AttributeViews.View

/-!
# Calling live views

The operations of live views as data, so that a run can be written down as a list of what was
called.  Not every view has every operation: a view without one has nothing to call.

* `ViewCall`, `ViewAnswer` — the operations with their arguments, and what they answer.
* `View.call?` — the operation of a view that a call asks for.
-/

namespace AttributeViews

variable {σ : Type}

/-- An operation of a live view, with its arguments. -/
inductive ViewCall where
  | lookupNode
  | readAttributes
  | getOwner
  | setTimes (lastModified lastAccess creation : Value)
  | setOwner (owner : Value)
  | setGroup (group : Value)
  | setPermissions (permissions : Value)
  | setFlag (flag : DosFlag) (value : Value)

/-- What an operation of a live view answers. -/
inductive ViewAnswer where
  | node (node : Node)
  | snapshot (snapshot : Snapshot)
  | value (value : Value)
  /-- Something was set, and there is nothing to say about it. -/
  | done

namespace View

/-- An operation that only asks. -/
def asking (question : σ → Except Error ViewAnswer) (state : σ) : Outcome σ ViewAnswer :=
  (state, question state)

/-- A change, of which only the success is answered. -/
def setting (change : σ → Outcome σ Unit) (state : σ) : Outcome σ ViewAnswer :=
  ((change state).1, (change state).2.map fun _ => .done)

/-- The snapshot that a view takes of its file, if it takes any. -/
def snapshot? : View σ → Option (σ → Except Error Snapshot)
  | basic v => some v.readAttributes
  | posix v => some v.readAttributes
  | dos v => some v.readAttributes
  | owner _ | plain .. => none

/-- The operation of a view that a call asks for, if the view has it. -/
def call? (v : View σ) : ViewCall → Option (σ → Outcome σ ViewAnswer)
  | .lookupNode => some (asking fun state => (v.lookup.resolve state).map .node)
  | .readAttributes => v.snapshot?.map fun take => asking fun state => (take state).map .snapshot
  | .getOwner => v.ownerView?.map fun o => asking fun state => (o.getOwner state).map .value
  | .setTimes lastModified lastAccess creation =>
      v.timesView?.map fun b => setting (b.setTimes lastModified lastAccess creation)
  | .setOwner value => v.ownerView?.map fun o => setting (o.setOwner value)
  | .setGroup value =>
      match v with
      | posix p => some (setting (p.setGroup value))
      | _ => none
  | .setPermissions value =>
      match v with
      | posix p => some (setting (p.setPermissions value))
      | _ => none
  | .setFlag flag value =>
      match v with
      | dos d => some (setting (d.setFlag flag value))
      | _ => none

end View

end AttributeViews
