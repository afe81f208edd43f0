import AttributeViews.Error

/-!
# Journals

Operations leave records of what they did or passed over.  A `Logged` computation answers a value or
an error together with its records, oldest first; what was recorded before an error stays recorded.

* `Record`, `Level` — a record and how important it is.
* `Logged` — the computations, with `Logged.record` and `Logged.lift`.
* `visibleFrom` — the records at or above a level.
-/

namespace AttributeViews

/-- How important a record is. -/
inductive Level where
  | debug
  | info
  | warning
deriving DecidableEq, Inhabited

/-- The name of a level. -/
def Level.label : Level → String
  | .debug => "DEBUG"
  | .info => "INFO"
  | .warning => "WARNING"

/-- The place of a level in the order of importance. -/
def Level.rank : Level → Nat
  | .debug => 0
  | .info => 1
  | .warning => 2

/-- A message at a level. -/
structure Record where
  level : Level
  message : String
deriving DecidableEq, Inhabited

/-- A record as it is printed. -/
def Record.line (r : Record) : String := r.level.label ++ ": " ++ r.message

/-- The records at or above a level. -/
def visibleFrom (level : Level) (records : List Record) : List Record :=
  records.filter fun r => level.rank ≤ r.level.rank

/-- A computation that leaves records and answers a value or an error. -/
structure Logged (α : Type) where
  records : List Record
  result : Except Error α

namespace Logged

variable {α β : Type}

/-- A computation without records. -/
def lift (result : Except Error α) : Logged α := ⟨[], result⟩

/-- Leave records. -/
def recordAll (records : List Record) : Logged Unit := ⟨records, .ok ()⟩

/-- Leave one record. -/
def record (level : Level) (message : String) : Logged Unit := recordAll [⟨level, message⟩]

/-- Go on with a value; after an error there is nothing to go on with. -/
def andThen (x : Logged α) (f : α → Logged β) : Logged β :=
  match x.result with
  | .error e => ⟨x.records, .error e⟩
  | .ok a => ⟨x.records ++ (f a).records, (f a).result⟩

instance : Monad Logged where
  pure a := ⟨[], .ok a⟩
  bind := andThen

@[simp] theorem result_pure (a : α) : (pure a : Logged α).result = .ok a := rfl

@[simp] theorem result_lift (r : Except Error α) : (lift r).result = r := rfl

@[simp] theorem result_recordAll (rs : List Record) : (recordAll rs).result = .ok () := rfl

@[simp] theorem result_record (level : Level) (message : String) :
    (record level message).result = .ok () := rfl

/-- **The answer does not depend on the records.** -/
@[simp] theorem result_bind (x : Logged α) (f : α → Logged β) :
    (x >>= f).result = x.result >>= fun a => (f a).result := by
  obtain ⟨rs, r⟩ := x
  cases r <;> rfl

end Logged

end AttributeViews
