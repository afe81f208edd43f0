import AttributeViews.Error
import AttributeViews.Value

/-!
# The elements of values

Sets keep one of several equal elements.  Numbers are equal by what they are worth, whatever their
type, so `True`, `1` and `1.0` are one element; aware moments are equal by their instant; principals
by kind and name; objects of other classes only to themselves.  Lists, tables and changeable sets
cannot be elements.

* `Value.same` — equality of elements.
* `Value.collect`, `Value.frozen`, `Value.dictOf` — sets and tables made from lists.
* `Value.elements` — what a value yields when it is walked through.
* `Value.freeze` — the frozen set of a value's elements.
-/

namespace AttributeViews

namespace Value

/-! ## Equality of elements -/

/-- Equality of a number with another value. -/
def sameNumber : Value → Value → Bool
  | int m, int n => m == n
  | int n, float x | float x, int n => x.isInteger n
  | float x, float y => x.same y
  | _, _ => false

/-- A truth value as a number, other values as they are. -/
def asNumber : Value → Value
  | bool b => int (if b then 1 else 0)
  | v => v

mutual
/-- Equality of elements. -/
def same : Value → Value → Bool
  | null, null => true
  | text s, text t => s == t
  | bytes as, bytes bs => as == bs
  | tuple xs, tuple ys => sameAll xs ys
  | frozenset xs, frozenset ys => xs.length == ys.length && within xs ys
  | permission p, permission q => p == q
  | permissions s, permissions t => s == t
  | principal p, principal q => p == q
  | moment a, moment b => a.same b
  | date a, date b => a == b
  | time a, time b => a == b
  | object title m, object title' n => title == title' && m == n
  | v, w => sameNumber v.asNumber w.asNumber

/-- Whether two lists hold the same elements, place by place. -/
def sameAll : List Value → List Value → Bool
  | [], [] => true
  | x :: xs, y :: ys => same x y && sameAll xs ys
  | _, _ => false

/-- Whether every element of the first list is in the second. -/
def within : List Value → List Value → Bool
  | [], _ => true
  | x :: xs, ys => (ys.any fun y => same x y) && within xs ys
end

/-! ## Sets and tables from lists -/

/-- The first of each group of equal elements. -/
def collect (xs : List Value) : List Value :=
  xs.foldl (fun found x => if found.any (same · x) then found else found ++ [x]) []

/-- The frozen set of elements that differ from each other. -/
def frozen (xs : List Value) : Value :=
  match xs.mapM permission? with
  | some ps => permissions (PermissionSet.ofList ps)
  | none => frozenset xs

/-- Give a key a value: the key's place and its own form are kept if an equal one is there. -/
def putEntry (entries : List (Value × Value)) (key value : Value) : List (Value × Value) :=
  if entries.any (same ·.1 key) then
    entries.map fun e => if same e.1 key then (e.1, value) else e
  else entries ++ [(key, value)]

/-- The table of keys and values that are given one after the other. -/
def dictOf (pairs : List (Value × Value)) : Value :=
  dict (pairs.foldl (fun entries p => putEntry entries p.1 p.2) [])

/-! ## Walking through a value -/

/-- What a value yields when it is walked through: a text its characters, a table its keys. -/
def elements : Value → Except Error (List Value)
  | text s => .ok (s.toList.map fun c => text (String.singleton c))
  | bytes bs => .ok (bs.map fun b => int b.toNat)
  | list xs | tuple xs | set xs | frozenset xs | keys xs => .ok xs
  | dict entries => .ok (entries.map (·.1))
  | permissions s => .ok (s.toList.map permission)
  | v => .error (.notIterable v.familyTypeName)

mutual
/-- The type that keeps a value from being an element, if one does. -/
def unhashable? : Value → Option String
  | list _ => some "list"
  | set _ => some "set"
  | keys _ => some "dict_keys"
  | dict _ => some "dict"
  | tuple xs => unhashableAmong? xs
  | _ => none

/-- The type that keeps the first unsuitable value of a list from being an element. -/
def unhashableAmong? : List Value → Option String
  | [] => none
  | x :: xs => (unhashable? x).orElse fun _ => unhashableAmong? xs
end

/-- The frozen set of a value's elements. -/
def freeze (v : Value) : Except Error Value := do
  let xs ← v.elements
  match unhashableAmong? xs with
  | some name => .error (.unhashable name)
  | none => return frozen (collect xs)

end Value

end AttributeViews
