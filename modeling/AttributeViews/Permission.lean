/-!
# Permissions

A permission grants one right to one party.  Three rights and three parties make nine permissions,
which are always listed party by party.

A set of permissions is a record of nine flags, three for each party, so two sets with the same
members are the same value.

* `Permission.all` — the nine, in order.
* `PermissionSet.contains`, `insert`, `ofList`, `toList` — **`contains_insert`** and
  **`contains_ofList`** are their equations, **`PermissionSet.ext`** says that members determine the
  set.
-/

namespace AttributeViews

/-- Who is granted a right. -/
inductive Party where
  | owner
  | group
  | others
deriving DecidableEq, Inhabited

/-- What may be done to a file. -/
inductive Right where
  | read
  | write
  | execute
deriving DecidableEq, Inhabited

/-- One right of one party. -/
structure Permission where
  party : Party
  right : Right
deriving DecidableEq, Inhabited

/-- The name of a party, in lower case. -/
def Party.label : Party → String
  | .owner => "owner"
  | .group => "group"
  | .others => "others"

/-- The name of a right, in lower case. -/
def Right.label : Right → String
  | .read => "read"
  | .write => "write"
  | .execute => "execute"

/-- The letter of a right in the notation of permissions. -/
def Right.letter : Right → Char
  | .read => 'r'
  | .write => 'w'
  | .execute => 'x'

namespace Permission

/-- The nine permissions, party by party. -/
def all : List Permission :=
  [⟨.owner, .read⟩, ⟨.owner, .write⟩, ⟨.owner, .execute⟩,
   ⟨.group, .read⟩, ⟨.group, .write⟩, ⟨.group, .execute⟩,
   ⟨.others, .read⟩, ⟨.others, .write⟩, ⟨.others, .execute⟩]

theorem mem_all (p : Permission) : p ∈ all := by
  obtain ⟨party, right⟩ := p
  cases party <;> cases right <;> decide

/-- The party and the right with a colon between them. -/
def label (p : Permission) : String := p.party.label ++ ":" ++ p.right.label

/-- The party and the right in capitals with an underscore between them. -/
def title (p : Permission) : String := p.party.label.toUpper ++ "_" ++ p.right.label.toUpper

/-- The permission with a title. -/
def ofTitle? (title : String) : Option Permission := all.find? (·.title == title)

end Permission

/-- The rights of one party. -/
structure Access where
  read : Bool
  write : Bool
  execute : Bool
deriving DecidableEq, Inhabited

namespace Access

/-- No right at all. -/
def none : Access := ⟨false, false, false⟩

/-- Whether a right is granted. -/
def allows (a : Access) : Right → Bool
  | .read => a.read
  | .write => a.write
  | .execute => a.execute

/-- Add a right. -/
def grant (a : Access) : Right → Access
  | .read => { a with read := true }
  | .write => { a with write := true }
  | .execute => { a with execute := true }

end Access

/-- A set of permissions: the rights of each party. -/
structure PermissionSet where
  owner : Access
  group : Access
  others : Access
deriving DecidableEq, Inhabited

namespace PermissionSet

/-- The set without members. -/
def empty : PermissionSet := ⟨.none, .none, .none⟩

instance : EmptyCollection PermissionSet := ⟨empty⟩

/-- The rights of a party. -/
def access (s : PermissionSet) : Party → Access
  | .owner => s.owner
  | .group => s.group
  | .others => s.others

/-- Whether a permission is a member. -/
def contains (s : PermissionSet) (p : Permission) : Bool := (s.access p.party).allows p.right

/-- Add a permission. -/
def insert (s : PermissionSet) (p : Permission) : PermissionSet :=
  match p.party with
  | .owner => { s with owner := s.owner.grant p.right }
  | .group => { s with group := s.group.grant p.right }
  | .others => { s with others := s.others.grant p.right }

/-- The set of the permissions in a list. -/
def ofList (ps : List Permission) : PermissionSet := ps.foldl insert empty

/-- The members, in the order of the nine. -/
def toList (s : PermissionSet) : List Permission := Permission.all.filter s.contains

@[simp] theorem contains_empty (p : Permission) : empty.contains p = false := by
  obtain ⟨party, right⟩ := p
  cases party <;> cases right <;> rfl

@[simp] theorem contains_insert (s : PermissionSet) (p q : Permission) :
    (s.insert p).contains q = (decide (p = q) || s.contains q) := by
  obtain ⟨party, right⟩ := p
  obtain ⟨party', right'⟩ := q
  cases party <;> cases right <;> cases party' <;> cases right' <;>
    simp [insert, contains, access, Access.grant, Access.allows]

/-- **The members determine the set.** -/
theorem ext {s t : PermissionSet} (h : ∀ p, s.contains p = t.contains p) : s = t := by
  obtain ⟨⟨_, _, _⟩, ⟨_, _, _⟩, ⟨_, _, _⟩⟩ := s
  obtain ⟨⟨_, _, _⟩, ⟨_, _, _⟩, ⟨_, _, _⟩⟩ := t
  have h₁ := h ⟨.owner, .read⟩
  have h₂ := h ⟨.owner, .write⟩
  have h₃ := h ⟨.owner, .execute⟩
  have h₄ := h ⟨.group, .read⟩
  have h₅ := h ⟨.group, .write⟩
  have h₆ := h ⟨.group, .execute⟩
  have h₇ := h ⟨.others, .read⟩
  have h₈ := h ⟨.others, .write⟩
  have h₉ := h ⟨.others, .execute⟩
  simp_all [contains, access, Access.allows]

theorem contains_foldl_insert (ps : List Permission) (s : PermissionSet) (q : Permission) :
    (ps.foldl insert s).contains q = (decide (q ∈ ps) || s.contains q) := by
  induction ps generalizing s with
  | nil => simp
  | cons p ps ih =>
    rw [List.foldl_cons, ih, contains_insert]
    by_cases h : q = p
    · simp [h]
    · simp [h, Ne.symm h]

/-- A set made from a list has the list's members. -/
@[simp] theorem contains_ofList (ps : List Permission) (q : Permission) :
    (ofList ps).contains q = decide (q ∈ ps) := by
  simp [ofList, contains_foldl_insert]

/-- A set listed has its own members. -/
@[simp] theorem mem_toList {s : PermissionSet} {p : Permission} :
    p ∈ s.toList ↔ s.contains p = true := by
  simp [toList, Permission.mem_all]

/-- Listing a set and collecting the list gives the set back. -/
@[simp] theorem ofList_toList (s : PermissionSet) : ofList s.toList = s :=
  ext fun p => by
    rw [contains_ofList]
    cases h : s.contains p <;> simp [h]

end PermissionSet

end AttributeViews
