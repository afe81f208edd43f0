import AttributeViews.Error
import AttributeViews.Permission

/-!
# The nine-character notation of permissions

A set of permissions is written `rwxr-x---`: one place for each of the nine permissions, which
holds the letter of its right if the permission is granted and a dash if it is not.

* `PermissionSet.render` — the notation of a set.
* `PermissionSet.parse` — the set of a notation.  The length is checked first; then the places from
  left to right, and the first one with another character is the error.
-/

namespace AttributeViews

/-- The letter that stands for a granted permission. -/
def Permission.letter (p : Permission) : Char := p.right.letter

/-- How many characters a notation has. -/
def notationWidth : Nat := Permission.all.length

namespace PermissionSet

/-- The notation of a set, place by place. -/
def renderChars (s : PermissionSet) : List Char :=
  Permission.all.map fun p => if s.contains p then p.letter else '-'

/-- The notation of a set. -/
def render (s : PermissionSet) : String := String.ofList s.renderChars

/-- Read the places of a notation from `index` on, adding to the permissions granted so far. -/
def readPlaces (text : String) (granted : PermissionSet) :
    (index : Nat) → List Permission → List Char → Except Error PermissionSet
  | index, p :: ps, c :: cs =>
      if c = p.letter then readPlaces text (granted.insert p) (index + 1) ps cs
      else if c = '-' then readPlaces text granted (index + 1) ps cs
      else .error (.notationCharacter text p.letter index c)
  | _, _, _ => .ok granted

/-- The set that a notation stands for.  The length is checked first, and then the characters from
the left. -/
def parse (text : String) : Except Error PermissionSet :=
  if text.toList.length = notationWidth then readPlaces text empty 0 Permission.all text.toList
  else .error (.notationLength text)

end PermissionSet

end AttributeViews
