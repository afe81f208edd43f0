/-!
# Walking along inheritance

Views inherit other views.  Two walks along this relation are needed: from everywhere depth first,
to put every view behind those it inherits, and from one view breadth first, to find what it
inherits from near to far.

* `postorder` — the depth-first walk: every name behind its successors, or a cycle that keeps that
  from being possible.
* `reachable` — the breadth-first walk: every name once, nearest first.

Both take the relation as a function from a name to its successors, in the order in which they are
to be walked.
-/

namespace AttributeViews

/-! ## Depth first -/

/-- The part of a path from its head to a name, both included. -/
def pathTo (name : String) : List String → List String
  | [] => []
  | n :: rest => if n = name then [n] else n :: pathTo name rest

/-- Visit a name below `path`, whose head is the name visited last.  The answer is `done` followed
by the names that are finished now; the error is a cycle, from its first name on the path back to
that name.  A path never holds a name twice, so `depth` need not exceed the number of names. -/
def visit (successors : String → List String) :
    (depth : Nat) → (path done : List String) → String → Except (List String) (List String)
  | 0, _, done, _ => .ok done
  | depth + 1, path, done, name =>
      if name ∈ done then .ok done
      else if name ∈ path then .error ((pathTo name path).reverse ++ [name])
      else do
        let done ← (successors name).foldlM (visit successors depth (name :: path)) done
        return done ++ [name]

/-- Visit names one after the other.  `size` is how many names there are in all; a path that is one
longer than that repeats a name. -/
def postorder (successors : String → List String) (size : Nat) (names : List String) :
    Except (List String) (List String) :=
  names.foldlM (visit successors (size + 1) []) []

/-! ## Breadth first -/

/-- The names of a queue and their successors, those of `unseen` only, each once and in the order of
their distance from the queue. -/
def reachable (successors : String → List String) (unseen queue : List String) : List String :=
  match _h : queue.filter (· ∈ unseen) with
  | [] => []
  | name :: rest =>
      name :: reachable successors (unseen.erase name) (rest ++ successors name)
termination_by unseen.length
decreasing_by
  have hm : name ∈ queue.filter (· ∈ unseen) := by rw [_h]; exact List.mem_cons_self
  have hu : name ∈ unseen := by simpa using (List.mem_filter.1 hm).2
  have := List.length_erase_of_mem hu
  have := List.length_pos_of_mem hu
  omega

theorem reachable_of_filter_eq_nil {successors : String → List String} {unseen queue : List String}
    (h : queue.filter (· ∈ unseen) = []) : reachable successors unseen queue = [] := by
  rw [reachable]
  split
  · rfl
  · next name rest he =>
    rw [h] at he
    cases he

/-- The first unseen name of the queue comes next, and its successors are queued. -/
theorem reachable_of_filter_eq_cons {successors : String → List String}
    {unseen queue rest : List String} {name : String}
    (h : queue.filter (· ∈ unseen) = name :: rest) :
    reachable successors unseen queue
      = name :: reachable successors (unseen.erase name) (rest ++ successors name) := by
  rw [reachable]
  split
  · next he =>
    rw [h] at he
    cases he
  · next name' rest' he =>
    rw [h] at he
    cases he
    rfl

end AttributeViews
