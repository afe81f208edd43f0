import AttributeViews.Proofs.Registry.ReadingOrder
import AttributeViews.Registry.Walk
import Mathlib.Algebra.GroupWithZero.Nat
import Mathlib.Order.Lattice.Nat

/-!
# The closure is found near to far

A walk takes every view that is queued off the queue again, and it queues what a provider inherits
only when that provider is found, which happens once.  So the number of its turns is known in
advance: one for the view that it begins with, and one for every view that a found provider
inherits.

* `reachable_cons_of_mem`, `reachable_cons_of_notMem` — the search, with the view in front of its
  queue taken off.
* **`Registry.turns_eq_reachable`** — a walk from any state ends, and has found what the search
  finds.
* `distance` — the length of the shortest way from one name to another.
* **`Registry.closure_nearest_first`** — what the closure of a view is, and that the walk ends with
  it.
-/

namespace AttributeViews

variable {successors : String → List String} {unseen queue queue' rest : List String}
  {name view : String}

/-! ## Taking the view in front off the queue -/

/-- Views in the queue that have been seen make no difference to the search. -/
lemma reachable_congr (h : queue.filter (· ∈ unseen) = queue'.filter (· ∈ unseen)) :
    reachable successors unseen queue = reachable successors unseen queue' := by
  cases hq : queue.filter (· ∈ unseen) with
  | nil => rw [reachable_of_filter_eq_nil hq, reachable_of_filter_eq_nil (h.symm.trans hq)]
  | cons name rest =>
      rw [reachable_of_filter_eq_cons hq, reachable_of_filter_eq_cons (h.symm.trans hq)]

lemma reachable_cons_of_notMem (seen : name ∉ unseen) :
    reachable successors unseen (name :: rest) = reachable successors unseen rest :=
  reachable_congr (List.filter_cons_of_neg (by simpa using seen))

lemma reachable_cons_of_mem (new : name ∈ unseen) :
    reachable successors unseen (name :: rest)
      = name :: reachable successors (unseen.erase name) (rest ++ successors name) := by
  have hfront : (name :: rest).filter (· ∈ unseen) = name :: rest.filter (· ∈ unseen) :=
    List.filter_cons_of_pos (by simpa using new)
  rw [reachable_of_filter_eq_cons hfront]
  refine congrArg _ (reachable_congr ?_)
  rw [List.filter_append, List.filter_append, List.filter_filter]
  refine congrArg (· ++ _) (List.filter_congr fun other _ => ?_)
  by_cases hother : other ∈ unseen.erase name
  · simp [hother, List.mem_of_mem_erase hother]
  · simp [hother]

/-! ## How many turns a walk takes -/

/-- What a search has not seen is what a walk has not found, and all that waits is registered. -/
structure Walk.Agrees (r : Registry) (w : Walk) (unseen : List String) : Prop where
  nodup : unseen.Nodup
  known : w.queue ⊆ r.names
  unfound : ∀ name ∈ r.names, name ∈ unseen ↔ name ∉ w.found.map (·.name)

namespace Registry

variable {r : Registry} {p : Provider} {found : List Provider} {n : ℕ}

/-- How many views the providers of a list inherit, each counted for itself. -/
def inheritedCount (providers : List Provider) : ℕ := (providers.map (·.inherited.length)).sum

/-- A turn with a view whose provider has been found. -/
lemma turn_of_notMem (agrees : Walk.Agrees r ⟨found, name :: rest⟩ unseen) (seen : name ∉ unseen) :
    r.turn ⟨found, name :: rest⟩ = some ⟨found, rest⟩ ∧ Walk.Agrees r ⟨found, rest⟩ unseen := by
  have hname : name ∈ r.names := agrees.known List.mem_cons_self
  obtain ⟨p, hp⟩ := exists_find? hname
  have hfound : name ∈ found.map (·.name) := not_not.1 (mt (agrees.unfound name hname).2 seen)
  have hany : found.any (·.name == p.name) = true := by simpa [name_of_find? hp] using hfound
  refine ⟨?_, agrees.nodup, fun _ h => agrees.known (List.mem_cons_of_mem _ h), agrees.unfound⟩
  simp only [turn, hp, Option.map_some, hany, if_true]

/-- A turn with a view whose provider has not been found. -/
lemma turn_of_mem (closed : ∀ view ∈ r.names, inheritedBy r.providers view ⊆ r.names)
    (agrees : Walk.Agrees r ⟨found, name :: rest⟩ unseen) (new : name ∈ unseen) :
    ∃ p, r.find? name = some p ∧ inheritedBy r.providers name = p.inherited ∧
      r.turn ⟨found, name :: rest⟩ = some ⟨found ++ [p], rest ++ p.inherited⟩ ∧
      Walk.Agrees r ⟨found ++ [p], rest ++ p.inherited⟩ (unseen.erase name) := by
  have hname : name ∈ r.names := agrees.known List.mem_cons_self
  obtain ⟨p, hp⟩ := exists_find? hname
  have hinherited : inheritedBy r.providers name = p.inherited := by
    have hp' : providerOf? r.providers name = some p := hp
    rw [inheritedBy, hp']
  have hfound : name ∉ found.map (·.name) := (agrees.unfound name hname).1 new
  have hany : found.any (·.name == p.name) = false := by simpa [name_of_find? hp] using hfound
  refine ⟨p, hp, hinherited, ?_, agrees.nodup.erase name, ?_, fun other hother => ?_⟩
  · simp only [turn, hp, Option.map_some, hany, Bool.false_eq_true, if_false]
  · exact List.append_subset.2 ⟨fun _ h => agrees.known (List.mem_cons_of_mem _ h),
      hinherited ▸ closed name hname⟩
  · rw [agrees.nodup.mem_erase_iff, agrees.unfound other hother, List.map_append, List.mem_append,
      not_or, List.map_singleton, List.mem_singleton, name_of_find? hp]
    exact and_comm

/-- **A walk ends** when all that waits and all that is queued on the way has been taken off, and
then it has found what the search finds among the names that were not found before. -/
lemma turns_eq_reachable (closed : ∀ view ∈ r.names, inheritedBy r.providers view ⊆ r.names) (n : ℕ) :
    ∀ {unseen queue found}, Walk.Agrees r ⟨found, queue⟩ unseen →
      queue.length + inheritedCount ((reachable (inheritedBy r.providers) unseen queue).filterMap
        r.find?) = n →
      r.turns n ⟨found, queue⟩
        = some ⟨found ++ (reachable (inheritedBy r.providers) unseen queue).filterMap r.find?, []⟩ := by
  induction n with
  | zero =>
      intro unseen queue found _ count
      obtain rfl := List.length_eq_zero_iff.1 (Nat.eq_zero_of_add_eq_zero_right count)
      rw [reachable_of_filter_eq_nil rfl, List.filterMap_nil, List.append_nil, turns]
  | succ n ih =>
      intro unseen queue found agrees count
      rcases queue with _ | ⟨name, rest⟩
      · rw [reachable_of_filter_eq_nil rfl] at count
        cases count
      · by_cases new : name ∈ unseen
        · obtain ⟨p, hp, hinherited, hturn, after⟩ := turn_of_mem closed agrees new
          rw [reachable_cons_of_mem new, List.filterMap_cons_some hp, hinherited] at count ⊢
          rw [inheritedCount, List.map_cons, List.sum_cons, ← inheritedCount,
            List.length_cons] at count
          rw [turns, hturn, Option.bind_some, ih after, List.append_assoc, List.singleton_append]
          rw [List.length_append]
          omega
        · obtain ⟨hturn, after⟩ := turn_of_notMem agrees new
          rw [reachable_cons_of_notMem new] at count ⊢
          rw [List.length_cons] at count
          rw [turns, hturn, Option.bind_some, ih after]
          omega

end Registry

/-! ## Distances -/

variable {leads : String → String → Prop} {start x y : String}

/-- The lengths of the ways from one name to another. -/
def wayLengths (leads : String → String → Prop) (start name : String) : Set ℕ :=
  {n | ∃ way, Way leads start way name ∧ way.length = n}

/-- The length of the shortest way from one name to another. -/
noncomputable def distance (leads : String → String → Prop) (start name : String) : ℕ :=
  sInf (wayLengths leads start name)

/-- Where there is a way, the shortest one is as long as the distance. -/
lemma isLeast_distance (reached : Relation.ReflTransGen leads start name) :
    IsLeast (wayLengths leads start name) (distance leads start name) := by
  obtain ⟨way, hway⟩ := exists_way_iff.2 reached
  exact ⟨Nat.sInf_mem ⟨_, way, hway, rfl⟩, fun _ h => Nat.sInf_le h⟩

/-- What is found before a name is no further away. -/
lemma FoundBefore.distance_le (h : FoundBefore leads start x y)
    (reached : Relation.ReflTransGen leads start y) :
    distance leads start x ≤ distance leads start y := by
  obtain ⟨way, hx, before⟩ := h
  obtain ⟨way', hy, hlength⟩ := (isLeast_distance reached).1
  calc distance leads start x ≤ way.length := Nat.sInf_le ⟨way, hx, rfl⟩
    _ ≤ way'.length := by
      rcases rank_lt_iff.1 (before way' hy) with hlt | ⟨heq, -⟩
      · exact hlt.le
      · exact heq.le
    _ = distance leads start y := hlength

/-! ## The closure of a view -/

namespace Registry

variable {providers : List Provider} {defaults : Table String Value} {r : Registry}

/-- **The closure of a view** is what a walk from the view has found when nothing waits any more,
which is after one turn for the view itself and one for every view that a found provider inherits.
It begins with the view's own provider, holds exactly those of the views that it inherits, directly
or by way of others, each once, and never goes from a more distant view to a nearer one. -/
theorem closure_nearest_first (built : build providers defaults = .ok r)
    (registered : view ∈ r.names) :
    r.turns (1 + inheritedCount (r.closure view)) (.start view) = some ⟨r.closure view, []⟩ ∧
    (∃ own inherited, r.closure view = own :: inherited ∧ own.name = view) ∧
    ((r.closure view).map (·.name)).Nodup ∧
    (∀ p, p ∈ r.closure view ↔ p ∈ r.providers ∧ InheritsFrom r.providers view p.name) ∧
    (∀ p ∈ r.closure view, IsLeast (wayLengths (Inherits r.providers) view p.name)
      (distance (Inherits r.providers) view p.name)) ∧
    (r.closure view).Pairwise fun p q =>
      distance (Inherits r.providers) view p.name ≤ distance (Inherits r.providers) view q.name := by
  have distinct := viewsDistinct_of_build built
  have closed := inheritedBy_subset distinct (inheritanceComplete_of_build built)
  have exact : ∀ p, p ∈ r.closure view ↔
      p ∈ r.providers ∧ InheritsFrom r.providers view p.name :=
    fun p => mem_closure_iff built registered
  have ordered := pairwise_closure built registered
  refine ⟨?_, ?_, ?_, exact, fun p hp => isLeast_distance ((exact p).1 hp).2, ?_⟩
  · have agrees : Walk.Agrees r (.start view) r.names :=
      ⟨distinct, by simpa [Walk.start] using registered, fun _ h => by simpa [Walk.start] using h⟩
    exact turns_eq_reachable closed _ agrees rfl
  · obtain ⟨own, hown⟩ := exists_find? registered
    rw [closure, reachable_cons_of_mem registered, List.filterMap_cons_some hown]
    exact ⟨own, _, rfl, name_of_find? hown⟩
  · rw [List.nodup_iff_pairwise_ne, List.pairwise_map]
    refine ordered.imp fun before same => ?_
    rw [same] at before
    exact before.asymm before
  · exact ordered.imp_of_mem fun _ hq before => before.distance_le ((exact _).1 hq).2

/-- One of the views is queued twice, so the walk takes four turns to find three. -/
theorem closure_nearest_first_triangle :
    build triangle.providers .empty = .ok triangle ∧ "c" ∈ triangle.names ∧
      (triangle.closure "c").map (·.name) = ["c", "a", "b"] ∧
      triangle.turns 4 (.start "c") = some ⟨triangle.closure "c", []⟩ ∧
      distance (Inherits triangle.providers) "c" "c"
        ≤ distance (Inherits triangle.providers) "c" "b" := by
  have registered : "c" ∈ triangle.names := by decide
  have hnames : (triangle.closure "c").map (·.name) = ["c", "a", "b"] := by
    rw [closure_triangle]
    rfl
  have hcount : 1 + inheritedCount (triangle.closure "c") = 4 := by
    rw [closure_triangle]
    decide
  obtain ⟨walk, -, -, -, -, near⟩ := closure_nearest_first build_triangle registered
  rw [hcount] at walk
  rw [closure_triangle] at near
  exact ⟨build_triangle, registered, hnames, walk,
    (List.pairwise_cons.1 near).1 (.single "b" ["a"] "y") (by simp)⟩

end Registry

end AttributeViews
