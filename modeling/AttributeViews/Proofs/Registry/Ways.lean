import AttributeViews.Proofs.Registry.Ordering
import Mathlib.Data.List.Lex
import Mathlib.Data.Prod.Lex

/-!
# Near views first

The breadth-first walk finds a name along the shortest way that leads to it, and of several such
ways along the one whose names come first.  In this order of their first ways it finds the names,
too: what waits in the queue are ways, in order, and no way to a name that is still unseen comes
before all of them.

* `Way` — the names that are passed from one name to another; `rank` compares ways by their length
  and then by their names.
* `FoundBefore` — one name has a way that comes before all ways to another one.
* `Frontier` — the invariant of the walk, kept by `Frontier.step`.
* **`pairwise_reachable`** — so the walk finds every name before those with later ways.
* **`Registry.pairwise_closure`** — and the closure of a view stands in this order.
-/

namespace AttributeViews

variable {successors : String → List String} {leads : String → String → Prop}
  {start name other first x y a b : String} {way way' u v : List String}

/-! ## Ways -/

/-- A way from a name to another one: the names that are passed on it, without the one that it
begins with. -/
inductive Way (leads : String → String → Prop) (start : String) : List String → String → Prop
  | nil : Way leads start [] start
  | snoc {way : List String} {name other : String} (before : Way leads start way name)
      (step : leads name other) : Way leads start (way ++ [other]) other

lemma Way.eq_getLastD (h : Way leads start way name) : name = way.getLastD start := by
  cases h with
  | nil => rfl
  | snoc _ _ => rw [List.getLastD_concat]

/-- A way leads to one name only. -/
lemma Way.unique (h : Way leads start way x) (h' : Way leads start way y) : x = y := by
  rw [h.eq_getLastD, h'.eq_getLastD]

lemma exists_way_iff :
    (∃ way, Way leads start way name) ↔ Relation.ReflTransGen leads start name := by
  constructor
  · rintro ⟨way, h⟩
    induction h with
    | nil => exact .refl
    | snoc _ step ih => exact ih.tail step
  · intro h
    induction h with
    | refl => exact ⟨[], .nil⟩
    | tail _ step ih =>
        obtain ⟨way, h⟩ := ih
        exact ⟨_, h.snoc step⟩

/-- Behind the end of a way it goes on to all that its end leads to. -/
lemma Way.exists_longer (h : Way leads start way x) (further : Relation.TransGen leads x y) :
    ∃ longer, Way leads start longer y ∧ way.length < longer.length := by
  induction further with
  | single step => exact ⟨_, h.snoc step, by simp⟩
  | tail _ step ih =>
      obtain ⟨longer, hl, hlt⟩ := ih
      exact ⟨_, hl.snoc step, by simp; omega⟩

/-- Ways are compared by their length, and by their names from the start on if they are as long as
each other. -/
def rank (way : List String) : ℕ ×ₗ List String := toLex (way.length, way)

lemma rank_lt_iff :
    rank way < rank way' ↔ way.length < way'.length ∨ way.length = way'.length ∧ way < way' :=
  Prod.Lex.toLex_lt_toLex

lemma rank_injective : Function.Injective rank := fun _ _ h => congrArg (·.2) (toLex.injective h)

lemma rank_nil_le (way : List String) : rank [] ≤ rank way := by
  rcases List.eq_nil_or_concat' way with rfl | ⟨before, last, rfl⟩
  · exact le_rfl
  · exact (rank_lt_iff.2 (Or.inl (by simp))).le

lemma concat_lt_concat_iff (u v : List String) (same : u.length = v.length) :
    u ++ [a] < v ++ [b] ↔ u < v ∨ u = v ∧ a < b := by
  induction u generalizing v with
  | nil =>
      obtain rfl := List.length_eq_zero_iff.1 same.symm
      simp [List.cons_lt_cons_iff]
  | cons c u ih =>
      obtain ⟨d, v, rfl⟩ := List.exists_cons_of_length_eq_add_one same.symm
      have hlen : u.length = v.length := by simpa using same
      simp only [List.cons_append, List.cons_lt_cons_iff, ih v hlen, List.cons.injEq]
      tauto

/-- One name further, the order is that of the ways before, and then that of the last names. -/
lemma rank_concat_lt_iff :
    rank (u ++ [a]) < rank (v ++ [b]) ↔ rank u < rank v ∨ u = v ∧ a < b := by
  simp only [rank_lt_iff, List.length_append, List.length_singleton, Nat.add_lt_add_iff_right,
    Nat.add_right_cancel_iff]
  by_cases same : u.length = v.length
  · simp [concat_lt_concat_iff u v same, same]
  · have hne : u ≠ v := fun h => same (congrArg List.length h)
    simp [same, hne]

lemma rank_lt_concat (way : List String) (name : String) : rank way < rank (way ++ [name]) :=
  rank_lt_iff.2 (Or.inl (by simp))

lemma rank_concat_le (h : rank u ≤ rank v) (name : String) :
    rank (u ++ [name]) ≤ rank (v ++ [name]) := by
  rcases h.lt_or_eq with hlt | heq
  · exact (rank_concat_lt_iff.2 (Or.inl hlt)).le
  · rw [rank_injective heq]

/-- A way to one name comes before all ways to another one. -/
def FoundBefore (leads : String → String → Prop) (start x y : String) : Prop :=
  ∃ way, Way leads start way x ∧ ∀ way', Way leads start way' y → rank way < rank way'

lemma FoundBefore.asymm (h : FoundBefore leads start x y) : ¬ FoundBefore leads start y x := by
  rintro ⟨way', hy, hbefore'⟩
  obtain ⟨way, hx, hbefore⟩ := h
  exact lt_asymm (hbefore way' hy) (hbefore' way hx)

/-! ## What waits in the queue -/

/-- The state of the walk, with the way by which every name has come into the queue. -/
structure Frontier (successors : String → List String) (start : String) (unseen : List String)
    (queue : List (List String × String)) : Prop where
  /-- The names wait with ways to them. -/
  ways : ∀ e ∈ queue, Way (fun a b => b ∈ successors a) start e.1 e.2
  /-- The ways wait in order. -/
  ordered : queue.Pairwise fun e e' => rank e.1 < rank e'.1
  /-- They have all been queued before any of them was followed further. -/
  close : ∀ e ∈ queue, ∀ e' ∈ queue, e.1 = [] ∨ rank e.1.dropLast < rank e'.1
  /-- The walk begins in the queue. -/
  origin : start ∈ unseen → ([], start) ∈ queue
  /-- What has been seen has been followed along its first way. -/
  followed : ∀ name, name ∉ unseen → ∀ way, Way (fun a b => b ∈ successors a) start way name →
    ∀ other ∈ successors name, other ∈ unseen →
      ∃ e ∈ queue, e.2 = other ∧ rank e.1 ≤ rank (way ++ [other])

variable {unseen : List String} {queue rest : List (List String × String)}

/-- In front of every way to a name that has not been seen, another one waits. -/
lemma Frontier.exists_rank_le (h : Frontier successors start unseen queue)
    (hway : Way (fun a b => b ∈ successors a) start way name) (new : name ∈ unseen) :
    ∃ e ∈ queue, e.2 ∈ unseen ∧ rank e.1 ≤ rank way := by
  induction hway with
  | nil => exact ⟨_, h.origin new, new, le_rfl⟩
  | snoc before step ih =>
      rename_i way name other
      by_cases seen : name ∈ unseen
      · obtain ⟨e, he, hnew, hle⟩ := ih seen
        exact ⟨e, he, hnew, hle.trans (rank_lt_concat way other).le⟩
      · obtain ⟨e, he, rfl, hle⟩ := h.followed name seen way before other step new
        exact ⟨e, he, new, hle⟩

/-- Names that have been seen may be left out of the queue. -/
lemma Frontier.filter (h : Frontier successors start unseen queue) :
    Frontier successors start unseen (queue.filter (·.2 ∈ unseen)) := by
  have hmem : ∀ {e}, e ∈ queue.filter (·.2 ∈ unseen) ↔ e ∈ queue ∧ e.2 ∈ unseen := by
    simp [List.mem_filter]
  refine ⟨fun e he => h.ways e (hmem.1 he).1, h.ordered.filter _,
    fun e he e' he' => h.close e (hmem.1 he).1 e' (hmem.1 he').1,
    fun new => hmem.2 ⟨h.origin new, new⟩, fun name seen way hway other step new => ?_⟩
  obtain ⟨e, he, rfl, hle⟩ := h.followed name seen way hway other step new
  exact ⟨e, hmem.2 ⟨he, new⟩, rfl, hle⟩

/-- The way in front comes before all ways to names that have not been seen. -/
lemma Frontier.rank_le (h : Frontier successors start unseen ((u, first) :: rest))
    (hway : Way (fun a b => b ∈ successors a) start way name) (new : name ∈ unseen) :
    rank u ≤ rank way := by
  obtain ⟨e, he, -, hle⟩ := h.exists_rank_le hway new
  rcases List.mem_cons.1 he with rfl | he
  · exact hle
  · exact ((List.pairwise_cons.1 h.ordered).1 e he).le.trans hle

/-- **One step of the walk.**  The name in front is seen, and the ways that go on from it are put
behind the others. -/
lemma Frontier.step (sorted : ∀ name, (successors name).Pairwise (· < ·)) (nodup : unseen.Nodup)
    (h : Frontier successors start unseen ((u, first) :: rest)) (new : first ∈ unseen) :
    Frontier successors start (unseen.erase first)
      (rest ++ (successors first).map fun other => (u ++ [other], other)) := by
  obtain ⟨hfront, hrest⟩ := List.pairwise_cons.1 h.ordered
  have hu : Way (fun a b => b ∈ successors a) start u first := h.ways _ List.mem_cons_self
  have hmem : ∀ {e}, e ∈ rest ++ (successors first).map (fun other => (u ++ [other], other)) ↔
      e ∈ rest ∨ ∃ other ∈ successors first, (u ++ [other], other) = e := by
    simp [List.mem_append, List.mem_map]
  have hkept : ∀ e ∈ (u, first) :: rest, e.2 ∈ unseen.erase first → e ∈ rest := by
    intro e he hnew
    rcases List.mem_cons.1 he with rfl | he
    · exact absurd hnew nodup.not_mem_erase
    · exact he
  constructor
  case ways =>
    intro e he
    rcases hmem.1 he with he | ⟨other, ho, rfl⟩
    · exact h.ways e (List.mem_cons_of_mem _ he)
    · exact hu.snoc ho
  case ordered =>
    refine List.pairwise_append.2 ⟨hrest, ?_, ?_⟩
    · exact List.pairwise_map.2 ((sorted first).imp fun hlt => rank_concat_lt_iff.2 (Or.inr ⟨rfl, hlt⟩))
    · intro e he e' he'
      obtain ⟨other, -, rfl⟩ := List.mem_map.1 he'
      -- a way in the queue is at most one name longer than the one in front
      rcases List.eq_nil_or_concat' e.1 with hnil | ⟨before, last, hlast⟩
      · rw [hnil]
        exact (rank_nil_le u).trans_lt (rank_lt_concat u other)
      · have hclose := h.close e (List.mem_cons_of_mem _ he) _ List.mem_cons_self
        rw [hlast, List.dropLast_concat] at hclose
        rw [hlast]
        exact rank_concat_lt_iff.2 (Or.inl (hclose.resolve_left (by simp)))
  case close =>
    intro e he e' he'
    rcases hmem.1 he with he | ⟨other, -, rfl⟩
    · rcases hmem.1 he' with he' | ⟨other, -, rfl⟩
      · exact h.close e (List.mem_cons_of_mem _ he) e' (List.mem_cons_of_mem _ he')
      · refine (h.close e (List.mem_cons_of_mem _ he) _ List.mem_cons_self).imp_right fun hlt => ?_
        exact hlt.trans (rank_lt_concat u other)
    · right
      rw [List.dropLast_concat]
      rcases hmem.1 he' with he' | ⟨other', -, rfl⟩
      · exact hfront e' he'
      · exact rank_lt_concat u other'
  case origin =>
    intro hstart
    exact List.mem_append_left _ (hkept _ (h.origin (List.mem_of_mem_erase hstart)) hstart)
  case followed =>
    intro name seen way hway other step hnew
    by_cases hn : name = first
    · subst hn
      exact ⟨_, hmem.2 (Or.inr ⟨other, step, rfl⟩), rfl, rank_concat_le (h.rank_le hway new) other⟩
    · have hseen : name ∉ unseen := fun hm => seen ((List.mem_erase_of_ne hn).2 hm)
      obtain ⟨e, he, rfl, hle⟩ :=
        h.followed name hseen way hway other step (List.mem_of_mem_erase hnew)
      exact ⟨e, List.mem_append_left _ (hkept e he hnew), rfl, hle⟩

/-- From a state that keeps the invariant, every name is found before those with later ways. -/
lemma Frontier.pairwise_reachable (sorted : ∀ name, (successors name).Pairwise (· < ·))
    (nodup : unseen.Nodup) (h : Frontier successors start unseen queue) :
    (reachable successors unseen (queue.map Prod.snd)).Pairwise
      (FoundBefore (fun a b => b ∈ successors a) start) := by
  generalize hnames : queue.map Prod.snd = names
  induction unseen, names using reachable.induct successors generalizing queue with
  | case1 unseen names hf =>
      rw [reachable_of_filter_eq_nil hf]
      exact List.Pairwise.nil
  | case2 unseen names first others hf ih =>
      rw [reachable_of_filter_eq_cons hf]
      have hqueue : (queue.filter (·.2 ∈ unseen)).map Prod.snd = first :: others := by
        rw [← hf, ← hnames, List.filter_map]
        rfl
      obtain ⟨⟨u, last⟩, rest, he, hlast, hrest⟩ := List.map_eq_cons_iff.1 hqueue
      obtain rfl : last = first := hlast
      have hfront := h.filter
      rw [he] at hfront
      have new : last ∈ unseen := by
        have hmem : last ∈ names.filter (· ∈ unseen) := hf ▸ List.mem_cons_self
        simpa using (List.mem_filter.1 hmem).2
      refine List.pairwise_cons.2 ⟨fun name hname => ?_, ?_⟩
      · have hnew := (mem_reachable_iff.1 hname).new
        have hne : name ≠ last := by
          rintro rfl
          exact nodup.not_mem_erase hnew
        have hu := hfront.ways _ List.mem_cons_self
        refine ⟨u, hu, fun way hway => ?_⟩
        refine (hfront.rank_le hway (List.mem_of_mem_erase hnew)).lt_of_ne fun heq => hne ?_
        rw [← rank_injective heq] at hway
        exact hway.unique hu
      · exact ih (nodup.erase _) (hfront.step sorted nodup new) (by simp [hrest, Function.comp_def])

/-- **The walk finds names in the order of their first ways.** -/
lemma pairwise_reachable {names : List String} (sorted : ∀ name, (successors name).Pairwise (· < ·))
    (nodup : names.Nodup) (closed : ∀ name ∈ names, ∀ other ∈ successors name, other ∈ names)
    (member : start ∈ names) :
    (reachable successors names [start]).Pairwise
      (FoundBefore (fun a b => b ∈ successors a) start) := by
  have hmem : ∀ {way name}, Way (fun a b => b ∈ successors a) start way name → name ∈ names := by
    intro way name hway
    induction hway with
    | nil => exact member
    | snoc _ step ih => exact closed _ ih _ step
  have begun : Frontier successors start names [([], start)] := by
    refine ⟨?_, List.pairwise_singleton _ _, ?_, fun _ => List.mem_singleton_self _, ?_⟩
    · intro e he
      rw [List.mem_singleton.1 he]
      exact .nil
    · intro e he e' _
      rw [List.mem_singleton.1 he]
      exact Or.inl rfl
    · exact fun name seen way hway => absurd (hmem hway) seen
  exact begun.pairwise_reachable sorted nodup

/-! ## The closure of a view -/

namespace Registry

variable {providers : List Provider} {defaults : Table String Value} {r : Registry}
  {view : String} {p q : Provider}

lemma pairwise_closure (built : build providers defaults = .ok r) (registered : view ∈ r.names) :
    (r.closure view).Pairwise fun p q =>
      FoundBefore (Inherits r.providers) view p.name q.name := by
  have distinct := viewsDistinct_of_build built
  have closed : ∀ name ∈ r.names, ∀ other ∈ inheritedBy r.providers name, other ∈ r.names := by
    intro name _ other ho
    obtain ⟨q, hq, hname⟩ :=
      inheritanceComplete_of_build built name other ((mem_inheritedBy_iff distinct).1 ho)
    exact List.mem_map.2 ⟨q, hq, hname⟩
  have sorted : ∀ name, (inheritedBy r.providers name).Pairwise (· < ·) := by
    intro name
    rw [inheritedBy]
    split
    · exact pairwise_sortNames _
    · exact List.Pairwise.nil
  have h := AttributeViews.pairwise_reachable sorted distinct closed registered
  rw [mem_inheritedBy_eq distinct] at h
  rw [closure, List.pairwise_filterMap]
  refine h.imp fun before p hp q hq => ?_
  rwa [name_of_find? hp, name_of_find? hq]

/-- Of two views in a closure either one is found before the other. -/
lemma foundBefore_or_foundBefore (built : build providers defaults = .ok r)
    (registered : view ∈ r.names) (hp : p ∈ r.closure view) (hq : q ∈ r.closure view)
    (hne : p ≠ q) :
    FoundBefore (Inherits r.providers) view p.name q.name ∨
      FoundBefore (Inherits r.providers) view q.name p.name := by
  have symm : Std.Symm fun p q : Provider => FoundBefore (Inherits r.providers) view p.name q.name ∨
      FoundBefore (Inherits r.providers) view q.name p.name := ⟨fun _ _ => Or.symm⟩
  have either : (r.closure view).Pairwise fun p q =>
      FoundBefore (Inherits r.providers) view p.name q.name ∨
        FoundBefore (Inherits r.providers) view q.name p.name :=
    (pairwise_closure built registered).imp Or.inl
  exact either.forall hp hq hne

end Registry

end AttributeViews
