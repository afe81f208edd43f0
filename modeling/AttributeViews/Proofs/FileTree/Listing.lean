import AttributeViews.Proofs.FileTree.MovesInARow
import Mathlib.Data.List.Lex
import Mathlib.Data.List.TakeWhile
import Mathlib.Data.Prod.Lex
import Mathlib.Data.String.Basic

/-!
# The listing of a tree

The stored paths are listed name by name and not by their texts, so that what stands below a
directory is listed directly behind it, whatever characters the names of its neighbours have: `/a/x`
comes before `/a-b`, though a dash comes before a slash.

* `Path.place` — the place of a path in the order; **`Path.before_iff`**.
* **`Path.within_of_place_le`** — between a path and one below it there are only paths below it.
* **`Path.exists_block`** — so in an ordered list the paths below one of them are a block behind it.
* **`Session.listing_in_preorder`** — the listing of a tree, after any history.
-/

namespace AttributeViews

namespace Path

variable {p q base : Path} {names names' tail : List String} {a b : String} {listed : List Path}

/-! ## The order of paths -/

/-- Where a path stands in the order: by its root, and then by its names. -/
def place (p : Path) : Bool ×ₗ List String := toLex (p.doubleRoot, p.names)

lemma place_injective : Function.Injective place := by
  rintro ⟨_, _⟩ ⟨_, _⟩ h
  simpa [place] using h

lemma namesBefore_iff : namesBefore names names' = true ↔ names < names' := by
  induction names generalizing names' with
  | nil =>
      cases names' with
      | nil => simp [namesBefore]
      | cons b names' => simp [namesBefore]
  | cons a names ih =>
      cases names' with
      | nil => simp [namesBefore]
      | cons b names' =>
          rw [namesBefore, List.cons_lt_cons_iff]
          split_ifs with h
          · simp [h, ih]
          · simp [h]

/-- **The order in which paths are listed** is that of their places. -/
lemma before_iff : before p q = true ↔ p.place < q.place := by
  rw [before, place, place, Prod.Lex.toLex_lt_toLex]
  split_ifs with h
  · simp [h, namesBefore_iff]
  · cases hp : p.doubleRoot <;> cases hq : q.doubleRoot <;> simp_all

lemma before_total (p q : Path) (h : before p q = false) (h' : before q p = false) : p = q := by
  rw [← Bool.not_eq_true, before_iff, not_lt] at h h'
  exact place_injective (le_antisymm h' h)

lemma before_trans (p q base : Path) (h : before p q = true) (h' : before q base = true) :
    before p base = true := by
  rw [before_iff] at h h' ⊢
  exact h.trans h'

/-! ## Below a path -/

/-- Between a list of names and a longer one there are only longer ones. -/
lemma prefix_of_not_lt (base : List String) :
    ∀ {names}, ¬ names < base → ¬ base ++ tail < names → base <+: names := by
  induction base with
  | nil => exact fun _ _ => List.nil_prefix
  | cons a base ih =>
      intro names behind front
      cases names with
      | nil => exact absurd (List.nil_lt_cons a base) behind
      | cons b names =>
          rw [List.cons_lt_cons_iff, not_or, not_lt] at behind
          rw [List.cons_append, List.cons_lt_cons_iff, not_or, not_lt] at front
          obtain rfl : a = b := le_antisymm behind.1 front.1
          exact List.cons_prefix_cons.2
            ⟨rfl, ih (fun h => behind.2 ⟨rfl, h⟩) fun h => front.2 ⟨rfl, h⟩⟩

/-- Paths of one root are ordered by their names. -/
lemma place_lt_iff (same : p.doubleRoot = q.doubleRoot) :
    p.place < q.place ↔ p.names < q.names := by
  rw [place, place, Prod.Lex.toLex_lt_toLex]
  simp [same]

/-- A path comes before those below it. -/
lemma place_le_of_within (h : p.within base = true) : base.place ≤ p.place := by
  obtain ⟨names, rfl⟩ := within_iff.1 h
  rw [← not_lt, place_lt_iff (p := base.descend names) (q := base) rfl]
  exact (List.prefix_append base.names names).le

/-- **Between a path and one below it** there are only paths below it. -/
lemma within_of_place_le (hbase : base.place ≤ p.place) (hle : p.place ≤ q.place)
    (h : q.within base = true) : p.within base = true := by
  obtain ⟨names, rfl⟩ := within_iff.1 h
  have hroot : p.doubleRoot = base.doubleRoot :=
    le_antisymm (Prod.Lex.monotone_fst _ _ hle) (Prod.Lex.monotone_fst _ _ hbase)
  rw [← not_lt, place_lt_iff hroot] at hbase
  rw [← not_lt, place_lt_iff (p := base.descend names) hroot.symm] at hle
  obtain ⟨names', hnames⟩ := prefix_of_not_lt base.names hbase hle
  refine within_iff.2 ⟨names', ?_⟩
  obtain ⟨d, ns⟩ := p
  rw [descend, ← hroot, hnames]

/-- The order of two paths directly below the same one is that of their last names. -/
lemma place_descend_lt_iff : (base.descend [a]).place < (base.descend [b]).place ↔ a < b := by
  rw [place_lt_iff (p := base.descend [a]) (q := base.descend [b]) rfl]
  constructor
  · intro h
    by_contra hle
    rcases (not_lt.1 hle).lt_or_eq with hlt | rfl
    · exact lt_asymm h (List.append_left_lt (List.cons_lt_cons_iff.2 (Or.inl hlt)))
    · exact lt_irrefl _ h
  · exact fun h => List.append_left_lt (List.cons_lt_cons_iff.2 (Or.inl h))

/-! ## Ordered lists -/

/-- **In an ordered list** the paths below one of them are a block directly behind it. -/
lemma exists_block (ordered : listed.Pairwise fun p q => p.place < q.place) (hbase : base ∈ listed) :
    ∃ front block back, listed = front ++ base :: (block ++ back) ∧
      ∀ p, p ∈ block ↔ p ∈ listed ∧ p.within base = true ∧ p ≠ base := by
  obtain ⟨front, behind, rfl⟩ := List.append_of_mem hbase
  obtain ⟨-, hbehind, hfront⟩ := List.pairwise_append.1 ordered
  obtain ⟨hafter, hbehind⟩ := List.pairwise_cons.1 hbehind
  have hcut : behind.takeWhile (·.within base) ++ behind.dropWhile (·.within base) = behind :=
    List.takeWhile_append_dropWhile
  refine ⟨front, behind.takeWhile (·.within base), behind.dropWhile (·.within base),
    by rw [hcut], fun p => ⟨fun hp => ?_, ?_⟩⟩
  · have hmem := (List.takeWhile_prefix _).subset hp
    exact ⟨List.mem_append_right _ (List.mem_cons_of_mem _ hmem),
      List.mem_takeWhile_imp (p := fun q : Path => q.within base) hp,
      fun h => absurd (hafter p hmem) (h ▸ lt_irrefl _)⟩
  · rintro ⟨hp, hw, hne⟩
    have hmem : p ∈ behind := by
      rcases List.mem_append.1 hp with hp | hp
      · exact absurd (place_le_of_within hw) (hfront p hp base List.mem_cons_self).not_ge
      · exact (List.mem_cons.1 hp).resolve_left hne
    rw [← hcut, List.mem_append] at hmem
    refine hmem.resolve_right fun hback => ?_
    -- the first path behind the block would be below the base, too
    cases hd : behind.dropWhile (·.within base) with
    | nil =>
        rw [hd] at hback
        cases hback
    | cons next rest =>
        have hnext : next.within base = false := by
          simpa [hd] using List.head?_dropWhile_not (·.within base) behind
        rw [hd] at hback hcut
        have hmem : next ∈ behind := hcut ▸ List.mem_append_right _ List.mem_cons_self
        have hle : next.place ≤ p.place := by
          rcases List.mem_cons.1 hback with rfl | hback
          · exact le_rfl
          · rw [← hcut] at hbehind
            exact (List.rel_of_pairwise_cons (List.pairwise_append.1 hbehind).2.1 hback).le
        rw [within_of_place_le (hafter next hmem).le hle hw] at hnext
        cases hnext

/-- So it begins with a path below which all others are. -/
lemma head?_of_within (ordered : listed.Pairwise fun p q => p.place < q.place)
    (hbase : base ∈ listed) (h : ∀ p ∈ listed, p.within base = true) : listed.head? = some base := by
  obtain ⟨front, behind, rfl⟩ := List.append_of_mem hbase
  cases front with
  | nil => rfl
  | cons first front =>
      have hlt := (List.pairwise_append.1 ordered).2.2 first List.mem_cons_self base List.mem_cons_self
      exact absurd (place_le_of_within (h first List.mem_cons_self)) hlt.not_ge

end Path

/-! ## The stored paths -/

namespace FileTree

variable {t : FileTree} {p : Path}

lemma mem_listing : p ∈ t.listing ↔ ∃ id, t.paths.get? p = some id := by
  rw [listing, mem_sorted Path.before_total, ← Table.contains_iff, Table.contains_eq_true_iff]

lemma listing_ordered (t : FileTree) : t.listing.Pairwise fun p q => p.place < q.place :=
  (pairwise_sorted Path.before_total Path.before_trans t.paths.keys).imp Path.before_iff.1

lemma nodup_listing (t : FileTree) : t.listing.Nodup :=
  t.listing_ordered.imp fun h => ne_of_apply_ne Path.place h.ne

end FileTree

namespace Session

/-- **The listing is a walk through the tree.**  After any history it has every stored path once and
begins with the root.  A listed path is directly followed by all the paths below it, before any
other path is listed; so a parent comes before what it holds.  What one directory holds is listed in
the order of the names. -/
theorem listing_in_preorder {registry : Registry} {now : Moment} {supply : IdSupply}
    {s present : Session} (distinct : supply.Distinct)
    (started : start registry now supply = .ok s) (history : List Operation)
    (reached : s.run history = present) :
    present.tree.listing.Nodup ∧
    (∀ p, p ∈ present.tree.listing ↔ ∃ id, present.tree.paths.get? p = some id) ∧
    present.tree.listing.head? = some .root ∧
    (∀ p ∈ present.tree.listing, ∃ front block back,
      present.tree.listing = front ++ p :: (block ++ back) ∧
      ∀ q, q ∈ block ↔ q ∈ present.tree.listing ∧ q.within p = true ∧ q ≠ p) ∧
    (∀ p ∈ present.tree.listing, p ≠ .root → [p.parent, p].Sublist present.tree.listing) ∧
    present.tree.listing.Pairwise fun p q =>
      ∀ (directory : Path) a b, p = directory.descend [a] → q = directory.descend [b] → a < b := by
  have sound : present.tree.Sound := by
    rw [← reached]
    exact tree_sound_of_run distinct started history
  have underRoot : present.tree.UnderRoot := by
    rw [← reached]
    exact underRoot_run history (sound_start distinct started) (underRoot_start started)
  have ordered := present.tree.listing_ordered
  have hroot : Path.root ∈ present.tree.listing := FileTree.mem_listing.2 sound.root.stored
  refine ⟨present.tree.nodup_listing, fun _ => FileTree.mem_listing,
    Path.head?_of_within ordered hroot fun p hp => ?_, fun p => Path.exists_block ordered,
    fun p hp hne => ?_, ordered.imp ?_⟩
  · obtain ⟨id, hid⟩ := FileTree.mem_listing.1 hp
    exact underRoot p id hid
  · obtain ⟨id, hid⟩ := FileTree.mem_listing.1 hp
    have hparent : p.parent ∈ present.tree.listing :=
      FileTree.mem_listing.2 (sound.parents hid hne).stored
    -- what is listed is in the block behind its parent
    obtain ⟨front, block, back, hlisted, hblock⟩ := Path.exists_block ordered hparent
    have hmem : p ∈ block := (hblock p).2 ⟨hp, Path.within_parent p, fun he => ?_⟩
    · rw [hlisted]
      exact ((List.singleton_sublist.2 (List.mem_append_left back hmem)).cons_cons p.parent).trans
        (List.sublist_append_right front _)
    · have hself : p.parent.within p = true := Path.within_iff.2 ⟨[], by rw [← he, Path.descend_nil]⟩
      exact Bool.eq_false_iff.1 (Path.parent_not_within_self (underRoot p id hid) hne) hself
  · rintro _ _ h directory a b rfl rfl
    exact Path.place_descend_lt_iff.1 h

/-- A dash comes before a slash, and what stands in a directory `a` is listed before a directory
`a-b` all the same. -/
theorem listing_in_preorder_tally :
    ∃ s present, start ⟨[.basic], .empty⟩ default .tally = .ok s ∧
      s.run [.create default .directory "a-b" [] .empty, .create default .directory "a" [] .empty,
        .create default .file "a/x" [] .empty] = present ∧
      present.tree.listing.map Path.toText = ["/", "/a", "/a/x", "/a-b"] ∧
      present.tree.listing.head? = some .root ∧
      [.ofText "/a", .ofText "/a/x"].Sublist present.tree.listing := by
  have started : start ⟨[.basic], .empty⟩ default .tally = .ok _ := rfl
  obtain ⟨-, -, begins, -, parents, -⟩ := listing_in_preorder IdSupply.distinct_tally started
    [.create default .directory "a-b" [] .empty, .create default .directory "a" [] .empty,
      .create default .file "a/x" [] .empty] rfl
  exact ⟨_, _, started, rfl, by decide +kernel, begins,
    parents (.ofText "/a/x") (by decide +kernel) (by decide)⟩

end Session

end AttributeViews
