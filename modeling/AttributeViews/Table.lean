/-!
# Insertion-ordered tables

A finite map that remembers the order in which its keys were first written.  Attribute stores,
override maps, path indexes and configuration sections are all of this shape: a key is written at
most once, a new key goes to the end, and writing a key again keeps its place.

* `Table.insert` — write a key; **`get?_insert`** is its equation through the look-up, and
  `insert_of_get?` says that writing what is there changes nothing.
* `Table.erase`, `Table.map`, `Table.contains`, `Table.keys` — with one equation each.
* `Table.ofList` — write a list of pairs one after the other; **`entries_ofList`** says that pairs
  with distinct keys are kept as they are, **`keys_ofList`** and **`get?_ofList_reverse`** what
  becomes of keys that are repeated.

That the keys are distinct is a field of the structure, so no operation has to assume it.
-/

namespace AttributeViews

/-- A list of pairs in which no key occurs twice. -/
structure Table (κ ν : Type) where
  /-- The pairs, oldest key first. -/
  entries : List (κ × ν)
  /-- Every key stands once. -/
  nodup : (entries.map Prod.fst).Nodup

namespace Table

variable {κ ν : Type}

theorem ext {s t : Table κ ν} (h : s.entries = t.entries) : s = t := by
  cases s; cases t; simp_all

/-- The table without entries. -/
def empty : Table κ ν := ⟨[], by simp⟩

instance : EmptyCollection (Table κ ν) := ⟨empty⟩

instance : Inhabited (Table κ ν) := ⟨empty⟩

instance [DecidableEq κ] [DecidableEq ν] : DecidableEq (Table κ ν) := fun s t =>
  decidable_of_iff (s.entries = t.entries) ⟨ext, fun h => h ▸ rfl⟩

/-- The keys, oldest first. -/
def keys (t : Table κ ν) : List κ := t.entries.map Prod.fst

/-- The values, in the order of their keys. -/
def values (t : Table κ ν) : List ν := t.entries.map Prod.snd

theorem keys_nodup (t : Table κ ν) : t.keys.Nodup := t.nodup

variable [DecidableEq κ]

/-! ## Looking up -/

/-- The value of the first pair with this key. -/
def find? (k : κ) : List (κ × ν) → Option ν
  | [] => none
  | (k', v) :: rest => if k' = k then some v else find? k rest

/-- The value written under a key. -/
def get? (t : Table κ ν) (k : κ) : Option ν := find? k t.entries

/-- Whether a key has been written. -/
def contains (t : Table κ ν) (k : κ) : Bool := (t.get? k).isSome

theorem find?_eq_none_iff {k : κ} {l : List (κ × ν)} :
    find? k l = none ↔ k ∉ l.map Prod.fst := by
  induction l with
  | nil => simp [find?]
  | cons p l ih =>
    obtain ⟨k', v⟩ := p
    by_cases h : k' = k
    · simp [find?, h]
    · simp [find?, h, ih, Ne.symm h]

theorem contains_iff {t : Table κ ν} {k : κ} : t.contains k = true ↔ k ∈ t.keys := by
  have := find?_eq_none_iff (k := k) (l := t.entries)
  unfold contains get? keys
  cases h : find? k t.entries <;> simp_all

theorem find?_eq_some_iff {k : κ} {v : ν} {l : List (κ × ν)} (h : (l.map Prod.fst).Nodup) :
    find? k l = some v ↔ (k, v) ∈ l := by
  induction l with
  | nil => simp [find?]
  | cons p l ih =>
    obtain ⟨k', v'⟩ := p
    simp only [List.map_cons, List.nodup_cons] at h
    by_cases hk : k' = k
    · subst hk
      have hv : (k', v) ∉ l := fun hm => h.1 (List.mem_map_of_mem hm)
      simp [find?, hv, eq_comm]
    · simp [find?, hk, Ne.symm hk, ih h.2]

theorem mem_of_find? {k : κ} {v : ν} {l : List (κ × ν)} (h : find? k l = some v) : (k, v) ∈ l := by
  induction l with
  | nil => exact nomatch h
  | cons p l ih =>
    obtain ⟨k', v'⟩ := p
    by_cases hk : k' = k
    · simp_all [find?]
    · exact List.mem_cons_of_mem _ (ih (by simpa [find?, hk] using h))

/-- A value is found exactly if it is entered with its key. -/
theorem get?_eq_some_iff {t : Table κ ν} {k : κ} {v : ν} :
    t.get? k = some v ↔ (k, v) ∈ t.entries :=
  find?_eq_some_iff t.nodup

theorem contains_eq_true_iff {t : Table κ ν} {k : κ} :
    t.contains k = true ↔ ∃ v, t.get? k = some v := Option.isSome_iff_exists

@[simp] theorem get?_empty (k : κ) : (empty : Table κ ν).get? k = none := rfl

/-! ## Writing -/

/-- Replace the value of a key where it stands, or append the pair. -/
def put (k : κ) (v : ν) : List (κ × ν) → List (κ × ν)
  | [] => [(k, v)]
  | (k', v') :: rest => if k' = k then (k', v) :: rest else (k', v') :: put k v rest

theorem map_fst_put (k : κ) (v : ν) (l : List (κ × ν)) :
    (put k v l).map Prod.fst
      = if k ∈ l.map Prod.fst then l.map Prod.fst else l.map Prod.fst ++ [k] := by
  induction l with
  | nil => simp [put]
  | cons p l ih =>
    obtain ⟨k', v'⟩ := p
    by_cases h : k' = k
    · simp [put, h]
    · simp only [put, h, if_false, List.map_cons, ih, List.mem_cons, Ne.symm h, false_or]
      split <;> simp

/-- Write a key: its place is kept if it has one, and is the end otherwise. -/
def insert (t : Table κ ν) (k : κ) (v : ν) : Table κ ν where
  entries := put k v t.entries
  nodup := by
    rw [map_fst_put]
    split
    · exact t.nodup
    · next h => exact List.nodup_append.2 ⟨t.nodup, by simp, by
        intro a ha b hb
        simp only [List.mem_singleton] at hb
        exact fun e => h (hb ▸ e ▸ ha)⟩

theorem find?_put (k k' : κ) (v : ν) (l : List (κ × ν)) :
    find? k' (put k v l) = if k = k' then some v else find? k' l := by
  induction l with
  | nil => simp [put, find?]
  | cons p l ih =>
    obtain ⟨a, b⟩ := p
    by_cases h : a = k
    · subst h
      by_cases h' : a = k' <;> simp [put, find?, h']
    · by_cases h' : a = k'
      · subst h'
        simp [put, find?, h, Ne.symm h]
      · simp [put, find?, h, h', ih]

/-- **Writing, read back.**  The key has the new value and every other key the old one. -/
@[simp] theorem get?_insert (t : Table κ ν) (k k' : κ) (v : ν) :
    (t.insert k v).get? k' = if k = k' then some v else t.get? k' :=
  find?_put k k' v t.entries

theorem put_of_find? {k : κ} {v : ν} {l : List (κ × ν)} (h : find? k l = some v) :
    put k v l = l := by
  induction l with
  | nil => cases h
  | cons p l ih =>
    obtain ⟨k', v'⟩ := p
    by_cases hk : k' = k
    · simp only [find?, hk, if_true] at h
      simp [put, hk, Option.some.inj h]
    · simp only [find?, hk, if_false] at h
      simp [put, hk, ih h]

/-- Writing what is there changes nothing. -/
theorem insert_of_get? {t : Table κ ν} {k : κ} {v : ν} (h : t.get? k = some v) :
    t.insert k v = t :=
  ext (put_of_find? h)

/-- A present key moves nothing, a new one goes to the end. -/
theorem keys_insert (t : Table κ ν) (k : κ) (v : ν) :
    (t.insert k v).keys = if k ∈ t.keys then t.keys else t.keys ++ [k] :=
  map_fst_put k v t.entries

/-! ## Removing -/

/-- Take a key out. -/
def erase (t : Table κ ν) (k : κ) : Table κ ν where
  entries := t.entries.filter (·.1 ≠ k)
  nodup := (List.filter_sublist.map Prod.fst).nodup t.nodup

theorem find?_filter_ne (k k' : κ) (l : List (κ × ν)) :
    find? k' (l.filter (·.1 ≠ k)) = if k = k' then none else find? k' l := by
  induction l with
  | nil => simp [find?]
  | cons p l ih =>
    obtain ⟨a, b⟩ := p
    by_cases h : a = k
    · subst h
      by_cases h' : a = k' <;> simp_all [find?]
    · by_cases h' : a = k'
      · subst h'
        simp [find?, h, Ne.symm h]
      · simp_all [find?]

@[simp] theorem get?_erase (t : Table κ ν) (k k' : κ) :
    (t.erase k).get? k' = if k = k' then none else t.get? k' :=
  find?_filter_ne k k' t.entries

theorem erase_comm (t : Table κ ν) (k k' : κ) : (t.erase k).erase k' = (t.erase k').erase k :=
  ext (by
    simp only [erase, List.filter_filter]
    exact List.filter_congr fun p _ => Bool.and_comm _ _)

/-! ## Changing the values -/

/-- Put another value in the place of each. -/
def map {μ : Type} (f : ν → μ) (t : Table κ ν) : Table κ μ where
  entries := t.entries.map fun p => (p.1, f p.2)
  nodup := by
    rw [List.map_map]
    exact t.nodup

theorem find?_map {μ : Type} (f : ν → μ) (k : κ) (l : List (κ × ν)) :
    find? k (l.map fun p => (p.1, f p.2)) = (find? k l).map f := by
  induction l with
  | nil => rfl
  | cons p l ih =>
    obtain ⟨k', v⟩ := p
    by_cases h : k' = k
    · simp [find?, h]
    · simp [find?, h, ih]

theorem map_put {μ : Type} (f : ν → μ) (k : κ) (v : ν) (l : List (κ × ν)) :
    (put k v l).map (fun p => (p.1, f p.2)) = put k (f v) (l.map fun p => (p.1, f p.2)) := by
  induction l with
  | nil => rfl
  | cons p l ih =>
    obtain ⟨k', v'⟩ := p
    by_cases h : k' = k
    · simp [put, h]
    · simp [put, h, ih]

theorem map_insert {μ : Type} (f : ν → μ) (t : Table κ ν) (k : κ) (v : ν) :
    (t.insert k v).map f = (t.map f).insert k (f v) :=
  ext (map_put f k v t.entries)

theorem map_erase {μ : Type} (f : ν → μ) (t : Table κ ν) (k : κ) :
    (t.erase k).map f = (t.map f).erase k :=
  ext (by
    simp only [map, erase, List.filter_map]
    rfl)

@[simp] theorem get?_map {μ : Type} (f : ν → μ) (t : Table κ ν) (k : κ) :
    (t.map f).get? k = (t.get? k).map f :=
  find?_map f k t.entries

/-! ## Many pairs -/

/-- Write pairs one after the other. -/
def insertAll (t : Table κ ν) (pairs : List (κ × ν)) : Table κ ν :=
  pairs.foldl (fun t p => t.insert p.1 p.2) t

/-- The table of a list of pairs; the last value of a repeated key wins, at its first place. -/
def ofList (pairs : List (κ × ν)) : Table κ ν := empty.insertAll pairs

/-- The entries of `t`, overwritten and extended by those of `u`. -/
def update (t u : Table κ ν) : Table κ ν := t.insertAll u.entries

theorem put_of_notMem {k : κ} {v : ν} {l : List (κ × ν)} (h : k ∉ l.map Prod.fst) :
    put k v l = l ++ [(k, v)] := by
  induction l with
  | nil => rfl
  | cons p l ih =>
    obtain ⟨a, b⟩ := p
    simp only [List.map_cons, List.mem_cons, not_or] at h
    simp [put, Ne.symm h.1, ih h.2]

theorem entries_insertAll (t : Table κ ν) (pairs : List (κ × ν))
    (h : ((t.entries ++ pairs).map Prod.fst).Nodup) :
    (t.insertAll pairs).entries = t.entries ++ pairs := by
  induction pairs generalizing t with
  | nil => simp [insertAll]
  | cons p pairs ih =>
    have hp : p.1 ∉ t.entries.map Prod.fst := by
      intro hm
      simp only [List.map_append, List.map_cons, List.nodup_append] at h
      exact h.2.2 p.1 hm p.1 (by simp) rfl
    have he : (t.insert p.1 p.2).entries = t.entries ++ [p] := put_of_notMem hp
    have := ih (t.insert p.1 p.2) (by rw [he]; simpa using h)
    simpa [insertAll, he] using this

/-- Pairs with distinct keys are kept as they are. -/
theorem entries_ofList {pairs : List (κ × ν)} (h : (pairs.map Prod.fst).Nodup) :
    (ofList pairs).entries = pairs := by
  simpa [ofList, empty] using entries_insertAll (empty : Table κ ν) pairs (by simpa [empty] using h)

/-- Of the pairs that are written, the last one with a key is found; otherwise what was there. -/
theorem get?_insertAll (t : Table κ ν) (pairs : List (κ × ν))
    (h : (pairs.map Prod.fst).Nodup) (k : κ) :
    (t.insertAll pairs).get? k = (find? k pairs).or (t.get? k) := by
  induction pairs generalizing t with
  | nil => rfl
  | cons p pairs ih =>
    obtain ⟨k', v⟩ := p
    simp only [List.map_cons, List.nodup_cons] at h
    have hs : (t.insertAll ((k', v) :: pairs)).get? k
        = (find? k pairs).or ((t.insert k' v).get? k) := ih (t.insert k' v) h.2
    rw [hs, get?_insert]
    by_cases hk : k' = k
    · subst hk
      simp [find?, find?_eq_none_iff.2 h.1]
    · simp [find?, hk]

theorem get?_ofList {pairs : List (κ × ν)} (h : (pairs.map Prod.fst).Nodup) (k : κ) :
    (ofList pairs).get? k = find? k pairs := by
  rw [ofList, get?_insertAll _ _ h, get?_empty, Option.or_none]

theorem get?_singleton (k k' : κ) (v : ν) :
    (ofList [(k, v)]).get? k' = if k = k' then some v else none :=
  get?_ofList (by simp) k'

/-! ### Repeated keys -/

theorem find?_append (k : κ) (l m : List (κ × ν)) :
    find? k (l ++ m) = (find? k l).or (find? k m) := by
  induction l with
  | nil => rfl
  | cons p l ih =>
    obtain ⟨k', v⟩ := p
    by_cases h : k' = k
    · simp [find?, h]
    · simp [find?, h, ih]

/-- Pairs of names and of what is known of them: under a listed name stands what is known of it. -/
theorem find?_filterMap (f : κ → Option ν) (k : κ) (names : List κ) :
    find? k (names.filterMap fun name => (f name).map (name, ·)) = if k ∈ names then f k else none := by
  induction names with
  | nil => rfl
  | cons name names ih =>
    by_cases hk : name = k
    · subst hk
      cases hf : f name with
      | none => simp [hf, ih]
      | some v => simp [hf, find?]
    · cases hf : f name with
      | none => simp [hf, ih, Ne.symm hk]
      | some v => simp [hf, find?, hk, ih, Ne.symm hk]

theorem get?_insertAll_reverse (t : Table κ ν) (pairs : List (κ × ν)) (k : κ) :
    (t.insertAll pairs).get? k = (find? k pairs.reverse).or (t.get? k) := by
  induction pairs generalizing t with
  | nil => rfl
  | cons p pairs ih =>
    have hs : (t.insertAll (p :: pairs)).get? k
        = (find? k pairs.reverse).or ((t.insert p.1 p.2).get? k) := ih (t.insert p.1 p.2)
    rw [hs, get?_insert, List.reverse_cons, find?_append, Option.or_assoc]
    by_cases hk : p.1 = k
    · simp [find?, hk]
    · simp [find?, hk]

/-- **Of repeated keys the last pair counts.** -/
theorem get?_ofList_reverse (pairs : List (κ × ν)) (k : κ) :
    (ofList pairs).get? k = find? k pairs.reverse := by
  rw [ofList, get?_insertAll_reverse, get?_empty, Option.or_none]

theorem keys_insertAll (t : Table κ ν) (pairs : List (κ × ν)) :
    (t.insertAll pairs).keys
      = t.keys ++ ((pairs.map Prod.fst).filter (· ∉ t.keys)).eraseDups := by
  induction pairs generalizing t with
  | nil => simp [insertAll]
  | cons p pairs ih =>
    have hs : (t.insertAll (p :: pairs)).keys
        = (t.insert p.1 p.2).keys
          ++ ((pairs.map Prod.fst).filter (· ∉ (t.insert p.1 p.2).keys)).eraseDups :=
      ih (t.insert p.1 p.2)
    rw [hs, keys_insert]
    by_cases hk : p.1 ∈ t.keys
    · simp [hk]
    · have hrest : (pairs.map Prod.fst).filter (· ∉ t.keys ++ [p.1])
          = ((pairs.map Prod.fst).filter (· ∉ t.keys)).filter (fun k => !k == p.1) := by
        rw [List.filter_filter]
        refine List.filter_congr fun k _ => ?_
        by_cases h : k = p.1 <;> simp [h]
      have hnew : ((p :: pairs).map Prod.fst).filter (· ∉ t.keys)
          = p.1 :: (pairs.map Prod.fst).filter (· ∉ t.keys) :=
        List.filter_cons_of_pos (decide_eq_true hk)
      rw [if_neg hk, hrest, hnew, List.eraseDups_cons, List.append_assoc, List.singleton_append]

/-- **The keys stand in the order of their first mention.** -/
theorem keys_ofList (pairs : List (κ × ν)) :
    (ofList pairs).keys = (pairs.map Prod.fst).eraseDups := by
  have hall : (pairs.map Prod.fst).filter (· ∉ (empty : Table κ ν).keys) = pairs.map Prod.fst :=
    List.filter_eq_self.2 fun k _ => decide_eq_true List.not_mem_nil
  rw [ofList, keys_insertAll, hall]
  rfl

/-! ### Removing after writing -/

theorem erase_insert_self (t : Table κ ν) (k : κ) (v : ν) : (t.insert k v).erase k = t.erase k := by
  have h (l : List (κ × ν)) : (put k v l).filter (·.1 ≠ k) = l.filter (·.1 ≠ k) := by
    induction l with
    | nil => simp [put]
    | cons p l ih =>
      obtain ⟨k', v'⟩ := p
      by_cases hk : k' = k <;> simp_all [put]
  exact ext (h t.entries)

theorem erase_insert_of_ne {k k' : κ} (hne : k ≠ k') (t : Table κ ν) (v : ν) :
    (t.insert k v).erase k' = (t.erase k').insert k v := by
  have h (l : List (κ × ν)) :
      (put k v l).filter (·.1 ≠ k') = put k v (l.filter (·.1 ≠ k')) := by
    induction l with
    | nil => simp [put, hne]
    | cons p l ih =>
      obtain ⟨a, v'⟩ := p
      by_cases ha : a = k
      · subst ha
        simp [put, hne]
      · by_cases ha' : a = k' <;> simp_all [put]
  exact ext (h t.entries)

theorem erase_insertAll (t : Table κ ν) (pairs : List (κ × ν)) (k : κ) :
    (t.insertAll pairs).erase k = (t.erase k).insertAll (pairs.filter (·.1 ≠ k)) := by
  induction pairs generalizing t with
  | nil => rfl
  | cons p pairs ih =>
    have hs : (t.insertAll (p :: pairs)).erase k
        = ((t.insert p.1 p.2).erase k).insertAll (pairs.filter (·.1 ≠ k)) := ih (t.insert p.1 p.2)
    by_cases hk : p.1 = k
    · have hp : (p :: pairs).filter (·.1 ≠ k) = pairs.filter (·.1 ≠ k) := by simp [hk]
      rw [hs, hp, ← hk, erase_insert_self]
    · have hp : (p :: pairs).filter (·.1 ≠ k) = p :: pairs.filter (·.1 ≠ k) := by simp [hk]
      rw [hs, hp, erase_insert_of_ne hk]
      rfl

/-- **Taking a key out of a table of pairs** is leaving out its pairs. -/
theorem erase_ofList (pairs : List (κ × ν)) (k : κ) :
    (ofList pairs).erase k = ofList (pairs.filter (·.1 ≠ k)) :=
  erase_insertAll empty pairs k

/-- **An update, read back.**  What is in `u` wins over what is in `t`. -/
@[simp] theorem get?_update (t u : Table κ ν) (k : κ) :
    (t.update u).get? k = (u.get? k).or (t.get? k) :=
  get?_insertAll t u.entries u.nodup k

end Table

end AttributeViews
