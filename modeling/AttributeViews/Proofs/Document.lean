import AttributeViews.Document.Reader
import Mathlib.Data.List.Nodup
import Mathlib.Tactic.Common

/-!
# The keys of a document

No table of a document has a key twice.  A statement gives a key a value only where there is none,
and what it finds on the way to its key it replaces by something larger, in the same place.

* `Value.Keyed` — the keys of a table, and of all tables in it, are texts, each of them once.
* `Entries.Keyed` — the same for the tables that a document is read into.
* `keyed_below`, `keyed_assignHere` — every kind of statement keeps it.
* **`keyed_readValue`** — the tables that are written on one line have it.
* **`readStatement_cases`**, `readStatements_induction` — what a statement does, and what all of
  them keep.
* `parse_ofList` — the document of a text that is given.
* **`keyed_parse`** — and so has the table of a whole document.
-/

namespace AttributeViews

namespace Value

/-- A list of names and values as the entries of a table. -/
def named (entries : List (String × Value)) : List (Value × Value) :=
  entries.map fun e => (.text e.1, e.2)

lemma named_injective : Function.Injective named :=
  List.map_injective_iff.2 fun _ _ h => by
    simp only [Prod.mk.injEq, text.injEq] at h
    exact Prod.ext h.1 h.2

/-- Whether a value is a table. -/
def isTable : Value → Bool
  | dict _ => true
  | _ => false

/-- Whether a value is a text. -/
def isText : Value → Bool
  | text _ => true
  | _ => false

/-- The keys of a table are texts, each of them once, and so are those of the tables that
it holds. -/
inductive Keyed : Value → Prop
  | single {v : Value} (h : v.isTable = false) : Keyed v
  | table {entries : List (String × Value)} (nodup : (entries.map Prod.fst).Nodup)
      (inner : ∀ e ∈ entries, Keyed e.2) : Keyed (.dict (named entries))

lemma keyed_dict_iff {entries : List (String × Value)} :
    Keyed (.dict (named entries)) ↔
      (entries.map Prod.fst).Nodup ∧ ∀ e ∈ entries, Keyed e.2 := by
  constructor
  · intro h
    generalize hv : Value.dict (named entries) = v at h
    cases h with
    | single hs =>
        rw [← hv] at hs
        cases hs
    | table nodup inner =>
        obtain rfl := named_injective (dict.inj hv)
        exact ⟨nodup, inner⟩
  · exact fun h => .table h.1 h.2

end Value

namespace Document

variable {entries entries' : Entries} {key : String} {item : Item} {value : Value}
  {cs rest : List Char} {fuel current : Nat} {path : List String}

/-! ## The tables that are read into -/

namespace Entries

/-- No table has a key twice. -/
def Keyed (entries : Entries) : Prop := Value.Keyed (.dict (Entries.values entries))

lemma values_eq_named (entries : Entries) :
    Entries.values entries = Value.named (entries.map fun e => (e.1, e.2.value)) := by
  induction entries with
  | nil => rfl
  | cons e rest ih =>
      rw [Entries.values, ih]
      rfl

lemma keyed_iff :
    entries.Keyed ↔ (entries.map Prod.fst).Nodup ∧ ∀ e ∈ entries, e.2.value.Keyed := by
  rw [Keyed, values_eq_named, Value.keyed_dict_iff, List.map_map]
  simp only [List.forall_mem_map]
  rfl

lemma keyed_nil : Keyed [] := keyed_iff.2 ⟨List.nodup_nil, by simp⟩

lemma keyed_of_find? (h : entries.Keyed) (found : entries.find? key = some item) :
    item.value.Keyed := by
  suffices hmem : (key, item) ∈ entries from (keyed_iff.1 h).2 _ hmem
  clear h
  induction entries with
  | nil => cases found
  | cons e rest ih =>
      rw [find?] at found
      split_ifs at found with hk
      · obtain rfl := Option.some.inj found
        rw [← hk]
        exact List.mem_cons_self
      · exact List.mem_cons_of_mem _ (ih found)

lemma put_eq (entries : Entries) (key : String) (item : Item) :
    entries.put key item = Table.put key item entries := by
  induction entries with
  | nil => rfl
  | cons e rest ih => rw [put, Table.put, ih]

/-- A key that gets an item is there once, at its old place or at the end. -/
lemma Keyed.put (h : entries.Keyed) (hi : item.value.Keyed) : (entries.put key item).Keyed := by
  obtain ⟨nodup, inner⟩ := keyed_iff.1 h
  rw [put_eq]
  refine keyed_iff.2 ⟨((⟨entries, nodup⟩ : Table String Item).insert key item).nodup, ?_⟩
  clear h nodup
  induction entries with
  | nil =>
      rintro e he
      rw [List.mem_singleton.1 he]
      exact hi
  | cons first rest ih =>
      rw [Table.put]
      split_ifs with hk
      · exact List.forall_mem_cons.2 ⟨hi, fun e he => inner e (List.mem_cons_of_mem _ he)⟩
      · exact List.forall_mem_cons.2 ⟨inner first List.mem_cons_self,
          ih fun e he => inner e (List.mem_cons_of_mem _ he)⟩

end Entries

/-! ## Statements -/

lemma keyed_list (finished : List Value) (last : Entries) :
    (Item.tables finished last).value.Keyed := by
  rw [Item.value]
  exact .single rfl

/-- A change of the table at the end of a path of headers that keeps the keys apart. -/
lemma keyed_below {change : Entries → Option Entries}
    (keeps : ∀ {entries entries'}, Entries.Keyed entries → change entries = some entries' →
      Entries.Keyed entries')
    (path : List String) : ∀ {entries entries'}, Entries.Keyed entries →
      below change path entries = some entries' → Entries.Keyed entries' := by
  induction path with
  | nil => exact keeps
  | cons key path ih =>
      intro entries entries' h changed
      rw [below] at changed
      split at changed
      · obtain ⟨inner, hi, he⟩ := Option.bind_eq_some_iff.1 changed
        obtain rfl := Option.some.inj he
        exact h.put (ih Entries.keyed_nil hi)
      · next mark inner found =>
        obtain ⟨inner', hi, he⟩ := Option.bind_eq_some_iff.1 changed
        obtain rfl := Option.some.inj he
        exact h.put (ih (Entries.keyed_of_find? h found) hi)
      · obtain ⟨last', hl, he⟩ := Option.bind_eq_some_iff.1 changed
        obtain rfl := Option.some.inj he
        exact h.put (keyed_list _ _)
      · cases changed

lemma keyed_declareHere (h : entries.Keyed) (declared : declareHere key entries = some entries') :
    entries'.Keyed := by
  rw [declareHere] at declared
  split at declared
  · obtain rfl := Option.some.inj declared
    exact h.put Entries.keyed_nil
  · next inner found =>
    obtain rfl := Option.some.inj declared
    have hinner : Entries.Keyed inner := Entries.keyed_of_find? h found
    exact h.put hinner
  · cases declared

lemma keyed_appendHere (h : entries.Keyed) (appended : appendHere key entries = some entries') :
    entries'.Keyed := by
  rw [appendHere] at appended
  split at appended
  · obtain rfl := Option.some.inj appended
    exact h.put (keyed_list _ _)
  · obtain rfl := Option.some.inj appended
    exact h.put (keyed_list _ _)
  · cases appended

lemma keyed_assignHere (hv : value.Keyed) (path : List String) :
    ∀ {entries entries' : Entries}, entries.Keyed →
      assignHere current value path entries = some entries' → entries'.Keyed := by
  induction path with
  | nil => exact fun _ assigned => nomatch assigned
  | cons key path ih =>
      intro entries entries' h assigned
      rcases path with _ | ⟨next, path⟩
      · rw [assignHere] at assigned
        split at assigned
        · obtain rfl := Option.some.inj assigned
          exact h.put hv
        · cases assigned
      · rw [assignHere] at assigned
        split at assigned
        · obtain ⟨inner, hi, he⟩ := Option.bind_eq_some_iff.1 assigned
          obtain rfl := Option.some.inj he
          exact h.put (ih Entries.keyed_nil hi)
        · next mark inner found =>
          split_ifs at assigned
          obtain ⟨inner', hi, he⟩ := Option.bind_eq_some_iff.1 assigned
          obtain rfl := Option.some.inj he
          exact h.put (ih (Entries.keyed_of_find? h found) hi)
        · cases assigned
        · exact List.cons_ne_nil _ _

/-! ## Values -/

/-- What a reader reads is neither a table nor a text. -/
def ReadsPlain (reader : Reader Value) : Prop :=
  ∀ cs value rest, reader cs = some (value, rest) → value.isTable = false ∧ value.isText = false

lemma orElse_eq_some {α : Type} {first second : Option α} {a : α}
    (h : (first.orElse fun _ => second) = some a) : first = some a ∨ second = some a := by
  cases first with
  | none => exact Or.inr h
  | some _ => exact Or.inl h

lemma ReadsPlain.orElse {reader reader' : Reader Value} (h : ReadsPlain reader)
    (h' : ReadsPlain reader') :
    ReadsPlain fun cs => (reader cs).orElse fun _ => reader' cs := fun cs value rest read =>
  (orElse_eq_some read).elim (h cs value rest) (h' cs value rest)

lemma readsPlain_readCalendar : ReadsPlain readCalendar := by
  refine ReadsPlain.orElse (fun cs value rest read => ?_) fun cs value rest read => ?_
  · obtain ⟨⟨date, behind⟩, -, he⟩ := Option.bind_eq_some_iff.1 read
    rcases behind with _ | ⟨mark, behind⟩
    · cases he
      exact ⟨rfl, rfl⟩
    · dsimp only at he
      split at he
      · split at he <;> cases he <;> exact ⟨rfl, rfl⟩
      · cases he
        exact ⟨rfl, rfl⟩
  · obtain ⟨⟨time, behind⟩, -, he⟩ := Option.map_eq_some_iff.1 read
    cases he
    exact ⟨rfl, rfl⟩

lemma readsPlain_readNumber : ReadsPlain readNumber := by
  refine ReadsPlain.orElse (fun cs value rest read => ?_) fun cs value rest read => ?_
  · have marked : ∀ base digits, (readDigits (isDigitOf base) digits >>= fun read =>
        some (Value.int (valueOfDigits base read.1), read.2)) = some (value, rest) →
          value.isTable = false ∧ value.isText = false := by
      intro base digits read
      obtain ⟨⟨digits, behind⟩, -, he⟩ := Option.bind_eq_some_iff.1 read
      cases he
      exact ⟨rfl, rfl⟩
    unfold readMarked at read
    split at read
    · dsimp only at read
      split at read
      · exact marked 16 _ read
      · exact marked 8 _ read
      · exact marked 2 _ read
      · cases read
    · cases read
  · obtain ⟨⟨whole, behind⟩, -, he⟩ := Option.bind_eq_some_iff.1 read
    dsimp only at he
    split at he <;> cases he <;> exact ⟨rfl, rfl⟩

lemma readsPlain_readSpecial : ReadsPlain readSpecial := by
  intro cs value rest read
  rcases hs : readSign cs with ⟨negative, digits⟩
  rw [readSpecial, hs] at read
  dsimp only at read
  split at read
  · cases read
    exact ⟨rfl, rfl⟩
  · cases read
    exact ⟨rfl, rfl⟩
  · cases read

/-- **A value that holds no others** is no table, and if it is a text it was read as one. -/
lemma readScalar_eq_some (read : readScalar cs = some (value, rest)) :
    (value.isTable = false ∧ value.isText = false) ∨
      ∃ text, value = .text (String.ofList text) ∧ readText cs = some (text, rest) := by
  unfold readScalar at read
  split at read
  case h_5 =>
    exact Or.inl (readsPlain_readCalendar.orElse (readsPlain_readNumber.orElse
      readsPlain_readSpecial) _ value rest read)
  case h_1 | h_2 =>
    cases read
    exact Or.inl ⟨rfl, rfl⟩
  case h_3 | h_4 =>
    obtain ⟨⟨text, behind⟩, ht, he⟩ := Option.map_eq_some_iff.1 read
    cases he
    exact Or.inr ⟨text, rfl, ht⟩

lemma isTable_of_readScalar (read : readScalar cs = some (value, rest)) :
    value.isTable = false := by
  rcases readScalar_eq_some read with h | ⟨text, rfl, -⟩
  · exact h.1
  · rfl

/-- The two readers that call each other, of values and of the members of a table on one line. -/
lemma keyed_read (fuel : Nat) :
    (∀ cs value rest, readValue fuel cs = some (value, rest) → value.Keyed) ∧
      ∀ (entries : Entries) cs entries' rest, entries.Keyed →
        readMembers fuel entries cs = some (entries', rest) → Entries.Keyed entries' := by
  induction fuel with
  | zero =>
      constructor
      · intro cs value rest read
        rw [readValue] at read
        cases read
      · intro entries cs entries' rest _ read
        rw [readMembers] at read
        cases read
  | succ fuel ih =>
      obtain ⟨values, members⟩ := ih
      constructor
      · intro cs value rest read
        unfold readValue at read
        split at read
        case h_1 => cases read
        case h_2 =>
          obtain ⟨behind, -, read⟩ := Option.bind_eq_some_iff.1 read
          obtain ⟨⟨items, behind'⟩, -, he⟩ := Option.bind_eq_some_iff.1 read
          cases he
          exact .single rfl
        case h_3 hf =>
          cases hf
          split at read
          · cases read
            exact Entries.keyed_nil
          · obtain ⟨⟨entries, behind⟩, hm, he⟩ := Option.bind_eq_some_iff.1 read
            cases he
            exact members _ _ _ _ Entries.keyed_nil hm
        case h_4 => exact .single (isTable_of_readScalar read)
      · intro entries cs entries' rest h read
        rw [readMembers] at read
        obtain ⟨⟨path, afterKey⟩, -, read⟩ := Option.bind_eq_some_iff.1 read
        obtain ⟨afterMark, -, read⟩ := Option.bind_eq_some_iff.1 read
        obtain ⟨⟨value, behind⟩, hv, read⟩ := Option.bind_eq_some_iff.1 read
        obtain ⟨assigned, ha, read⟩ := Option.bind_eq_some_iff.1 read
        have hassigned := keyed_assignHere (values _ _ _ hv) path h ha
        split at read
        · cases read
          exact hassigned
        · exact members _ _ _ _ hassigned read
        · cases read

/-- **A value that is read** is keyed, also if it is a table on one line. -/
lemma keyed_readValue (read : readValue fuel cs = some (value, rest)) : value.Keyed :=
  (keyed_read fuel).1 cs value rest read

/-! ## Whole documents -/

variable {p p' : Progress}

/-- **What a statement does to the tables**: nothing, or it starts a table in an array, declares a
table, or gives a value that it has read to a key. -/
lemma readStatement_cases (read : readStatement fuel p cs = some (p', rest)) :
    p'.entries = p.entries ∨ (∃ path, append path p.entries = some p'.entries) ∨
      (∃ path, declare path p.entries = some p'.entries) ∨
      ∃ path value front behind, readValue fuel front = some (value, behind) ∧
        assign p.header p.current path value p.entries = some p'.entries := by
  unfold readStatement at read
  split at read
  case h_1 | h_2 | h_3 =>
    cases read
    exact Or.inl rfl
  case h_4 =>
    obtain ⟨⟨path, behind⟩, -, read⟩ := Option.bind_eq_some_iff.1 read
    obtain ⟨entries, appended, read⟩ := Option.bind_eq_some_iff.1 read
    obtain ⟨behind', -, read⟩ := Option.bind_eq_some_iff.1 read
    obtain ⟨behind'', -, he⟩ := Option.bind_eq_some_iff.1 read
    cases he
    exact Or.inr (Or.inl ⟨path, appended⟩)
  case h_5 =>
    obtain ⟨⟨path, behind⟩, -, read⟩ := Option.bind_eq_some_iff.1 read
    obtain ⟨entries, declared, read⟩ := Option.bind_eq_some_iff.1 read
    obtain ⟨behind', -, he⟩ := Option.bind_eq_some_iff.1 read
    cases he
    exact Or.inr (Or.inr (Or.inl ⟨path, declared⟩))
  case h_6 =>
    obtain ⟨⟨path, behind⟩, -, read⟩ := Option.bind_eq_some_iff.1 read
    obtain ⟨behind', -, read⟩ := Option.bind_eq_some_iff.1 read
    obtain ⟨⟨value, behind''⟩, hv, read⟩ := Option.bind_eq_some_iff.1 read
    obtain ⟨entries, assigned, he⟩ := Option.bind_eq_some_iff.1 read
    cases he
    exact Or.inr (Or.inr (Or.inr ⟨path, value, _, _, hv, assigned⟩))

/-- What every statement keeps is kept by the statements of a document. -/
lemma readStatements_induction (kept : Entries → Prop)
    (step : ∀ {p p' : Progress} {cs rest}, kept p.entries →
      readStatement fuel p cs = some (p', rest) → kept p'.entries) (lines : Nat) :
    ∀ {p cs}, kept p.entries → readStatements lines fuel p cs = some p' → kept p'.entries := by
  induction lines with
  | zero => exact fun _ read => nomatch read
  | succ lines ih =>
      intro p cs h read
      rw [readStatements] at read
      obtain ⟨⟨next, behind⟩, hs, read⟩ := Option.bind_eq_some_iff.1 read
      obtain ⟨behind', -, read⟩ := Option.bind_eq_some_iff.1 read
      have hnext : kept next.entries := step h hs
      split at read
      · cases read
        exact hnext
      · exact ih hnext read
      · cases read

lemma keyed_readStatement (h : p.entries.Keyed)
    (read : readStatement fuel p cs = some (p', rest)) : p'.entries.Keyed := by
  rcases readStatement_cases read with same | ⟨path, appended⟩ | ⟨path, declared⟩ |
    ⟨path, value, front, behind, hv, assigned⟩
  · rwa [same]
  · obtain ⟨key, -, changed⟩ := Option.bind_eq_some_iff.1 appended
    exact keyed_below keyed_appendHere _ h changed
  · obtain ⟨key, -, changed⟩ := Option.bind_eq_some_iff.1 declared
    exact keyed_below keyed_declareHere _ h changed
  · exact keyed_below (keyed_assignHere (keyed_readValue hv) path) _ h assigned

/-- A document is what its statements make of no entries.  The length of the text is named, so that
the reading of a given text computes with the fuel as a numeral. -/
lemma parse_ofList {cs : List Char} (size : Nat) (hsize : (joinBreaks cs).length = size) :
    parse (String.ofList cs)
      = (readStatements (size + 1) (2 * size + 2) ⟨[], [], 0⟩ (joinBreaks cs)).map
        fun p => .ofList (p.entries.map fun e => (e.1, e.2.value)) := by
  subst hsize
  rw [parse, String.toList_ofList, Option.map_eq_bind]
  rfl

/-- A document is read statement by statement, and its entries are those of the last table. -/
lemma exists_of_parse {text : String} {document : Table String Value}
    (decoded : parse text = some document) :
    ∃ p, readStatements ((joinBreaks text.toList).length + 1)
        (2 * (joinBreaks text.toList).length + 2) ⟨[], [], 0⟩ (joinBreaks text.toList) = some p ∧
      p.entries.Keyed ∧ document.entries = p.entries.map fun e => (e.1, e.2.value) := by
  obtain ⟨p, read, he⟩ := Option.bind_eq_some_iff.1 decoded
  have h : p.entries.Keyed := readStatements_induction Entries.Keyed keyed_readStatement _
    (p := ⟨[], [], 0⟩) Entries.keyed_nil read
  have hdocument : Table.ofList (p.entries.map fun e => (e.1, e.2.value)) = document :=
    Option.some.inj he
  have nodup : ((p.entries.map fun e => (e.1, e.2.value)).map Prod.fst).Nodup := by
    rw [List.map_map]
    exact (Entries.keyed_iff.1 h).1
  exact ⟨p, read, h, by rw [← hdocument, Table.entries_ofList nodup]⟩

/-- **A document has every key once**, and so have all its tables. -/
lemma keyed_parse {text : String} {document : Table String Value}
    (decoded : parse text = some document) :
    Value.Keyed (.dict (Value.named document.entries)) := by
  obtain ⟨p, -, h, hentries⟩ := exists_of_parse decoded
  rwa [hentries, ← Entries.values_eq_named]

end Document

end AttributeViews
