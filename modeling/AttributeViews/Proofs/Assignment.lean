import AttributeViews.Assignment
import AttributeViews.Proofs.Answers
import AttributeViews.Proofs.Document.Front
import Mathlib.Tactic.Common

/-!
# What an assignment takes of its text

The text behind the first equals sign is read as the document `v = …`, and the assignment takes what
the document has for `v`.  The text may go on behind the value: behind a line break the document can
have further keys, and the assignment drops them without a word.  Without a line break the value is
that of the whole text, or the text itself.

* `Entries.Given` — a key that was given a value keeps it through all later statements.
* **`Document.exists_of_parse_assigned`** — the value of `v` stands at the front of the text.
* `literalValue` — the value that a text has as a whole.
* **`assignments_take_front`** — what arguments assign, and when it is the literal value.
* **`lines_behind_dropped`** — a text of two lines, of which the second one is dropped.
-/

namespace AttributeViews

namespace Document

variable {entries entries' : Entries} {key other : String} {item : Item} {value : Value}
  {cs rest : List Char} {fuel current : Nat} {path : List String} {p p' : Progress} {raw : String}

/-! ## A given value is kept -/

namespace Entries

lemma find?_eq (entries : Entries) (key : String) : entries.find? key = Table.find? key entries := by
  induction entries with
  | nil => rfl
  | cons e rest ih => rw [find?, Table.find?, ih]

/-- A key has been given a value. -/
def Given (entries : Entries) (key : String) (value : Value) : Prop :=
  entries.find? key = some (.written value)

lemma Given.put (h : entries.Given key value) (hne : other ≠ key) :
    (entries.put other item).Given key value := by
  rwa [Given, find?_eq, put_eq, Table.find?_put, if_neg hne, ← find?_eq]

/-- An item that is found and is no written value stands under another key. -/
lemma Given.ne (h : entries.Given key value) (found : entries.find? other = some item)
    (unwritten : item ≠ .written value) : other ≠ key := by
  rintro rfl
  exact unwritten (Option.some.inj (found.symm.trans h))

lemma Given.ne_of_none (h : entries.Given key value) (free : entries.find? other = none) :
    other ≠ key := by
  rintro rfl
  cases free.symm.trans h

lemma Given.below {change : Entries → Option Entries} (h : entries.Given key value)
    (keeps : ∀ {entries'}, change entries = some entries' → Given entries' key value)
    (changed : below change path entries = some entries') : entries'.Given key value := by
  rcases path with _ | ⟨first, path⟩
  · exact keeps changed
  · rw [Document.below] at changed
    split at changed
    · next free =>
      obtain ⟨inner, -, he⟩ := Option.bind_eq_some_iff.1 changed
      cases he
      exact h.put (h.ne_of_none free)
    · next found =>
      obtain ⟨inner, -, he⟩ := Option.bind_eq_some_iff.1 changed
      cases he
      exact h.put (h.ne found (by simp))
    · next found =>
      obtain ⟨last, -, he⟩ := Option.bind_eq_some_iff.1 changed
      cases he
      exact h.put (h.ne found (by simp))
    · cases changed

lemma Given.declareHere (h : entries.Given key value)
    (declared : declareHere other entries = some entries') : entries'.Given key value := by
  rw [Document.declareHere] at declared
  split at declared
  · next free =>
    cases declared
    exact h.put (h.ne_of_none free)
  · next found =>
    cases declared
    exact h.put (h.ne found (by simp))
  · cases declared

lemma Given.appendHere (h : entries.Given key value)
    (appended : appendHere other entries = some entries') : entries'.Given key value := by
  rw [Document.appendHere] at appended
  split at appended
  · next free =>
    cases appended
    exact h.put (h.ne_of_none free)
  · next found =>
    cases appended
    exact h.put (h.ne found (by simp))
  · cases appended

lemma Given.assignHere {value' : Value} (h : entries.Given key value)
    (assigned : assignHere current value' path entries = some entries') :
    entries'.Given key value := by
  unfold Document.assignHere at assigned
  split at assigned
  · cases assigned
  · split at assigned
    · next free =>
      cases assigned
      exact h.put (h.ne_of_none free)
    · cases assigned
  · split at assigned
    · next free =>
      obtain ⟨inner, -, he⟩ := Option.bind_eq_some_iff.1 assigned
      cases he
      exact h.put (h.ne_of_none free)
    · next found =>
      split_ifs at assigned
      obtain ⟨inner, -, he⟩ := Option.bind_eq_some_iff.1 assigned
      cases he
      exact h.put (h.ne found (by simp))
    · cases assigned

end Entries

/-- **No statement takes a given value back.** -/
lemma given_readStatement (h : p.entries.Given key value)
    (read : readStatement fuel p cs = some (p', rest)) : p'.entries.Given key value := by
  rcases readStatement_cases read with same | ⟨path, appended⟩ | ⟨path, declared⟩ |
    ⟨path, value', front, behind, -, assigned⟩
  · rwa [same]
  · obtain ⟨last, -, changed⟩ := Option.bind_eq_some_iff.1 appended
    exact h.below h.appendHere changed
  · obtain ⟨last, -, changed⟩ := Option.bind_eq_some_iff.1 declared
    exact h.below h.declareHere changed
  · exact h.below h.assignHere assigned

/-! ## The first statement -/

lemma suffix_of_skipComment (h : skipComment cs = some rest) : rest <:+ cs := by
  unfold skipComment at h
  split at h
  · dsimp only at h
    split_ifs at h
    cases h
    exact (List.drop_suffix _ _).trans (List.suffix_cons _ _)
  · cases h
    exact List.suffix_refl _

/-- The first statement of the document `v = …` gives `v` the value at the front of the text. -/
lemma readStatement_assigned (fuel : Nat) (cs : List Char) :
    readStatement (fuel + 1) ⟨[], [], 0⟩ ('v' :: ' ' :: '=' :: ' ' :: cs)
      = (readValue (fuel + 1) (skipSpace cs)).map fun (value, rest) =>
        (⟨[("v", .written value)], [], 0⟩, rest) := by
  have hstatement : readStatement (fuel + 1) ⟨[], [], 0⟩ ('v' :: ' ' :: '=' :: ' ' :: cs)
      = readAssignment (fuel + 1) ⟨[], [], 0⟩ ('v' :: ' ' :: '=' :: ' ' :: cs) := rfl
  have hkey : readKey (fuel + 1) ('v' :: ' ' :: '=' :: ' ' :: cs) = some (["v"], '=' :: ' ' :: cs) :=
    rfl
  have hspace : skipSpace (' ' :: cs) = skipSpace cs := rfl
  rw [hstatement, readAssignment, hkey]
  simp only [Option.bind_eq_bind, Option.bind_some, expect, if_true, hspace]
  cases readValue (fuel + 1) (skipSpace cs) <;> rfl

lemma joinBreaks_assigned (raw : String) :
    joinBreaks ("v = " ++ raw).toList = 'v' :: ' ' :: '=' :: ' ' :: joinBreaks raw.toList := by
  rw [String.toList_append]
  rfl

/-- **The value of `v` stands at the front of the text**, and what else the document has stands
behind a line break behind it. -/
lemma exists_of_parse_assigned {document : Table String Value}
    (decoded : parse ("v = " ++ raw) = some document) :
    ∃ fuel value behind, readValue fuel (skipSpace (joinBreaks raw.toList)) = some (value, behind) ∧
      document.get? "v" = some value ∧
      ∀ other ∈ document.keys, other ≠ "v" → '\n' ∈ behind := by
  obtain ⟨p, read, -, hentries⟩ := exists_of_parse decoded
  rw [joinBreaks_assigned, readStatements] at read
  obtain ⟨⟨next, behind⟩, hs, read⟩ := Option.bind_eq_some_iff.1 read
  have hspace : ∀ cs, skipSpace ('v' :: cs) = 'v' :: cs := fun _ => rfl
  rw [hspace, readStatement_assigned] at hs
  obtain ⟨⟨value, left⟩, hv, he⟩ := Option.map_eq_some_iff.1 hs
  cases he
  obtain ⟨gap, hgap, read⟩ := Option.bind_eq_some_iff.1 read
  have facts : p.entries.Given "v" value ∧ (p.entries.map Prod.fst = ["v"] ∨ '\n' ∈ behind) := by
    split at read
    · cases read
      exact ⟨rfl, Or.inl rfl⟩
    · have hs := (suffix_of_skipComment hgap).trans (skipSpace_suffix behind)
      exact ⟨readStatements_induction (Entries.Given · "v" value) given_readStatement _
        (p := ⟨[("v", .written value)], [], 0⟩) rfl read, Or.inr (hs.subset List.mem_cons_self)⟩
    · cases read
  obtain ⟨given, hkeys⟩ := facts
  refine ⟨_, value, behind, hv, ?_, fun other hother hne => hkeys.resolve_left fun alone => ?_⟩
  · rw [Table.get?, hentries, Table.find?_map, ← Entries.find?_eq, given]
    rfl
  · have hnames : document.keys = p.entries.map Prod.fst := by
      rw [Table.keys, hentries, List.map_map]
      rfl
    rw [hnames, alone] at hother
    exact hne (List.mem_singleton.1 hother)

lemma length_joinBreaks_le (cs : List Char) : (joinBreaks cs).length ≤ cs.length := by
  fun_induction joinBreaks cs with
  | case1 _ ih => simp only [List.length_cons]; omega
  | case2 _ _ _ ih => simp only [List.length_cons]; omega
  | case3 => exact le_rfl

lemma mem_of_mem_joinBreaks (h : '\n' ∈ joinBreaks cs) : '\n' ∈ cs := by
  fun_induction joinBreaks cs with
  | case1 => simp
  | case2 c rest _ ih => exact List.mem_cons.2 ((List.mem_cons.1 h).imp_right ih)
  | case3 => exact h

end Document

/-! ## What is assigned -/

variable {key raw : String}

/-- The value that a text has as a whole: the document `v = …` has no key but `v`.  Any other text
stands for itself. -/
def literalValue (raw : String) : Value :=
  match Document.parse ("v = " ++ raw) with
  | some document => if document.keys = ["v"] then (document.get? "v").getD (.text raw) else .text raw
  | none => .text raw

/-- How an assigned value comes from its text. -/
structure AssignedFrom (raw : String) (value : Value) : Prop where
  /-- It is the text itself exactly if this makes no document. -/
  text_iff : value = .text raw ↔ Document.parse ("v = " ++ raw) = none
  /-- Otherwise it is what the document has for `v`.  It is read at the front of the text, and
  whatever else the document has stands behind a line break behind it. -/
  front : ∀ document, Document.parse ("v = " ++ raw) = some document →
    document.get? "v" = some value ∧
    ∃ fuel behind, Document.readValue fuel (Document.skipSpace (Document.joinBreaks raw.toList))
        = some (value, behind) ∧
      ∀ other ∈ document.keys, other ≠ "v" → '\n' ∈ behind
  /-- So it is the value of the whole text exactly if the document has nothing else. -/
  literal_iff : value = literalValue raw ↔
    ∀ document, Document.parse ("v = " ++ raw) = some document → document.keys = ["v"]
  /-- A text of one line is never cut short. -/
  on_one_line : '\n' ∉ raw.toList → value = literalValue raw

lemma keys_eq_singleton {κ ν : Type} [DecidableEq κ] {t : Table κ ν} {k : κ} {v : ν}
    (found : t.get? k = some v) (only : ∀ other ∈ t.keys, other = k) : t.keys = [k] := by
  have hk : k ∈ t.keys := Table.contains_iff.1 (Table.contains_eq_true_iff.2 ⟨v, found⟩)
  refine List.perm_singleton.1 ((List.perm_ext_iff_of_nodup t.keys_nodup
    (List.nodup_singleton k)).2 fun other => ?_)
  rw [List.mem_singleton]
  exact ⟨only other, fun h => h ▸ hk⟩

/-- The value of a document is never the text that it was read from: a text has quotes around it. -/
lemma ne_text_of_readValue {fuel : Nat} {value : Value} {behind : List Char}
    (read : Document.readValue fuel (Document.skipSpace (Document.joinBreaks raw.toList))
      = some (value, behind)) : value ≠ .text raw := by
  rintro rfl
  have hlt := Document.length_of_readValue read
  have hspace := (Document.skipSpace_suffix (Document.joinBreaks raw.toList)).length_le
  have hbreaks := Document.length_joinBreaks_le raw.toList
  rw [String.length_toList] at hbreaks
  omega

lemma assignedFrom_assignedValue (raw : String) : AssignedFrom raw (assignedValue raw) := by
  cases hd : Document.parse ("v = " ++ raw) with
  | none =>
      have hvalue : assignedValue raw = .text raw := by rw [assignedValue, hd]
      have hliteral : literalValue raw = .text raw := by rw [literalValue, hd]
      rw [hvalue]
      have hnone : ∀ document, Document.parse ("v = " ++ raw) ≠ some document := by simp [hd]
      exact ⟨iff_of_true rfl hd, fun document h => absurd h (hnone document),
        iff_of_true hliteral.symm fun document h => absurd h (hnone document),
        fun _ => hliteral.symm⟩
  | some document =>
      obtain ⟨fuel, value, behind, hv, hget, hbehind⟩ := Document.exists_of_parse_assigned hd
      have hvalue : assignedValue raw = value := by
        rw [assignedValue, hd]
        simp [hget]
      have hne : value ≠ .text raw := ne_text_of_readValue hv
      have hliteral : value = literalValue raw ↔ document.keys = ["v"] := by
        rw [literalValue, hd]
        dsimp only
        split_ifs with hkeys
        · simp [hget, hkeys]
        · exact iff_of_false hne hkeys
      have hone : ∀ other, Document.parse ("v = " ++ raw) = some other ↔ other = document := by
        simp [hd, eq_comm]
      rw [hvalue]
      refine ⟨iff_of_false hne (by simp [hd]), fun other h => ?_, ?_, fun oneLine => ?_⟩
      · rw [(hone other).1 h]
        exact ⟨hget, fuel, behind, hv, hbehind⟩
      · rw [hliteral]
        exact ⟨fun h other ho => (hone other).1 ho ▸ h, fun h => h document hd⟩
      · rw [hliteral]
        refine keys_eq_singleton hget fun other hother => ?_
        by_contra hne
        have hs := (Document.takesFront_readValue fuel hv).trans (Document.skipSpace_suffix _)
        exact oneLine (Document.mem_of_mem_joinBreaks (hs.subset (hbehind other hother hne)))

/-! ## Arguments -/

lemma readAssignment_append (named : key ≠ "") (plain : '=' ∉ key.toList) (raw : String) :
    readAssignment (key ++ "=" ++ raw) = .ok (key, assignedValue raw) := by
  have hcut : Text.cut? '=' (key ++ "=" ++ raw) = some (key, raw) := Text.cut?_append plain
  simp only [readAssignment, hcut]

/-- Arguments that have a key in front of an equals sign are all read. -/
lemma readAssignments_of_wellFormed (pairs : List (String × String))
    (wellFormed : ∀ p ∈ pairs, p.1 ≠ "" ∧ '=' ∉ p.1.toList) :
    readAssignments (pairs.map fun p => p.1 ++ "=" ++ p.2)
      = .ok (.ofList (pairs.map fun p => (p.1, assignedValue p.2))) := by
  have hread : (pairs.map fun p => p.1 ++ "=" ++ p.2).mapM readAssignment
      = .ok (pairs.map fun p => (p.1, assignedValue p.2)) := by
    induction pairs with
    | nil => rfl
    | cons p pairs ih =>
        obtain ⟨⟨named, plain⟩, hrest⟩ := List.forall_mem_cons.1 wellFormed
        rw [List.map_cons, List.mapM_cons, readAssignment_append named plain, ok_bind, ih hrest]
        rfl
  rw [readAssignments, hread]
  rfl

/-- **What arguments assign.**  Any list of arguments `KEY=RAW`, each with a key that is not empty
and has no equals sign, is read, and the keys are assigned in the order of their first mention.  A
key has the value that comes from its last text: the text itself if it makes no document, and
otherwise the value at its front.  That is the value of the whole text unless the document has
further keys, and these can only stand behind a line break. -/
theorem assignments_take_front (pairs : List (String × String))
    (wellFormed : ∀ p ∈ pairs, p.1 ≠ "" ∧ '=' ∉ p.1.toList) :
    ∃ assigned, readAssignments (pairs.map fun p => p.1 ++ "=" ++ p.2) = .ok assigned ∧
      assigned.keys = (pairs.map Prod.fst).eraseDups ∧
      ∀ front key raw back, pairs = front ++ (key, raw) :: back → (∀ p ∈ back, p.1 ≠ key) →
        ∃ value, assigned.get? key = some value ∧ AssignedFrom raw value := by
  refine ⟨_, readAssignments_of_wellFormed pairs wellFormed, ?_, ?_⟩
  · rw [Table.keys_ofList, List.map_map]
    rfl
  · rintro front key raw back rfl last
    refine ⟨assignedValue raw, ?_, assignedFrom_assignedValue raw⟩
    have habsent : Table.find? key (back.map fun p => (p.1, assignedValue p.2)).reverse = none := by
      rw [Table.find?_eq_none_iff, List.map_reverse, List.mem_reverse, List.map_map, List.mem_map]
      exact fun ⟨p, hp, he⟩ => last p hp he
    rw [Table.get?_ofList_reverse, List.map_append, List.map_cons, List.reverse_append,
      List.reverse_cons, List.append_assoc, Table.find?_append, habsent, Option.none_or]
    simp [Table.find?]

/-- A truth value, and a text that makes no document. -/
theorem assignments_take_front_pair :
    ∃ assigned, readAssignments ["dos:hidden=true", "x:y=a=b"] = .ok assigned ∧
      assigned.get? "dos:hidden" = some (.bool true) ∧ assigned.get? "x:y" = some (.text "a=b") := by
  have decoded : Document.parse ("v = " ++ "true") = some (.ofList [("v", .bool true)]) := by
    have joined : "v = " ++ "true" = "v = true" := rfl
    rw [joined]
    exact (Document.parse_ofList 8 rfl).trans rfl
  have undecoded : Document.parse ("v = " ++ "a=b") = none := by
    have joined : "v = " ++ "a=b" = "v = a=b" := rfl
    rw [joined]
    exact (Document.parse_ofList 7 rfl).trans rfl
  obtain ⟨assigned, read, -, values⟩ :=
    assignments_take_front [("dos:hidden", "true"), ("x:y", "a=b")] (by decide)
  obtain ⟨hidden, hhidden, from_hidden⟩ := values [] "dos:hidden" "true" _ rfl (by decide)
  obtain ⟨y, hy, from_y⟩ := values [_] "x:y" "a=b" [] rfl (by decide)
  refine ⟨assigned, read, ?_, ?_⟩
  · rw [hhidden, ← (from_hidden.front _ decoded).1]
    rfl
  · rw [hy, from_y.text_iff.2 undecoded]

/-- Of a text of two lines the first one is assigned and the second one is dropped, though it gives
another key a value, and the text as a whole is none. -/
theorem lines_behind_dropped :
    ∃ document assigned, Document.parse ("v = " ++ "1\nx = 2") = some document ∧
      document.keys = ["v", "x"] ∧ readAssignments ["k=1\nx = 2"] = .ok assigned ∧
      assigned.get? "k" = some (.int 1) ∧ literalValue "1\nx = 2" = .text "1\nx = 2" := by
  have decoded : Document.parse ("v = " ++ "1\nx = 2")
      = some (.ofList [("v", .int 1), ("x", .int 2)]) := by
    have joined : "v = " ++ "1\nx = 2" = "v = 1\nx = 2" := rfl
    rw [joined]
    exact (Document.parse_ofList 11 rfl).trans rfl
  have read : readAssignments ["k=1\nx = 2"] = .ok (.ofList [("k", assignedValue "1\nx = 2")]) :=
    readAssignments_of_wellFormed [("k", "1\nx = 2")] (by decide)
  refine ⟨_, _, decoded, rfl, read, ?_, ?_⟩
  · rw [Table.get?_singleton, assignedValue, decoded]
    rfl
  · rw [literalValue, decoded]
    rfl

end AttributeViews
