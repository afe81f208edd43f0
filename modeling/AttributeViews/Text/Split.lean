/-!
# Cutting text at a mark

* `cut?` — the two sides of the first occurrence of a mark.
* `pieces` — the parts between all occurrences; **`pieces_intercalate`** says that parts which are
  joined by the mark are found again.
-/

namespace AttributeViews.Text

/-- What stands before and after the first occurrence of a mark, if there is one. -/
def cutChars? (mark : Char) : List Char → Option (List Char × List Char)
  | [] => none
  | c :: rest =>
      if c = mark then some ([], rest)
      else (cutChars? mark rest).map fun sides => (c :: sides.1, sides.2)

/-- What stands before and after the first occurrence of a mark in a text. -/
def cut? (mark : Char) (s : String) : Option (String × String) :=
  (cutChars? mark s.toList).map fun sides => (String.ofList sides.1, String.ofList sides.2)

/-- The parts between the occurrences of a mark; always at least one. -/
def pieceChars (mark : Char) : List Char → List (List Char)
  | [] => [[]]
  | c :: rest =>
      if c = mark then [] :: pieceChars mark rest
      else match pieceChars mark rest with
        | [] => [[c]]
        | part :: parts => (c :: part) :: parts

/-- The parts of a text between the occurrences of a mark. -/
def pieces (mark : Char) (s : String) : List String :=
  (pieceChars mark s.toList).map String.ofList

/-- **A cut loses nothing**: the mark between the two sides gives the text back. -/
theorem cutChars?_eq_some {mark : Char} {cs before after : List Char}
    (h : cutChars? mark cs = some (before, after)) :
    cs = before ++ mark :: after ∧ mark ∉ before := by
  induction cs generalizing before with
  | nil => simp [cutChars?] at h
  | cons c rest ih =>
    by_cases hc : c = mark
    · simp only [cutChars?, hc, if_true, Option.some.injEq, Prod.mk.injEq] at h
      obtain ⟨rfl, rfl⟩ := h
      simp [hc]
    · simp only [cutChars?, hc, if_false, Option.map_eq_some_iff, Prod.mk.injEq] at h
      obtain ⟨⟨b, a⟩, hr, rfl, rfl⟩ := h
      obtain ⟨he, hn⟩ := ih hr
      exact ⟨by simp [he], by simp [hn, Ne.symm hc]⟩

/-- A text has no cut exactly if the mark does not occur in it. -/
theorem cutChars?_eq_none_iff {mark : Char} {cs : List Char} :
    cutChars? mark cs = none ↔ mark ∉ cs := by
  induction cs with
  | nil => simp [cutChars?]
  | cons c rest ih =>
    by_cases hc : c = mark
    · simp [cutChars?, hc]
    · simp [cutChars?, hc, ih, Ne.symm hc]

/-- A mark is found where it stands first. -/
theorem cutChars?_append {mark : Char} {before after : List Char} (h : mark ∉ before) :
    cutChars? mark (before ++ mark :: after) = some (before, after) := by
  induction before with
  | nil => simp [cutChars?]
  | cons c rest ih =>
    rw [List.mem_cons, not_or] at h
    simp [cutChars?, Ne.symm h.1, ih h.2]

theorem cut?_eq_none_iff {mark : Char} {s : String} : cut? mark s = none ↔ mark ∉ s.toList := by
  rw [cut?, Option.map_eq_none_iff, cutChars?_eq_none_iff]

theorem cut?_eq_some {mark : Char} {s before after : String}
    (h : cut? mark s = some (before, after)) :
    s = before ++ String.singleton mark ++ after ∧ mark ∉ before.toList := by
  rw [cut?, Option.map_eq_some_iff] at h
  obtain ⟨⟨b, a⟩, hc, he⟩ := h
  obtain ⟨rfl, rfl⟩ := Prod.mk.inj he
  obtain ⟨hs, hb⟩ := cutChars?_eq_some hc
  refine ⟨?_, by simpa using hb⟩
  rw [← String.toList_inj]
  simp [hs]

theorem cut?_append {mark : Char} {before after : String} (h : mark ∉ before.toList) :
    cut? mark (before ++ String.singleton mark ++ after) = some (before, after) := by
  simp [cut?, cutChars?_append h]

/-! ## All occurrences -/

theorem pieceChars_of_notMem {mark : Char} {cs : List Char} (h : mark ∉ cs) :
    pieceChars mark cs = [cs] := by
  induction cs with
  | nil => rfl
  | cons c rest ih =>
    rw [List.mem_cons, not_or] at h
    simp [pieceChars, Ne.symm h.1, ih h.2]

/-- The first part ends at the first mark. -/
theorem pieceChars_append {mark : Char} {before after : List Char} (h : mark ∉ before) :
    pieceChars mark (before ++ mark :: after) = before :: pieceChars mark after := by
  induction before with
  | nil => simp [pieceChars]
  | cons c rest ih =>
    rw [List.mem_cons, not_or] at h
    simp [pieceChars, Ne.symm h.1, ih h.2]

theorem pieceChars_intercalate {mark : Char} {parts : List (List Char)} (h : parts ≠ [])
    (free : ∀ part ∈ parts, mark ∉ part) :
    pieceChars mark ([mark].intercalate parts) = parts := by
  induction parts with
  | nil => exact absurd rfl h
  | cons part rest ih =>
    have hpart := free part List.mem_cons_self
    cases rest with
    | nil => simp [pieceChars_of_notMem hpart]
    | cons next rest =>
      have hrest := ih (List.cons_ne_nil _ _) fun other ho => free other (List.mem_cons_of_mem _ ho)
      rw [List.intercalate_cons_cons, List.append_assoc, List.singleton_append,
        pieceChars_append hpart, hrest]

/-- **Parts that are joined by a mark** are the pieces of what they make up. -/
theorem pieces_intercalate {mark : Char} {parts : List String} (h : parts ≠ [])
    (free : ∀ part ∈ parts, mark ∉ part.toList) :
    pieces mark ((String.singleton mark).intercalate parts) = parts := by
  have hchars : pieceChars mark ([mark].intercalate (parts.map String.toList))
      = parts.map String.toList := by
    refine pieceChars_intercalate (by simpa using h) fun part hp => ?_
    obtain ⟨text, ht, rfl⟩ := List.mem_map.1 hp
    exact free text ht
  rw [pieces, String.toList_intercalate, String.toList_singleton, hchars, List.map_map]
  simp [Function.comp_def]

end AttributeViews.Text
