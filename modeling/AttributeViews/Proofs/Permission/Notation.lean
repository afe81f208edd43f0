import AttributeViews.Permission.Notation
import Mathlib.Order.Bounds.Basic
import Mathlib.Tactic.Common

/-!
# Reading permissions and writing them

Reading goes through the nine places of a text and adds one permission after the other to those
granted so far; writing asks for each place whether its permission is granted.  What ties the two
loops together is that no permission has two places: what is granted at a place is neither granted
before nor taken back behind it.

* `FitsPlace` — a character may stand at a place; `PermissionSet.misfits` — the places of a text
  where it is otherwise.
* **`PermissionSet.readPlaces_eq_ok_iff`** — reading the remaining places answers the set of which
  they are written.
* **`PermissionSet.exists_firstMisfit_of_readPlaces`** — it fails at the first character that does
  not fit.
* **`PermissionSet.reading_inverts_writing`** — both, for whole texts.
-/

namespace AttributeViews

variable {text : String} {granted s : PermissionSet} {index : Nat} {ps : List Permission}
  {cs : List Char} {e : Error}

lemma Permission.letter_ne_dash (p : Permission) : p.letter ≠ '-' := by
  obtain ⟨party, right⟩ := p
  cases right <;> simp [letter, Right.letter]

lemma Permission.nodup_all : all.Nodup := by decide

/-- A character may stand at a place of a permission text: it is a dash, or the letter there. -/
def FitsPlace (i : Nat) (c : Char) : Prop := c = '-' ∨ "rwxrwxrwx".toList[i]? = some c

lemma letters_all : Permission.all.map Permission.letter = "rwxrwxrwx".toList := rfl

lemma fitsPlace_iff {i : Nat} {p : Permission} {c : Char} (hp : Permission.all[i]? = some p) :
    FitsPlace i c ↔ c = p.letter ∨ c = '-' := by
  rw [FitsPlace, ← letters_all, List.getElem?_map, hp, Option.map_some, Option.some.injEq,
    or_comm, eq_comm (a := c) (b := p.letter)]

namespace PermissionSet

/-! ## The remaining places -/

/-- The character at the place of a permission. -/
def place (s : PermissionSet) (p : Permission) : Char := if s.contains p then p.letter else '-'

lemma renderChars_eq : s.renderChars = Permission.all.map s.place := rfl

lemma letter_eq_place_iff {p : Permission} : p.letter = s.place p ↔ s.contains p = true := by
  rw [place]
  split_ifs with h
  · exact iff_of_true rfl h
  · exact iff_of_false p.letter_ne_dash h

lemma dash_eq_place_iff {p : Permission} : '-' = s.place p ↔ s.contains p = false := by
  rw [place]
  split_ifs with h
  · exact iff_of_false p.letter_ne_dash.symm (by simp [h])
  · exact iff_of_true rfl (by simpa using h)

lemma place_cases (s : PermissionSet) (p : Permission) : s.place p = p.letter ∨ s.place p = '-' :=
  ite_eq_or_eq ..

/-- What is known of a set once the first of the remaining places has been read. -/
lemma agrees_cons_iff {granted' : PermissionSet} {p : Permission} (hp : p ∉ ps)
    (same : ∀ q, q ≠ p → granted'.contains q = granted.contains q) :
    (∀ q, q ∉ ps → s.contains q = granted'.contains q) ↔
      s.contains p = granted'.contains p ∧
        ∀ q, q ∉ p :: ps → s.contains q = granted.contains q := by
  constructor
  · refine fun h => ⟨h p hp, fun q hq => ?_⟩
    obtain ⟨hne, hq⟩ := not_or.1 (mt List.mem_cons.2 hq)
    rw [h q hq, same q hne]
  · rintro ⟨hhead, hrest⟩ q hq
    by_cases hne : q = p
    · rw [hne, hhead]
    · rw [same q hne, hrest q (List.not_mem_cons_of_ne_of_not_mem hne hq)]

/-- **Reading the remaining places** answers the set of which they are written; about permissions of
other places it says what had been granted. -/
lemma readPlaces_eq_ok_iff (nodup : ps.Nodup) (length : ps.length = cs.length)
    (ungranted : ∀ p ∈ ps, granted.contains p = false) :
    readPlaces text granted index ps cs = .ok s ↔
      cs = ps.map s.place ∧ ∀ q, q ∉ ps → s.contains q = granted.contains q := by
  induction ps generalizing granted index cs with
  | nil =>
      obtain rfl := List.length_eq_zero_iff.1 length.symm
      simp only [readPlaces, Except.ok.injEq, List.map_nil, List.not_mem_nil, not_false_eq_true,
        true_imp_iff, true_and]
      exact ⟨fun h p => by rw [h], fun h => ext fun p => (h p).symm⟩
  | cons p ps ih =>
      obtain ⟨hp, nodup⟩ := List.nodup_cons.1 nodup
      obtain ⟨hgranted, ungranted⟩ := List.forall_mem_cons.1 ungranted
      cases cs with
      | nil => cases length
      | cons c cs =>
          have length := Nat.succ.inj length
          rw [readPlaces, List.map_cons, List.cons.injEq]
          split_ifs with hletter hdash
          · -- the permission is granted by this place, and has no other one
            have ungranted' : ∀ q ∈ ps, (granted.insert p).contains q = false := by
              intro q hq
              have hne : p ≠ q := fun he => hp (he ▸ hq)
              simp [hne, ungranted q hq]
            have same : ∀ q, q ≠ p → (granted.insert p).contains q = granted.contains q := by
              intro q hne
              simp [hne.symm]
            rw [ih nodup length ungranted', agrees_cons_iff hp same, hletter,
              letter_eq_place_iff, contains_insert, decide_eq_true rfl, Bool.true_or]
            tauto
          · rw [ih nodup length ungranted, agrees_cons_iff hp fun _ _ => rfl, hdash,
              dash_eq_place_iff, hgranted]
            tauto
          · refine iff_of_false (by simp) ?_
            rintro ⟨⟨rfl, -⟩, -⟩
            exact (s.place_cases p).elim hletter hdash

/-- The first of some places at which a character does not fit: its number, its permission and the
character. -/
structure FirstMisfit (ps : List Permission) (cs : List Char) (i : Nat) (p : Permission)
    (c : Char) : Prop where
  permission : ps[i]? = some p
  found : cs[i]? = some c
  misfit : ¬ (c = p.letter ∨ c = '-')
  first : ∀ j q d, j < i → ps[j]? = some q → cs[j]? = some d → d = q.letter ∨ d = '-'

lemma FirstMisfit.cons {p q : Permission} {c d : Char} {i : Nat} (fits : c = p.letter ∨ c = '-')
    (h : FirstMisfit ps cs i q d) : FirstMisfit (p :: ps) (c :: cs) (i + 1) q d := by
  refine ⟨h.permission, h.found, h.misfit, fun j q' d' hj hq hd => ?_⟩
  cases j with
  | zero =>
      obtain rfl := Option.some.inj hq
      obtain rfl := Option.some.inj hd
      exact fits
  | succ j => exact h.first j q' d' (Nat.lt_of_succ_lt_succ hj) hq hd

/-- **Reading the remaining places fails** at the first character that is neither the letter of its
place nor a dash. -/
lemma exists_firstMisfit_of_readPlaces (h : readPlaces text granted index ps cs = .error e) :
    ∃ i p c, FirstMisfit ps cs i p c ∧ e = .notationCharacter text p.letter (index + i) c := by
  induction ps generalizing granted index cs with
  | nil => cases h
  | cons p ps ih =>
      cases cs with
      | nil => cases h
      | cons c cs =>
          have passed : (c = p.letter ∨ c = '-') → ∀ {granted' : PermissionSet},
              readPlaces text granted' (index + 1) ps cs = .error e →
                ∃ i q d, FirstMisfit (p :: ps) (c :: cs) i q d ∧
                  e = .notationCharacter text q.letter (index + i) d := by
            intro fits granted' h
            obtain ⟨i, q, d, hi, rfl⟩ := ih h
            exact ⟨i + 1, q, d, hi.cons fits, by rw [Nat.add_right_comm, Nat.add_assoc]⟩
          rw [readPlaces] at h
          split_ifs at h with hletter hdash
          · exact passed (Or.inl hletter) h
          · exact passed (Or.inr hdash) h
          · obtain rfl := Except.error.inj h
            exact ⟨0, p, c, ⟨rfl, rfl, not_or.2 ⟨hletter, hdash⟩, by simp⟩, rfl⟩

/-! ## Whole texts -/

lemma length_renderChars : s.renderChars.length = Permission.all.length := List.length_map ..

/-- **A text is read** as the set of which it is the written form. -/
lemma parse_eq_ok_iff : parse text = .ok s ↔ s.render = text := by
  have hrender : s.render = text ↔ text.toList = s.renderChars :=
    ⟨fun h => by rw [← h, render, String.toList_ofList],
      fun h => by rw [render, ← h, String.ofList_toList]⟩
  rw [hrender, parse, notationWidth]
  split_ifs with hlength
  · rw [readPlaces_eq_ok_iff Permission.nodup_all hlength.symm fun p _ => contains_empty p]
    exact and_iff_left fun q hq => absurd q.mem_all hq
  · refine iff_of_false (by simp) fun he => hlength ?_
    rw [he, length_renderChars]

/-- The length is looked at first. -/
lemma parse_of_length (other : text.length ≠ 9) : parse text = .error (.notationLength text) := by
  rw [parse, String.length_toList]
  exact if_neg other

lemma exists_firstMisfit_of_parse (length : text.length = 9) (h : parse text = .error e) :
    ∃ i p c, FirstMisfit Permission.all text.toList i p c ∧
      e = .notationCharacter text p.letter i c := by
  rw [parse, String.length_toList, if_pos (show text.length = notationWidth from length)] at h
  obtain ⟨i, p, c, misfit, rfl⟩ := exists_firstMisfit_of_readPlaces h
  exact ⟨i, p, c, misfit, by rw [Nat.zero_add]⟩

/-- The numbers of the places of a text at which a character does not fit. -/
def misfits (text : String) : Set Nat := {i | ∃ c, text.toList[i]? = some c ∧ ¬ FitsPlace i c}

lemma FirstMisfit.isLeast {i : Nat} {p : Permission} {c : Char}
    (h : FirstMisfit Permission.all text.toList i p c) : IsLeast (misfits text) i := by
  refine ⟨⟨c, h.found, mt (fitsPlace_iff h.permission).1 h.misfit⟩, ?_⟩
  rintro j ⟨d, hd, misfit⟩
  by_contra hj
  have hj : j < i := Nat.lt_of_not_le hj
  have hi : i < Permission.all.length := (List.getElem?_eq_some_iff.1 h.permission).1
  obtain ⟨q, hq⟩ : ∃ q, Permission.all[j]? = some q := ⟨_, List.getElem?_eq_getElem (hj.trans hi)⟩
  exact misfit ((fitsPlace_iff hq).2 (h.first j q d hj hq hd))

/-- Written permissions fit their places. -/
lemma misfits_render : misfits s.render = ∅ := by
  rw [Set.eq_empty_iff_forall_notMem]
  rintro i ⟨c, hc, misfit⟩
  rw [render, String.toList_ofList, renderChars_eq, List.getElem?_map] at hc
  obtain ⟨p, hp, rfl⟩ := Option.map_eq_some_iff.1 hc
  exact misfit ((fitsPlace_iff hp).2 (s.place_cases p))

lemma length_render : s.render.length = 9 := by
  rw [render, String.length_ofList, length_renderChars]
  rfl

lemma exists_parse_iff :
    (∃ s, parse text = .ok s) ↔ text.length = 9 ∧ misfits text = ∅ := by
  constructor
  · rintro ⟨s, h⟩
    rw [← parse_eq_ok_iff.1 h]
    exact ⟨length_render, misfits_render⟩
  · rintro ⟨hlength, none⟩
    cases h : parse text with
    | ok s => exact ⟨s, rfl⟩
    | error e =>
        obtain ⟨i, p, c, misfit, -⟩ := exists_firstMisfit_of_parse hlength h
        exact absurd misfit.isLeast.1 (none ▸ Set.notMem_empty i)

/-- The error of a text of nine characters says where the first misfit is. -/
lemma parse_eq_error_iff_of_length (length : text.length = 9) :
    parse text = .error e ↔
      ∃ i p c, IsLeast (misfits text) i ∧ Permission.all[i]? = some p ∧ text.toList[i]? = some c ∧
        e = .notationCharacter text p.letter i c := by
  constructor
  · intro h
    obtain ⟨i, p, c, misfit, he⟩ := exists_firstMisfit_of_parse length h
    exact ⟨i, p, c, misfit.isLeast, misfit.permission, misfit.found, he⟩
  · rintro ⟨i, p, c, least, hp, hc, rfl⟩
    cases h : parse text with
    | ok s =>
        have none := (exists_parse_iff.1 ⟨s, h⟩).2
        exact absurd least.1 (none ▸ Set.notMem_empty i)
    | error e =>
        obtain ⟨j, q, d, misfit, rfl⟩ := exists_firstMisfit_of_parse length h
        obtain rfl := misfit.isLeast.unique least
        obtain rfl := Option.some.inj (misfit.permission.symm.trans hp)
        obtain rfl := Option.some.inj (misfit.found.symm.trans hc)
        rfl

/-- **Reading permissions and writing them.**  A text is read exactly if it has nine characters and
each is a dash or the letter that `rwxrwxrwx` has at its place, and what is read from a text is the
set of which the text is the written form.  Of any list of permissions, in whatever order and
however often they stand in it, the written form is read as the set of its members.  What is refused
is refused for its length, whatever its characters are, or else for the first one that does not fit:
that character and its place are what the error says. -/
theorem reading_inverts_writing (text : String) (ps : List Permission) :
    ((∃ s, parse text = .ok s) ↔
      text.length = 9 ∧ ∀ (i : Nat) (c : Char), text.toList[i]? = some c → FitsPlace i c) ∧
    (∀ s, parse text = .ok s ↔ s.render = text) ∧
    (∃ s, parse (ofList ps).render = .ok s ∧ ∀ p, s.contains p = true ↔ p ∈ ps) ∧
    ∀ e, parse text = .error e ↔
      (text.length ≠ 9 ∧ e = .notationLength text) ∨
      (text.length = 9 ∧ ∃ i p c, IsLeast (misfits text) i ∧ Permission.all[i]? = some p ∧
        text.toList[i]? = some c ∧ e = .notationCharacter text p.letter i c ∧
        e.message = "Invalid permission string " ++ Text.quoted text
          ++ ": expected " ++ quotedChar p.letter ++ " or '-' at index " ++ toString i
          ++ ", got " ++ quotedChar c) := by
  have fits : misfits text = ∅ ↔
      ∀ (i : Nat) (c : Char), text.toList[i]? = some c → FitsPlace i c := by
    simp [misfits, Set.eq_empty_iff_forall_notMem]
  refine ⟨by rw [exists_parse_iff, fits], fun s => parse_eq_ok_iff,
    ⟨_, parse_eq_ok_iff.2 rfl, by simp⟩, fun e => ?_⟩
  by_cases hlength : text.length = 9
  · rw [parse_eq_error_iff_of_length hlength]
    constructor
    · rintro ⟨i, p, c, least, hp, hc, rfl⟩
      exact Or.inr ⟨hlength, i, p, c, least, hp, hc, rfl, rfl⟩
    · rintro (⟨hother, -⟩ | ⟨-, i, p, c, least, hp, hc, he, -⟩)
      · exact absurd hlength hother
      · exact ⟨i, p, c, least, hp, hc, he⟩
  · rw [parse_of_length hlength, Except.error.injEq, eq_comm]
    constructor
    · exact fun he => Or.inl ⟨hlength, he⟩
    · rintro (⟨-, he⟩ | ⟨hnine, -⟩)
      · exact he
      · exact absurd hnine hlength

/-- A wrong letter in the second place is reported, and not the wrong one in the fourth place; and
what is written of a list with a repetition is read as the set of its two members. -/
theorem reading_inverts_writing_misplaced :
    parse "rx-q-----" = .error (.notationCharacter "rx-q-----" 'w' 1 'x') ∧
    ∃ s, parse "r-------x" = .ok s ∧
      ∀ p, s.contains p = true ↔
        p ∈ [(⟨.others, .execute⟩ : Permission), ⟨.owner, .read⟩, ⟨.others, .execute⟩] := by
  obtain ⟨-, -, -, refused⟩ := reading_inverts_writing "rx-q-----" []
  obtain ⟨-, -, read, -⟩ := reading_inverts_writing ""
    [⟨.others, .execute⟩, ⟨.owner, .read⟩, ⟨.others, .execute⟩]
  refine ⟨(refused _).2 (Or.inr ⟨rfl, 1, ⟨.owner, .write⟩, 'x', ⟨?_, ?_⟩, rfl, rfl, rfl, rfl⟩),
    read⟩
  · exact ⟨'x', rfl, by simp [FitsPlace]⟩
  · rintro j ⟨d, hd, misfit⟩
    cases j with
    | zero =>
        obtain rfl := Option.some.inj hd
        exact absurd (Or.inr rfl) misfit
    | succ j => exact Nat.succ_le_succ (Nat.zero_le j)

end PermissionSet

end AttributeViews
