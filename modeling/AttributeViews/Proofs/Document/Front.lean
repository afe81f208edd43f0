import AttributeViews.Proofs.Document
import Mathlib.Data.List.Infix

/-!
# Readers take something off the front

What a reader leaves of a document is the end of what it is given; nothing is put back and nothing
is read twice.

* `TakesFront` — the property; **`takesFront_readValue`** — of the reader of values.
* `TakesMore` — the reader takes off more characters than the text that it answers has;
  **`takesMore_readText`** — of the reader of texts, for the quotes around it.
-/

namespace AttributeViews.Document

variable {α : Type} {cs rest text behind : List Char} {mark : Char} {reader reader' : Reader α}

/-- What is left is the end of what was there. -/
def TakesFront (reader : Reader α) : Prop :=
  ∀ ⦃cs a rest⦄, reader cs = some (a, rest) → rest <:+ cs

lemma TakesFront.orElse (h : TakesFront reader) (h' : TakesFront reader') :
    TakesFront fun cs => (reader cs).orElse fun _ => reader' cs := fun _ _ _ read =>
  (orElse_eq_some read).elim (fun hr => h hr) fun hr => h' hr

/-! ## Texts -/

/-- More is taken off than the text that is answered. -/
def TakesMore (cs text rest : List Char) : Prop :=
  rest <:+ cs ∧ text.length + rest.length < cs.length

lemma TakesMore.of_suffix (h : TakesMore behind text rest) (hs : behind <:+ cs) :
    TakesMore cs text rest :=
  ⟨h.1.trans hs, h.2.trans_le hs.length_le⟩

lemma TakesMore.cons (h : TakesMore behind text rest) (c e : Char) :
    TakesMore (c :: behind) (e :: text) rest :=
  ⟨h.1.trans (List.suffix_cons c behind), by have := h.2; simp only [List.length_cons]; omega⟩

lemma takesMore_nil (c : Char) (rest : List Char) : TakesMore (c :: rest) [] rest :=
  ⟨List.suffix_cons c rest, by simp⟩

lemma takesMore_of_prepend {c e : Char} {answer : Option (List Char × List Char)}
    (ih : ∀ {text rest}, answer = some (text, rest) → TakesMore behind text rest)
    (read : prepend e answer = some (text, rest)) : TakesMore (c :: behind) text rest := by
  obtain ⟨⟨tail, left⟩, ha, he⟩ := Option.map_eq_some_iff.1 read
  cases he
  exact (ih ha).cons c e

lemma takesFront_readEscape : TakesFront readEscape := by
  intro cs c rest read
  unfold readEscape at read
  split at read
  case h_4 => cases read
  all_goals
    obtain ⟨_, -, he⟩ := Option.map_eq_some_iff.1 read
    cases he
  · exact List.suffix_append [_, _, _, _, _] rest
  · exact List.suffix_append [_, _, _, _, _, _, _, _, _] rest
  · exact List.suffix_cons _ rest

lemma takesMore_readBasic (read : readBasic cs = some (text, rest)) : TakesMore cs text rest := by
  fun_induction readBasic cs generalizing text rest with
  | case1 => cases read
  | case2 behind =>
      cases read
      exact takesMore_nil _ _
  | case3 behind e after escape _ ih =>
      have hs := takesFront_readEscape escape
      exact takesMore_of_prepend (fun h => (ih h).of_suffix hs) read
  | case4 => cases read
  | case5 => cases read
  | case6 _ _ _ _ _ ih => exact takesMore_of_prepend ih read

lemma takesMore_readLiteral (read : readLiteral cs = some (text, rest)) :
    TakesMore cs text rest := by
  fun_induction readLiteral cs generalizing text rest with
  | case1 => cases read
  | case2 behind =>
      cases read
      exact takesMore_nil _ _
  | case3 => cases read
  | case4 _ _ _ _ ih => exact takesMore_of_prepend ih read

lemma suffix_of_skipFold (h : skipFold cs = some rest) : rest <:+ cs := by
  unfold skipFold at h
  have hs := List.dropWhile_suffix isSpace (l := cs)
  split at h
  · cases h
    exact List.nil_suffix
  · next behind hb =>
    cases h
    rw [hb] at hs
    exact ((List.dropWhile_suffix _).trans (List.suffix_cons _ behind)).trans hs
  · cases h

/-- The closing quotes and those of the text in front of them are taken off. -/
lemma closingQuotes_append (quote : Char) (cs : List Char) :
    (closingQuotes quote cs).1 ++ (closingQuotes quote cs).2 = cs := by
  unfold closingQuotes
  split
  · split_ifs <;> simp_all
  · split_ifs <;> simp_all
  · rfl

lemma takesMore_of_closingQuotes {quote a b c : Char}
    (closed : some (closingQuotes quote cs) = some (text, rest)) :
    TakesMore (a :: b :: c :: cs) text rest := by
  have happ := closingQuotes_append quote cs
  rw [Option.some.inj closed] at happ
  have hs : rest <:+ cs := ⟨text, happ⟩
  refine ⟨hs.trans (List.suffix_append [a, b, c] cs), ?_⟩
  rw [← List.length_append, happ]
  simp only [List.length_cons]
  omega

lemma takesMore_readLongBasic (read : readLongBasic cs = some (text, rest)) :
    TakesMore cs text rest := by
  fun_induction readLongBasic cs generalizing text rest with
  | case1 => cases read
  | case2 behind => exact takesMore_of_closingQuotes read
  | case3 _ _ after fold _ ih =>
      exact (ih read).of_suffix ((suffix_of_skipFold fold).trans (List.suffix_cons _ _))
  | case4 => cases read
  | case5 _ _ e after escape _ ih =>
      have hs := takesFront_readEscape escape
      exact takesMore_of_prepend (fun h => (ih h).of_suffix hs) read
  | case6 => cases read
  | case7 => cases read
  | case8 _ _ _ _ _ ih => exact takesMore_of_prepend ih read

lemma takesMore_readLongLiteral (read : readLongLiteral cs = some (text, rest)) :
    TakesMore cs text rest := by
  fun_induction readLongLiteral cs generalizing text rest with
  | case1 => cases read
  | case2 behind => exact takesMore_of_closingQuotes read
  | case3 => cases read
  | case4 _ _ _ _ ih => exact takesMore_of_prepend ih read

lemma skipFirstBreak_suffix (cs : List Char) : skipFirstBreak cs <:+ cs := by
  unfold skipFirstBreak
  split
  · exact List.suffix_cons _ _
  · exact List.suffix_refl _

/-- **A text is shorter than what is taken off** for it. -/
lemma takesMore_readText (read : readText cs = some (text, rest)) : TakesMore cs text rest := by
  unfold readText at read
  split at read
  · exact (takesMore_readLongBasic read).of_suffix
      ((skipFirstBreak_suffix _).trans (List.suffix_append [_, _, _] _))
  · exact (takesMore_readLongLiteral read).of_suffix
      ((skipFirstBreak_suffix _).trans (List.suffix_append [_, _, _] _))
  · exact (takesMore_readBasic read).of_suffix (List.suffix_cons _ _)
  · exact (takesMore_readLiteral read).of_suffix (List.suffix_cons _ _)
  · cases read

/-! ## Dates and times -/

lemma suffix_of_readNumber? {width n : Nat} (h : readNumber? width cs = some (n, rest)) :
    rest <:+ cs := by
  dsimp only [readNumber?] at h
  split_ifs at h
  obtain ⟨_, -, he⟩ := Option.map_eq_some_iff.1 h
  cases he
  exact List.drop_suffix width cs

lemma suffix_of_readMark? (h : readMark? mark cs = some rest) : rest <:+ cs := by
  unfold readMark? at h
  split at h
  · cases h
  · split_ifs at h
    cases h
    exact List.suffix_cons _ rest

lemma suffix_of_readDate? {date : Date} (h : readDate? cs = some (date, rest)) : rest <:+ cs := by
  simp only [readDate?, Option.bind_eq_bind, Option.bind_eq_some_iff] at h
  obtain ⟨⟨year, c₁⟩, h₁, c₂, h₂, ⟨month, c₃⟩, h₃, c₄, h₄, ⟨day, c₅⟩, h₅, date, -, he⟩ := h
  cases he
  calc c₅ <:+ c₄ := suffix_of_readNumber? h₅
    _ <:+ c₃ := suffix_of_readMark? h₄
    _ <:+ c₂ := suffix_of_readNumber? h₃
    _ <:+ c₁ := suffix_of_readMark? h₂
    _ <:+ cs := suffix_of_readNumber? h₁

lemma readFraction_suffix (cs : List Char) : (readFraction cs).2 <:+ cs := by
  unfold readFraction
  split
  · dsimp only
    split_ifs
    · exact List.suffix_refl _
    · exact (List.drop_suffix _ _).trans (List.suffix_cons _ _)
  · exact List.suffix_refl _

lemma suffix_of_readTime? {time : TimeOfDay} (h : readTime? cs = some (time, rest)) :
    rest <:+ cs := by
  simp only [readTime?, Option.bind_eq_bind, Option.bind_eq_some_iff] at h
  obtain ⟨⟨hour, c₁⟩, h₁, c₂, h₂, ⟨minute, c₃⟩, h₃, c₄, h₄, ⟨second, c₅⟩, h₅, time, -, he⟩ := h
  cases he
  calc (readFraction c₅).2 <:+ c₅ := readFraction_suffix c₅
    _ <:+ c₄ := suffix_of_readNumber? h₅
    _ <:+ c₃ := suffix_of_readMark? h₄
    _ <:+ c₂ := suffix_of_readNumber? h₃
    _ <:+ c₁ := suffix_of_readMark? h₂
    _ <:+ cs := suffix_of_readNumber? h₁

lemma suffix_of_readOffset? {offset : Int} (h : readOffset? cs = some (offset, rest)) :
    rest <:+ cs := by
  simp only [readOffset?, Option.bind_eq_bind, Option.bind_eq_some_iff] at h
  obtain ⟨⟨sign, c₁⟩, h₁, ⟨hour, c₂⟩, h₂, c₃, h₃, ⟨minute, c₄⟩, h₄, time, -, he⟩ := h
  cases he
  have hsign : c₁ <:+ cs := by
    unfold readSign? at h₁
    split at h₁ <;> cases h₁ <;> exact List.suffix_cons _ _
  calc c₄ <:+ c₃ := suffix_of_readNumber? h₄
    _ <:+ c₂ := suffix_of_readMark? h₃
    _ <:+ c₁ := suffix_of_readNumber? h₂
    _ <:+ cs := hsign

lemma readZone_suffix (cs : List Char) : (readZone cs).2 <:+ cs := by
  unfold readZone
  split
  · exact List.suffix_cons _ _
  · exact List.suffix_cons _ _
  · split
    · next h => exact suffix_of_readOffset? h
    · exact List.suffix_refl _

lemma takesFront_readCalendar : TakesFront readCalendar := by
  refine TakesFront.orElse (fun cs value rest read => ?_) fun cs value rest read => ?_
  · obtain ⟨⟨date, behind⟩, hd, he⟩ := Option.bind_eq_some_iff.1 read
    have hdate := suffix_of_readDate? hd
    rcases behind with _ | ⟨mark, behind⟩
    · cases he
      exact hdate
    · dsimp only at he
      split at he
      · split at he
        · next time left ht =>
          cases he
          exact (readZone_suffix left).trans
            ((suffix_of_readTime? ht).trans ((List.suffix_cons mark behind).trans hdate))
        · cases he
          exact hdate
      · cases he
        exact hdate
  · obtain ⟨⟨time, behind⟩, ht, he⟩ := Option.map_eq_some_iff.1 read
    cases he
    exact suffix_of_readTime? ht

/-! ## Numbers -/

lemma digitGroups_suffix (isDigit : Char → Bool) (cs : List Char) :
    (digitGroups isDigit cs).2 <:+ cs := by
  fun_induction digitGroups isDigit cs with
  | case1 => exact List.suffix_refl _
  | case2 => exact List.nil_suffix
  | case3 => exact List.suffix_refl _
  | case4 c d rest _ digits left grouped ih =>
      rw [grouped] at ih
      exact ih.trans (List.suffix_cons c _)
  | case5 c d rest _ _ digits left grouped ih =>
      rw [grouped] at ih
      exact ih.trans (List.suffix_append [c, d] rest)
  | case6 => exact List.suffix_refl _

lemma takesFront_readDigits (isDigit : Char → Bool) : TakesFront (readDigits isDigit) := by
  intro cs digits rest read
  unfold readDigits at read
  split at read
  · cases read
  · next c behind =>
    split_ifs at read
    have hs := digitGroups_suffix isDigit (c :: behind)
    rwa [Option.some.inj read] at hs

lemma takesFront_readMarked : TakesFront readMarked := by
  intro cs value rest read
  have marked : ∀ base behind, (readDigits (isDigitOf base) behind >>= fun read =>
      some (Value.int (valueOfDigits base read.1), read.2)) = some (value, rest) →
        rest <:+ behind := by
    intro base behind read
    obtain ⟨⟨digits, left⟩, hd, he⟩ := Option.bind_eq_some_iff.1 read
    cases he
    exact takesFront_readDigits _ hd
  unfold readMarked at read
  split at read
  · next mark behind =>
    refine List.IsSuffix.trans ?_ (List.suffix_append ['0', mark] behind)
    dsimp only at read
    split at read
    · exact marked 16 _ read
    · exact marked 8 _ read
    · exact marked 2 _ read
    · cases read
  · cases read

lemma readSign_suffix (cs : List Char) : (readSign cs).2 <:+ cs := by
  unfold readSign
  split
  · exact List.suffix_cons _ _
  · exact List.suffix_cons _ _
  · exact List.suffix_refl _

lemma takesFront_readWhole : TakesFront readWhole := by
  intro cs digits rest read
  unfold readWhole at read
  split at read
  · cases read
    exact List.suffix_cons _ _
  · exact takesFront_readDigits _ read

lemma readFractionPart_suffix (cs : List Char) : (readFractionPart cs).2 <:+ cs := by
  unfold readFractionPart
  split
  · split
    · next hd => exact (takesFront_readDigits _ hd).trans (List.suffix_cons _ _)
    · exact List.suffix_refl _
  · exact List.suffix_refl _

lemma readExponentPart_suffix (cs : List Char) : (readExponentPart cs).2 <:+ cs := by
  unfold readExponentPart
  split
  · split_ifs
    · dsimp only
      split
      · next hd =>
        exact (takesFront_readDigits _ hd).trans
          ((readSign_suffix _).trans (List.suffix_cons _ _))
      · exact List.suffix_refl _
    · exact List.suffix_refl _
  · exact List.suffix_refl _

lemma takesFront_readPlain : TakesFront readPlain := by
  intro cs value rest read
  obtain ⟨⟨whole, behind⟩, hw, he⟩ := Option.bind_eq_some_iff.1 read
  have hs := calc
    (readExponentPart (readFractionPart behind).2).2 <:+ (readFractionPart behind).2 :=
      readExponentPart_suffix _
    _ <:+ behind := readFractionPart_suffix behind
    _ <:+ (readSign cs).2 := takesFront_readWhole hw
    _ <:+ cs := readSign_suffix cs
  dsimp only at he
  split at he <;> cases he <;> exact hs

lemma takesFront_readNumber : TakesFront readNumber :=
  takesFront_readMarked.orElse takesFront_readPlain

lemma takesFront_readSpecial : TakesFront readSpecial := by
  intro cs value rest read
  have hs := readSign_suffix cs
  unfold readSpecial at read
  dsimp only at read
  split at read
  · next behind hb =>
    cases read
    rw [hb] at hs
    exact (List.suffix_append [_, _, _] _).trans hs
  · next behind hb =>
    cases read
    rw [hb] at hs
    exact (List.suffix_append [_, _, _] _).trans hs
  · cases read

/-! ## Values -/

lemma takesFront_readScalar : TakesFront readScalar := by
  intro cs value rest read
  unfold readScalar at read
  split at read
  case h_5 =>
    exact takesFront_readCalendar.orElse (takesFront_readNumber.orElse takesFront_readSpecial) read
  case h_1 =>
    cases read
    exact List.suffix_append [_, _, _, _] rest
  case h_2 =>
    cases read
    exact List.suffix_append [_, _, _, _, _] rest
  case h_3 | h_4 =>
    obtain ⟨⟨text, behind⟩, ht, he⟩ := Option.map_eq_some_iff.1 read
    cases he
    exact (takesMore_readText ht).1

lemma suffix_of_skipGap {inComment : Bool} (h : skipGap inComment cs = some rest) :
    rest <:+ cs := by
  fun_induction skipGap inComment cs with
  | case1 =>
      cases h
      exact List.suffix_refl _
  | case2 _ ih => exact (ih h).trans (List.suffix_cons _ _)
  | case3 => cases h
  | case4 _ _ _ _ ih => exact (ih h).trans (List.suffix_cons _ _)
  | case5 _ _ _ _ _ ih => exact (ih h).trans (List.suffix_cons _ _)
  | case6 _ _ _ _ ih => exact (ih h).trans (List.suffix_cons _ _)
  | case7 =>
      cases h
      exact List.suffix_refl _

lemma takesFront_readKeyPart : TakesFront readKeyPart := by
  intro cs part rest read
  unfold readKeyPart at read
  split at read
  · obtain ⟨⟨text, behind⟩, ht, he⟩ := Option.map_eq_some_iff.1 read
    cases he
    exact (takesMore_readBasic ht).1.trans (List.suffix_cons _ _)
  · obtain ⟨⟨text, behind⟩, ht, he⟩ := Option.map_eq_some_iff.1 read
    cases he
    exact (takesMore_readLiteral ht).1.trans (List.suffix_cons _ _)
  · dsimp only at read
    split_ifs at read
    cases read
    exact List.drop_suffix _ _

lemma skipSpace_suffix (cs : List Char) : skipSpace cs <:+ cs := List.dropWhile_suffix _

lemma takesFront_readKey (fuel : Nat) : TakesFront (readKey fuel) := by
  induction fuel with
  | zero => exact fun _ _ _ read => nomatch read
  | succ fuel ih =>
      intro cs path rest read
      obtain ⟨⟨part, behind⟩, hp, read⟩ := Option.bind_eq_some_iff.1 read
      have hs := (skipSpace_suffix behind).trans (takesFront_readKeyPart hp)
      dsimp only at read
      split at read
      · next left hl =>
        obtain ⟨⟨parts, behind'⟩, hk, he⟩ := Option.bind_eq_some_iff.1 read
        cases he
        rw [hl] at hs
        exact (ih hk).trans ((skipSpace_suffix left).trans ((List.suffix_cons _ _).trans hs))
      · cases read
        exact hs

lemma suffix_of_expect (h : expect mark cs = some rest) : rest <:+ cs := by
  unfold expect at h
  split at h
  · cases h
  · split_ifs at h
    cases h
    exact List.suffix_cons _ rest

section Nested

variable {fuel : Nat}

/-! The readers that call each other, one step of each. -/

lemma takesFront_readValue_succ (items : TakesFront (readItems fuel))
    (members : TakesFront (readMembers fuel [])) : TakesFront (readValue (fuel + 1)) := by
  intro cs value rest read
  unfold readValue at read
  split at read
  case h_1 => cases read
  case h_2 hf =>
    cases hf
    obtain ⟨behind, hg, read⟩ := Option.bind_eq_some_iff.1 read
    obtain ⟨⟨list, left⟩, hi, he⟩ := Option.bind_eq_some_iff.1 read
    cases he
    exact (items hi).trans ((suffix_of_skipGap hg).trans (List.suffix_cons _ _))
  case h_3 behind hf =>
    cases hf
    have hs := (skipSpace_suffix behind).trans (List.suffix_cons '\x7b' behind)
    split at read
    · next left hl =>
      cases read
      rw [hl] at hs
      exact (List.suffix_cons _ _).trans hs
    · obtain ⟨⟨entries, left⟩, hm, he⟩ := Option.bind_eq_some_iff.1 read
      cases he
      exact (members hm).trans hs
  case h_4 => exact takesFront_readScalar read

lemma takesFront_readItems_succ (value : TakesFront (readValue fuel))
    (items : TakesFront (readItems fuel)) : TakesFront (readItems (fuel + 1)) := by
  intro cs values rest read
  unfold readItems at read
  split at read
  case h_1 => cases read
  case h_2 =>
    cases read
    exact List.suffix_cons _ _
  case h_3 hf _ =>
    cases hf
    obtain ⟨⟨first, behind⟩, hv, read⟩ := Option.bind_eq_some_iff.1 read
    obtain ⟨gap, hg, read⟩ := Option.bind_eq_some_iff.1 read
    have hs := (suffix_of_skipGap hg).trans (value hv)
    split at read
    · cases read
      exact (List.suffix_cons _ _).trans hs
    · obtain ⟨gap', hg', read⟩ := Option.bind_eq_some_iff.1 read
      obtain ⟨⟨list, left⟩, hi, he⟩ := Option.bind_eq_some_iff.1 read
      cases he
      exact (items hi).trans ((suffix_of_skipGap hg').trans ((List.suffix_cons _ _).trans hs))
    · cases read

lemma takesFront_readMembers_succ (value : TakesFront (readValue fuel))
    (members : ∀ entries, TakesFront (readMembers fuel entries)) (entries : Entries) :
    TakesFront (readMembers (fuel + 1) entries) := by
  intro cs entries' rest read
  rw [readMembers] at read
  obtain ⟨⟨path, afterKey⟩, hk, read⟩ := Option.bind_eq_some_iff.1 read
  obtain ⟨afterMark, hm, read⟩ := Option.bind_eq_some_iff.1 read
  obtain ⟨⟨first, behind⟩, hv, read⟩ := Option.bind_eq_some_iff.1 read
  obtain ⟨assigned, -, read⟩ := Option.bind_eq_some_iff.1 read
  have hs := calc skipSpace behind <:+ behind := skipSpace_suffix behind
    _ <:+ skipSpace afterMark := value hv
    _ <:+ afterMark := skipSpace_suffix afterMark
    _ <:+ afterKey := suffix_of_expect hm
    _ <:+ cs := takesFront_readKey fuel hk
  split at read
  · next left hl =>
    cases read
    rw [hl] at hs
    exact (List.suffix_cons _ _).trans hs
  · next left hl =>
    rw [hl] at hs
    exact (members assigned read).trans
      ((skipSpace_suffix left).trans ((List.suffix_cons _ _).trans hs))
  · cases read

lemma takesFront_read (fuel : Nat) :
    TakesFront (readValue fuel) ∧ TakesFront (readItems fuel) ∧
      ∀ entries, TakesFront (readMembers fuel entries) := by
  induction fuel with
  | zero =>
      refine ⟨fun cs value rest read => ?_, fun cs values rest read => ?_,
        fun entries cs values rest read => ?_⟩
      · rw [readValue] at read
        cases read
      · rw [readItems] at read
        cases read
      · rw [readMembers] at read
        cases read
  | succ fuel ih =>
      obtain ⟨value, items, members⟩ := ih
      exact ⟨takesFront_readValue_succ items (members []), takesFront_readItems_succ value items,
        takesFront_readMembers_succ value members⟩

/-- **What is left behind a value** is the end of what was there. -/
lemma takesFront_readValue (fuel : Nat) : TakesFront (readValue fuel) := (takesFront_read fuel).1

/-- **A text that is read** is shorter than what was there. -/
lemma length_of_readValue {s : String} (read : readValue fuel cs = some (.text s, rest)) :
    s.length < cs.length := by
  unfold readValue at read
  split at read
  case h_1 => cases read
  case h_2 =>
    obtain ⟨behind, -, read⟩ := Option.bind_eq_some_iff.1 read
    obtain ⟨⟨list, left⟩, -, he⟩ := Option.bind_eq_some_iff.1 read
    cases he
  case h_3 =>
    split at read
    · cases read
    · obtain ⟨⟨entries, left⟩, -, he⟩ := Option.bind_eq_some_iff.1 read
      cases he
  case h_4 =>
    rcases readScalar_eq_some read with ⟨-, h⟩ | ⟨text, he, ht⟩
    · cases h
    · have hl := (takesMore_readText ht).2
      rw [Value.text.inj he, String.length_ofList]
      omega

end Nested

end AttributeViews.Document
