import AttributeViews.Proofs.View.Calls
import AttributeViews.View.OnDemand

/-!
# What a request has done

A request calls a provider when the views that it inherits have been built, and hands these over.
So every view in its table has come out of one of its calls, with nothing inside but other such
views, and with a number of its own.

* `Request.Sound` — what a request has done fits together; **`Request.Sound.called`** keeps that.
* `Request.Made` — the instance that came out of the call of a provider;
  **`Request.Sound.made_iff`**.
* `View.HasInside` — a view inside another one; **`Request.Sound.made_inside`** — what is inside a
  view of a request has been made in it.
* **`Request.Sound.serial_made`** — and is numbered.
-/

namespace AttributeViews

variable {σ : Type} {r : Registry} {l : Lookup σ} {s s' : Request σ} {p : Provider}
  {v w : View σ} {first : Nat} {name : String} {names : List String}
  {handed : List (String × View σ)}

/-! ## Views inside views -/

namespace View

/-- The views that a view has been made from and holds. -/
def parts : View σ → List (View σ)
  | basic _ | owner _ => []
  | posix v => [.basic v.basicView, .owner v.ownerView]
  | dos v => [.basic v.basicView]
  | plain _ _ _ inherited => inherited.map Prod.snd

/-- A view is another one, or inside it. -/
abbrev HasInside : View σ → View σ → Prop := Relation.ReflTransGen fun v w => w ∈ v.parts

lemma serial_of_make {serial : Nat} (h : make p serial l handed = .ok v) : v.serial = serial := by
  cases madeFrom_of_make h <;> rfl

/-- A view holds nothing that its provider has not been handed. -/
lemma exists_handed_of_make {serial : Nat} (h : make p serial l handed = .ok v)
    (hw : w ∈ v.parts) : ∃ x ∈ handed, x.2 = w := by
  cases madeFrom_of_make h with
  | basic => cases hw
  | owner => cases hw
  | posix _ hb ho =>
      simp only [parts, List.mem_cons, List.not_mem_nil, or_false] at hw
      rcases hw with rfl | rfl
      · exact ⟨_, hb, rfl⟩
      · exact ⟨_, ho, rfl⟩
  | dos _ hb =>
      obtain rfl := List.mem_singleton.1 hw
      exact ⟨_, hb, rfl⟩
  | plain => exact List.mem_map.1 hw

end View

/-! ## What a request keeps -/

namespace Request

/-- The views handed over are the inherited ones, each as it has been built. -/
def Hands (s : Request σ) (names : List String) (handed : List (String × View σ)) : Prop :=
  handed.map Prod.fst = names ∧ ∀ x ∈ handed, s.built.get? x.1 = some x.2

/-- What is built comes from a call, and every call comes from a provider that was handed what its
view inherits, as it has been built.  Instances are numbered one after the other. -/
structure Sound (r : Registry) (l : Lookup σ) (first : Nat) (s : Request σ) : Prop where
  known : ∀ c ∈ s.calls, r.find? c.provider.name = some c.provider
  handed : ∀ c ∈ s.calls, s.Hands c.provider.inherited c.handed
  answered : ∀ c ∈ s.calls, ∃ v, c.answer l = .ok v ∧ s.built.get? c.provider.name = some v
  begun : ∀ name, (s.built.get? name).isSome = true → name ∈ s.names
  serials : s.calls.map (·.serial) = List.range' first s.calls.length
  next : s.next = first + s.calls.length

lemma sound_start : (start first : Request σ).Sound r l first where
  known := by simp [start]
  handed := by simp [start]
  answered := by simp [start]
  begun := by simp [start]
  serials := rfl
  next := rfl

/-- What has been built stays as it is. -/
def Kept (s s' : Request σ) : Prop :=
  ∀ name v, s.built.get? name = some v → s'.built.get? name = some v

lemma Hands.kept (h : s.Hands names handed) (kept : s.Kept s') : s'.Hands names handed :=
  ⟨h.1, fun x hx => kept _ _ (h.2 x hx)⟩

lemma Hands.cons {x : String × View σ} (h : s.Hands [name] [x]) (hands : s.Hands names handed) :
    s.Hands (name :: names) (x :: handed) :=
  ⟨congrArg₂ (· ++ ·) h.1 hands.1,
    List.forall_mem_cons.2 ⟨h.2 x (List.mem_singleton_self x), hands.2⟩⟩

/-- A request that has called one more provider. -/
def asked (s : Request σ) (p : Provider) (handed : List (String × View σ)) : Request σ :=
  { s with next := s.next + 1, calls := s.calls ++ [⟨p, s.next, handed⟩] }

/-- A request that has been answered by one more provider. -/
def called (s : Request σ) (p : Provider) (handed : List (String × View σ)) (v : View σ) :
    Request σ :=
  { s.asked p handed with built := s.built.insert p.name v }

lemma names_asked : (s.asked p handed).names = s.names ++ [p.name] := by
  simp [names, asked]

lemma names_called : (s.called p handed v).names = s.names ++ [p.name] := names_asked

lemma Sound.mem_names_iff (sound : s.Sound r l first) :
    name ∈ s.names ↔ ∃ v, s.built.get? name = some v := by
  constructor
  · intro h
    obtain ⟨c, hc, rfl⟩ := List.mem_map.1 h
    obtain ⟨v, -, hv⟩ := sound.answered c hc
    exact ⟨v, hv⟩
  · rintro ⟨v, hv⟩
    exact sound.begun name (by simp [hv])

/-- A view that has not been built does not take the place of another one. -/
lemma kept_called (sound : s.Sound r l first) (new : p.name ∉ s.names) :
    s.Kept (s.called p handed v) := by
  intro name w hw
  rw [called, Table.get?_insert, if_neg, hw]
  rintro rfl
  exact new (sound.mem_names_iff.2 ⟨w, hw⟩)

/-- **One more call** fits to those before it. -/
lemma Sound.called (sound : s.Sound r l first) (found : r.find? p.name = some p)
    (new : p.name ∉ s.names) (hands : s.Hands p.inherited handed)
    (answer : ProviderCall.answer ⟨p, s.next, handed⟩ l = .ok v) :
    (s.called p handed v).Sound r l first := by
  have kept : s.Kept (s.called p handed v) := kept_called sound new
  have here : (s.called p handed v).built.get? p.name = some v := by
    rw [Request.called, Table.get?_insert, if_pos rfl]
  have calls : ∀ c ∈ (s.called p handed v).calls, c ∈ s.calls ∨ c = ⟨p, s.next, handed⟩ := by
    simp [Request.called, asked]
  refine ⟨fun c hc => ?_, fun c hc => ?_, fun c hc => ?_, fun name h => ?_, ?_, ?_⟩
  · rcases calls c hc with hc | rfl
    · exact sound.known c hc
    · exact found
  · rcases calls c hc with hc | rfl
    · exact (sound.handed c hc).kept kept
    · exact hands.kept kept
  · rcases calls c hc with hc | rfl
    · obtain ⟨w, ha, hw⟩ := sound.answered c hc
      exact ⟨w, ha, kept _ _ hw⟩
    · exact ⟨v, answer, here⟩
  · rw [names_called, List.mem_append, List.mem_singleton]
    by_cases hname : p.name = name
    · exact Or.inr hname.symm
    · rw [Request.called, Table.get?_insert, if_neg hname] at h
      exact Or.inl (sound.begun name h)
  · have hserials : (s.called p handed v).calls.map (·.serial)
        = s.calls.map (·.serial) ++ [s.next] := by
      simp [Request.called, asked]
    rw [hserials, sound.serials, sound.next]
    simp [Request.called, asked, List.range'_concat]
  · simp [Request.called, asked, sound.next, Nat.add_assoc]

/-! ## Instances -/

/-- The instance that came out of the call of the provider of a view. -/
def Made (s : Request σ) (l : Lookup σ) (name : String) (v : View σ) : Prop :=
  ∃ c ∈ s.calls, c.provider.name = name ∧ c.answer l = .ok v

/-- **What has been built** has been made, and the other way round. -/
lemma Sound.made_iff (sound : s.Sound r l first) :
    s.Made l name v ↔ s.built.get? name = some v := by
  constructor
  · rintro ⟨c, hc, rfl, answer⟩
    obtain ⟨w, hw, built⟩ := sound.answered c hc
    rw [answer] at hw
    rw [built, Except.ok.inj hw]
  · intro h
    obtain ⟨c, hc, rfl⟩ := List.mem_map.1 (sound.mem_names_iff.2 ⟨v, h⟩)
    obtain ⟨w, hw, built⟩ := sound.answered c hc
    rw [h] at built
    exact ⟨c, hc, rfl, by rw [hw, Option.some.inj built]⟩

/-- One instance is made of a view. -/
lemma Sound.made_unique (sound : s.Sound r l first) (hv : s.Made l name v)
    (hw : s.Made l name w) : v = w := by
  rw [sound.made_iff] at hv hw
  exact Option.some.inj (hv.symm.trans hw)

/-- What a provider is handed has been made. -/
lemma Sound.made_handed (sound : s.Sound r l first) {c : ProviderCall σ} (hc : c ∈ s.calls)
    {x : String × View σ} (hx : x ∈ c.handed) : s.Made l x.1 x.2 :=
  sound.made_iff.2 ((sound.handed c hc).2 x hx)

/-- **What is inside a view** that has been made has been made itself. -/
lemma Sound.made_inside (sound : s.Sound r l first) (made : s.Made l name v)
    (inside : v.HasInside w) : ∃ name', s.Made l name' w := by
  induction inside with
  | refl => exact ⟨name, made⟩
  | tail _ part ih =>
      obtain ⟨name', c, hc, -, answer⟩ := ih
      obtain ⟨x, hx, rfl⟩ := View.exists_handed_of_make answer part
      exact ⟨x.1, sound.made_handed hc hx⟩

/-- **The number of an instance** is one of those that the request has taken. -/
lemma Sound.serial_made (sound : s.Sound r l first) (made : s.Made l name v) :
    first ≤ v.serial ∧ v.serial < s.next := by
  obtain ⟨c, hc, -, answer⟩ := made
  have hserial : c.serial ∈ List.range' first s.calls.length := by
    rw [← sound.serials]
    exact List.mem_map_of_mem hc
  rw [View.serial_of_make answer, sound.next]
  simpa using hserial

/-- Instances of different views have different numbers. -/
lemma Sound.name_eq_of_serial_eq (sound : s.Sound r l first) {name' : String}
    (hv : s.Made l name v) (hw : s.Made l name' w) (same : v.serial = w.serial) :
    name = name' := by
  obtain ⟨c, hc, rfl, answer⟩ := hv
  obtain ⟨c', hc', rfl, answer'⟩ := hw
  rw [View.serial_of_make answer, View.serial_of_make answer'] at same
  have nodup : (s.calls.map (·.serial)).Nodup := by
    rw [sound.serials]
    exact List.nodup_range'
  rw [List.inj_on_of_nodup_map nodup hc hc' same]

end Request

end AttributeViews
