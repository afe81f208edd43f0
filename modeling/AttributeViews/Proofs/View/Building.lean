import AttributeViews.Proofs.Registry.Closure
import AttributeViews.Proofs.Storing
import AttributeViews.View.Building

/-!
# What a request for a view builds

A request walks along inheritance and makes every view from those that it inherits, which have been
built by then.  What making a view keeps therefore holds of all that is built, and a request comes
to its end if no view is refused what it is made from.

* `View.MadeFrom` — a view as it comes out of its making; **`View.madeFrom_of_make`**.
* `Registry.AllBuilt` — what is built has a property; **`Registry.getView_induction`**.
* **`Registry.exists_buildViews`** — views in order of inheritance are all built.
* **`Registry.exists_getView`** — so every registered view is built on request.
-/

namespace AttributeViews

variable {σ : Type} {l : Lookup σ} {v : View σ} {b b' : Building σ} {name : String}

/-! ## Making a view -/

namespace View

/-- A view as it comes out of its making: the provider decides about the make, and what is inside
has been handed over. -/
inductive MadeFrom (p : Provider) (serial : Nat) (l : Lookup σ) (handed : List (String × View σ)) :
    View σ → Prop
  | basic (form : p.form = .basic) : MadeFrom p serial l handed (.basic ⟨serial, l⟩)
  | owner (form : p.form = .owner) : MadeFrom p serial l handed (.owner ⟨serial, l⟩)
  | posix {b : BasicView σ} {o : OwnerView σ} (form : p.form = .posix)
      (hb : ("basic", .basic b) ∈ handed) (ho : ("owner", .owner o) ∈ handed) :
      MadeFrom p serial l handed (.posix ⟨serial, l, b, o⟩)
  | dos {b : BasicView σ} (form : p.form = .dos) (hb : ("basic", .basic b) ∈ handed) :
      MadeFrom p serial l handed (.dos ⟨serial, l, b⟩)
  | plain (form : p.form = .plain) : MadeFrom p serial l handed (.plain serial l p.name handed)

/-- **What making a view answers.** -/
lemma madeFrom_of_make {p : Provider} {serial : Nat} {handed : List (String × View σ)}
    (h : make p serial l handed = .ok v) : MadeFrom p serial l handed v := by
  rw [make] at h
  split at h
  · next form =>
    obtain rfl := Except.ok.inj h
    exact .basic form
  · next form =>
    obtain rfl := Except.ok.inj h
    exact .owner form
  · next form =>
    split at h
    · next b o hb ho =>
      obtain rfl := Except.ok.inj h
      exact .posix form (Table.mem_of_find? hb) (Table.mem_of_find? ho)
    · cases h
  · next form =>
    split at h
    · next b hb =>
      obtain rfl := Except.ok.inj h
      exact .dos form (Table.mem_of_find? hb)
    · cases h
  · next form =>
    obtain rfl := Except.ok.inj h
    exact .plain form

end View

/-! ## The table of a request -/

lemma Building.find?_pick (b : Building σ) (names : List String) :
    Table.find? name (b.pick names) = if name ∈ names then b.built.get? name else none :=
  Table.find?_filterMap b.built.get? name names

namespace Registry

variable {r : Registry} {p : Provider}

/-- Everything that has been built has a property, which may depend on the name that it was built
under. -/
def AllBuilt (P : String → View σ → Prop) (b : Building σ) : Prop :=
  ∀ name v, b.built.get? name = some v → P name v

lemma AllBuilt.pick {P : String → View σ → Prop} (h : AllBuilt P b) (names : List String) :
    ∀ x ∈ b.pick names, P x.1 x.2 := by
  intro x hx
  rcases List.mem_filterMap.1 hx with ⟨name, -, hm⟩
  rcases Option.map_eq_some_iff.1 hm with ⟨v, hv, rfl⟩
  exact h name v hv

/-! ## What all built views have -/

section Building

variable {P : String → View σ → Prop}
  (made : ∀ p ∈ r.providers, ∀ serial inherited v, (∀ x ∈ inherited, P x.1 x.2) →
    View.make p serial l inherited = .ok v → P p.name v)

include made

lemma allBuilt_buildViews :
    ∀ (names : List String) (b : Building σ), AllBuilt P b → AllBuilt P (r.buildViews l names b).1
  | [], b, h => h
  | name :: rest, b, h => by
      rw [buildViews]
      split
      · exact allBuilt_buildViews rest b h
      · next p hp =>
        dsimp only
        split
        · exact h
        · next v hv =>
          refine allBuilt_buildViews rest _ ?_
          intro name' v' hv'
          rw [Table.get?_insert] at hv'
          split at hv'
          · next hname =>
            rw [← Option.some.inj hv', ← hname, ← name_of_find? hp]
            exact made p (mem_of_find? hp) _ _ _ (h.pick _) hv
          · exact h name' v' hv'

lemma allBuilt_start (names : List String) (serial : Nat) :
    AllBuilt P (r.buildViews l names (.start serial)).1 :=
  allBuilt_buildViews made names _ (by simp [AllBuilt, Building.start])

/-- **What making a view keeps, every built view has.** -/
lemma getView_induction {view : String} {serial : Nat}
    (h : (r.getView view l serial).2 = .ok (some v)) : P view v := by
  rw [getView] at h
  split at h
  · cases h
  · have hb := allBuilt_start made (r.buildOrder view) serial
    split at h
    · cases h
    · next b he =>
      rw [he] at hb
      exact hb view v (Except.ok.inj h)

end Building

/-! ## Building in order of inheritance -/

lemma buildViews_append (rest : List String) (names : List String) :
    ∀ {b : Building σ}, r.buildViews l names b = (b', .ok ()) →
      r.buildViews l (names ++ rest) b = r.buildViews l rest b' := by
  induction names with
  | nil =>
      intro b h
      rw [buildViews] at h
      rw [List.nil_append, (Prod.mk.inj h).1]
  | cons name names ih =>
      intro b h
      rw [buildViews] at h
      rw [List.cons_append, buildViews]
      cases hf : r.find? name with
      | none =>
          rw [hf] at h
          exact ih h
      | some p =>
          rw [hf] at h
          dsimp only at h ⊢
          split at h
          · cases (Prod.mk.inj h).2
          · exact ih h

/-- One view more. -/
lemma buildViews_singleton (found : r.find? name = some p)
    (hm : View.make p b.next l (b.pick p.inherited) = .ok v) :
    r.buildViews l [name] b
      = ({ next := b.next + 1, built := b.built.insert name v, begun := b.begun ++ [name] },
          .ok ()) := by
  simp only [buildViews, found, hm]

section Building

variable {P : String → View σ → Prop}
  (made : ∀ p ∈ r.providers, ∀ serial inherited v, (∀ x ∈ inherited, P x.1 x.2) →
    View.make p serial l inherited = .ok v → P p.name v)
  (makes : ∀ p ∈ r.providers, ∀ serial inherited, (∀ x ∈ inherited, P x.1 x.2) →
    (∀ name ∈ p.inherited, ∃ v, Table.find? name inherited = some v) →
      ∃ v, View.make p serial l inherited = .ok v)

include made makes

/-- **Views in order of inheritance are all built**, if a view is never refused what it is made
from. -/
lemma exists_buildViews {order : List String} (arranged : Arranged (inheritedBy r.providers) order)
    (serial : Nat) (known : order ⊆ r.names) :
    ∃ b, r.buildViews l order (.start serial) = (b, .ok ()) ∧
      ∀ name ∈ order, ∃ v, b.built.get? name = some v := by
  induction arranged with
  | nil => exact ⟨_, rfl, by simp⟩
  | snoc before new behind ih =>
      rename_i order name
      obtain ⟨b, hb, built⟩ := ih fun other ho => known (List.mem_append_left _ ho)
      obtain ⟨p, hp⟩ := exists_find? (known (List.mem_append_right _ List.mem_cons_self))
      have hall := allBuilt_start made order serial
      rw [hb] at hall
      -- the inherited views stand before this one, so they have been built
      have inherited : ∀ other ∈ p.inherited,
          ∃ v, Table.find? other (b.pick p.inherited) = some v := by
        intro other ho
        have hprovider : providerOf? r.providers name = some p := hp
        rw [Building.find?_pick, if_pos ho]
        refine built other (behind other ?_)
        rw [inheritedBy, hprovider]
        exact ho
      obtain ⟨v, hv⟩ := makes p (mem_of_find? hp) b.next _ (hall.pick _) inherited
      refine ⟨_, (buildViews_append [name] order hb).trans (buildViews_singleton hp hv), ?_⟩
      intro other ho
      rw [Table.get?_insert]
      split_ifs with hname
      · exact ⟨v, rfl⟩
      · refine built other ((List.mem_append.1 ho).resolve_right fun hm => hname ?_)
        exact (List.mem_singleton.1 hm).symm

/-- **A registered view is built on request.** -/
lemma exists_getView {providers : List Provider} {defaults : Table String Value} {view : String}
    (registry : build providers defaults = .ok r) (registered : view ∈ r.names) (serial : Nat) :
    ∃ v, (r.getView view l serial).2 = .ok (some v) := by
  obtain ⟨order, ho, arranged, known, found⟩ :=
    exists_postorder (viewsDistinct_of_build registry) (inheritanceComplete_of_build registry)
      (inheritanceAcyclic_of_build registry) (List.cons_subset.2 ⟨registered, List.nil_subset _⟩)
  have horder : r.buildOrder view = order := by
    rw [List.length_map] at ho
    rw [buildOrder, ho]
  obtain ⟨b, hb, built⟩ := exists_buildViews made makes arranged serial known
  obtain ⟨p, hp⟩ := exists_find? registered
  obtain ⟨v, hv⟩ := built view (found List.mem_cons_self)
  exact ⟨v, by simp only [getView, hp, horder, hb, hv]⟩

end Building

end Registry

end AttributeViews
