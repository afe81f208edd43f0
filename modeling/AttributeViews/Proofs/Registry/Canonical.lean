import AttributeViews.Proofs.Attribute.StoredForms
import AttributeViews.Proofs.FileTree.Steps
import AttributeViews.Proofs.Registry.Standard
import AttributeViews.Proofs.Registry.Starting

/-!
# Values are canonical once they are stored

Values reach the store of a node in three ways: as starting values, by name, and through live views.
In a registry of standard views all of them lead to the same stored forms, under the same keys, so
what reads the store need not look at types again.

* **`View.Backed.accepts`** — what live views store in a registry of standard views.
* `Registry.Canonical` — a node holds just the attributes that can be set, in their stored forms.
* **`Registry.Standard.canonical_seed`**, **`Registry.Standard.canonical_rewritten`** — a new node
  is canonical, and stays so.
-/

namespace AttributeViews

variable {σ : Type} {r : Registry} {p : Provider} {l : Lookup σ} {v : View σ} {key name : String}
  {stored : Value} {node node' : Node} {now : Moment} {overrides : Table String Value}

/-! ## What the views of a standard registry store -/

/-- The providers of the views that a view is made of are registered. -/
def View.Backed (r : Registry) : View σ → Prop
  | .basic _ => Provider.basic ∈ r.providers
  | .owner _ => Provider.owner ∈ r.providers
  | .posix _ => Provider.posix ∈ r.providers ∧ Provider.basic ∈ r.providers ∧
      Provider.owner ∈ r.providers
  | .dos _ => Provider.dos ∈ r.providers ∧ Provider.basic ∈ r.providers
  | .plain .. => True

lemma View.backed_of_make {serial : Nat} {inherited : List (String × View σ)}
    (standard : r.Standard) (hp : p ∈ r.providers) (inside : ∀ x ∈ inherited, x.2.Backed r)
    (h : make p serial l inherited = .ok v) : v.Backed r := by
  have hc := standard.catalog p hp
  simp only [Provider.catalog, List.mem_cons, List.not_mem_nil, or_false] at hc
  rcases hc with rfl | rfl | rfl | rfl
  · obtain rfl := Except.ok.inj h
    exact hp
  · obtain rfl := Except.ok.inj h
    exact hp
  · simp only [make, Provider.posix, Provider.standard] at h
    split at h
    · next b o hb ho =>
      obtain rfl := Except.ok.inj h
      exact ⟨hp, inside _ (Table.mem_of_find? hb), inside _ (Table.mem_of_find? ho)⟩
    · cases h
  · simp only [make, Provider.dos, Provider.standard] at h
    split at h
    · next b hb =>
      obtain rfl := Except.ok.inj h
      exact ⟨hp, inside _ (Table.mem_of_find? hb)⟩
    · cases h

lemma View.Backed.basic {b : BasicView σ} (h : v.Backed r) (hb : v.timesView? = some b) :
    Provider.basic ∈ r.providers := by
  cases v with
  | basic _ => exact h
  | posix _ => exact h.2.1
  | dos _ => exact h.2
  | owner _ => cases hb
  | plain => cases hb

lemma View.Backed.owner {o : OwnerView σ} (h : v.Backed r) (ho : v.ownerView? = some o) :
    Provider.owner ∈ r.providers := by
  cases v with
  | owner _ => exact h
  | posix _ => exact h.2.2
  | basic _ => cases ho
  | dos _ => cases ho
  | plain => cases ho

/-- A setter of a view stores what setting by name would store. -/
lemma View.Backed.accepts (h : v.Backed r) (set : v.Sets key stored) : r.Accepts key stored := by
  cases set with
  | time has named accepted =>
      exact .checked (h.basic has) (Provider.get?_time named) rfl accepted
  | owner has accepted =>
      have hd : Provider.owner.attributes.get? "owner" = some ownerAttribute := rfl
      exact .checked (h.owner has) hd rfl accepted
  | group is accepted =>
      subst is
      have hd : Provider.posix.attributes.get? "group" = some groupAttribute := rfl
      exact .checked h.1 hd rfl accepted
  | permissions is accepted =>
      subst is
      have hd : Provider.posix.attributes.get? "permissions" = some permissionsAttribute := rfl
      exact .checked h.1 hd rfl accepted
  | flag is flag accepted =>
      subst is
      exact .checked h.1 (Provider.get?_flag flag) rfl accepted

namespace Registry

lemma Standard.backed_of_getView {view : String} {serial : Nat} (standard : r.Standard)
    (built : (r.getView view l serial).2 = .ok (some v)) : v.Backed r :=
  getView_induction (P := fun _ v => v.Backed r)
    (fun _ hp _ _ _ inside hm => View.backed_of_make standard hp inside hm) built

/-- In a standard registry live views store what can be stored by name. -/
lemma Standard.accepts_of_ingests (standard : r.Standard) (h : r.Ingests key stored) :
    r.Accepts key stored := by
  cases h with
  | byName accepted => exact accepted
  | byView built set =>
      exact (standard.backed_of_getView built).accepts set

/-! ## Canonical nodes -/

/-- A key belongs to an attribute that can be set. -/
def IsSettable (r : Registry) (key : String) : Prop :=
  ∃ p ∈ r.providers, ∃ name spec, p.attributes.get? name = some spec ∧ spec.settable = true ∧
    key = p.qualified name

/-- What is stored on a node are just the attributes that can be set, each in its stored form. -/
structure Canonical (r : Registry) (node : Node) : Prop where
  keys : ∀ key, (∃ stored, node.attributes.get? key = some stored) ↔ r.IsSettable key
  forms : ∀ key stored, node.attributes.get? key = some stored → StoredForm key stored

/-- A fact has nothing to start with. -/
lemma Standard.settable_of_starts {spec : AttributeSpec} (standard : r.Standard)
    (hp : p ∈ r.providers) (declared : p.attributes.get? name = some spec)
    (starts : p.Starts now overrides name spec stored) : spec.settable = true := by
  rcases Provider.yields_or_fact_of_mem_catalog (standard.catalog p hp) declared with
    ⟨settable, -⟩ | ⟨fact, rfl⟩
  · exact settable
  · cases starts with
    | given settable => cases settable
    | fixed settable => cases settable
    | clock _ start => cases start

lemma Standard.form_of_starts {spec : AttributeSpec} (standard : r.Standard)
    (aware : now.isAware = true) (hp : p ∈ r.providers)
    (declared : p.attributes.get? name = some spec)
    (starts : p.Starts now overrides name spec stored) :
    spec.settable = true ∧ StoredForm (p.qualified name) stored := by
  have settable := standard.settable_of_starts hp declared starts
  have yields := Provider.yields_of_mem_catalog (standard.catalog p hp) declared settable
  refine ⟨settable, ?_⟩
  cases starts with
  | given _ _ accepted => exact yields.coerced accepted
  | fixed _ _ start => exact yields.fixed start
  | clock _ start => exact yields.clocked start aware

/-- Every attribute that can be set has something to start with. -/
lemma Standard.exists_get?_initialAttributes {spec : AttributeSpec}
    {values : Table String Value} (standard : r.Standard)
    (h : r.initialAttributes now overrides = .ok values) (hp : p ∈ r.providers)
    (declared : p.attributes.get? name = some spec) (settable : spec.settable = true) :
    ∃ stored, values.get? (p.qualified name) = some stored := by
  obtain ⟨own, hown⟩ := startAll_eq_ok _ h p hp
  have yields := Provider.yields_of_mem_catalog (standard.catalog p hp) declared settable
  obtain ⟨stored, hs⟩ := Provider.exists_starts hown declared settable yields.present
  exact ⟨stored, (initialAttributes_get?_iff standard.nodup h).2 ⟨p, hp, name, spec, declared, rfl, hs⟩⟩

/-- A new node is canonical. -/
lemma Standard.canonical_seed (standard : r.Standard) (aware : now.isAware = true)
    (blank : node.attributes = .empty) (seeded : r.seed now node overrides = .ok node') :
    r.Canonical node' := by
  rcases seed_eq_ok_iff.1 seeded with ⟨values, hv, rfl⟩
  have hget : ∀ key stored, (node.attributes.update values).get? key = some stored ↔
      ∃ p ∈ r.providers, ∃ name spec, p.attributes.get? name = some spec ∧
        key = p.qualified name ∧ p.Starts now (r.defaults.update overrides) name spec stored := by
    intro key stored
    rw [Table.get?_update, blank, Table.get?_empty, Option.or_none,
      initialAttributes_get?_iff standard.nodup hv]
  constructor
  · intro key
    constructor
    · rintro ⟨stored, hs⟩
      rcases (hget key stored).1 hs with ⟨p, hp, name, spec, hd, hk, starts⟩
      exact ⟨p, hp, name, spec, hd, (standard.form_of_starts aware hp hd starts).1, hk⟩
    · rintro ⟨p, hp, name, spec, hd, settable, hk⟩
      rcases standard.exists_get?_initialAttributes hv hp hd settable with ⟨stored, hs⟩
      rw [← hk] at hs
      refine ⟨stored, ?_⟩
      rw [Table.get?_update, blank, Table.get?_empty, Option.or_none, hs]
  · intro key stored hs
    rcases (hget key stored).1 hs with ⟨p, hp, name, spec, hd, rfl, starts⟩
    exact (standard.form_of_starts aware hp hd starts).2

lemma Standard.form_of_accepts (standard : r.Standard) (accepts : r.Accepts key stored) :
    r.IsSettable key ∧ StoredForm key stored := by
  obtain ⟨hp, hd, hs, hc⟩ := accepts
  exact ⟨⟨_, hp, _, _, hd, hs, rfl⟩,
    (Provider.yields_of_mem_catalog (standard.catalog _ hp) hd hs).checked hc⟩

/-- An accepted value takes the place of one that was there. -/
lemma Canonical.write (canonical : r.Canonical node) (settable : r.IsSettable key)
    (form : StoredForm key stored) : r.Canonical (node.write key stored) := by
  have hget : ∀ key', (node.write key stored).attributes.get? key'
      = if key = key' then some stored else node.attributes.get? key' :=
    fun key' => Table.get?_insert ..
  constructor
  · intro key'
    rw [hget, ← canonical.keys key']
    by_cases hk : key = key'
    · subst hk
      rw [if_pos rfl]
      exact ⟨fun _ => (canonical.keys key).2 settable, fun _ => ⟨stored, rfl⟩⟩
    · rw [if_neg hk]
  · intro key' stored' hs
    rw [hget] at hs
    split_ifs at hs with hk
    · rw [← hk, ← Option.some.inj hs]
      exact form
    · exact canonical.forms key' stored' hs

/-- **Accepted values keep a node canonical.** -/
lemma Standard.canonical_rewritten (standard : r.Standard) (canonical : r.Canonical node)
    (rewritten : Node.Rewritten r.Ingests node node') : r.Canonical node' := by
  induction rewritten with
  | refl => exact canonical
  | tail _ step ih =>
      obtain ⟨key, stored, ingests, rfl⟩ := step
      rcases standard.form_of_accepts (standard.accepts_of_ingests ingests) with ⟨settable, form⟩
      exact ih.write settable form

end Registry

end AttributeViews
