import AttributeViews.Proofs.Registry.Catalog
import AttributeViews.Proofs.Registry.Routing

/-!
# Registries of standard views

Which views such a registry has depends on the requested ones, but what a view inherits does not:
all of it comes along, so it is the same in every registry that has the view, and in the catalog.

* `Registry.Standard` — the registries in question; **`Registry.standard_of_buildOfViews`**.
* **`Registry.mem_providers_iff`**, `Registry.mem_names_iff` — the views that such a registry has.
* **`Registry.mem_closure_iff_of_buildOfViews`** — and what each of them inherits.
* **`Registry.Standard.routes_of_mem_closure`** — behind the name of a view, the names of all that
  it inherits lead to their attributes; `Registry.routes_own`.
-/

namespace AttributeViews

variable {r : Registry} {p : Provider} {views : List String} {defaults : Table String Value}
  {view name : String}

namespace Registry

/-- All views are standard ones, and no two attributes share a key. -/
structure Standard (r : Registry) : Prop where
  catalog : ∀ p ∈ r.providers, p ∈ Provider.catalog
  nodup : r.keys.Nodup

lemma standard_of_buildOfViews (built : buildOfViews views defaults = .ok r) : r.Standard := by
  rcases bind_eq_ok_iff.1 built with ⟨providers, hs, hb⟩
  exact ⟨fun p hp => mem_catalog_of_standardProviders hs (mem_of_build hb hp),
    keys_nodup_of_build hb⟩

/-! ## The views -/

lemma known_of_built (built : buildOfViews views defaults = .ok r) :
    ∀ view ∈ "basic" :: views, view ∈ Provider.catalogNames :=
  List.forall_mem_cons.2 ⟨by decide, exists_buildOfViews_iff.1 ⟨r, built⟩⟩

/-- **The views of a registry** are the basic one, the requested ones, and all that
these inherit. -/
lemma mem_providers_iff (built : buildOfViews views defaults = .ok r) :
    p ∈ r.providers ↔
      p ∈ Provider.catalog ∧
        ∃ view ∈ "basic" :: views, InheritsFrom Provider.catalog view p.name := by
  obtain ⟨providers, hs, hb⟩ := bind_eq_ok_iff.1 built
  rw [(perm_of_build hb).mem_iff, mem_standardProviders_iff hs]
  exact and_congr_right fun _ => Provider.reached_iff_inheritsFrom_catalog (known_of_built built)

lemma mem_names_iff (built : buildOfViews views defaults = .ok r) :
    view ∈ r.names ↔
      view = "basic" ∨ ∃ listed ∈ views, InheritsFrom Provider.catalog listed view := by
  have hnames : view ∈ r.names ↔
      ∃ listed ∈ "basic" :: views, InheritsFrom Provider.catalog listed view := by
    constructor
    · intro registered
      obtain ⟨p, hp, rfl⟩ := List.mem_map.1 registered
      exact ((mem_providers_iff built).1 hp).2
    · rintro ⟨listed, hl, hi⟩
      have hknown := known_of_built built listed hl
      obtain ⟨p, hp, rfl⟩ :=
        List.mem_map.1 (Provider.mem_catalogNames_of_inheritsFrom hknown hi)
      exact List.mem_map_of_mem ((mem_providers_iff built).2 ⟨hp, listed, hl, hi⟩)
  rw [hnames, List.exists_mem_cons_iff, Provider.inheritsFrom_basic_iff, List.mem_singleton]

/-- The provider of a registered view is the one that the catalog has. -/
lemma Standard.find?_of_mem_catalog (standard : r.Standard) (hp : p ∈ Provider.catalog)
    (registered : p.name ∈ r.names) : r.find? p.name = some p := by
  obtain ⟨q, hq⟩ := exists_find? registered
  have same : q = p := List.inj_on_of_nodup_map Provider.catalog_fitsTogether.1
    (standard.catalog q (mem_of_find? hq)) hp (name_of_find? hq)
  rw [hq, same]

lemma Standard.mem_providers_of_mem_catalog (standard : r.Standard) (hp : p ∈ Provider.catalog)
    (registered : p.name ∈ r.names) : p ∈ r.providers :=
  mem_of_find? (standard.find?_of_mem_catalog hp registered)

/-- **What a view inherits** is the same in every registry that has the view. -/
lemma mem_closure_iff_of_buildOfViews (built : buildOfViews views defaults = .ok r)
    (registered : view ∈ r.names) :
    p ∈ r.closure view ↔ p ∈ Provider.catalog ∧ InheritsFrom Provider.catalog view p.name := by
  obtain ⟨providers, hs, hb⟩ := bind_eq_ok_iff.1 built
  have catalog := (standard_of_buildOfViews built).catalog
  obtain ⟨q, hq, rfl⟩ := List.mem_map.1 registered
  obtain ⟨-, listed, hl, hfrom⟩ := (mem_providers_iff built).1 hq
  rw [mem_closure_iff hb registered]
  constructor
  · rintro ⟨hp, hi⟩
    exact ⟨catalog p hp,
      Relation.ReflTransGen.mono (fun _ _ step => step.of_subset catalog) _ _ hi⟩
  · rintro ⟨hp, hi⟩
    refine ⟨(mem_providers_iff built).2 ⟨hp, listed, hl, hfrom.trans hi⟩, ?_⟩
    -- every view on the way is registered, too
    clear hp
    generalize p.name = other at hi ⊢
    induction hi with
    | refl => exact .refl
    | tail before step ih =>
        obtain ⟨parent, hparent, rfl, ho⟩ := step
        have registered := (mem_providers_iff built).2 ⟨hparent, listed, hl, hfrom.trans before⟩
        exact ih.tail ⟨parent, registered, rfl, ho⟩

/-! ## The names of a view -/

lemma Standard.named_of_mem_names (standard : r.Standard) (registered : view ∈ r.names) :
    view ≠ "" ∧ ':' ∉ view.toList := by
  obtain ⟨p, hp, rfl⟩ := List.mem_map.1 registered
  have hc := standard.catalog p hp
  simp only [Provider.catalog, List.mem_cons, List.not_mem_nil, or_false] at hc
  rcases hc with rfl | rfl | rfl | rfl <;> decide

/-- Among standard views, a view that declares a name is the first one to do so wherever
it stands. -/
lemma firstToDeclare_of_mem {providers : List Provider}
    (subset : ∀ q ∈ providers, q ∈ Provider.catalog) (hp : p ∈ providers)
    (supported : p.supports name = true) : FirstToDeclare name providers p := by
  have found : (providers.find? (·.supports name)).isSome = true :=
    List.find?_isSome.2 ⟨p, hp, supported⟩
  obtain ⟨q, hq⟩ := Option.isSome_iff_exists.1 found
  have hqs : q.supports name = true := by simpa using List.find?_some hq
  obtain rfl : q = p := Provider.eq_of_supports_of_mem_catalog
    (subset q (List.mem_of_find?_eq_some hq)) (subset p hp) hqs supported
  exact find?_supports_eq_some_iff.1 hq

/-- Behind the name of a view that inherits it, the bare name of an attribute leads to it. -/
lemma Standard.routes_of_mem_closure (standard : r.Standard) (registered : view ∈ r.names)
    (hp : p ∈ r.closure view) (supported : p.supports name = true) :
    r.Routes (view ++ ":" ++ name) p name :=
  .prefixed (standard.named_of_mem_names registered).2 registered
    (firstToDeclare_of_mem (fun q hq => standard.catalog q (mem_of_mem_closure hq)) hp supported)

/-- The key of an attribute leads to it. -/
lemma routes_own (built : buildOfViews views defaults = .ok r) (hp : p ∈ r.providers)
    (supported : p.supports name = true) : r.Routes (p.qualified name) p name := by
  have standard := standard_of_buildOfViews built
  have registered : p.name ∈ r.names := List.mem_map_of_mem hp
  rw [Provider.qualified_of_mem_catalog (standard.catalog p hp)]
  exact standard.routes_of_mem_closure registered
    ((mem_closure_iff_of_buildOfViews built registered).2 ⟨standard.catalog p hp, .refl⟩) supported

end Registry

end AttributeViews
