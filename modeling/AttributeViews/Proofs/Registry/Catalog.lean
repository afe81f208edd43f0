import AttributeViews.Proofs.Registry.Closure
import AttributeViews.Registry.Catalog

/-!
# Standard views always fit together

A request for standard views brings along all that these inherit, and the catalog as a whole has no
faults.  What is asked for can therefore only be refused because it is not in the catalog.

* `Provider.catalog_fitsTogether` — the catalog has none of the four faults.
* **`exists_fitTogether_of_standardProviders`** — and neither has any part of it that is closed
  under inheritance.
* **`Registry.exists_buildOfViews_iff`**, **`Registry.kind_of_buildOfViews`** — so a registry is
  built exactly of views that the catalog has, and anything else is an unsupported view.
-/

namespace AttributeViews

variable {views : List String} {providers : List Provider} {p : Provider} {view : String}

namespace Provider

lemma catalog_fitsTogether :
    ViewsDistinct catalog ∧ InheritanceComplete catalog ∧ InheritanceAcyclic catalog ∧
      KeysDistinct catalog :=
  exists_fitTogether_iff.1 ⟨catalog, rfl⟩

lemma ofCatalog?_eq_some_iff : ofCatalog? view = some p ↔ p ∈ catalog ∧ p.name = view :=
  providerOf?_eq_some_iff catalog_fitsTogether.1

lemma mem_inheritedInCatalog_iff {other : String} (hp : p ∈ catalog) :
    other ∈ inheritedInCatalog p.name ↔ other ∈ p.inherits := by
  rw [inheritedInCatalog, ofCatalog?_eq_some_iff.2 ⟨hp, rfl⟩]
  exact mem_sortNames

/-- From views of the catalog the walk finds all that they inherit. -/
lemma reached_iff_inheritsFrom_catalog {queue : List String} {other : String}
    (known : ∀ view ∈ queue, view ∈ catalogNames) :
    Reached inheritedInCatalog catalogNames queue other ↔
      ∃ view ∈ queue, InheritsFrom catalog view other := by
  obtain ⟨distinct, complete, -, -⟩ := catalog_fitsTogether
  refine (reached_iff_inheritsFrom distinct complete).trans ?_
  exact exists_congr fun view => and_congr_right fun hview => and_iff_right (known view hview)

lemma mem_catalogNames_of_inheritsFrom {other : String} (known : view ∈ catalogNames)
    (h : InheritsFrom catalog view other) : other ∈ catalogNames :=
  ((reached_iff_inheritsFrom_catalog (List.forall_mem_singleton.2 known)).2
    ⟨view, List.mem_singleton_self view, h⟩).new

/-- What a standard view inherits, computed. -/
lemma inheritsFrom_catalog_iff {other : String} (known : view ∈ catalogNames) :
    InheritsFrom catalog view other ↔
      other ∈ reachable inheritedInCatalog catalogNames [view] := by
  rw [mem_reachable_iff, reached_iff_inheritsFrom_catalog (List.forall_mem_singleton.2 known)]
  simp only [List.mem_singleton, exists_eq_left]

lemma inheritsFrom_basic_iff {other : String} :
    InheritsFrom catalog "basic" other ↔ other ∈ ["basic"] := by
  rw [inheritsFrom_catalog_iff (by decide), reachable_of_filter_eq_cons rfl,
    reachable_of_filter_eq_nil rfl]

lemma inheritsFrom_posix_iff {other : String} :
    InheritsFrom catalog "posix" other ↔ other ∈ ["posix", "basic", "owner"] := by
  rw [inheritsFrom_catalog_iff (by decide), reachable_of_filter_eq_cons rfl,
    reachable_of_filter_eq_cons rfl, reachable_of_filter_eq_cons rfl,
    reachable_of_filter_eq_nil rfl]

lemma inheritsFrom_dos_iff {other : String} :
    InheritsFrom catalog "dos" other ↔ other ∈ ["dos", "basic"] := by
  rw [inheritsFrom_catalog_iff (by decide), reachable_of_filter_eq_cons rfl,
    reachable_of_filter_eq_cons rfl, reachable_of_filter_eq_nil rfl]

/-- No two standard views declare an attribute of the same name. -/
lemma eq_of_supports_of_mem_catalog {p q : Provider} {name : String} (hp : p ∈ catalog)
    (hq : q ∈ catalog) (hpn : p.supports name = true) (hqn : q.supports name = true) : p = q := by
  have hnames : ∀ p ∈ catalog, ∀ q ∈ catalog, ∀ name ∈ p.names, name ∈ q.names →
      p.name = q.name := by decide
  have hname := hnames p hp q hq name (Table.contains_iff.1 hpn) (Table.contains_iff.1 hqn)
  exact List.inj_on_of_nodup_map catalog_fitsTogether.1 hp hq hname

/-- Standard views store under their own names. -/
lemma qualified_of_mem_catalog {p : Provider} (hp : p ∈ catalog) (name : String) :
    p.qualified name = p.name ++ ":" ++ name := by
  simp only [catalog, List.mem_cons, List.not_mem_nil, or_false] at hp
  rcases hp with rfl | rfl | rfl | rfl <;> rfl

end Provider

/-- **What can be requested** is what the catalog has. -/
lemma exists_standardProviders_iff :
    (∃ providers, standardProviders views = .ok providers) ↔
      ∀ view ∈ views, view ∈ Provider.catalogNames := by
  rw [standardProviders]
  cases hf : views.find? (· ∉ Provider.catalogNames) with
  | some view =>
      have unknown := List.find?_some hf
      simp only [decide_eq_true_eq] at unknown
      exact iff_of_false (by simp) fun h => unknown (h view (List.mem_of_find?_eq_some hf))
  | none =>
      have known := List.find?_eq_none.1 hf
      simp only [decide_eq_true_eq, not_not] at known
      exact iff_of_true ⟨_, rfl⟩ known

/-- The requested views and all that they inherit, in the order in which the walk finds them. -/
lemma standardProviders_eq_ok (h : standardProviders views = .ok providers) :
    providers = (reachable Provider.inheritedInCatalog Provider.catalogNames
      ("basic" :: views)).filterMap Provider.ofCatalog? := by
  rw [standardProviders] at h
  split at h
  · cases h
  · exact (Except.ok.inj h).symm

lemma mem_standardProviders_iff (h : standardProviders views = .ok providers) :
    p ∈ providers ↔ p ∈ Provider.catalog ∧
      Reached Provider.inheritedInCatalog Provider.catalogNames ("basic" :: views) p.name := by
  rw [standardProviders_eq_ok h, List.mem_filterMap]
  simp only [Provider.ofCatalog?_eq_some_iff, mem_reachable_iff]
  constructor
  · rintro ⟨view, hr, hp, rfl⟩
    exact ⟨hp, hr⟩
  · rintro ⟨hp, hr⟩
    exact ⟨p.name, hr, hp, rfl⟩

lemma mem_catalog_of_standardProviders (h : standardProviders views = .ok providers)
    (hp : p ∈ providers) : p ∈ Provider.catalog :=
  ((mem_standardProviders_iff h).1 hp).1

lemma viewsDistinct_of_standardProviders (h : standardProviders views = .ok providers) :
    ViewsDistinct providers := by
  have hnames : providers.map (·.name)
      = (reachable Provider.inheritedInCatalog Provider.catalogNames
          ("basic" :: views)).filterMap fun view =>
            (Provider.ofCatalog? view).map (·.name) := by
    rw [standardProviders_eq_ok h, List.map_filterMap]
  rw [ViewsDistinct, hnames]
  refine (nodup_reachable (by decide)).filterMap fun view view' name hv hv' => ?_
  obtain ⟨p, hp, rfl⟩ := Option.map_eq_some_iff.1 hv
  obtain ⟨q, hq, hname⟩ := Option.map_eq_some_iff.1 hv'
  rw [← (Provider.ofCatalog?_eq_some_iff.1 hp).2, ← (Provider.ofCatalog?_eq_some_iff.1 hq).2, hname]

/-- What a view inherits is found after the view, if not before. -/
lemma inheritanceComplete_of_standardProviders (h : standardProviders views = .ok providers) :
    InheritanceComplete providers := by
  rintro view other ⟨p, hp, rfl, ho⟩
  obtain ⟨hc, hr⟩ := (mem_standardProviders_iff h).1 hp
  obtain ⟨q, hq, rfl⟩ := Provider.catalog_fitsTogether.2.1 _ _ ⟨p, hc, rfl, ho⟩
  have hnext := (Provider.mem_inheritedInCatalog_iff hc).2 ho
  exact ⟨q, (mem_standardProviders_iff h).2 ⟨hq, hr.next hnext (List.mem_map_of_mem hq)⟩, rfl⟩

/-- **Standard views fit together** as soon as they are found. -/
lemma exists_fitTogether_of_standardProviders (h : standardProviders views = .ok providers) :
    ∃ ordered, fitTogether providers = .ok ordered := by
  obtain ⟨-, -, acyclic, keys⟩ := Provider.catalog_fitsTogether
  have subset : ∀ p ∈ providers, p ∈ Provider.catalog :=
    fun p hp => mem_catalog_of_standardProviders h hp
  refine exists_fitTogether_iff.2 ⟨viewsDistinct_of_standardProviders h,
    inheritanceComplete_of_standardProviders h, fun view circle => ?_, fun p hp q hq => ?_⟩
  · exact acyclic view (Relation.TransGen.mono (fun _ _ step => step.of_subset subset) _ _ circle)
  · exact keys p (subset p hp) q (subset q hq)

lemma Registry.exists_buildOfViews (h : standardProviders views = .ok providers)
    (defaults : Table String Value) : ∃ r, buildOfViews views defaults = .ok r := by
  obtain ⟨ordered, ho⟩ := exists_fitTogether_of_standardProviders h
  refine ⟨⟨ordered, knownEntries ((declarations ordered).map Prod.fst) defaults⟩, ?_⟩
  rw [buildOfViews, h, ok_bind]
  exact build_eq_ok_iff.2 ⟨ho, rfl⟩

/-- **A request is refused** only for a view that is not in the catalog. -/
lemma Registry.kind_of_buildOfViews {defaults : Table String Value} {e : Error}
    (h : buildOfViews views defaults = .error e) : e.kind = .unsupportedView := by
  cases hs : standardProviders views with
  | ok providers =>
      obtain ⟨r, hr⟩ := exists_buildOfViews hs defaults
      rw [hr] at h
      cases h
  | error cause =>
      rw [buildOfViews, hs] at h
      obtain rfl := Except.error.inj h
      rw [standardProviders] at hs
      split at hs
      · cases hs
        rfl
      · cases hs

lemma Registry.exists_buildOfViews_iff {defaults : Table String Value} :
    (∃ r, buildOfViews views defaults = .ok r) ↔
      ∀ view ∈ views, view ∈ Provider.catalogNames := by
  rw [← exists_standardProviders_iff]
  constructor
  · rintro ⟨r, built⟩
    obtain ⟨providers, hs, -⟩ := bind_eq_ok_iff.1 built
    exact ⟨providers, hs⟩
  · rintro ⟨providers, hs⟩
    exact exists_buildOfViews hs defaults

/-! ## The common requests -/

lemma standardProviders_basic : standardProviders ["basic"] = .ok [.basic] := by
  have found : reachable Provider.inheritedInCatalog Provider.catalogNames ["basic", "basic"]
      = ["basic"] := by
    rw [reachable_of_filter_eq_cons rfl, reachable_of_filter_eq_nil rfl]
  rw [standardProviders, found]
  rfl

lemma standardProviders_posix : standardProviders ["posix"] = .ok [.basic, .posix, .owner] := by
  have found : reachable Provider.inheritedInCatalog Provider.catalogNames ["basic", "posix"]
      = ["basic", "posix", "owner"] := by
    rw [reachable_of_filter_eq_cons rfl, reachable_of_filter_eq_cons rfl,
      reachable_of_filter_eq_cons rfl, reachable_of_filter_eq_nil rfl]
  rw [standardProviders, found]
  rfl

lemma standardProviders_posix_dos :
    standardProviders ["posix", "dos"] = .ok [.basic, .posix, .dos, .owner] := by
  have found : reachable Provider.inheritedInCatalog Provider.catalogNames ["basic", "posix", "dos"]
      = ["basic", "posix", "dos", "owner"] := by
    rw [reachable_of_filter_eq_cons rfl, reachable_of_filter_eq_cons rfl,
      reachable_of_filter_eq_cons rfl, reachable_of_filter_eq_cons rfl,
      reachable_of_filter_eq_nil rfl]
  rw [standardProviders, found]
  rfl

lemma Registry.buildOfViews_basic : buildOfViews ["basic"] .empty = .ok ⟨[.basic], .empty⟩ := by
  rw [buildOfViews, standardProviders_basic]
  rfl

/-- In the registry the inherited views stand in front of the requested one. -/
lemma Registry.buildOfViews_posix_of_defaults (defaults : Table String Value) :
    buildOfViews ["posix"] defaults = .ok ⟨[.basic, .owner, .posix],
      knownEntries ((declarations [.basic, .owner, .posix]).map Prod.fst) defaults⟩ := by
  rw [buildOfViews, standardProviders_posix]
  rfl

lemma Registry.buildOfViews_posix :
    buildOfViews ["posix"] .empty = .ok ⟨[.basic, .owner, .posix], .empty⟩ :=
  buildOfViews_posix_of_defaults .empty

end AttributeViews
