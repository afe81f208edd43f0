import AttributeViews.Proofs.Registry.Refusals
import AttributeViews.Proofs.Registry.Standard

/-!
# The order of the requested views does not matter

The two walks along inheritance go through the requested views in the order of the request, and what
they find stands in a different order for each.  Nothing that a registry does depends on it: the
standard views declare different names and store under different keys, so whichever of them comes
first, it does not keep another one from being found, or overwrite its values.

* `Registry.SameViews` — two registries of the same standard views;
  **`Registry.sameViews_of_buildOfViews`**.
* **`Registry.SameViews.resolve?_eq`** — every address leads to the same attribute.
* **`Registry.SameViews.exists_refused_iff`**, **`Registry.SameViews.get?_initialAttributes_eq`** —
  a new node is refused by both or starts out alike.
* **`Registry.selection_unordered`** — all of it.
-/

namespace AttributeViews

variable {r r' : Registry} {p : Provider} {views views' : List String}
  {defaults : Table String Value} {view name address key : String} {now : Moment}
  {overrides values values' : Table String Value} {e : Error}

namespace Registry

/-- Two registries of the same standard views and with the same defaults, in whatever order the
views stand in them. -/
structure SameViews (r r' : Registry) : Prop where
  standard : r.Standard
  standard' : r'.Standard
  providers : ∀ p, p ∈ r.providers ↔ p ∈ r'.providers
  closure : ∀ view ∈ r.names, ∀ p, p ∈ r.closure view ↔ p ∈ r'.closure view
  defaults : r.defaults = r'.defaults

/-! ## The same views from different requests -/

lemma knownEntries_congr {keys keys' : List String} (same : ∀ key, key ∈ keys ↔ key ∈ keys')
    (t : Table String Value) : knownEntries keys t = knownEntries keys' t :=
  Table.ext (List.filter_congr fun entry _ => decide_eq_decide.2 (same entry.1))

lemma mem_keys_iff : key ∈ r.keys ↔ ∃ p ∈ r.providers, key ∈ p.keys := by
  rw [keys, declarations_keys, List.mem_flatMap]

lemma names_congr (same : ∀ p, p ∈ r.providers ↔ p ∈ r'.providers) :
    view ∈ r.names ↔ view ∈ r'.names := by
  simp only [names, List.mem_map, same]

/-- **Requests with the same members** lead to the same views. -/
lemma sameViews_of_buildOfViews (same : ∀ view, view ∈ views ↔ view ∈ views')
    (built : buildOfViews views defaults = .ok r)
    (built' : buildOfViews views' defaults = .ok r') : r.SameViews r' := by
  have providers : ∀ p, p ∈ r.providers ↔ p ∈ r'.providers := by
    intro p
    simp only [mem_providers_iff built, mem_providers_iff built', List.mem_cons, same]
  refine ⟨standard_of_buildOfViews built, standard_of_buildOfViews built', providers,
    fun view registered p => ?_, ?_⟩
  · rw [mem_closure_iff_of_buildOfViews built registered,
      mem_closure_iff_of_buildOfViews built' ((names_congr providers).1 registered)]
  · obtain ⟨_, -, hb⟩ := bind_eq_ok_iff.1 built
    obtain ⟨_, -, hb'⟩ := bind_eq_ok_iff.1 built'
    rw [(build_eq_ok_iff.1 hb).2, (build_eq_ok_iff.1 hb').2]
    exact knownEntries_congr (fun key => by simp only [mem_keys_iff, providers]) defaults

namespace SameViews

lemma symm (h : r.SameViews r') : r'.SameViews r where
  standard := h.standard'
  standard' := h.standard
  providers p := (h.providers p).symm
  closure view registered p := (h.closure view ((names_congr h.providers).2 registered) p).symm
  defaults := h.defaults.symm

/-! ## Addresses -/

lemma routes (h : r.SameViews r') (routes : r.Routes address p name) : r'.Routes address p name := by
  have supported := routes.supports
  cases routes with
  | bare plain first =>
      obtain ⟨nearer, farther, he, -⟩ := first
      have hp : p ∈ r'.providers := (h.providers p).1 (he ▸ by simp)
      exact .bare plain (firstToDeclare_of_mem h.standard'.catalog hp supported)
  | prefixed plain registered first =>
      obtain ⟨nearer, farther, he, -⟩ := first
      have hp : p ∈ r'.closure _ := (h.closure _ registered p).1 (he ▸ by simp)
      exact h.standard'.routes_of_mem_closure ((names_congr h.providers).1 registered) hp supported

/-- **Every address leads to the same attribute.** -/
lemma resolve?_eq (h : r.SameViews r') (address : String) :
    r.resolve? address = r'.resolve? address := by
  refine Option.ext fun owner => ?_
  obtain ⟨p, name⟩ := owner
  rw [resolve?_eq_some_iff_routes, resolve?_eq_some_iff_routes]
  exact ⟨h.routes, h.symm.routes⟩

lemma read_eq (h : r.SameViews r') (node : Node) (address : String) :
    r.read node address = r'.read node address := by
  simp only [read, missRecords, get, h.resolve?_eq]

lemma write_eq (h : r.SameViews r') (node : Node) (address : String) (value : Value)
    (creating : Bool) :
    r.write node address value creating = r'.write node address value creating := by
  simp only [write, missRecords, set, h.resolve?_eq]

/-! ## New nodes -/

/-- **A new node is refused** by both or by neither, though perhaps for different reasons. -/
lemma exists_refused_iff (h : r.SameViews r') :
    (∃ e, r.initialAttributes now overrides = .error e) ↔
      ∃ e, r'.initialAttributes now overrides = .error e := by
  simp only [initialAttributes_eq_error_iff, exists_firstRefusal_iff, mem_declared_iff, h.providers,
    h.defaults]

/-- **A new node starts out alike.** -/
lemma get?_initialAttributes_eq (h : r.SameViews r')
    (started : r.initialAttributes now overrides = .ok values)
    (started' : r'.initialAttributes now overrides = .ok values') (key : String) :
    values.get? key = values'.get? key := by
  refine Option.ext fun v => ?_
  rw [initialAttributes_get?_iff h.standard.nodup started,
    initialAttributes_get?_iff h.standard'.nodup started']
  simp only [h.providers, h.defaults]

end SameViews

/-! ## All of it -/

lemma exists_unsupported (unknown : ∃ view ∈ views, view ∉ Provider.catalogNames) :
    ∃ e, buildOfViews views defaults = .error e ∧ e.kind = .unsupportedView := by
  obtain ⟨view, hview, new⟩ := unknown
  cases h : buildOfViews views defaults with
  | ok r => exact absurd (exists_buildOfViews_iff.1 ⟨r, h⟩ view hview) new
  | error e => exact ⟨e, rfl, kind_of_buildOfViews h⟩

/-- **Neither order nor repetition of the requested views matters.**  Two requests have the same
members.  If one of these is not in the catalog, both requests are refused for an unsupported view.
Otherwise there are two registries, which have the same views: the basic one, the requested ones and
all that these inherit.  Whatever is given for a new node, either both refuse it, or it starts out
with the same values; and every address of every node is read and set alike, with the
same records. -/
theorem selection_unordered (same : ∀ view, view ∈ views ↔ view ∈ views')
    (defaults : Table String Value) :
    ((∃ view ∈ views, view ∉ Provider.catalogNames) →
      (∃ e, buildOfViews views defaults = .error e ∧ e.kind = .unsupportedView) ∧
      ∃ e, buildOfViews views' defaults = .error e ∧ e.kind = .unsupportedView) ∧
    ((∀ view ∈ views, view ∈ Provider.catalogNames) →
      ∃ r r', buildOfViews views defaults = .ok r ∧ buildOfViews views' defaults = .ok r' ∧
        (∀ view, (view ∈ r.supportedViews ↔ view ∈ r'.supportedViews) ∧
          (view ∈ r.supportedViews ↔
            view = "basic" ∨ ∃ listed ∈ views, InheritsFrom Provider.catalog listed view)) ∧
        (∀ now overrides,
          ((∃ e, (r.initial now overrides).result = .error e) ↔
            ∃ e, (r'.initial now overrides).result = .error e) ∧
          ∀ values values', (r.initial now overrides).result = .ok values →
            (r'.initial now overrides).result = .ok values' →
              ∀ key, values.get? key = values'.get? key) ∧
        ∀ node address, r.read node address = r'.read node address ∧
          ∀ value creating,
            r.write node address value creating = r'.write node address value creating) := by
  have same' : ∀ {P : String → Prop}, (∃ view ∈ views, P view) ↔ ∃ view ∈ views', P view :=
    exists_congr fun view => and_congr_left fun _ => same view
  refine ⟨fun unknown => ⟨exists_unsupported unknown, exists_unsupported (same'.1 unknown)⟩,
    fun known => ?_⟩
  obtain ⟨r, built⟩ : ∃ r, buildOfViews views defaults = .ok r := exists_buildOfViews_iff.2 known
  obtain ⟨r', built'⟩ : ∃ r', buildOfViews views' defaults = .ok r' :=
    exists_buildOfViews_iff.2 fun view hview => known view ((same view).2 hview)
  have h := sameViews_of_buildOfViews same built built'
  refine ⟨r, r', built, built', fun view => ⟨?_, ?_⟩, fun now overrides => ⟨?_, ?_⟩,
    fun node address => ⟨h.read_eq node address, h.write_eq node address⟩⟩
  · rw [supportedViews, supportedViews, mem_sortNames, mem_sortNames, names_congr h.providers]
  · rw [supportedViews, mem_sortNames, mem_names_iff built]
  · simp only [result_initial, h.exists_refused_iff]
  · intro values values' started started'
    rw [result_initial] at started started'
    exact h.get?_initialAttributes_eq started started'

/-- The views of flags and of owners, in either order and one of them repeated: the views stand in
different orders, but the owner is found and set alike by its bare name. -/
theorem selection_unordered_dos :
    ∃ r r', buildOfViews ["dos", "owner"] .empty = .ok r ∧
      buildOfViews ["owner", "dos", "owner"] .empty = .ok r' ∧
      r.names = ["basic", "dos", "owner"] ∧ r'.names = ["basic", "owner", "dos"] ∧
      let root := (Node.fresh "1" .file 0).write "owner:owner" (.principal (.user "root"))
      (r'.write (.fresh "1" .file 0) "owner" (.principal (.user "root")) false).result = .ok root ∧
      (r'.read root "owner").result = .ok (.principal (.user "root")) := by
  have same : ∀ view, view ∈ ["dos", "owner"] ↔ view ∈ ["owner", "dos", "owner"] := by
    intro view
    simp only [List.mem_cons, List.not_mem_nil, or_false]
    tauto
  have found : reachable Provider.inheritedInCatalog Provider.catalogNames ["basic", "dos", "owner"]
      = ["basic", "dos", "owner"] := by
    rw [reachable_of_filter_eq_cons rfl, reachable_of_filter_eq_cons rfl,
      reachable_of_filter_eq_cons rfl, reachable_of_filter_eq_nil rfl]
  have found' : reachable Provider.inheritedInCatalog Provider.catalogNames
      ["basic", "owner", "dos", "owner"] = ["basic", "owner", "dos"] := by
    rw [reachable_of_filter_eq_cons rfl, reachable_of_filter_eq_cons rfl,
      reachable_of_filter_eq_cons rfl, reachable_of_filter_eq_nil rfl]
  have hr : buildOfViews ["dos", "owner"] .empty = .ok ⟨[.basic, .dos, .owner], .empty⟩ := by
    simp only [buildOfViews, standardProviders, found]
    rfl
  have hr' : buildOfViews ["owner", "dos", "owner"] .empty
      = .ok ⟨[.basic, .owner, .dos], .empty⟩ := by
    simp only [buildOfViews, standardProviders, found']
    rfl
  obtain ⟨r, r', built, built', -, -, alike⟩ := (selection_unordered same .empty).2 (by decide)
  obtain rfl := Except.ok.inj (hr.symm.trans built)
  obtain rfl := Except.ok.inj (hr'.symm.trans built')
  refine ⟨_, _, built, built', rfl, rfl, ?_, ?_⟩
  · rw [← (alike _ _).2]
    rfl
  · rw [← (alike _ _).1]
    rfl

end Registry

end AttributeViews
