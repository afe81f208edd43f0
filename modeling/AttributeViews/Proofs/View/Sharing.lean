import AttributeViews.Proofs.Registry.Descent
import AttributeViews.Proofs.View.OnDemand
import AttributeViews.Provider.Standard

/-!
# Views are built once and shared

A view may be inherited along many ways, but a request calls each provider that it needs once,
behind the providers of all that this one inherits, and hands the same instance to everyone who
inherits it.  The next request begins with nothing built and makes instances of its own.

* `Registry.InheritsStandard` — the posix and dos views of a registry find what they need;
  **`Registry.InheritsStandard.exists_getView`** — so every view can be built.
* `Registry.BuiltOnce` — what a request comes to; **`Registry.builtOnce_of_follows`**.
* **`Registry.views_built_once`** — every request for a registered view.
-/

namespace AttributeViews

variable {σ : Type} {r : Registry} {l : Lookup σ} {s : Request σ} {p : Provider} {v : View σ}
  {first serial : Nat} {name view : String} {handed : List (String × View σ)}
  {providers : List Provider} {defaults : Table String Value}

/-! ## Makes of views -/

namespace View

/-- The make of a view. -/
def form : View σ → ViewForm
  | basic _ => .basic
  | owner _ => .owner
  | posix _ => .posix
  | dos _ => .dos
  | plain .. => .plain

lemma form_of_make (h : make p serial l handed = .ok v) : v.form = p.form := by
  cases madeFrom_of_make h with
  | basic form => exact form.symm
  | owner form => exact form.symm
  | posix form => exact form.symm
  | dos form => exact form.symm
  | plain form => exact form.symm

lemma exists_basic_of_form (h : v.form = .basic) : ∃ b, v = .basic b := by
  cases v with
  | basic b => exact ⟨b, rfl⟩
  | _ => cases h

lemma exists_owner_of_form (h : v.form = .owner) : ∃ o, v = .owner o := by
  cases v with
  | owner o => exact ⟨o, rfl⟩
  | _ => cases h

end View

namespace Registry

/-- A view of some name and make is inherited. -/
def InheritsForm (r : Registry) (p : Provider) (name : String) (form : ViewForm) : Prop :=
  name ∈ p.inherits ∧ ∀ q, r.find? name = some q → q.form = form

/-- Every posix view inherits a basic and an owner view, and every dos view a basic view. -/
structure InheritsStandard (r : Registry) : Prop where
  posix : ∀ p ∈ r.providers, p.form = .posix →
    r.InheritsForm p "basic" .basic ∧ r.InheritsForm p "owner" .owner
  dos : ∀ p ∈ r.providers, p.form = .dos → r.InheritsForm p "basic" .basic

/-- A view has the make of the provider of some name. -/
def Formed (r : Registry) (name : String) (v : View σ) : Prop :=
  ∃ q, r.find? name = some q ∧ v.form = q.form

lemma InheritsForm.exists_handed {form : ViewForm} (h : r.InheritsForm p name form)
    (formed : ∀ x ∈ handed, r.Formed x.1 x.2)
    (complete : ∀ name ∈ p.inherited, ∃ v, Table.find? name handed = some v) :
    ∃ v, Table.find? name handed = some v ∧ v.form = form := by
  obtain ⟨v, hv⟩ := complete name (mem_sortNames.2 h.1)
  obtain ⟨q, hq, hform⟩ := formed _ (Table.mem_of_find? hv)
  exact ⟨v, hv, hform.trans (h.2 q hq)⟩

/-- No view is refused what it is made from. -/
lemma InheritsStandard.exists_make (standard : r.InheritsStandard) (hp : p ∈ r.providers)
    (formed : ∀ x ∈ handed, r.Formed x.1 x.2)
    (complete : ∀ name ∈ p.inherited, ∃ v, Table.find? name handed = some v) :
    ∃ v, View.make p serial l handed = .ok v := by
  cases hform : p.form with
  | posix =>
      obtain ⟨hbasic, howner⟩ := standard.posix p hp hform
      obtain ⟨v, hv, hvf⟩ := hbasic.exists_handed formed complete
      obtain ⟨w, hw, hwf⟩ := howner.exists_handed formed complete
      obtain ⟨b, rfl⟩ := View.exists_basic_of_form hvf
      obtain ⟨o, rfl⟩ := View.exists_owner_of_form hwf
      exact ⟨.posix ⟨serial, l, b, o⟩, by simp only [View.make, hform, hv, hw]⟩
  | dos =>
      obtain ⟨v, hv, hvf⟩ := (standard.dos p hp hform).exists_handed formed complete
      obtain ⟨b, rfl⟩ := View.exists_basic_of_form hvf
      exact ⟨.dos ⟨serial, l, b⟩, by simp only [View.make, hform, hv]⟩
  | basic => exact ⟨.basic ⟨serial, l⟩, by simp only [View.make, hform]⟩
  | owner => exact ⟨.owner ⟨serial, l⟩, by simp only [View.make, hform]⟩
  | plain => exact ⟨.plain serial l p.name handed, by simp only [View.make, hform]⟩

/-- **Every registered view can be built.** -/
lemma InheritsStandard.exists_getView (standard : r.InheritsStandard)
    (built : build providers defaults = .ok r) (registered : view ∈ r.names) (l : Lookup σ)
    (serial : Nat) : ∃ v, (r.getView view l serial).2 = .ok (some v) :=
  Registry.exists_getView (P := r.Formed)
    (fun p hp _ _ _ _ hm => ⟨p, (find?_eq_some_iff built).2 ⟨hp, rfl⟩, View.form_of_make hm⟩)
    (fun _ hp _ _ formed complete => standard.exists_make hp formed complete)
    built registered serial

/-! ## What a request comes to -/

/-- The views that a request needs have been built once each, in order of inheritance, and are
shared. -/
structure BuiltOnce (r : Registry) (view : String) (l : Lookup σ) (s : Request σ) (v : View σ) :
    Prop where
  /-- No provider has been called twice. -/
  once : s.names.Nodup
  /-- The providers that have been called are those that the view inherits from, and its own. -/
  needed : ∀ p, (∃ c ∈ s.calls, c.provider = p) ↔ p ∈ r.closure view
  /-- A provider has been called behind those of all that it inherits. -/
  behind : ∀ c ∈ s.calls, ∀ other ∈ c.provider.inherits, Precedes s.names other c.provider.name
  /-- It has been handed one view for each name that it inherits, and no other. -/
  handed : ∀ c ∈ s.calls, (c.handed.map Prod.fst).Nodup ∧
    ∀ name, name ∈ c.handed.map Prod.fst ↔ name ∈ c.provider.inherits
  /-- What it has been handed are the instances made in this request. -/
  shared : ∀ c ∈ s.calls, ∀ x ∈ c.handed, s.Made l x.1 x.2
  /-- There is one of them for each name. -/
  single : ∀ name w w', s.Made l name w → s.Made l name w' → w = w'
  /-- Instances for different names are different objects. -/
  apart : ∀ name name' w w', s.Made l name w → s.Made l name' w' → w.serial = w'.serial →
    name = name'
  bound : ∀ name w, s.Made l name w → w.BoundTo l
  answer : s.Made l view v

/-- The order in which a request builds its views has those that the view inherits from, each behind
what it inherits. -/
lemma buildOrder_spec (built : build providers defaults = .ok r) (registered : view ∈ r.names) :
    Arranged (inheritedBy r.providers) (r.buildOrder view) ∧
      ∀ other, other ∈ r.buildOrder view ↔ InheritsFrom r.providers view other := by
  have closed := inheritedBy_subset (viewsDistinct_of_build built)
    (inheritanceComplete_of_build built)
  have known : [view] ⊆ r.names := List.cons_subset.2 ⟨registered, List.nil_subset _⟩
  have hwalk := postorder_buildOrder built registered
  refine ⟨(arranged_of_postorder closed known hwalk).1, fun other => ?_⟩
  rw [(added_of_postorder closed known hwalk).found, Leads,
    mem_inheritedBy_eq (viewsDistinct_of_build built)]
  simp

/-- **A request that has been followed to its end** has built everything once. -/
lemma builtOnce_of_follows (built : build providers defaults = .ok r)
    (registered : view ∈ r.names) (sound : s.Sound r l serial)
    (order : s.names = r.buildOrder view)
    (same : r.buildViews l (r.buildOrder view) (.start serial) = (s.building, .ok ()))
    (answer : s.built.get? view = some v) : r.BuiltOnce view l s v := by
  obtain ⟨arranged, hmem⟩ := buildOrder_spec built registered
  rw [← order] at arranged hmem
  have bound : AllBuilt (fun _ w => w.BoundTo l)
      (r.buildViews l (r.buildOrder view) (.start serial)).1 :=
    allBuilt_start (fun _ _ _ _ _ => View.boundTo_of_make) _ serial
  rw [same] at bound
  refine ⟨arranged.nodup, fun p => ?_, fun c hc other ho => ?_, fun c hc => ?_,
    fun c hc x hx => sound.made_handed hc hx, fun _ _ _ => sound.made_unique,
    fun _ _ _ _ => sound.name_eq_of_serial_eq, fun name w hw => bound name w (sound.made_iff.1 hw),
    sound.made_iff.2 answer⟩
  · rw [mem_closure_iff built registered, ← hmem]
    constructor
    · rintro ⟨c, hc, rfl⟩
      exact ⟨mem_of_find? (sound.known c hc), List.mem_map_of_mem hc⟩
    · rintro ⟨hp, hname⟩
      obtain ⟨c, hc, hname⟩ := List.mem_map.1 hname
      have found := sound.known c hc
      rw [hname, (find?_eq_some_iff built).2 ⟨hp, rfl⟩] at found
      exact ⟨c, hc, (Option.some.inj found).symm⟩
  · have inherits : other ∈ inheritedBy r.providers c.provider.name := by
      rw [inheritedBy_of_find? (sound.known c hc)]
      exact mem_sortNames.2 ho
    exact arranged.precedes (List.mem_map_of_mem hc) (.single inherits)
  · rw [(sound.handed c hc).1]
    exact ⟨nodup_sortNames _, fun _ => mem_sortNames⟩

/-- So the views that a request needs can be built in a row. -/
lemma InheritsStandard.exists_buildViews (standard : r.InheritsStandard)
    (built : build providers defaults = .ok r) (registered : view ∈ r.names) (l : Lookup σ)
    (serial : Nat) :
    ∃ b, r.buildViews l (r.buildOrder view) (.start serial) = (b, .ok ()) := by
  obtain ⟨v, hv⟩ := standard.exists_getView built registered l serial
  obtain ⟨p, found⟩ := exists_find? registered
  rw [getView, found] at hv
  cases hrow : r.buildViews l (r.buildOrder view) (.start serial) with
  | mk b outcome =>
      cases outcome with
      | ok _ => exact ⟨b, rfl⟩
      | error e =>
          rw [hrow] at hv
          cases hv

/-- What a request answers has been made in it. -/
lemma made_of_run (built : build providers defaults = .ok r)
    (h : (r.viewOnDemand view l).run (.start serial) = .ok (some v) s) :
    s.Sound r l serial ∧ s.Made l view v := by
  cases found : r.find? view with
  | none =>
      rw [viewOnDemand, found] at h
      cases h
  | some p =>
      have followed := follows_viewOnDemand built (mem_names_of_find? found) l serial
      rw [h] at followed
      cases followed with
      | done _ _ sound _ shown =>
          obtain ⟨w, hw, answer⟩ := shown
          rw [Option.some.inj hw]
          exact ⟨sound, sound.made_iff.2 answer⟩

/-- **Every request for a registered view builds it once.**  It comes to its end, and would so with
any greater depth; it has called the provider of each view that it needs once, behind those of all
that this one inherits, and handed it the instances that it has made, which are all on the lookup of
the request.  A second request, for whatever view, makes instances of its own. -/
theorem views_built_once (built : build providers defaults = .ok r) (standard : r.InheritsStandard)
    (registered : view ∈ r.names) (l : Lookup σ) (serial : Nat) :
    ∃ v s, (r.viewOnDemand view l).run (.start serial) = .ok (some v) s ∧
      r.BuiltOnce view l s v ∧
      (∀ depth, r.names.length < depth → ∃ s',
        (r.buildView l depth view).run (.start serial) = .ok v s' ∧ s'.building = s.building) ∧
      ∀ view' (l' : Lookup σ) v' s',
        (r.viewOnDemand view' l').run (.start s.next) = .ok (some v') s' →
          ∀ w w', v.HasInside w → v'.HasInside w' → w.serial ≠ w'.serial := by
  obtain ⟨row, all⟩ := standard.exists_buildViews built registered l serial
  obtain ⟨_, s, hrun, rfl, order, sound, v, rfl, answer⟩ :=
    (follows_viewOnDemand built registered l serial).exists_ok all
  have once := builtOnce_of_follows built registered sound order all answer
  refine ⟨v, s, hrun, once, fun depth hdepth => ?_, fun view' l' v' s' hrun' w w' hw hw' => ?_⟩
  · obtain ⟨extra, rfl⟩ := Nat.exists_eq_add_of_le (Nat.succ_le_of_lt hdepth)
    obtain ⟨v', s', hrun', hbuilding, -, -, answer'⟩ :=
      (follows_start built registered l serial extra).exists_ok all
    have hv : s'.built.get? view = s.built.get? view :=
      congrArg (fun b => b.built.get? view) hbuilding
    rw [answer, answer'] at hv
    exact ⟨s', by rw [← Option.some.inj hv]; exact hrun', hbuilding⟩
  · obtain ⟨sound', made'⟩ := made_of_run built hrun'
    obtain ⟨name, hname⟩ := sound.made_inside once.answer hw
    obtain ⟨name', hname'⟩ := sound'.made_inside made' hw'
    have before := (sound.serial_made hname).2
    have after := (sound'.serial_made hname').1
    omega

/-- The standard views, and one that inherits the posix and the dos view. -/
def diamond : Registry :=
  ⟨[.basic, .dos, .owner, .posix, .blank "both" ["posix", "dos"]], .empty⟩

lemma inheritsStandard_diamond : diamond.InheritsStandard := by
  have basic : ∀ q, diamond.find? "basic" = some q → q.form = .basic := by
    intro q hq
    cases hq
    rfl
  have owner : ∀ q, diamond.find? "owner" = some q → q.form = .owner := by
    intro q hq
    cases hq
    rfl
  refine ⟨fun p hp hform => ?_, fun p hp hform => ?_⟩
  all_goals
    simp only [diamond, List.mem_cons, List.not_mem_nil, or_false] at hp
    rcases hp with rfl | rfl | rfl | rfl | rfl <;> try cases hform
  · exact ⟨⟨by decide, basic⟩, ⟨by decide, owner⟩⟩
  · exact ⟨by decide, basic⟩

/-- The posix and the dos view both inherit the basic view, and it is built once. -/
theorem views_built_once_diamond :
    ∃ v s, build (.blank "both" ["posix", "dos"] :: Provider.catalog) .empty = .ok diamond ∧
      (diamond.viewOnDemand "both" Lookup.static).run (.start 0) = .ok (some v) s ∧
      diamond.BuiltOnce "both" .static s v ∧
      s.names = ["basic", "dos", "owner", "posix", "both"] := by
  have built : build (.blank "both" ["posix", "dos"] :: Provider.catalog) .empty = .ok diamond :=
    rfl
  have registered : "both" ∈ diamond.names := by decide
  obtain ⟨v, s, hrun, once, -⟩ :=
    views_built_once built inheritsStandard_diamond registered .static 0
  have computed : ∃ s', (diamond.viewOnDemand "both" Lookup.static).run (.start 0) = .ok _ s' ∧
      s'.names = ["basic", "dos", "owner", "posix", "both"] := ⟨_, rfl, rfl⟩
  obtain ⟨s', hrun', names⟩ := computed
  obtain ⟨-, rfl⟩ := EStateM.Result.ok.inj (hrun.symm.trans hrun')
  exact ⟨v, s, built, hrun, once, names⟩

end Registry

end AttributeViews
