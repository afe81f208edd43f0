import AttributeViews.Proofs.Command

/-!
# Requests for unknown views

Several attributes are requested by a text that holds the name of a view, a colon and the names of
attributes, and all attributes of a view by its name with `:*` behind it.  The name of the view is
what stands before the first colon.  So a name that has no colon and is not empty is refused unless
the view is registered; but an empty name is taken for that of the basic view, and of a name with a
colon in it only the front part is looked at.

* `Registry.OfView` — a table holds attributes of one view.
* **`Registry.attributeMap_of_notMem`**, `Registry.attributeMap_of_mem` — refused and answered
  requests.
* `Registry.attributeMap_unnamed`, `Registry.refusesView_dump_append_iff` — the names that are read
  as others.
* **`Registry.unknown_views_refused`** — which views are refused, and for which view is answered.
-/

namespace AttributeViews

variable {r : Registry} {node : Node} {view names rest : String} {values : Table String Value}

namespace Registry

/-- A table holds attributes of a view: what its provider or an inherited one declares, with the
value that is read alone. -/
def OfView (r : Registry) (node : Node) (view : String) (values : Table String Value) : Prop :=
  ∀ name v, values.get? name = some v →
    (∃ p ∈ r.closure view, p.supports name = true) ∧ r.get node (view ++ ":" ++ name) = v

/-! ## Attributes of one view -/

/-- Whatever the first declaring provider of the closure reads is of the view. -/
lemma ofView_of_firstReading? (plain : ':' ∉ view.toList) (registered : view ∈ r.names)
    (h : ∀ name v, values.get? name = some v →
      firstReading? node (r.closure view) name = some v) : r.OfView node view values := by
  intro name v hv
  have hread := h name v hv
  have hsome : (firstReading? node (r.closure view) name).isSome = true := by rw [hread]; rfl
  rw [isSome_firstReading?, List.any_eq_true] at hsome
  exact ⟨hsome, get_eq_of_firstReading? plain registered hread⟩

/-- **A registered view answers**, and with its own attributes. -/
lemma attributeMap_of_mem (plain : ':' ∉ view.toList) (named : view ≠ "")
    (registered : view ∈ r.names) (node : Node) (names : String) :
    ∃ values, r.attributeMap node (view ++ ":" ++ names) = .ok values ∧
      r.OfView node view values := by
  rw [attributeMap_append plain named registered]
  split_ifs with hall
  · refine ⟨_, rfl, ofView_of_firstReading? plain registered fun name v hv => ?_⟩
    rwa [get?_allOf, List.reverse_reverse] at hv
  · refine ⟨_, rfl, ofView_of_firstReading? plain registered fun name v hv => ?_⟩
    rw [get?_pick] at hv
    split_ifs at hv
    exact hv

/-- **A view that is not registered is refused**, whatever is asked of it. -/
lemma attributeMap_of_notMem (plain : ':' ∉ view.toList) (named : view ≠ "")
    (unknown : view ∉ r.names) (node : Node) (names : String) :
    r.attributeMap node (view ++ ":" ++ names) = .error (.unsupportedView view) := by
  simp only [attributeMap, splitAddress_append plain, if_neg unknown]

/-- Only a registered view answers, so an answer is of the view that is named. -/
lemma ofView_of_attributeMap (plain : ':' ∉ view.toList) (named : view ≠ "")
    (h : r.attributeMap node (view ++ ":" ++ names) = .ok values) :
    view ∈ r.names ∧ r.OfView node view values := by
  by_cases registered : view ∈ r.names
  · obtain ⟨values', hv, ofView⟩ := attributeMap_of_mem plain named registered node names
    rw [hv] at h
    exact ⟨registered, Except.ok.inj h ▸ ofView⟩
  · rw [attributeMap_of_notMem plain named registered] at h
    cases h

/-- Nothing before the colon means the basic view. -/
lemma attributeMap_unnamed (node : Node) (names : String) :
    r.attributeMap node (":" ++ names) = r.attributeMap node ("basic:" ++ names) := by
  have hempty : splitAddress (":" ++ names) = (some "", names) :=
    (splitAddress_append (by decide) : splitAddress ("" ++ ":" ++ names) = _)
  have hbasic : splitAddress ("basic:" ++ names) = (some "basic", names) :=
    (splitAddress_append (by decide) : splitAddress ("basic" ++ ":" ++ names) = _)
  have hne : "basic" ≠ "" := by decide
  simp only [attributeMap, hempty, hbasic]

/-- A request is refused because of its view. -/
def RefusesView {α : Type} (answer : Except Error α) : Prop :=
  ∃ e, answer = .error e ∧ e.kind = .unsupportedView

/-- **Which requests are refused** because of the view that stands before the colon. -/
lemma refusesView_attributeMap_iff (basic : "basic" ∈ r.names) (plain : ':' ∉ view.toList)
    (node : Node) (names : String) :
    RefusesView (r.attributeMap node (view ++ ":" ++ names)) ↔ view ∉ r.names ∧ view ≠ "" := by
  have answered : ∀ {request : String} {values : Table String Value},
      r.attributeMap node request = .ok values → ¬ RefusesView (r.attributeMap node request) := by
    rintro request values h ⟨e, he, -⟩
    rw [h] at he
    cases he
  by_cases named : view = ""
  · subst named
    obtain ⟨values, hv, -⟩ := attributeMap_of_mem (by decide) (by decide) basic node names
    have hempty : r.attributeMap node ("" ++ ":" ++ names) = .ok values :=
      (attributeMap_unnamed node names).trans hv
    simp only [answered hempty, ne_eq, not_true, and_false]
  · by_cases registered : view ∈ r.names
    · obtain ⟨values, hv, -⟩ := attributeMap_of_mem plain named registered node names
      simp only [answered hv, registered, not_true, false_and]
    · simp only [registered, named, ne_eq, not_false_iff, and_self, iff_true]
      exact ⟨_, attributeMap_of_notMem plain named registered node names, rfl⟩

/-! ## Printed views -/

/-- Printing adds no error of this kind. -/
lemma refusesView_dump_iff (view : String) :
    RefusesView (r.dump node view) ↔ RefusesView (r.attributeMap node (view ++ ":*")) := by
  rw [dump]
  cases r.attributeMap node (view ++ ":*") with
  | error e => simp [RefusesView]
  | ok values =>
      simp only [RefusesView, ok_bind, reduceCtorEq, false_and, exists_false, iff_false]
      rintro ⟨e, he, hk⟩
      rw [kind_of_jsonOfAttributes he] at hk
      cases hk

/-- All attributes are asked for behind the name of the view, and a name with a colon in it is cut
at the first one. -/
lemma refusesView_dump_plain_iff (basic : "basic" ∈ r.names) (plain : ':' ∉ view.toList) :
    RefusesView (r.dump node view) ↔ view ∉ r.names ∧ view ≠ "" := by
  rw [refusesView_dump_iff, append_star, refusesView_attributeMap_iff basic plain]

lemma refusesView_dump_append_iff (basic : "basic" ∈ r.names) (plain : ':' ∉ view.toList)
    (rest : String) :
    RefusesView (r.dump node (view ++ ":" ++ rest)) ↔ view ∉ r.names ∧ view ≠ "" := by
  rw [refusesView_dump_iff, String.append_assoc, refusesView_attributeMap_iff basic plain]

lemma ofView_of_dump {text : String} (plain : ':' ∉ view.toList) (named : view ≠ "")
    (h : r.dump node view = .ok text) :
    view ∈ r.names ∧
      ∃ values, r.OfView node view values ∧ jsonOfAttributes values.entries = .ok text := by
  rw [dump, append_star] at h
  obtain ⟨values, hv, hjson⟩ := bind_eq_ok_iff.1 h
  obtain ⟨registered, ofView⟩ := ofView_of_attributeMap plain named hv
  exact ⟨registered, values, ofView, hjson⟩

end Registry

/-- A view that is printed of a scratch file is printed of some node. -/
lemma dump_of_inspectText {c : Config} {now : Moment} {overrides creation : List String}
    {supply : IdSupply} {text : String} (built : c.registry.result = .ok r)
    (h : (inspectText c now view overrides creation supply).2.result = .ok text) :
    ∃ node body, r.dump node view = .ok body := by
  simp only [inspectText, Issuing.result_bind] at h
  obtain ⟨r', hr, h⟩ := bind_eq_ok_iff.1 h
  obtain rfl := Except.ok.inj (built.symm.trans hr)
  obtain ⟨attributes, -, h⟩ := bind_eq_ok_iff.1 h
  obtain ⟨tree, -, h⟩ := bind_eq_ok_iff.1 h
  obtain ⟨values, -, h⟩ := bind_eq_ok_iff.1 h
  obtain ⟨⟨tree', node⟩, -, h⟩ := bind_eq_ok_iff.1 h
  obtain ⟨-, -, h⟩ := bind_eq_ok_iff.1 h
  obtain ⟨body, hbody, h⟩ := bind_eq_ok_iff.1 h
  exact ⟨node, body, hbody⟩

namespace Registry

/-- **Unknown views are refused**, but only if their names are not empty and have no colon in them.
In a registry of standard views let a view have such a name.  A request for attributes behind its
name, or for all of them to be printed, is refused because of the view exactly if it is not
registered; an answer holds attributes of this view and of no other; and a view is inspected only if
it is supported.

An empty name is not refused but stands for the basic view.  In a name with a colon only the part in
front of it decides, and the rest is taken for names of attributes. -/
theorem unknown_views_refused {views : List String} {defaults : Table String Value}
    (built : buildOfViews views defaults = .ok r) (node : Node) :
    (∀ view, view ≠ "" → ':' ∉ view.toList →
      (∀ names, (RefusesView (r.attributeMap node (view ++ ":" ++ names)) ↔ view ∉ r.names) ∧
        ∀ values, r.attributeMap node (view ++ ":" ++ names) = .ok values →
          r.OfView node view values) ∧
      (RefusesView (r.dump node view) ↔ view ∉ r.names) ∧
      (∀ text, r.dump node view = .ok text → ∃ values,
        r.OfView node view values ∧ jsonOfAttributes values.entries = .ok text) ∧
      ∀ (c : Config) (now : Moment) (overrides creation : List String) (supply : IdSupply)
        (text : String), c.registry.result = .ok r →
          (inspectText c now view overrides creation supply).2.result = .ok text →
            view ∈ r.supportedViews) ∧
    (∀ names, r.attributeMap node (":" ++ names) = r.attributeMap node ("basic:" ++ names)) ∧
    r.dump node "" = r.dump node "basic" ∧
    ∀ front rest, ':' ∉ front.toList →
      (RefusesView (r.dump node (front ++ ":" ++ rest)) ↔ front ∉ r.names ∧ front ≠ "") := by
  have basic : "basic" ∈ r.names := (mem_names_iff built).2 (Or.inl rfl)
  refine ⟨fun view named plain => ⟨fun names => ⟨?_, fun values h => ?_⟩, ?_, fun text h => ?_, ?_⟩,
    attributeMap_unnamed node, ?_,
    fun front rest plain => refusesView_dump_append_iff basic plain rest⟩
  · rw [refusesView_attributeMap_iff basic plain, and_iff_left named]
  · exact (ofView_of_attributeMap plain named h).2
  · rw [refusesView_dump_plain_iff basic plain, and_iff_left named]
  · exact (ofView_of_dump plain named h).2
  · intro c now overrides creation supply text hc h
    obtain ⟨scratch, body, hbody⟩ := dump_of_inspectText hc h
    exact mem_sortNames.2 (ofView_of_dump plain named hbody).1
  · rw [dump, dump]
    exact congrArg (· >>= _) (attributeMap_unnamed node "*")

/-! ## The registry of the basic view alone -/

lemma closure_basic : closure ⟨[.basic], .empty⟩ "basic" = [.basic] := by
  rw [closure, reachable_of_filter_eq_cons rfl, reachable_of_filter_eq_nil rfl]
  rfl

lemma attributeMap_basic (node : Node) (names : String) :
    attributeMap ⟨[.basic], .empty⟩ node ("basic" ++ ":" ++ names)
      = if "*" ∈ (Text.pieces ',' names).map Text.trim then .ok (allOf node [.basic])
        else .ok (pick node [.basic] ((Text.pieces ',' names).map Text.trim)) := by
  rw [attributeMap_append (by decide) (by decide) (by decide), closure_basic]
  rfl

/-- A view with a plain name is refused if the registry does not have it, and
inspected otherwise. -/
theorem unknown_views_refused_basic :
    ∃ r c text, buildOfViews ["basic"] .empty = .ok r ∧ c.registry.result = .ok r ∧
      RefusesView (r.dump (.fresh "1" .file 0) "posix") ∧
      ¬ RefusesView (r.dump (.fresh "1" .file 0) "basic") ∧
      r.dump (.fresh "1" .file 0) "" = r.dump (.fresh "1" .file 0) "basic" ∧
      (inspectText c default "basic" [] [] ⟨toString, 0⟩).2.result = .ok text ∧
      "basic" ∈ r.supportedViews := by
  obtain ⟨plainly, -, unnamed, -⟩ := unknown_views_refused buildOfViews_basic (.fresh "1" .file 0)
  obtain ⟨-, refused, -⟩ := plainly "posix" (by decide) (by decide)
  obtain ⟨-, answered, -, inspected⟩ := plainly "basic" (by decide) (by decide)
  obtain ⟨text, printed⟩ := Config.Accepted.standard.exists_inspectText Config.registry_standard
    (by decide : "basic" ∈ _) default ⟨toString, 0⟩
  exact ⟨_, .standard, text, buildOfViews_basic, Config.registry_standard, refused.2 (by decide),
    fun h => answered.1 h (by decide), unnamed, printed,
    inspected _ _ _ _ _ _ Config.registry_standard printed⟩

/-- An empty name is answered though no view has it, and so is a name with a colon in it. -/
theorem unknown_views_answered :
    ∃ r values, buildOfViews ["basic"] .empty = .ok r ∧
      "" ∉ r.names ∧ r.attributeMap (.fresh "1" .file 0) ("" ++ ":" ++ "size") = .ok values ∧
      values.get? "size" = some (.int 0) ∧ (∃ text, r.dump (.fresh "1" .file 0) "" = .ok text) ∧
      "basic:posix" ∉ r.names ∧ r.dump (.fresh "1" .file 0) "basic:posix" = .ok "\x7b\x7d" := by
  refine ⟨_, pick (.fresh "1" .file 0) [.basic] ["size"], buildOfViews_basic, by decide, ?_, rfl,
    ?_, by decide, ?_⟩
  · exact (attributeMap_unnamed _ "size").trans (attributeMap_basic _ "size")
  · have all : attributeMap ⟨[.basic], .empty⟩ (.fresh "1" .file 0) ("" ++ ":*") = .ok _ :=
      (attributeMap_unnamed _ "*").trans (attributeMap_basic _ "*")
    rw [dump, all]
    exact ⟨_, rfl⟩
  · have none : attributeMap ⟨[.basic], .empty⟩ (.fresh "1" .file 0) ("basic:posix" ++ ":*")
        = .ok _ := attributeMap_basic _ "posix:*"
    rw [dump, none]
    rfl

end Registry

end AttributeViews
