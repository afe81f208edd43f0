import AttributeViews.Proofs.Registry.Closure
import AttributeViews.Proofs.Registry.Routing

/-!
# Several attributes at once

The table of a view's attributes is filled in one of two ways.  For `view:*` the providers are read
from the most to the least general, and each overwrites what those before it have given; for
`view:a,b` every name is looked for by itself, nearest first.  A single attribute is read in a third
way, and all three find the same provider.

* `firstReading?` — a name as the first provider that declares it reads it;
  `get_eq_of_firstReading?`.
* **`Registry.get?_allOf`**, **`Registry.get?_pick`** — what the two ways put under a name.
* **`Registry.attributeMap_reads_singly`** — so a table agrees with the attributes read one by one.
-/

namespace AttributeViews

variable {r : Registry} {node : Node} {providers : List Provider} {view name : String}
  {names : List String}

/-- The value of a name at the first provider that declares it. -/
def firstReading? (node : Node) (providers : List Provider) (name : String) : Option Value :=
  (providers.find? (·.supports name)).map (·.read node name)

lemma isSome_firstReading? :
    (firstReading? node providers name).isSome = providers.any (·.supports name) := by
  rw [firstReading?, Option.isSome_map, List.isSome_find?]

namespace Registry

/-! ## The two ways -/

lemma find?_readings (p : Provider) :
    Table.find? name (names.map fun name => (name, p.read node name))
      = if name ∈ names then some (p.read node name) else none := by
  have h := Table.find?_filterMap (fun name => some (p.read node name)) name names
  simpa only [Option.map_some, List.filterMap_eq_map'] using h

/-- **What is read last** is what the first provider from the end reads. -/
lemma get?_allOf :
    (allOf node providers).get? name = firstReading? node providers.reverse name := by
  rw [allOf, Table.get?_ofList_reverse, List.reverse_flatMap]
  induction providers.reverse with
  | nil => rfl
  | cons p rest ih =>
      have hp : Table.find? name (p.names.map fun name => (name, p.read node name)).reverse
          = if p.supports name = true then some (p.read node name) else none := by
        rw [← List.map_reverse, find?_readings]
        simp only [List.mem_reverse, Provider.supports, Table.contains_iff, Provider.names]
      rw [List.flatMap_cons, Table.find?_append, ih, Function.comp_apply, hp, firstReading?,
        firstReading?]
      by_cases h : p.supports name = true
      · simp [h]
      · simp [h]

lemma pick_eq :
    pick node providers names
      = .ofList (names.filterMap fun name => (firstReading? node providers name).map (name, ·)) := by
  simp only [pick, firstReading?, Option.map_map, Function.comp_def]

lemma get?_pick :
    (pick node providers names).get? name
      = if name ∈ names then firstReading? node providers name else none := by
  rw [pick_eq, Table.get?_ofList_reverse, ← List.filterMap_reverse, Table.find?_filterMap]
  simp only [List.mem_reverse]

/-- The names that some provider declares, in the order of their first mention. -/
lemma keys_pick :
    (pick node providers names).keys
      = (names.filter fun name => providers.any (·.supports name)).eraseDups := by
  have hfst : ∀ names : List String,
      (names.filterMap fun name => (firstReading? node providers name).map (name, ·)).map Prod.fst
        = names.filter fun name => providers.any (·.supports name) := by
    intro names
    induction names with
    | nil => rfl
    | cons name rest ih =>
        have hs : (firstReading? node providers name).isSome = providers.any (·.supports name) :=
          isSome_firstReading?
        cases hf : firstReading? node providers name with
        | none =>
            rw [hf] at hs
            rw [List.filterMap_cons, hf, List.filter_cons, ← hs]
            exact ih
        | some v =>
            rw [hf] at hs
            rw [List.filterMap_cons, hf, List.filter_cons, ← hs]
            exact congrArg (name :: ·) ih
  rw [pick_eq, Table.keys_ofList, hfst]

/-! ## One by one -/

/-- A name behind the name of a view is read by the first provider of the closure that declares
it. -/
lemma get_eq_of_firstReading? {v : Value} (plain : ':' ∉ view.toList) (registered : view ∈ r.names)
    (h : firstReading? node (r.closure view) name = some v) :
    r.get node (view ++ ":" ++ name) = v := by
  obtain ⟨p, hp, rfl⟩ := Option.map_eq_some_iff.1 h
  exact get_of_routes (.prefixed plain registered (find?_supports_eq_some_iff.1 hp))

lemma attributeMap_append {text : String} (plain : ':' ∉ view.toList) (named : view ≠ "")
    (registered : view ∈ r.names) :
    r.attributeMap node (view ++ ":" ++ text)
      = if "*" ∈ (Text.pieces ',' text).map Text.trim then .ok (allOf node (r.closure view).reverse)
        else .ok (pick node (r.closure view) ((Text.pieces ',' text).map Text.trim)) := by
  simp only [attributeMap, splitAddress_append plain, if_pos registered]

/-- The request for all attributes of a view. -/
lemma append_star (view : String) : view ++ ":*" = view ++ ":" ++ "*" := by
  rw [String.append_assoc]
  rfl

/-- All attributes of a view: those that its closure declares, each as it is read alone. -/
lemma attributeMap_all (plain : ':' ∉ view.toList) (named : view ≠ "")
    (registered : view ∈ r.names) :
    ∃ values, r.attributeMap node (view ++ ":*") = .ok values ∧
      (∀ name, name ∈ values.keys ↔ ∃ p ∈ r.closure view, p.supports name = true) ∧
      ∀ name ∈ values.keys, values.get? name = some (r.get node (view ++ ":" ++ name)) := by
  have hget : ∀ name, (allOf node (r.closure view).reverse).get? name
      = firstReading? node (r.closure view) name := by
    intro name
    rw [get?_allOf, List.reverse_reverse]
  refine ⟨allOf node (r.closure view).reverse, ?_, fun name => ?_, fun name hname => ?_⟩
  · rw [append_star, attributeMap_append plain named registered, if_pos (by decide)]
  · rw [← Table.contains_iff, Table.contains, hget, isSome_firstReading?, List.any_eq_true]
  · obtain ⟨v, hv⟩ := Table.contains_eq_true_iff.1 (Table.contains_iff.2 hname)
    rw [hv, get_eq_of_firstReading? plain registered ((hget name).symm.trans hv)]

/-- **A table of attributes agrees with the attributes read one by one.**  All attributes of a view
are those that its own provider or an inherited one declares.  A list of names gives those of them
that are declared, without the blanks around them and in the order of their first mention.  Every
value is the one that the name has when it is read alone. -/
theorem attributeMap_reads_singly {defaults : Table String Value}
    (built : build providers defaults = .ok r) (node : Node) (registered : view ∈ r.names)
    (named : view ≠ "") (plain : ':' ∉ view.toList) :
    (∀ p, p ∈ r.closure view ↔ p ∈ r.providers ∧ InheritsFrom r.providers view p.name) ∧
    (∃ values, r.attributeMap node (view ++ ":*") = .ok values ∧
      (∀ name, name ∈ values.keys ↔ ∃ p ∈ r.closure view, p.supports name = true) ∧
      ∀ name ∈ values.keys, values.get? name = some (r.get node (view ++ ":" ++ name))) ∧
    ∀ listed : List String, listed ≠ [] → (∀ text ∈ listed, ',' ∉ text.toList) →
      "*" ∉ listed.map Text.trim →
        ∃ values, r.attributeMap node (view ++ ":" ++ ",".intercalate listed) = .ok values ∧
          values.keys = ((listed.map Text.trim).filter fun name =>
            (r.closure view).any (·.supports name)).eraseDups ∧
          ∀ name ∈ values.keys, values.get? name = some (r.get node (view ++ ":" ++ name)) := by
  refine ⟨fun p => mem_closure_iff built registered, attributeMap_all plain named registered, ?_⟩
  intro listed hne free nostar
  have hpieces : Text.pieces ',' (",".intercalate listed) = listed :=
    Text.pieces_intercalate hne free
  refine ⟨pick node (r.closure view) (listed.map Text.trim), ?_, keys_pick, fun name hname => ?_⟩
  · rw [attributeMap_append plain named registered, hpieces, if_neg nostar]
  · obtain ⟨v, hv⟩ := Table.contains_eq_true_iff.1 (Table.contains_iff.2 hname)
    have hread := hv
    rw [get?_pick] at hread
    split_ifs at hread
    rw [hv, get_eq_of_firstReading? plain registered hread]

end Registry

/-- A view that inherits the notes and has a mark of its own under a name that the tags
have, too. -/
def Provider.memo : Provider :=
  ⟨"memo", "memo", ["note"], .ofList [("pinned", flagAttribute)], .plain⟩

/-- A file with both marks. -/
def Node.marked : Node :=
  ⟨"1", .file, 0, .ofList [("meta:pinned", .bool false), ("memo:pinned", .bool true)]⟩

/-- The nearer one of the two is in the table, whether all attributes are read or named ones. -/
theorem Registry.attributeMap_reads_singly_memo :
    ∃ r all listed, build [.memo, .note, .tag] .empty = .ok r ∧
      r.attributeMap .marked "memo:*" = .ok all ∧
      all.get? "pinned" = some (.bool true) ∧ "draft" ∈ all.keys ∧
      r.attributeMap .marked "memo: pinned,other,draft,pinned" = .ok listed ∧
      listed.keys = ["pinned", "draft"] ∧ listed.get? "pinned" = some (.bool true) := by
  have built : build [.memo, .note, .tag] .empty = .ok ⟨[.tag, .note, .memo], .empty⟩ := rfl
  have hclosure : closure ⟨[.tag, .note, .memo], .empty⟩ "memo" = [.memo, .note, .tag] := by
    rw [closure, reachable_of_filter_eq_cons rfl, reachable_of_filter_eq_cons rfl,
      reachable_of_filter_eq_cons rfl, reachable_of_filter_eq_nil rfl]
    rfl
  obtain ⟨-, ⟨all, hall, hkeys, hvalues⟩, hlisted⟩ :=
    attributeMap_reads_singly built .marked (by decide : "memo" ∈ _) (by decide) (by decide)
  obtain ⟨listed, hmap, hnames, hread⟩ := hlisted [" pinned", "other", "draft", "pinned"]
    (by decide) (by decide) (by decide)
  rw [hclosure] at hkeys hnames
  have hpinned : get ⟨[.tag, .note, .memo], .empty⟩ .marked ("memo" ++ ":" ++ "pinned")
      = .bool true :=
    get_of_routes (.prefixed (by decide) (by decide) ⟨[], [.note, .tag], hclosure, rfl, by simp⟩)
  have hlistedKeys : listed.keys = ["pinned", "draft"] := hnames
  refine ⟨_, all, listed, built, hall, ?_, (hkeys _).2 ⟨.note, by simp, rfl⟩, hmap, hlistedKeys, ?_⟩
  · rw [hvalues _ ((hkeys _).2 ⟨.memo, by simp, rfl⟩), hpinned]
  · rw [hread _ (by rw [hlistedKeys]; simp), hpinned]

end AttributeViews
