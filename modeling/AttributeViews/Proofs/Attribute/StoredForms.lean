import AttributeViews.Proofs.Answers
import AttributeViews.Proofs.View.Calls
import AttributeViews.Provider.Standard

/-!
# Stored forms

A standard attribute is stored in one form.  Its strict check answers values of this form, so do its
lenient check and whatever it starts out with.

* `StoredForm` — the form of the values under each key.
* `AttributeSpec.Yields` — a description that leads to one form only.
* `StandardAttribute` — the standard attributes, one by one.
* **`Provider.yields_or_fact_of_mem_catalog`** — the standard attributes do, or are facts.
-/

namespace AttributeViews

variable {view name : String} {value stored : Value}

/-- The values that are stored under the keys of the standard attributes. -/
inductive StoredForm : String → Value → Prop
  | time {name : String} {m : Moment} (named : name ∈ timeNames) (aware : m.isAware = true) :
      StoredForm ("basic:" ++ name) (.moment m)
  | owner (p : Principal) : StoredForm "owner:owner" (.principal p)
  | group (name : String) : StoredForm "posix:group" (.principal (.group name))
  | permissions (s : PermissionSet) : StoredForm "posix:permissions" (.permissions s)
  | flag (flag : DosFlag) (b : Bool) : StoredForm ("dos:" ++ flag.name) (.bool b)

/-! ## Checks -/

lemma checkBool_eq_ok_iff :
    checkBool view name value = .ok stored ↔ ∃ b, value = .bool b ∧ stored = .bool b := by
  cases value <;> simp [checkBool, wrongType, eq_comm]

lemma checkTime_eq_ok_iff :
    checkTime view name value = .ok stored ↔
      ∃ m, m.isAware = true ∧ value = .moment m ∧ stored = .moment m := by
  constructor
  · intro h
    cases value with
    | moment m =>
        simp only [checkTime] at h
        split_ifs at h with hm
        · exact ⟨m, hm, rfl, (Except.ok.inj h).symm⟩
        · cases h
    | _ => cases h
  · rintro ⟨m, hm, rfl, rfl⟩
    exact if_pos hm

lemma checkUser_eq_ok_iff :
    checkUser view name value = .ok stored ↔
      ∃ p, value = .principal p ∧ stored = .principal p := by
  cases value <;> simp [checkUser, wrongType, eq_comm]

lemma coerceUser_eq_ok_iff :
    coerceUser view name value = .ok stored ↔
      checkUser view name value = .ok stored ∨
        ∃ s, value = .text s ∧ stored = .principal (.user s) := by
  cases value <;> simp [coerceUser, checkUser, wrongType, eq_comm]

lemma checkGroup_eq_ok_iff :
    checkGroup view name value = .ok stored ↔
      ∃ p, p.isGroup = true ∧ value = .principal p ∧ stored = .principal p.plainGroup := by
  constructor
  · intro h
    cases value with
    | principal p =>
        simp only [checkGroup] at h
        split_ifs at h with hp
        · exact ⟨p, hp, rfl, (Except.ok.inj h).symm⟩
        · cases h
    | _ => cases h
  · rintro ⟨p, hp, rfl, rfl⟩
    exact if_pos hp

lemma coerceGroup_eq_ok_iff :
    coerceGroup view name value = .ok stored ↔
      checkGroup view name value = .ok stored ∨
        ∃ s, value = .text s ∧ stored = .principal (.group s) := by
  cases value with
  | principal p =>
      by_cases hp : p.isGroup = true
      · simp [coerceGroup, checkGroup, hp]
      · simp [coerceGroup, checkGroup, hp, wrongType]
  | text s => simp [coerceGroup, checkGroup, wrongType, eq_comm]
  | _ => simp [coerceGroup, checkGroup, wrongType]

lemma permissions_of_toPermissions (h : toPermissions view name value = .ok stored) :
    ∃ s, stored = .permissions s := by
  rcases bind_eq_ok_iff.1 h with ⟨elements, -, h⟩
  rcases map_eq_ok_iff.1 h with ⟨s, -, rfl⟩
  exact ⟨s, rfl⟩

lemma permissions_of_checkPermissions (h : checkPermissions view name value = .ok stored) :
    ∃ s, stored = .permissions s := by
  rw [checkPermissions] at h
  split_ifs at h
  · exact permissions_of_toPermissions h
  · cases h

lemma permissions_of_coercePermissions (h : coercePermissions view name value = .ok stored) :
    ∃ s, stored = .permissions s := by
  simp only [coercePermissions] at h
  split at h
  · rcases map_eq_ok_iff.1 h with ⟨s, -, rfl⟩
    exact ⟨s, rfl⟩
  · split_ifs at h
    · exact permissions_of_toPermissions h
    · cases h

/-! ## Standard attributes -/

/-- Whatever way a value comes into an attribute, its form is the same one, and it does come in: an
attribute of which nothing is given starts out with a value. -/
structure AttributeSpec.Yields (spec : AttributeSpec) (form : Value → Prop) : Prop where
  checked : ∀ {view name value stored}, spec.check view name value = .ok stored → form stored
  coerced : ∀ {view name value stored}, spec.coerce view name value = .ok stored → form stored
  fixed : ∀ {v}, spec.start = .fixed v → form v
  clocked : ∀ {now : Moment}, spec.start = .currentTime → now.isAware = true → form (.moment now)
  present : spec.start ≠ .absent

lemma yields_timeAttribute (named : name ∈ timeNames) :
    timeAttribute.Yields (StoredForm ("basic:" ++ name)) := by
  have hcheck : ∀ {view name' value stored}, checkTime view name' value = .ok stored →
      StoredForm ("basic:" ++ name) stored := by
    intro view name' value stored h
    rcases checkTime_eq_ok_iff.1 h with ⟨m, hm, -, rfl⟩
    exact .time named hm
  exact ⟨hcheck, hcheck, by simp [timeAttribute], fun _ => .time named, by simp [timeAttribute]⟩

lemma yields_ownerAttribute : ownerAttribute.Yields (StoredForm "owner:owner") := by
  have hcheck : ∀ {view name value stored}, checkUser view name value = .ok stored →
      StoredForm "owner:owner" stored := by
    intro view name value stored h
    rcases checkUser_eq_ok_iff.1 h with ⟨p, -, rfl⟩
    exact .owner p
  refine ⟨hcheck, fun h => ?_, fun h => ?_, by simp [ownerAttribute], by simp [ownerAttribute]⟩
  · rcases coerceUser_eq_ok_iff.1 h with h | ⟨s, -, rfl⟩
    · exact hcheck h
    · exact .owner _
  · cases h
    exact .owner _

lemma yields_groupAttribute : groupAttribute.Yields (StoredForm "posix:group") := by
  have hcheck : ∀ {view name value stored}, checkGroup view name value = .ok stored →
      StoredForm "posix:group" stored := by
    intro view name value stored h
    rcases checkGroup_eq_ok_iff.1 h with ⟨p, -, -, rfl⟩
    exact .group p.name
  refine ⟨hcheck, fun h => ?_, fun h => ?_, by simp [groupAttribute], by simp [groupAttribute]⟩
  · rcases coerceGroup_eq_ok_iff.1 h with h | ⟨s, -, rfl⟩
    · exact hcheck h
    · exact .group s
  · cases h
    exact .group _

lemma yields_permissionsAttribute :
    permissionsAttribute.Yields (StoredForm "posix:permissions") := by
  refine ⟨fun h => ?_, fun h => ?_, fun h => ?_, by simp [permissionsAttribute],
    by simp [permissionsAttribute]⟩
  · rcases permissions_of_checkPermissions h with ⟨s, rfl⟩
    exact .permissions s
  · rcases permissions_of_coercePermissions h with ⟨s, rfl⟩
    exact .permissions s
  · cases h
    exact .permissions _

lemma yields_flagAttribute (flag : DosFlag) :
    flagAttribute.Yields (StoredForm ("dos:" ++ flag.name)) := by
  have hcheck : ∀ {view name value stored}, checkBool view name value = .ok stored →
      StoredForm ("dos:" ++ flag.name) stored := by
    intro view name value stored h
    rcases checkBool_eq_ok_iff.1 h with ⟨b, -, rfl⟩
    exact .flag flag b
  refine ⟨hcheck, hcheck, fun h => ?_, by simp [flagAttribute], by simp [flagAttribute]⟩
  cases h
  exact .flag flag false

/-- The attributes of the standard views, each with its provider and its description. -/
inductive StandardAttribute : Provider → String → AttributeSpec → Prop
  | time {name : String} (named : name ∈ timeNames) :
      StandardAttribute .basic name timeAttribute
  | fact {name : String} (fact : NodeFact) (other : name ∉ timeNames) :
      StandardAttribute .basic name (factAttribute fact)
  | owner : StandardAttribute .owner "owner" ownerAttribute
  | group : StandardAttribute .posix "group" groupAttribute
  | permissions : StandardAttribute .posix "permissions" permissionsAttribute
  | flag (flag : DosFlag) : StandardAttribute .dos flag.name flagAttribute

namespace Provider

lemma standard_get?_eq_some_iff {form : ViewForm} {inherits : List String}
    {attributes : List (String × AttributeSpec)} {spec : AttributeSpec}
    (nodup : (attributes.map Prod.fst).Nodup) :
    (standard form view inherits attributes).attributes.get? name = some spec ↔
      (name, spec) ∈ attributes := by
  rw [Table.get?_eq_some_iff, standard, Table.entries_ofList nodup]

lemma get?_time (named : name ∈ timeNames) : basic.attributes.get? name = some timeAttribute := by
  simp only [timeNames, List.mem_cons, List.not_mem_nil, or_false] at named
  rcases named with rfl | rfl | rfl <;> rfl

lemma get?_flag (flag : DosFlag) : dos.attributes.get? flag.name = some flagAttribute := by
  cases flag <;> rfl

/-- **The attributes of the standard views**, one by one. -/
lemma standardAttribute_of_mem_catalog {p : Provider} {spec : AttributeSpec} (hp : p ∈ catalog)
    (declared : p.attributes.get? name = some spec) : StandardAttribute p name spec := by
  simp only [catalog, List.mem_cons, List.not_mem_nil, or_false] at hp
  rcases hp with rfl | rfl | rfl | rfl
  · have hm := (standard_get?_eq_some_iff (by decide)).1 declared
    simp only [List.mem_cons, Prod.mk.injEq, List.not_mem_nil, or_false] at hm
    rcases hm with ⟨rfl, rfl⟩ | ⟨rfl, rfl⟩ | ⟨rfl, rfl⟩ | ⟨rfl, rfl⟩ | ⟨rfl, rfl⟩ | ⟨rfl, rfl⟩ |
      ⟨rfl, rfl⟩ | ⟨rfl, rfl⟩ | ⟨rfl, rfl⟩
    · exact .time (by decide)
    · exact .time (by decide)
    · exact .time (by decide)
    all_goals exact .fact _ (by decide)
  · have hm := (standard_get?_eq_some_iff (by decide)).1 declared
    simp only [List.mem_cons, Prod.mk.injEq, List.not_mem_nil, or_false] at hm
    obtain ⟨rfl, rfl⟩ := hm
    exact .owner
  · have hm := (standard_get?_eq_some_iff (by decide)).1 declared
    simp only [List.mem_cons, Prod.mk.injEq, List.not_mem_nil, or_false] at hm
    rcases hm with ⟨rfl, rfl⟩ | ⟨rfl, rfl⟩
    · exact .group
    · exact .permissions
  · have hm := (standard_get?_eq_some_iff (by decide)).1 declared
    simp only [List.mem_cons, Prod.mk.injEq, List.not_mem_nil, or_false] at hm
    rcases hm with ⟨rfl, rfl⟩ | ⟨rfl, rfl⟩ | ⟨rfl, rfl⟩ | ⟨rfl, rfl⟩
    · exact .flag .readonly
    · exact .flag .hidden
    · exact .flag .archive
    · exact .flag .system

/-- **The standard attributes**: each can be set and has one stored form, or it is a fact of the
node. -/
lemma yields_or_fact_of_mem_catalog {p : Provider} {spec : AttributeSpec} (hp : p ∈ catalog)
    (declared : p.attributes.get? name = some spec) :
    (spec.settable = true ∧ spec.Yields (StoredForm (p.qualified name))) ∨
      ∃ fact, spec = factAttribute fact := by
  cases standardAttribute_of_mem_catalog hp declared with
  | time named => exact Or.inl ⟨rfl, yields_timeAttribute named⟩
  | fact fact => exact Or.inr ⟨fact, rfl⟩
  | owner => exact Or.inl ⟨rfl, yields_ownerAttribute⟩
  | group => exact Or.inl ⟨rfl, yields_groupAttribute⟩
  | permissions => exact Or.inl ⟨rfl, yields_permissionsAttribute⟩
  | flag flag => exact Or.inl ⟨rfl, yields_flagAttribute flag⟩

lemma yields_of_mem_catalog {p : Provider} {spec : AttributeSpec} (hp : p ∈ catalog)
    (declared : p.attributes.get? name = some spec) (settable : spec.settable = true) :
    spec.Yields (StoredForm (p.qualified name)) := by
  rcases yields_or_fact_of_mem_catalog hp declared with ⟨-, h⟩ | ⟨fact, rfl⟩
  · exact h
  · cases settable

end Provider

end AttributeViews
