import AttributeViews.Proofs.Config
import AttributeViews.Proofs.Document
import Mathlib.Tactic.Common

/-!
# Unknown options

The warning about unknown options lists what is left of a document when the two known keys are taken
out, all the way down to what is no table.  Every such item is listed once, by the keys that lead to
it.  An empty table is a table and holds nothing, so it is not listed, and keys without characters
at the front of a name leave no point behind.

* `Value.At` — what the tables of a value lead to, key by key.
* `Config.itemPlaces` — the places in a value that are no tables; **`Config.mem_itemPlaces_iff`**,
  **`Config.nodup_itemPlaces`** — all of them, each once.
* `Config.accessor` — the name of a place; **`Config.entryNames_eq`** — the names that are listed.
* **`Config.unknown_options_named`** — the records of a configuration that is accepted.
-/

namespace AttributeViews

variable {v w : Value} {place : List String} {key : String}

namespace Value

/-- What is reached in a value if its tables are opened by one key after the other. -/
inductive At : Value → List String → Value → Prop
  | here (v : Value) : At v [] v
  | under {entries : List (Value × Value)} {key : String} {inner v : Value} {place : List String}
      (mem : (.text key, inner) ∈ entries) (found : At inner place v) :
      At (.dict entries) (key :: place) v

lemma at_nil_iff : At v [] w ↔ w = v := by
  constructor
  · intro h
    cases h
    rfl
  · rintro rfl
    exact .here _

lemma at_named_iff {entries : List (String × Value)} :
    At (.dict (named entries)) (key :: place) w ↔
      ∃ inner, (key, inner) ∈ entries ∧ At inner place w := by
  have hmem : ∀ {inner}, (text key, inner) ∈ named entries ↔ (key, inner) ∈ entries := by
    simp [named]
  constructor
  · intro h
    cases h with
    | under mem found => exact ⟨_, hmem.1 mem, found⟩
  · rintro ⟨inner, mem, found⟩
    exact .under (hmem.2 mem) found

/-- A value without empty tables has something else in it. -/
lemma Keyed.exists_at (h : v.Keyed) (full : ∀ place, ¬ v.At place (.dict [])) :
    ∃ place w, v.At place w ∧ w.isTable = false := by
  induction h with
  | single hs => exact ⟨[], _, .here _, hs⟩
  | table _ inner ih =>
      rename_i entries _
      rcases entries with _ | ⟨⟨key, first⟩, rest⟩
      · exact absurd (.here _) (full [])
      · obtain ⟨place, w, found, hw⟩ := ih (key, first) List.mem_cons_self fun place empty =>
          full (key :: place) (at_named_iff.2 ⟨first, List.mem_cons_self, empty⟩)
        exact ⟨key :: place, w, at_named_iff.2 ⟨first, List.mem_cons_self, found⟩, hw⟩

end Value

namespace Config

/-! ## Places -/

mutual
/-- The places in a value that are no tables, the last ones first. -/
def itemPlaces : Value → List (List String)
  | .dict entries => entryPlaces entries
  | _ => [[]]

/-- The same for the items of a table. -/
def entryPlaces : List (Value × Value) → List (List String)
  | [] => []
  | (key, value) :: rest =>
      entryPlaces rest ++ (itemPlaces value).map (key.text?.getD "" :: ·)
end

lemma itemPlaces_of_isTable (h : v.isTable = false) : itemPlaces v = [[]] := by
  cases v with
  | dict entries => cases h
  | _ => rfl

lemma itemPlaces_named (entries : List (String × Value)) :
    itemPlaces (.dict (Value.named entries))
      = entries.reverse.flatMap fun e => (itemPlaces e.2).map (e.1 :: ·) := by
  rw [itemPlaces]
  induction entries with
  | nil => rfl
  | cons e rest ih =>
      rw [List.reverse_cons, List.flatMap_append, List.flatMap_singleton, ← ih]
      rfl

/-- **Every item that is no table** has its place, and nothing else has one. -/
lemma mem_itemPlaces_iff (h : v.Keyed) :
    place ∈ itemPlaces v ↔ ∃ w, v.At place w ∧ w.isTable = false := by
  induction h generalizing place with
  | single hs =>
      rw [itemPlaces_of_isTable hs, List.mem_singleton]
      constructor
      · rintro rfl
        exact ⟨_, .here _, hs⟩
      · rintro ⟨w, found, -⟩
        cases found with
        | here => rfl
        | under _ _ => cases hs
  | table _ _ ih =>
      rename_i entries _ _
      have hcons : ∀ key place, key :: place ∈ itemPlaces (.dict (Value.named entries)) ↔
          ∃ inner, (key, inner) ∈ entries ∧ place ∈ itemPlaces inner := by
        intro key place
        rw [itemPlaces_named]
        simp [List.mem_flatMap, List.mem_map]
      have hnil : [] ∉ itemPlaces (.dict (Value.named entries)) := by
        rw [itemPlaces_named]
        simp [List.mem_flatMap, List.mem_map]
      rcases place with _ | ⟨key, place⟩
      · refine iff_of_false hnil ?_
        rintro ⟨w, found, hw⟩
        rw [Value.at_nil_iff.1 found] at hw
        cases hw
      · simp only [hcons, Value.at_named_iff]
        constructor
        · rintro ⟨inner, mem, hplace⟩
          obtain ⟨w, found, hw⟩ := (ih _ mem).1 hplace
          exact ⟨w, ⟨inner, mem, found⟩, hw⟩
        · rintro ⟨w, ⟨inner, mem, found⟩, hw⟩
          exact ⟨inner, mem, (ih _ mem).2 ⟨w, found, hw⟩⟩

/-- **No place is listed twice**: two entries of a table differ in their keys. -/
lemma nodup_itemPlaces (h : v.Keyed) : (itemPlaces v).Nodup := by
  induction h with
  | single hs =>
      rw [itemPlaces_of_isTable hs]
      exact List.nodup_singleton _
  | table nodup _ ih =>
      rename_i entries _
      rw [itemPlaces_named, List.nodup_flatMap]
      have distinct : entries.reverse.Pairwise fun e e' => e.1 ≠ e'.1 :=
        List.pairwise_reverse.2 ((List.pairwise_map.1 nodup).imp Ne.symm)
      refine ⟨fun e he => (ih e (List.mem_reverse.1 he)).map (List.cons_injective), ?_⟩
      refine distinct.imp fun hne place hplace hplace' => hne ?_
      obtain ⟨_, -, rfl⟩ := List.mem_map.1 hplace
      obtain ⟨_, -, hkey⟩ := List.mem_map.1 hplace'
      exact (List.cons.inj hkey).1.symm

/-! ## Names -/

/-- The name of a place: its keys, joined by points from the first one on that has characters. -/
def accessor (place : List String) : String := ".".intercalate (place.dropWhile (· = ""))

lemma foldl_below {table : String} (hne : table ≠ "") (place : List String) :
    place.foldl below table = ".".intercalate (table :: place) := by
  induction place generalizing table with
  | nil => rfl
  | cons key place ih =>
      have hbelow : below table key = table ++ "." ++ key := if_neg hne
      have hne' : table ++ "." ++ key ≠ "" := by
        intro h
        have hlength := congrArg String.length h
        simp at hlength
      rw [List.foldl_cons, hbelow, ih hne']
      rfl

lemma foldl_below_empty (place : List String) : place.foldl below "" = accessor place := by
  induction place with
  | nil => rfl
  | cons key place ih =>
      rw [List.foldl_cons, below, if_pos rfl, accessor]
      by_cases hk : key = ""
      · rw [hk, ih, accessor, List.dropWhile_cons_of_pos (by simp)]
      · rw [foldl_below hk, List.dropWhile_cons_of_neg (by simpa using hk)]

mutual
lemma itemNames_eq (name : String) : ∀ v : Value,
    itemNames name v = (itemPlaces v).map fun place => place.foldl below name
  | .dict entries => by
      rw [itemNames, itemPlaces, entryNames_eq name entries]
  | .null | .bool _ | .int _ | .float _ | .text _ | .bytes _ | .list _ | .tuple _ | .set _
  | .frozenset _ | .keys _ | .permission _ | .permissions _ | .principal _ | .moment _ | .date _
  | .time _ | .object .. => rfl

/-- **The names that are listed** are those of the places, each put together on the way down. -/
lemma entryNames_eq (table : String) : ∀ entries : List (Value × Value),
    entryNames table entries = (entryPlaces entries).map fun place => place.foldl below table
  | [] => rfl
  | (key, value) :: rest => by
      rw [entryNames, entryPlaces, entryNames_eq table rest, itemNames_eq _ value, List.map_append,
        List.map_map]
      rfl
end

/-- The name of a place is never longer than its keys joined by points. -/
lemma length_accessor_le (place : List String) :
    (accessor place).length ≤ (".".intercalate place).length := by
  induction place with
  | nil => exact le_rfl
  | cons key place ih =>
      by_cases hk : key = ""
      · rw [accessor, List.dropWhile_cons_of_pos (by simpa using hk), ← accessor]
        refine ih.trans ?_
        rcases place with _ | ⟨next, rest⟩
        · exact Nat.zero_le _
        · rw [String.intercalate_cons_cons]
          simp only [String.length_append]
          omega
      · rw [accessor, List.dropWhile_cons_of_neg (by simpa using hk)]

/-- A name has a point between any two keys, except behind keys without characters in front. -/
lemma accessor_eq_intercalate_iff :
    accessor place = ".".intercalate place ↔ place.length ≤ 1 ∨ place.head? ≠ some "" := by
  rcases place with _ | ⟨key, _ | ⟨next, rest⟩⟩
  · exact iff_of_true rfl (Or.inl (Nat.zero_le 1))
  · refine iff_of_true ?_ (Or.inl le_rfl)
    by_cases hk : key = ""
    · rw [hk]
      rfl
    · rw [accessor, List.dropWhile_cons_of_neg (by simpa using hk)]
  · by_cases hk : key = ""
    · subst hk
      refine iff_of_false (fun h => ?_) (by simp)
      have hlength := congrArg String.length h
      have hle := length_accessor_le (next :: rest)
      rw [accessor, List.dropWhile_cons_of_pos (by simp), ← accessor,
        String.intercalate_cons_cons] at hlength
      simp only [String.length_append] at hlength
      have hpoint : ".".length = 1 := rfl
      omega
    · refine iff_of_true ?_ (Or.inr (by simpa using hk))
      rw [accessor, List.dropWhile_cons_of_neg (by simpa using hk)]

/-! ## The warning -/

variable {document : Table String Value} {path text : String} {now : Moment} {c : Config}

lemma mem_unknownOptions_iff :
    (.text key, v) ∈ unknownOptions document ↔
      document.get? key = some v ∧ key ≠ "attribute_views" ∧ key ≠ "default_attributes" := by
  simp [unknownOptions, Table.get?_eq_some_iff]

/-- What is left of a document has the keys of the document. -/
lemma keyed_unknownOptions (h : Value.Keyed (.dict (Value.named document.entries))) :
    Value.Keyed (.dict (unknownOptions document)) := by
  obtain ⟨nodup, inner⟩ := Value.keyed_dict_iff.1 h
  exact .table ((List.filter_sublist.map Prod.fst).nodup nodup)
    fun e he => inner e (List.mem_of_mem_filter he)

lemma records_ofDocument (accepted : (ofDocument path now document).result = .ok c) :
    (ofDocument path now document).records = c.registry.records ++ unknownRecords document := by
  rw [result_ofDocument] at accepted
  obtain ⟨views, hviews, accepted⟩ := bind_eq_ok_iff.1 accepted
  obtain ⟨defaults, hdefaults, accepted⟩ := bind_eq_ok_iff.1 accepted
  obtain ⟨u, valid, he⟩ := bind_eq_ok_iff.1 accepted
  obtain rfl := Except.ok.inj he
  have hvalidate : (validate path now ⟨views, defaults⟩).records
      = (registry ⟨views, defaults⟩).records := by
    rw [validate, Logged.bind_of_ok rfl]
    exact List.append_nil _
  have hoptions : (ofDocument path now document).records
      = (validate path now ⟨views, defaults⟩).records ++ (unknownRecords document ++ []) := by
    rw [ofDocument, hviews, hdefaults]
    rw [Logged.bind_of_ok rfl, Logged.bind_of_ok rfl, Logged.bind_of_ok valid, Logged.bind_of_ok rfl]
    rfl
  rw [hoptions, hvalidate, List.append_nil]

/-- **Unknown options are named.**  When a configuration is accepted, the records are those of
building its registry, and if the document has a key that is not known, one warning behind them.
The warning lists the places of all items below the unknown keys that are no tables, each of them
once, by their keys with points in between; there is no point behind keys without characters at the
front.  Empty tables are not listed, so an unknown key has a name in the warning if no empty table
is found under it. -/
theorem unknown_options_named (accepted : (parse path now (some text)).result = .ok c) :
    ∃ document, Document.parse (String.ofList (uniformBreaks text.toList)) = some document ∧
      (unknownOptions document = [] → (parse path now (some text)).records = c.registry.records) ∧
      (unknownOptions document ≠ [] → ∃ places : List (List String),
        (parse path now (some text)).records = c.registry.records ++
          [⟨.warning, "Unrecognized options found in configuration file: "
            ++ ", ".intercalate (places.map accessor)⟩] ∧
        places.Nodup ∧
        (∀ place, place ∈ places ↔
          ∃ v, (Value.dict (unknownOptions document)).At place v ∧ v.isTable = false) ∧
        (∀ place ∈ places, accessor place = ".".intercalate place ↔
          place.length ≤ 1 ∨ place.head? ≠ some "") ∧
        ∀ key v, document.get? key = some v → key ≠ "attribute_views" →
          key ≠ "default_attributes" → (∀ place, ¬ v.At place (.dict [])) →
            ∃ place ∈ places, place.head? = some key) := by
  cases hd : Document.parse (String.ofList (uniformBreaks text.toList)) with
  | none =>
      rw [parse_of_undecoded hd] at accepted
      cases accepted
  | some document =>
      rw [parse_of_decoded hd] at accepted ⊢
      have keyed := Document.keyed_parse hd
      have unknown := keyed_unknownOptions keyed
      refine ⟨document, rfl, fun hnil => ?_, fun hne => ?_⟩
      · rw [records_ofDocument accepted, unknownRecords, hnil]
        exact List.append_nil _
      · refine ⟨itemPlaces (.dict (unknownOptions document)), ?_, nodup_itemPlaces unknown,
          fun place => mem_itemPlaces_iff unknown, fun place _ => accessor_eq_intercalate_iff, ?_⟩
        · have hnames : entryNames "" (unknownOptions document)
              = (itemPlaces (.dict (unknownOptions document))).map accessor := by
            rw [entryNames_eq, itemPlaces]
            exact List.map_congr_left fun place _ => foldl_below_empty place
          rw [records_ofDocument accepted, unknownRecords, hnames]
          simp [hne]
        · intro key v hkey hviews hdefaults full
          have hv : v.Keyed :=
            (Value.keyed_dict_iff.1 keyed).2 (key, v) (Table.get?_eq_some_iff.1 hkey)
          obtain ⟨place, w, found, hw⟩ := hv.exists_at full
          have hmem := mem_unknownOptions_iff.2 ⟨hkey, hviews, hdefaults⟩
          exact ⟨key :: place, (mem_itemPlaces_iff unknown).2 ⟨w, .under hmem found, hw⟩, rfl⟩

/-- A document without known keys leaves the configuration as it is without a file. -/
lemma ofDocument_unknown (views : document.get? "attribute_views" = none)
    (defaults : document.get? "default_attributes" = none) :
    (ofDocument path now document).result = .ok standard := by
  have valid : (validate path now standard).result = .ok () :=
    validate_eq_ok_iff.2 ⟨_, _, registry_standard, rfl⟩
  rw [result_ofDocument, views, defaults]
  exact bind_eq_ok_iff.2 ⟨_, rfl, bind_eq_ok_iff.2 ⟨_, rfl, bind_eq_ok_iff.2 ⟨(), valid, rfl⟩⟩⟩

lemma records_registry_standard : standard.registry.records = [] := by
  rw [registry, Registry.ofViews, standard, standardViews, standardProviders_basic]
  rfl

/-- A document with an option and a section with another one. -/
def sectioned : Table String Value :=
  .ofList [("a", .int 1), ("b", .dict [(.text "c", .int 2)])]

/-- Both options are listed, the second one behind the name of its section. -/
theorem unknown_options_named_sectioned :
    ∃ places : List (List String),
      (parse "facetfs.toml" default (some "a=1\n[b]\nc=2\n")).records
        = [⟨.warning, "Unrecognized options found in configuration file: "
          ++ ", ".intercalate (places.map accessor)⟩] ∧
      places.Nodup ∧ ["a"] ∈ places ∧ ["b", "c"] ∈ places ∧ accessor ["b", "c"] = "b.c" := by
  have decoded : Document.parse (String.ofList (uniformBreaks "a=1\n[b]\nc=2\n".toList))
      = some sectioned := by
    have chars : "a=1\n[b]\nc=2\n".toList = _ := String.toList_ofList
    rw [chars]
    exact (Document.parse_ofList 12 rfl).trans rfl
  have accepted : (parse "facetfs.toml" default (some "a=1\n[b]\nc=2\n")).result = .ok standard := by
    rw [parse_of_decoded decoded]
    exact ofDocument_unknown rfl rfl
  obtain ⟨document, hd, -, warned⟩ := unknown_options_named accepted
  obtain rfl := Option.some.inj (decoded.symm.trans hd)
  have ha : (.text "a", .int 1) ∈ unknownOptions sectioned :=
    mem_unknownOptions_iff.2 ⟨rfl, by decide, by decide⟩
  have hb : (.text "b", .dict [(.text "c", .int 2)]) ∈ unknownOptions sectioned :=
    mem_unknownOptions_iff.2 ⟨rfl, by decide, by decide⟩
  obtain ⟨places, hrecords, hnodup, hplaces, -⟩ := warned (List.ne_nil_of_mem ha)
  rw [records_registry_standard] at hrecords
  exact ⟨places, hrecords, hnodup, (hplaces ["a"]).2 ⟨.int 1, .under ha (.here _), rfl⟩,
    (hplaces ["b", "c"]).2 ⟨.int 2, .under hb (.under List.mem_cons_self (.here _)), rfl⟩, rfl⟩

/-- A section without options is unknown, and the warning about it names nothing. -/
theorem empty_section_unnamed :
    ∃ document c, Document.parse (String.ofList (uniformBreaks "[cache]\n".toList)) = some document ∧
      document.get? "cache" = some (.dict []) ∧
      (parse "facetfs.toml" default (some "[cache]\n")).result = .ok c ∧
      (parse "facetfs.toml" default (some "[cache]\n")).records
        = [⟨.warning, "Unrecognized options found in configuration file: "⟩] := by
  have decoded : Document.parse (String.ofList (uniformBreaks "[cache]\n".toList))
      = some (.ofList [("cache", .dict [])]) := by
    have chars : "[cache]\n".toList = _ := String.toList_ofList
    rw [chars]
    exact (Document.parse_ofList 8 rfl).trans rfl
  have accepted : (ofDocument "facetfs.toml" default (.ofList [("cache", .dict [])])).result
      = .ok standard := ofDocument_unknown rfl rfl
  refine ⟨_, standard, decoded, rfl, ?_, ?_⟩
  · rw [parse_of_decoded decoded, accepted]
  · rw [parse_of_decoded decoded, records_ofDocument accepted, records_registry_standard]
    rfl

end Config

end AttributeViews
