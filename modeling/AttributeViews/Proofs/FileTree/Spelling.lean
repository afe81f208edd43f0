import AttributeViews.FileTree.Access
import AttributeViews.Proofs.FileTree.MovesInARow
import Mathlib.Data.List.Basic

/-!
# Spellings of a path

A path may be written with slashes in front or without, with slashes behind it, with several slashes
for one and with dots between them.  What counts are its components, except for a text that begins
with exactly two slashes: it is hung below the root of two slashes, where nothing ever stands.

* `Path.components` — what a text has between its slashes; `Path.DoublySlashed` — the exception.
* **`Path.ofText_eq_iff`** — two texts are read as one path exactly if they agree in both.
* `FileTree.TreatsAlike` — every operation gives the same answer for two texts, and the same tree.
* `FileTree.Deserted` — every operation is refused for a text.
* **`Session.spellings_alike`** — which of the two it is, in every tree with a history.
-/

namespace AttributeViews

lemma Text.pieceChars_eq_splitOn (mark : Char) (cs : List Char) :
    Text.pieceChars mark cs = cs.splitOn mark := by
  induction cs with
  | nil => rfl
  | cons c rest ih =>
      have hsplit : (c :: rest).splitOn mark
          = if c = mark then [] :: rest.splitOn mark
            else (rest.splitOn mark).modifyHead (List.cons c) := by
        simp [List.splitOn, List.splitOnP_cons_eq_if_modifyHead]
      have hne : rest.splitOn mark ≠ [] := List.splitOnP_ne_nil (· == mark) rest
      obtain ⟨part, parts, hparts⟩ := List.exists_cons_of_ne_nil hne
      rw [pieceChars, ih, hsplit, hparts]
      rfl

namespace Path

variable {text other : String}

/-- The components of a text: the parts between its slashes, except for empty ones and dots. -/
def components (text : String) : List (List Char) :=
  (text.toList.splitOn '/').filter fun part => part ≠ [] ∧ part ≠ ['.']

/-- A text begins with two slashes and not with three. -/
def DoublySlashed (text : String) : Prop :=
  ∃ rest, text.toList = '/' :: '/' :: rest ∧ rest.head? ≠ some '/'

/-- Texts that are joined by a slash have their components one after the other. -/
lemma components_join (text other : String) :
    components (text ++ "/" ++ other) = components text ++ components other := by
  have hsplit : (text ++ "/" ++ other).toList.splitOn '/'
      = text.toList.splitOn '/' ++ other.toList.splitOn '/' := by
    simp only [String.toList_append, List.append_assoc]
    exact List.splitOnP_append_cons _ _ (beq_self_eq_true '/')
  rw [components, hsplit, List.filter_append]
  rfl

/-- Slashes in front and behind and repeated ones make no difference. -/
lemma components_slashes (text other : String) :
    components ("/" ++ text) = components text ∧ components (text ++ "/") = components text ∧
      components (text ++ "//" ++ other) = components (text ++ "/" ++ other) := by
  have hnil : components "" = [] := rfl
  have hfront := components_join "" text
  have hback := components_join text ""
  have hdouble := components_join (text ++ "/") other
  rw [hnil, List.nil_append, String.empty_append] at hfront
  rw [hnil, List.append_nil, String.append_empty] at hback
  have hslashes : text ++ "/" ++ "/" = text ++ "//" := String.append_assoc
  rw [hback, ← components_join, hslashes] at hdouble
  exact ⟨hfront, hback, hdouble⟩

/-- The names of a path are the components of its text. -/
lemma names_ofText (text : String) :
    (ofText text).names = (components text).map String.ofList := by
  have hname : (isName ∘ String.ofList) = fun part => decide (part ≠ [] ∧ part ≠ ['.']) := by
    funext part
    have hempty : String.ofList part = "" ↔ part = [] := String.ofList_inj
    have hdot : String.ofList part = "." ↔ part = ['.'] := String.ofList_inj
    simp [isName, hempty, hdot]
  rw [ofText, Text.pieces, Text.pieceChars_eq_splitOn, List.filter_map, hname]
  rfl

lemma startsDouble_iff {cs : List Char} :
    startsDouble cs = true ↔ ∃ rest, cs = '/' :: '/' :: rest ∧ rest.head? ≠ some '/' := by
  fun_cases startsDouble cs with
  | case1 rest => simp
  | case2 rest hrest =>
      refine iff_of_true rfl ⟨rest, rfl, fun hhead => ?_⟩
      obtain ⟨rest', rfl⟩ := List.head?_eq_some_iff.1 hhead
      exact hrest rest' rfl
  | case3 _ _ hcs =>
      refine iff_of_false Bool.false_ne_true ?_
      rintro ⟨rest, rfl, -⟩
      exact hcs rest rfl

lemma doubleRoot_ofText : (ofText text).doubleRoot = true ↔ DoublySlashed text := startsDouble_iff

/-- **Two texts are read as one path** exactly if they have the same components and both of them or
neither begin with two slashes. -/
lemma ofText_eq_iff :
    ofText text = ofText other ↔
      components text = components other ∧ (DoublySlashed text ↔ DoublySlashed other) := by
  have hmap : (components text).map String.ofList = (components other).map String.ofList ↔
      components text = components other :=
    (List.map_injective_iff.2 fun _ _ => String.ofList_inj.1).eq_iff
  have hparts : ∀ p q : Path, p = q ↔ p.names = q.names ∧ p.doubleRoot = q.doubleRoot := by
    rintro ⟨_, _⟩ ⟨_, _⟩
    rw [Path.mk.injEq, and_comm]
  rw [hparts, names_ofText, names_ofText, hmap, ← doubleRoot_ofText, ← doubleRoot_ofText,
    Bool.coe_iff_coe]

end Path

namespace FileTree

variable {t : FileTree} {text other : String} {p q : Path}

/-- Every operation gives the same answer for two texts, leaves the same records and ends in the
same tree. -/
structure TreatsAlike (t : FileTree) (text other : String) : Prop where
  contains : t.contains (.ofText text) = t.contains (.ofText other)
  node : t.node (.ofText text) = t.node (.ofText other)
  create : ∀ now kind attributes overrides supply,
    t.createNext now kind (.ofText text) attributes overrides supply
      = t.createNext now kind (.ofText other) attributes overrides supply
  moveFrom : ∀ target,
    t.moveRecorded (.ofText text) (.ofText target) = t.moveRecorded (.ofText other) (.ofText target)
  moveTo : ∀ source,
    t.moveRecorded (.ofText source) (.ofText text) = t.moveRecorded (.ofText source) (.ofText other)
  delete : t.deleteRecorded (.ofText text) = t.deleteRecorded (.ofText other)
  getAttribute : ∀ address,
    t.getAttribute (.ofText text) address = t.getAttribute (.ofText other) address
  setAttribute : ∀ address value,
    t.setAttribute (.ofText text) address value = t.setAttribute (.ofText other) address value
  attributeMap : ∀ request,
    t.attributeMap (.ofText text) request = t.attributeMap (.ofText other) request
  readAttributes : ∀ view,
    t.readAttributes (.ofText text) view = t.readAttributes (.ofText other) view
  getView : ∀ view serial,
    t.getView (.ofText text) view serial = t.getView (.ofText other) view serial

lemma treatsAlike_of_ofText_eq (h : Path.ofText text = Path.ofText other) :
    t.TreatsAlike text other := by
  constructor <;> intros <;> rw [h]

/-- Every operation is refused for a text: nothing is there, and nothing can be put there. -/
structure Deserted (t : FileTree) (text : String) : Prop where
  contains : t.contains (.ofText text) = false
  node : t.node (.ofText text) = .error (.noSuchPath (Path.ofText text).toText)
  create : ∀ now kind attributes overrides supply,
    t.createNext now kind (.ofText text) attributes overrides supply
      = (supply, .lift (.error (.noParent (Path.ofText text).parent.toText)))
  moveFrom : ∀ target,
    t.moveRecorded (.ofText text) (.ofText target)
      = .lift (.error (.noSuchPath (Path.ofText text).toText))
  moveTo : ∀ source, t.moveRecorded (.ofText source) (.ofText text)
      = .lift (.error (if t.contains (.ofText source) = false then
            .noSuchPath (Path.ofText source).toText
          else if Path.ofText source = .root then .moveIntoItself (Path.ofText source).toText
          else .noParent (Path.ofText text).parent.toText))
  delete : t.deleteRecorded (.ofText text)
      = .lift (.error (.noSuchPath (Path.ofText text).toText))
  getAttribute : ∀ address, t.getAttribute (.ofText text) address
      = .lift (.error (.noSuchPath (Path.ofText text).toText))
  setAttribute : ∀ address value, t.setAttribute (.ofText text) address value
      = .lift (.error (.noSuchPath (Path.ofText text).toText))
  attributeMap : ∀ request, t.attributeMap (.ofText text) request
      = .error (.noSuchPath (Path.ofText text).toText)
  readAttributes : ∀ view, t.readAttributes (.ofText text) view
      = .error (.noSuchPath (Path.ofText text).toText)
  getView : ∀ view serial, t.getView (.ofText text) view serial
      = (.start serial, .error (.noSuchPath (Path.ofText text).toText))

/-- Below the root of two slashes nothing is stored. -/
lemma UnderRoot.get?_of_doubleRoot (h : t.UnderRoot) (double : p.doubleRoot = true) :
    t.paths.get? p = none := by
  cases hp : t.paths.get? p with
  | none => rfl
  | some id =>
      obtain ⟨names, rfl⟩ := Path.within_iff.1 (h p id hp)
      cases double

/-- What is asked for at a path where nothing is stored. -/
lemma node_of_get? (h : t.paths.get? p = none) : t.node p = .error (.noSuchPath p.toText) := by
  rw [FileTree.node, h]
  rfl

lemma checkVacant_of_get? (h : t.paths.get? p = none) (parent : t.paths.get? p.parent = none) :
    t.checkVacant p = .error (.noParent p.parent.toText) := by
  rw [checkVacant, contains_eq_false_iff.2 h, checkParent, parent]
  rfl

lemma moveRecorded_of_checkMove {e : Error} (h : t.checkMove p q = .error e) :
    t.moveRecorded p q = .lift (.error e) := by
  rw [moveRecorded, FileTree.move, h]
  rfl

/-- **A text that begins with two slashes is deserted.** -/
lemma UnderRoot.deserted (h : t.UnderRoot) (double : Path.DoublySlashed text) :
    t.Deserted text := by
  have hdouble := Path.doubleRoot_ofText.2 double
  generalize hp : Path.ofText text = p at hdouble
  have hget : t.paths.get? p = none := h.get?_of_doubleRoot hdouble
  have hcontains := contains_eq_false_iff.2 hget
  have hnode := node_of_get? hget
  have hroot : p ≠ .root := by
    rintro rfl
    cases hdouble
  have hvacant := checkVacant_of_get? hget (h.get?_of_doubleRoot (p := p.parent) hdouble)
  constructor <;> rw [hp]
  case contains => exact hcontains
  case node => exact hnode
  case create =>
    intro now kind attributes overrides supply
    rw [createNext_eq, hvacant]
  case moveFrom =>
    intro target
    refine moveRecorded_of_checkMove ?_
    rw [checkMove, hcontains]
    rfl
  case moveTo =>
    intro source
    generalize Path.ofText source = q
    refine moveRecorded_of_checkMove ?_
    rw [checkMove]
    cases hq : t.contains q with
    | false => rfl
    | true =>
        have outside : p.within q = false := by
          refine Bool.eq_false_iff.2 fun hw => ?_
          obtain ⟨id, hid⟩ := Table.contains_eq_true_iff.1 hq
          obtain ⟨names, rfl⟩ := Path.within_iff.1 (Path.within_trans hw (h q id hid))
          cases hdouble
        by_cases hr : q = .root
        · simp [hr]
        · simp [hr, outside, hvacant]
  case delete =>
    rw [deleteRecorded, FileTree.delete, if_neg hroot, hget]
    rfl
  case getAttribute =>
    intro address
    rw [FileTree.getAttribute, hnode]
    rfl
  case setAttribute =>
    intro address value
    rw [FileTree.setAttribute, hnode]
    rfl
  case attributeMap =>
    intro request
    rw [FileTree.attributeMap, hnode]
    rfl
  case readAttributes =>
    intro view
    rw [FileTree.readAttributes, hnode]
    rfl
  case getView =>
    intro view serial
    rw [FileTree.getView, lookupAt, hnode]
    rfl

/-- And it is reported by another name than a text with the same components that does not. -/
lemma UnderRoot.node_ne (h : t.UnderRoot) (same : Path.components text = Path.components other)
    (double : Path.DoublySlashed text) (single : ¬ Path.DoublySlashed other) :
    t.node (.ofText text) ≠ t.node (.ofText other) := by
  intro hnode
  rw [(h.deserted double).node, FileTree.node] at hnode
  split at hnode
  · cases hnode
  · have htext : (Path.ofText text).toText = (Path.ofText other).toText :=
      Error.noSuchPath.inj (Except.error.inj hnode)
    have hsingle : (Path.ofText other).doubleRoot = false :=
      Bool.eq_false_iff.2 (mt Path.doubleRoot_ofText.1 single)
    rw [Path.toText, Path.toText, Path.rootText, Path.rootText, Path.names_ofText,
      Path.names_ofText, same, if_pos (Path.doubleRoot_ofText.2 double), hsingle] at htext
    have hlength := congrArg String.length htext
    simp only [String.length_append, Nat.add_right_cancel_iff] at hlength
    cases hlength

end FileTree

namespace Session

/-- **A path may be spelled in any way.**  Slashes in front and behind and repeated ones add nothing
to the components of a text.  In a tree with any history, every operation treats two texts with the
same components alike exactly if both of them or neither begin with two slashes and not with three.
A text that does is deserted: nothing is found there, and nothing can be put there. -/
theorem spellings_alike {registry : Registry} {now : Moment} {supply : IdSupply} {s present : Session}
    (distinct : supply.Distinct) (started : start registry now supply = .ok s)
    (history : List Operation) (reached : s.run history = present) :
    (∀ text other, Path.components ("/" ++ text) = Path.components text ∧
      Path.components (text ++ "/") = Path.components text ∧
      Path.components (text ++ "//" ++ other) = Path.components (text ++ "/" ++ other)) ∧
    (∀ text other, Path.components text = Path.components other →
      (present.tree.TreatsAlike text other ↔
        (Path.DoublySlashed text ↔ Path.DoublySlashed other))) ∧
    ∀ text, Path.DoublySlashed text → present.tree.Deserted text := by
  have underRoot : present.tree.UnderRoot := by
    rw [← reached]
    exact underRoot_run history (sound_start distinct started) (underRoot_start started)
  refine ⟨Path.components_slashes,
    fun text other same => ⟨fun alike => ⟨fun double => ?_, fun double => ?_⟩, fun both => ?_⟩,
    fun text => underRoot.deserted⟩
  · by_contra single
    exact underRoot.node_ne same double single alike.node
  · by_contra single
    exact underRoot.node_ne same.symm double single alike.node.symm
  · exact FileTree.treatsAlike_of_ofText_eq (Path.ofText_eq_iff.2 ⟨same, both⟩)

/-- A file in a directory is found by a text with a dot in front and a slash behind it as well as by
one with three slashes in front; by one with two slashes in front it is not. -/
theorem spellings_alike_tally :
    ∃ s present, start ⟨[.basic], .empty⟩ default .tally = .ok s ∧
      s.run [.create default .directory "a" [] .empty,
        .create default .file "/a/x" [] .empty] = present ∧
      present.tree.TreatsAlike "./a/x/" "///a//x" ∧ ¬ present.tree.TreatsAlike "/a/x" "//a/x" ∧
      present.tree.contains (.ofText "./a/x/") = true ∧ present.tree.Deserted "//a/x" := by
  have started : start ⟨[.basic], .empty⟩ default .tally = .ok _ := rfl
  obtain ⟨-, alike, deserted⟩ := spellings_alike IdSupply.distinct_tally started
    [.create default .directory "a" [] .empty, .create default .file "/a/x" [] .empty] rfl
  have double : Path.DoublySlashed "//a/x" := ⟨['a', '/', 'x'], by decide, by decide⟩
  have single : ∀ text, Path.startsDouble text.toList = false → ¬ Path.DoublySlashed text :=
    fun text h double => absurd (Path.startsDouble_iff.2 double) (Bool.eq_false_iff.1 h)
  refine ⟨_, _, started, rfl, ?_, ?_, rfl, deserted _ double⟩
  · exact (alike "./a/x/" "///a//x" (by decide)).2
      (iff_of_false (single _ (by decide)) (single _ (by decide)))
  · rw [alike "/a/x" "//a/x" (by decide)]
    exact fun both => single _ (by decide) (both.2 double)

/-- The texts of a file with one slash and with two slashes in front have the same components, and
only the first one is found. -/
theorem doubly_slashed_unfound :
    ∃ s, start ⟨[.basic], .empty⟩ default .tally = .ok s ∧
      Path.components "/a.txt" = Path.components "//a.txt" ∧
      (s.run [.create default .file "a.txt" [] .empty]).tree.contains (.ofText "/a.txt") = true ∧
      (s.run [.create default .file "a.txt" [] .empty]).tree.contains (.ofText "//a.txt") = false :=
  ⟨_, rfl, by decide, rfl, rfl⟩

end Session

end AttributeViews
