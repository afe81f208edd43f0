import AttributeViews.Disk
import AttributeViews.Proofs.Answers
import Mathlib.Data.List.Basic

/-!
# Writing over a file

A path that leads to a text file still does when the file has been written over.  All places on the
way are folders, so the place of the file is none of them, and there is no folder left to be made
before the file is written.

* `Disk.Rooted` — paths start from folders.
* `Disk.exists_folder_of_follow` — what stands in front of the last name is a folder.
* `Disk.follow_put`, `Disk.makeFolders_of_follow` — the way to a place after a file is written over,
  and the way to a folder before.
* **`Disk.write_of_read`** — a file is written over, and what is read then.
-/

namespace AttributeViews.Disk

variable {d : Disk} {place target written : Place} {names : List String} {name text : String}

/-- A path starts from a folder, be it the root or the working folder. -/
structure Rooted (d : Disk) : Prop where
  root : d.entry? [] = some .folder
  working : d.entry? d.working = some .folder

lemma Rooted.start (rooted : d.Rooted) (path : String) : d.entry? (d.start path) = some .folder := by
  rw [Disk.start]
  split_ifs
  · exact rooted.root
  · exact rooted.working

lemma entry?_put (d : Disk) (written place : Place) (entry : DiskEntry) :
    entry? (d.put written entry) place = if written = place then some entry else d.entry? place :=
  Table.get?_insert ..

/-! ## Following a path -/

/-- Only from a folder does a name lead on. -/
lemma follow_cons_eq_ok_iff :
    d.follow place (name :: names) = .ok target ↔
      d.entry? place = some .folder ∧ d.follow (step place name) names = .ok target := by
  rw [follow]
  cases d.entry? place with
  | none => simp
  | some entry => cases entry <;> simp

/-- In front of the last name stands a folder. -/
lemma exists_folder_of_follow (names : List String) :
    ∀ {place : Place}, d.follow place (names ++ [name]) = .ok target →
      ∃ folder, d.follow place names = .ok folder ∧ d.entry? folder = some .folder ∧
        target = step folder name := by
  induction names with
  | nil =>
      intro place h
      obtain ⟨folder, hrest⟩ := follow_cons_eq_ok_iff.1 h
      exact ⟨place, rfl, folder, (Except.ok.inj hrest).symm⟩
  | cons first rest ih =>
      intro place h
      obtain ⟨here, hrest⟩ := follow_cons_eq_ok_iff.1 h
      obtain ⟨folder, hfollow, hfolder, htarget⟩ := ih hrest
      exact ⟨folder, follow_cons_eq_ok_iff.2 ⟨here, hfollow⟩, hfolder, htarget⟩

/-- **Writing over a file changes no way**, for a way leads through folders only. -/
lemma follow_put (present : d.entry? written = some (.file text)) (entry : DiskEntry)
    (names : List String) :
    ∀ {place : Place}, d.follow place names = .ok target →
      (d.put written entry).follow place names = .ok target := by
  induction names with
  | nil => exact fun h => h
  | cons name rest ih =>
      intro place h
      obtain ⟨here, hrest⟩ := follow_cons_eq_ok_iff.1 h
      refine follow_cons_eq_ok_iff.2 ⟨?_, ih hrest⟩
      have hne : written ≠ place := by
        rintro rfl
        rw [here] at present
        cases present
      rw [entry?_put, if_neg hne, here]

/-- Where a way leads to a folder there is nothing to be made. -/
lemma makeFolders_of_follow (names : List String) :
    ∀ {place : Place}, d.follow place names = .ok target → d.entry? target = some .folder →
      d.makeFolders place names = (d, .ok target) := by
  have enter_folder : ∀ {place : Place}, d.entry? place = some .folder → d.enter place = .ok d := by
    intro place here
    rw [enter, here]
  induction names with
  | nil =>
      intro place h folder
      obtain rfl := Except.ok.inj (h : Except.ok place = .ok target)
      rw [makeFolders, enter_folder folder]
  | cons name rest ih =>
      intro place h folder
      obtain ⟨here, hrest⟩ := follow_cons_eq_ok_iff.1 h
      rw [makeFolders, enter_folder here]
      exact ih hrest folder

/-! ## Reading and writing -/

lemma read_eq_ok_iff {path : String} :
    d.read path = .ok text ↔
      ∃ place, d.follow (d.start path) (namesOf path) = .ok place ∧
        d.entry? place = some (.file text) := by
  rw [read, bind_eq_ok_iff]
  refine exists_congr fun place => and_congr_right fun _ => ?_
  cases d.entry? place with
  | none => simp
  | some entry => cases entry <;> simp

/-- **A file is written over**: the path leads to the new text, and paths still start from
folders. -/
lemma write_of_read {path : String} (rooted : d.Rooted) (h : d.read path = .ok text)
    (new : String) :
    ∃ d', d.write path new = (d', .ok ()) ∧ d'.read path = .ok new ∧ d'.Rooted := by
  obtain ⟨place, hfollow, hentry⟩ := read_eq_ok_iff.1 h
  have hfile : ∀ folder, d.entry? folder = some .folder → place ≠ folder := by
    rintro folder hfolder rfl
    rw [hentry] at hfolder
    cases hfolder
  rcases List.eq_nil_or_concat' (namesOf path) with hnames | ⟨front, last, hnames⟩
  · -- A path without names leads to the folder it starts from.
    rw [hnames] at hfollow
    exact absurd (Except.ok.inj hfollow).symm (hfile _ (rooted.start path))
  · rw [hnames] at hfollow
    obtain ⟨folder, hfront, hfolder, rfl⟩ := exists_folder_of_follow front hfollow
    refine ⟨d.put (step folder last) (.file new), ?_, ?_, ?_⟩
    · simp only [write, hnames, List.dropLast_concat, makeFolders_of_follow front hfront hfolder,
        List.getLast?_concat, Option.elim_some, hentry]
    · refine read_eq_ok_iff.2 ⟨step folder last, ?_, ?_⟩
      · rw [hnames]
        exact follow_put hentry _ _ hfollow
      · rw [entry?_put, if_pos rfl]
    · constructor
      · rw [entry?_put, if_neg (hfile _ rooted.root), rooted.root]
      · have hworking : (d.put (step folder last) (.file new)).working = d.working := rfl
        rw [hworking, entry?_put, if_neg (hfile _ rooted.working), rooted.working]

end AttributeViews.Disk
