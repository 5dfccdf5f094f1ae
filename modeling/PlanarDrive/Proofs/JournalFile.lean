import Mathlib
import PlanarDrive.Journal.Table
import PlanarDrive.Proofs.Fallible

/-!
# The file of a journal

A path that a file can be opened at leads through directories which are there. Opening it therefore
makes no directory and adds nothing, and text that is added to the file changes neither where a path
leads nor any other file. No file stands where a directory does, and none is named by dots.
-/

namespace PlanarDrive

namespace FileTree

theorem lookup_setText_of_ne {place other : Place} (h : other ≠ place) (text : String)
    (files : List (Place × String)) :
    (setText place text files).lookup other = files.lookup other := by
  have hne : (other == place) = false := beq_false_of_ne h
  induction files with
  | nil => simp [setText, List.lookup_cons, hne]
  | cons f rest ih =>
    obtain ⟨p, t⟩ := f
    by_cases hp : p = place
    · simp [setText, hp, List.lookup_cons, hne]
    · simp [setText, hp, List.lookup_cons, ih]

/-- Files and directories do not mix. -/
structure Sound (tree : FileTree) : Prop where
  apart : ∀ place, tree.isFile place = true → tree.isDirectory place = false
  named : ∀ around name, tree.isFile (around ++ [name]) = true → isDots name = false

variable {tree : FileTree}

theorem Sound.text?_eq_none (h : tree.Sound) {around : Place} {name : String}
    (hstands : isDots name = true ∨ tree.isDirectory (around ++ [name]) = true) :
    tree.text? (around ++ [name]) = none := by
  have hfile : tree.isFile (around ++ [name]) = false := by
    refine Bool.eq_false_iff.2 fun hfile => ?_
    rcases hstands with hdots | hdirectory
    · exact absurd (h.named _ _ hfile) (by simp [hdots])
    · exact absurd (h.apart _ hfile) (by simp [hdirectory])
  simpa [isFile] using hfile

/-- A step stays, leads out, or enters a directory that is there. -/
theorem step_ok_iff {place next : Place} {name : String} :
    tree.step place name = .ok next ↔ name = "." ∧ next = place ∨ name = ".." ∧ next = outer place ∨
      isDots name = false ∧ FilePath.isNameTooLong name = false ∧
        tree.isDirectory (place ++ [name]) = true ∧ next = place ++ [name] := by
  unfold step
  constructor
  · intro h
    split at h
    · next hdot => exact .inl ⟨hdot, (Except.ok.inj h).symm⟩
    · next hdot =>
      split at h
      · next hdots => exact .inr (.inl ⟨hdots, (Except.ok.inj h).symm⟩)
      · next hdots =>
        split at h
        · cases h
        · next hshort =>
          split at h
          · next hdirectory =>
            exact .inr (.inr ⟨by simp [isDots, hdot, hdots], by simpa using hshort, hdirectory,
              (Except.ok.inj h).symm⟩)
          · split at h <;> cases h
  · rintro (⟨rfl, rfl⟩ | ⟨rfl, rfl⟩ | ⟨hname, hshort, hdirectory, rfl⟩)
    · rfl
    · rfl
    · simp only [isDots, Bool.or_eq_false_iff, beq_eq_false_iff_ne] at hname
      rw [if_neg hname.1, if_neg hname.2, hshort, hdirectory]
      rfl

/-- Where a walk leads depends on the directories only. -/
theorem foldlM_step_update {names : List String} {place next : Place}
    (h : names.foldlM tree.step place = .ok next) (file : Place) (change : String → String) :
    names.foldlM (tree.update file change).step place = .ok next := by
  induction names generalizing place with
  | nil => exact h
  | cons name names ih =>
    rw [List.foldlM_cons] at h ⊢
    obtain ⟨middle, hstep, hrest⟩ := bind_ok h
    have hcases := step_ok_iff.1 hstep
    have hstep' : (tree.update file change).step place name = .ok middle := step_ok_iff.2 hcases
    rw [hstep']
    exact ih hrest

/-- A file can be opened where a walk ends, under a name that no directory has there. -/
structure Opens (tree : FileTree) (path : FilePath) (base around : Place) (name : String) :
    Prop where
  start : start path = .ok base
  walk : path.names.dropLast.foldlM tree.step base = .ok around
  last : path.names.getLast? = some name
  plain : isDots name = false
  opened : path.closed = false
  short : FilePath.isNameTooLong name = false
  free : tree.isDirectory (around ++ [name]) = false

theorem target_ok_iff {path : FilePath} {place : Place} :
    tree.target path = .ok place ↔
      ∃ base around name, tree.Opens path base around name ∧ place = around ++ [name] := by
  constructor
  · intro h
    obtain ⟨around, happroach, h⟩ := bind_ok h
    obtain ⟨base, hstart, hwalk⟩ := bind_ok happroach
    split at h
    · cases h
    · next name hlast =>
      split at h
      · cases h
      · next hplain =>
        split at h
        · cases h
        · next hshort =>
          split at h
          · cases h
          · next hfree =>
            cases h
            simp only [Bool.or_eq_true, not_or, Bool.not_eq_true] at hplain
            exact ⟨base, around, name, ⟨hstart, hwalk, hlast, hplain.1, hplain.2,
              by simpa using hshort, by simpa using hfree⟩, rfl⟩
  · rintro ⟨base, around, name, h, rfl⟩
    have happroach : tree.approach path = .ok around := by
      rw [approach, h.start]
      exact h.walk
    rw [target, happroach]
    simp [bind, Except.bind, h.last, h.plain, h.opened, h.short, h.free]

theorem target_append {path : FilePath} {place : Place} (h : tree.target path = .ok place)
    (file : Place) (text : String) : (tree.append file text).target path = .ok place := by
  obtain ⟨base, around, name, ho, rfl⟩ := target_ok_iff.1 h
  exact target_ok_iff.2
    ⟨base, around, name, { ho with walk := foldlM_step_update ho.walk _ _ }, rfl⟩

theorem Sound.append (h : tree.Sound) {path : FilePath} {place : Place}
    (htarget : tree.target path = .ok place) (text : String) : (tree.append place text).Sound := by
  obtain ⟨base, around, name, ho, rfl⟩ := target_ok_iff.1 htarget
  have hfile {p : Place} (hp : (tree.append (around ++ [name]) text).isFile p = true) :
      p = around ++ [name] ∨ tree.isFile p = true := by
    by_cases hpe : p = around ++ [name]
    · exact .inl hpe
    · refine .inr ?_
      rwa [isFile, text?, FileTree.append, update, lookup_setText_of_ne hpe] at hp
  constructor
  · intro p hp
    rcases hfile hp with rfl | hp
    · exact ho.free
    · exact h.apart p hp
  · intro p n hp
    rcases hfile hp with heq | hp
    · rw [(List.append_inj' heq rfl).2 |> List.cons.inj |>.1]
      exact ho.plain
    · exact h.named p n hp

/-- What is found at a path that can be opened is the file, if it is there. -/
theorem find_of_target {path : FilePath} {place : Place} (h : tree.target path = .ok place) :
    (∀ text, tree.text? place = some text → tree.find path = .ok (.file place text)) ∧
      (tree.text? place = none → tree.holds path = false) := by
  obtain ⟨base, around, name, ho, rfl⟩ := target_ok_iff.1 h
  have happroach : tree.approach path = .ok around := by
    rw [approach, ho.start]
    exact ho.walk
  constructor
  · intro text htext
    rw [find, happroach]
    simp [bind, Except.bind, ho.last, ho.opened, htext]
  · intro hnone
    have hstep : ∃ f, tree.step around name = .error f := by
      cases hstep : tree.step around name with
      | error f => exact ⟨f, rfl⟩
      | ok next =>
        have hfree := ho.free
        have hplain := ho.plain
        rcases step_ok_iff.1 hstep with ⟨rfl, -⟩ | ⟨rfl, -⟩ | ⟨-, -, hdirectory, -⟩
        · cases hplain
        · cases hplain
        · rw [hfree] at hdirectory
          cases hdirectory
    obtain ⟨f, hf⟩ := hstep
    rw [holds, find, happroach]
    simp [bind, Except.bind, ho.last, hnone, hf, Except.map]

/-- A directory at the end of a walk is not made again. -/
theorem ensureDirectory_of_walk (hsound : tree.Sound) {path : FilePath} {base next : Place}
    (hstart : start path = .ok base) (hwalk : path.names.foldlM tree.step base = .ok next)
    (hne : path.names ≠ []) :
    tree.ensureDirectory path = (.ok (), tree) ∧ tree.holds path = true := by
  rcases List.eq_nil_or_concat path.names with hnil | ⟨front, name, hnames⟩
  · exact absurd hnil hne
  rw [List.concat_eq_append] at hnames
  rw [hnames, List.foldlM_append] at hwalk
  obtain ⟨around, haround, hlast⟩ := bind_ok hwalk
  obtain ⟨_, hstep, heq⟩ := bind_ok hlast
  cases heq
  have hlast : path.names.getLast? = some name := by simp [hnames]
  have happroach : tree.approach path = .ok around := by
    rw [approach, hstart, hnames, List.dropLast_concat]
    exact haround
  have hstands : isDots name = true ∨ isDots name = false ∧
      FilePath.isNameTooLong name = false ∧ tree.isDirectory (around ++ [name]) = true := by
    rcases step_ok_iff.1 hstep with ⟨rfl, -⟩ | ⟨rfl, -⟩ | ⟨hname, hshort, hdirectory, -⟩
    · exact .inl rfl
    · exact .inl rfl
    · exact .inr ⟨hname, hshort, hdirectory⟩
  have hnone : tree.text? (around ++ [name]) = none :=
    hsound.text?_eq_none (hstands.imp_right fun h => h.2.2)
  have hfind : tree.find path = .ok (.directory next) := by
    rw [find, happroach]
    simp [bind, Except.bind, hlast, hnone, hstep, Except.map]
  have hmake : tree.makeDirectory path = .error .fileExists := by
    rw [makeDirectory, happroach]
    rcases hstands with hdots | ⟨hname, hshort, hdirectory⟩
    · simp [bind, Except.bind, hlast, hdots]
    · simp [bind, Except.bind, hlast, hname, hshort, hdirectory]
  constructor
  · rw [ensureDirectory, hmake, isDirectoryAt, hfind]
    rfl
  · rw [holds, hfind]

theorem size_le {rooted closed : Bool} {front back : List String} :
    FilePath.size ⟨rooted, front, false⟩ ≤ FilePath.size ⟨rooted, front ++ back, closed⟩ := by
  have hsum (base : Nat) : front.foldr (fun n bytes => n.utf8ByteSize + bytes) 0 ≤
      front.foldr (fun n bytes => n.utf8ByteSize + bytes) base := by
    induction front with
    | nil => exact Nat.zero_le _
    | cons n front ih => exact Nat.add_le_add_left ih _
  have hfold := hsum (back.foldr (fun n bytes => n.utf8ByteSize + bytes) 0)
  simp only [FilePath.size, List.foldr_append, List.length_append, Bool.toNat_false]
  omega

/-- What leads towards a path can be started on as well. -/
theorem start_front {path : FilePath} {base : Place} (h : start path = .ok base)
    {front back : List String} (hnames : path.names = front ++ back) (hne : front ≠ []) :
    start ⟨path.rooted, front, false⟩ = .ok base := by
  obtain ⟨rooted, names, closed⟩ := path
  simp only at hnames
  subst hnames
  unfold start at h ⊢
  split at h
  · cases h
  next hnull =>
    split at h
    · cases h
    next =>
      split at h
      · cases h
      next hlong =>
        have hsize := @size_le rooted closed front back
        have hfront : FilePath.hasNull ⟨rooted, front, false⟩ = false := by
          simp only [FilePath.hasNull, List.any_append, Bool.or_eq_true, not_or,
            Bool.not_eq_true] at hnull
          exact hnull.1
        have hempty : FilePath.isEmpty ⟨rooted, front, false⟩ = false := by
          simp [FilePath.isEmpty, hne]
        have hshort : FilePath.isTooLong ⟨rooted, front, false⟩ = false := by
          simp only [FilePath.isTooLong, decide_eq_true_eq, decide_eq_false_iff_not] at hlong ⊢
          omega
        rw [hfront, hempty, hshort]
        exact h

/-- No directory has to be made above a file that can be opened. -/
theorem makeDirectories_of_target (hsound : tree.Sound) {path : FilePath} {place : Place}
    (h : tree.target path = .ok place) :
    makeDirectories path.rooted path.directory.names.reverse tree = (.ok (), tree) := by
  obtain ⟨base, around, name, ho, rfl⟩ := target_ok_iff.1 h
  have hdirectory : path.directory.names = path.names.dropLast := by
    simp [FilePath.directory, ho.opened]
  have hnames : ∃ back, path.names = path.names.dropLast ++ back :=
    ⟨_, (List.prefix_iff_eq_append.1 (List.dropLast_prefix _)).symm⟩
  have hwalk := ho.walk
  rw [hdirectory]
  rcases List.eq_nil_or_concat path.names.dropLast with hnil | ⟨front, last, hfront⟩
  · rw [hnil]
    rfl
  rw [List.concat_eq_append] at hfront
  obtain ⟨back, hback⟩ := hnames
  rw [hfront] at hwalk hback ⊢
  have hall := ensureDirectory_of_walk hsound
     (start_front ho.start hback (by simp)) hwalk
    (by simp)
  rw [List.foldlM_append] at hwalk
  obtain ⟨middle, hmiddle, -⟩ := bind_ok hwalk
  have hupper : front = [] ∨ tree.holds ⟨path.rooted, front, false⟩ = true := by
    by_cases hnil : front = []
    · exact .inl hnil
    · rw [List.append_assoc] at hback
      exact .inr (ensureDirectory_of_walk hsound (start_front ho.start hback hnil) hmiddle hnil).2
  rw [List.reverse_append, List.reverse_singleton, List.singleton_append, makeDirectories]
  simp only [List.reverse_cons, List.reverse_reverse, List.isEmpty_reverse, FilePath.directory,
    Bool.false_eq_true, if_false, List.dropLast_concat, Bool.or_eq_true, List.isEmpty_iff]
  rw [if_pos hupper]
  exact hall.1

/-- Opening a file where one can be opened leaves the directories as they are. -/
theorem prepare_of_target (hsound : tree.Sound) {path : String} {place : Place}
    (h : tree.target (.ofText path) = .ok place) :
    tree.prepare path = (.ok place, tree.append place "") := by
  rw [prepare, makeDirectories_of_target hsound h]
  simp [openFile, h, Except.map]

/-- The text at a place; a file that is not there has none. -/
def content (tree : FileTree) (place : Place) : String :=
  (tree.text? place).getD ""

@[simp] theorem content_append (place : Place) (text : String) :
    (tree.append place text).content place = tree.content place ++ text := by
  simp [content, append]

end FileTree

namespace Journal

open FileTree

structure Hosts (tree : FileTree) (path : String) (place : Place) : Prop where
  sound : tree.Sound
  target : tree.target (.ofText path) = .ok place

variable {tree : FileTree} {path : String} {place : Place}

theorem Hosts.append (h : Hosts tree path place) (text : String) :
    Hosts (tree.append place text) path place :=
  ⟨h.sound.append h.target text, target_append h.target place text⟩

theorem Hosts.start (h : Hosts tree path place) :
    Journal.start path tree = (.ok ⟨place, true⟩, tree.append place "") := by
  rw [Journal.start, prepare_of_target h.sound h.target]
  rfl

/-- The table of a journal is that of its text. -/
theorem Hosts.load (h : Hosts tree path place) (count : Int) :
    Table.load tree path count = Table.ofText (tree.content place) count := by
  obtain ⟨hfile, hnone⟩ := find_of_target h.target
  cases htext : tree.text? place with
  | some text =>
    have hholds : tree.holds (.ofText path) = true := by rw [holds, hfile text htext]
    have hread : tree.read path = .ok text := by
      rw [FileTree.read, hfile text htext]
      rfl
    rw [Table.load, if_pos hholds, hread, content, htext]
    rfl
  | none =>
    rw [Table.load, hnone htext, content, htext]
    rfl

def shelf (text : String) : FileTree :=
  ⟨[(["a"], text)], []⟩

@[simp] theorem content_shelf (text : String) : (shelf text).content ["a"] = text :=
  rfl

theorem hosts_shelf (text : String) : Hosts (shelf text) "a" ["a"] := by
  have hplace (place : Place) (h : (shelf text).isFile place = true) : place = ["a"] := by
    by_cases hp : place = ["a"]
    · exact hp
    · simp [shelf, isFile, text?, List.lookup_cons, beq_false_of_ne hp] at h
  have hpath : FilePath.ofText "a" = ⟨false, ["a"], false⟩ := by
    have hsplit : "a".splitOn "/" = ["a"] := by
      rw [String.splitOn, if_neg (by decide), String.splitOnAux, String.splitOnAux]
      decide +kernel
    rw [FilePath.ofText, hsplit]
    rfl
  refine ⟨⟨?_, ?_⟩, ?_⟩
  · intro place h
    rw [hplace place h]
    rfl
  · intro around name h
    have hname : name = "a" := by simpa using congrArg List.getLast? (hplace _ h)
    rw [hname]
    rfl
  · rw [hpath]
    exact target_ok_iff.2 ⟨[], [], "a", ⟨by cbv, rfl, rfl, rfl, rfl, rfl, rfl⟩, rfl⟩

end Journal

end PlanarDrive
