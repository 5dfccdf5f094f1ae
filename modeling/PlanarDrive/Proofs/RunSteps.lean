import PlanarDrive.CommandLine.Run
import PlanarDrive.Proofs.Fallible
import PlanarDrive.Proofs.JournalFile

/-!
# The steps of a run

A run prints lines, settles what may be refused, and reads and writes files. What each of these
leaves is told by the output, the tree of files and the result or fault after it. Opening a file for
adding text changes no text that is there.
-/

namespace PlanarDrive

namespace FileTree

variable {tree : FileTree}

theorem text?_update_of_ne {place other : Place} (h : other ≠ place) (change : String → String) :
    (tree.update place change).text? other = tree.text? other :=
  lookup_setText_of_ne h _ _

theorem files_ensureDirectory (path : FilePath) :
    (tree.ensureDirectory path).2.files = tree.files := by
  have hmake {made : FileTree} (h : tree.makeDirectory path = .ok made) :
      made.files = tree.files := by
    obtain ⟨around, -, h⟩ := bind_ok h
    split at h
    · cases h
    · split at h
      · cases h
      · split at h
        · cases h
        · dsimp only at h
          split at h
          · cases h
          · cases h
            rfl
  unfold ensureDirectory
  cases h : tree.makeDirectory path with
  | ok made => exact hmake h
  | error f => rfl

/-- Making directories leaves the texts of all files as they are. -/
theorem files_makeDirectories (rooted : Bool) (names : List String) (tree : FileTree) :
    (makeDirectories rooted names tree).2.files = tree.files := by
  induction names generalizing tree with
  | nil => rfl
  | cons name upper ih =>
    unfold makeDirectories
    dsimp only
    split
    · exact files_ensureDirectory _
    · have hupper := ih tree
      split
      · next made hmade =>
        rw [hmade] at hupper
        split
        · exact hupper
        · exact (files_ensureDirectory _).trans hupper
      · next made hmade =>
        rw [hmade] at hupper
        split
        · exact hupper
        · exact (files_ensureDirectory _).trans hupper
      · next hmade =>
        rw [hmade] at hupper
        exact hupper

/-- The texts in two trees are the same, but for one place, where there may be none in one of them
and the empty one in the other. -/
structure SameTexts (tree opened : FileTree) (place : Place) : Prop where
  here : opened.content place = tree.content place
  elsewhere : ∀ other, other ≠ place → opened.text? other = tree.text? other

/-- Opening a file for adding text changes no text, whether it can be opened or not. -/
theorem prepare_texts (tree : FileTree) (path : String) :
    (∀ f refused, tree.prepare path = (.error f, refused) → refused.files = tree.files) ∧
      ∀ place opened, tree.prepare path = (.ok place, opened) → tree.SameTexts opened place := by
  have hmake := files_makeDirectories (FilePath.ofText path).rooted
    (FilePath.ofText path).directory.names.reverse tree
  unfold prepare
  dsimp only
  rcases hmade : makeDirectories (FilePath.ofText path).rooted
    (FilePath.ofText path).directory.names.reverse tree with ⟨_ | _, made⟩ <;> rw [hmade] at hmake
  · refine ⟨fun f refused h => ?_, fun place opened h => ?_⟩
    · obtain ⟨-, rfl⟩ := Prod.mk.inj h
      exact hmake
    · cases h
  · cases htarget : made.target (.ofText path) with
    | error f =>
      simp only [openFile, htarget, Except.map]
      refine ⟨fun f refused h => ?_, fun place opened h => ?_⟩
      · obtain ⟨-, rfl⟩ := Prod.mk.inj h
        exact hmake
      · cases h
    | ok place =>
      simp only [openFile, htarget, Except.map]
      refine ⟨fun f refused h => ?_, fun place' opened h => ?_⟩
      · cases h
      · obtain ⟨hplace, rfl⟩ := Prod.mk.inj h
        cases hplace
        have hcontent : made.content place = tree.content place := by
          simp only [content, text?]
          rw [hmake]
        refine ⟨by simp [hcontent], fun other hother => ?_⟩
        rw [append, text?_update_of_ne hother, text?, text?, hmake]

end FileTree

namespace CommandLine

variable {β γ : Type}

namespace Running

/-- What a run in progress leaves, begun with some output on a tree of files. -/
def on (p : Running (StateM FileTree) β) (output : String) (tree : FileTree) :
    (Except (Fault Binary64) β × String) × FileTree :=
  p.run.run output tree

theorem on_bind (p : Running (StateM FileTree) β) (f : β → Running (StateM FileTree) γ)
    (output : String) (tree : FileTree) :
    (p >>= f).on output tree = match p.on output tree with
      | ((.ok b, output), tree) => (f b).on output tree
      | ((.error f, output), tree) => ((.error f, output), tree) := by
  have hbind : (p >>= f).on output tree =
      (ExceptT.bindCont f (p.on output tree).1.1).run (p.on output tree).1.2
        (p.on output tree).2 := rfl
  rw [hbind]
  rcases p.on output tree with ⟨⟨_ | _, output⟩, tree⟩ <;> rfl

theorem on_bind_ok {p : Running (StateM FileTree) β} {f : β → Running (StateM FileTree) γ}
    {output output' : String} {tree tree' : FileTree} {c : γ}
    (h : (p >>= f).on output tree = ((.ok c, output'), tree')) :
    ∃ b between middle, p.on output tree = ((.ok b, between), middle) ∧
      (f b).on between middle = ((.ok c, output'), tree') := by
  rw [on_bind] at h
  rcases hp : p.on output tree with ⟨⟨_ | b, between⟩, middle⟩
  · rw [hp] at h
    cases h
  · rw [hp] at h
    exact ⟨b, between, middle, rfl, h⟩

theorem on_settle (r : Except (Fault Binary64) β) (output : String) (tree : FileTree) :
    (settle r).on output tree = ((r, output), tree) :=
  rfl

theorem on_onDisk (r : StateM FileTree (Except (Fault Binary64) β)) (output : String)
    (tree : FileTree) : (onDisk r).on output tree = (((r tree).1, output), (r tree).2) :=
  rfl

def printed (lines : List String) : String :=
  String.join (lines.map (· ++ "\n"))

theorem printed_append (lines more : List String) :
    printed (lines ++ more) = printed lines ++ printed more := by
  simp [printed]

theorem on_print (lines : List String) (output : String) (tree : FileTree) :
    (print lines).on output tree = ((.ok (), output ++ printed lines), tree) :=
  rfl

theorem on_extend (path text output : String) (tree : FileTree) :
    (∀ f refused, tree.prepare path = (.error f, refused) →
      (onDisk (Disk.extend path text)).on output tree = ((.error f, output), refused)) ∧
      ∀ place opened, tree.prepare path = (.ok place, opened) →
        (onDisk (Disk.extend path text)).on output tree =
          ((.ok (), output), opened.append place text) := by
  refine ⟨fun f refused h => ?_, fun place opened h => ?_⟩ <;> simp [on_onDisk, Disk.extend, h]

theorem on_write (path text output : String) (tree : FileTree) :
    (∀ f, tree.target (.ofText path) = .error f →
      (onDisk (Disk.write path text)).on output tree = ((.error f, output), tree)) ∧
      ∀ place, tree.target (.ofText path) = .ok place →
        (onDisk (Disk.write path text)).on output tree =
          ((.ok (), output), tree.update place fun _ => text) := by
  refine ⟨fun f h => ?_, fun place h => ?_⟩ <;>
    simp [on_onDisk, Disk.write, FileTree.write, h, Except.map]

/-- Leaves all files as they are. -/
def Reads (p : Running (StateM FileTree) β) : Prop :=
  ∀ output tree, (p.on output tree).2 = tree

theorem reads_settle (r : Except (Fault Binary64) β) : Reads (settle r) :=
  fun _ _ => rfl

theorem reads_print (lines : List String) : Reads (print lines) :=
  fun _ _ => rfl

theorem reads_pure (b : β) : Reads (pure b) :=
  fun _ _ => rfl

theorem reads_read (path : String) : Reads (onDisk (Disk.read path)) :=
  fun _ _ => rfl

theorem Reads.bind {p : Running (StateM FileTree) β} {f : β → Running (StateM FileTree) γ}
    (hp : Reads p) (hf : ∀ b, Reads (f b)) : Reads (p >>= f) := by
  intro output tree
  have htree := hp output tree
  rw [on_bind]
  rcases hr : p.on output tree with ⟨⟨_ | b, between⟩, middle⟩
  · rw [hr] at htree
    exact htree
  · rw [hr] at htree
    exact (hf b between middle).trans htree

def Silent (p : Running (StateM FileTree) β) : Prop :=
  ∀ output tree, (p.on output tree).1.2 = output

theorem silent_settle (r : Except (Fault Binary64) β) : Silent (settle r) :=
  fun _ _ => rfl

theorem silent_onDisk (r : StateM FileTree (Except (Fault Binary64) β)) : Silent (onDisk r) :=
  fun _ _ => rfl

theorem Silent.bind {p : Running (StateM FileTree) β} {f : β → Running (StateM FileTree) γ}
    (hp : Silent p) (hf : ∀ b, Silent (f b)) : Silent (p >>= f) := by
  intro output tree
  have houtput := hp output tree
  rw [on_bind]
  rcases hr : p.on output tree with ⟨⟨_ | b, between⟩, middle⟩
  · rw [hr] at houtput
    exact houtput
  · rw [hr] at houtput
    exact (hf b between middle).trans houtput

theorem Silent.output_eq {p : Running (StateM FileTree) β} (h : Silent p) {output output' : String}
    {tree tree' : FileTree} {r : Except (Fault Binary64) β}
    (hp : p.on output tree = ((r, output'), tree')) : output' = output := by
  have houtput := h output tree
  rwa [hp] at houtput

theorem on_settle_ok {r : Except (Fault Binary64) β} {output output' : String}
    {tree tree' : FileTree} {b : β}
    (h : (settle r).on output tree = ((.ok b, output'), tree')) : r = .ok b ∧ output' = output := by
  obtain ⟨hr, -⟩ := Prod.mk.inj h
  obtain ⟨rfl, rfl⟩ := Prod.mk.inj hr
  exact ⟨rfl, rfl⟩

theorem on_print_ok {lines : List String} {output output' : String} {tree tree' : FileTree}
    {b : Unit} (h : (print lines).on output tree = ((.ok b, output'), tree')) :
    output' = output ++ printed lines :=
  (Prod.mk.inj (Prod.mk.inj h).1).2.symm

end Running

end CommandLine

end PlanarDrive
