import PlanarDrive.Proofs.RunSteps

/-!
# Trees that differ in one text

Where a path leads, and whether a directory can be made or a file opened at it, depends on which
files and directories there are and never on the texts in them. So what a run writes goes the same
way in two trees that differ only in what one file began with, and leaves two such trees behind.
-/

namespace PlanarDrive

namespace FileTree

/-- Two trees that differ only in how the text at one place begins. What was put behind the two
beginnings since is the same, and once the text was replaced it is the same as a whole. -/
structure Twins (place : Place) (text text' : String) (tree tree' : FileTree) : Prop where
  directories : tree'.directories = tree.directories
  elsewhere : ∀ other, other ≠ place → tree'.text? other = tree.text? other
  here : tree'.text? place = tree.text? place ∨
    ∃ more, tree.text? place = some (text ++ more) ∧ tree'.text? place = some (text' ++ more)

theorem text?_update (tree : FileTree) (place other : Place) (change : String → String) :
    (tree.update place change).text? other =
      if other = place then some (change (tree.content place)) else tree.text? other := by
  split
  · next h =>
    subst h
    exact text?_update_self tree other change
  · next h => exact text?_update_of_ne h change

inductive TwinAnswers {α : Type} (place : Place) (text text' : String) :
    α × FileTree → α × FileTree → Prop
  | mk (answer : α) {tree tree' : FileTree} (h : Twins place text text' tree tree') :
    TwinAnswers place text text' (answer, tree) (answer, tree')

inductive Entity.SameKind : Entity → Entity → Prop
  | directory (place : Place) : SameKind (.directory place) (.directory place)
  | file (place : Place) (text text' : String) : SameKind (.file place text) (.file place text')

theorem text?_of_find {tree : FileTree} {path : FilePath} {place : Place} {text : String}
    (h : tree.find path = .ok (.file place text)) : tree.text? place = some text := by
  obtain ⟨around, -, h⟩ := bind_ok h
  split at h
  · cases h
  · next name _ =>
    split at h
    · next found hfound =>
      split at h
      · cases h
      · cases h
        exact hfound
    · cases hstep : tree.step around name <;> rw [hstep] at h <;> cases h

/-- A text that is replaced makes a twin. -/
theorem twins_update {tree : FileTree} {place : Place} {text : String}
    (h : tree.text? place = some text) (text' : String) :
    Twins place text text' tree (tree.update place fun _ => text') :=
  ⟨rfl, fun _ hother => text?_update_of_ne hother _,
    .inr ⟨"", h.trans (congrArg some String.append_empty.symm),
      (text?_update_self tree place _).trans (congrArg some String.append_empty.symm)⟩⟩

namespace Twins

variable {place : Place} {text text' : String} {tree tree' : FileTree}
  (h : Twins place text text' tree tree')
include h

theorem text?_alike (other : Place) :
    Option.Rel (fun _ _ => True) (tree.text? other) (tree'.text? other) := by
  have hrefl (o : Option String) : Option.Rel (fun _ _ => True) o o := by
    cases o with
    | none => exact .none
    | some t => exact .some trivial
  by_cases hother : other = place
  · subst hother
    obtain hsame | ⟨more, htext, htext'⟩ := h.here
    · rw [hsame]
      exact hrefl _
    · rw [htext, htext']
      exact .some trivial
  · rw [h.elsewhere other hother]
    exact hrefl _

theorem isFile_eq (other : Place) : tree'.isFile other = tree.isFile other := by
  have htext := h.text?_alike other
  unfold isFile
  generalize tree.text? other = o, tree'.text? other = o' at htext
  cases htext <;> rfl

theorem isDirectory_eq (other : Place) : tree'.isDirectory other = tree.isDirectory other := by
  rw [isDirectory, isDirectory, h.directories]

theorem step_eq : tree'.step = tree.step := by
  funext around name
  rw [step, step, h.isDirectory_eq, h.isFile_eq]

theorem approach_eq (path : FilePath) : tree'.approach path = tree.approach path := by
  rw [approach, approach, h.step_eq]

theorem target_eq (path : FilePath) : tree'.target path = tree.target path := by
  simp only [target, h.approach_eq, h.isDirectory_eq]

theorem find_alike (path : FilePath) :
    EndAlike Entity.SameKind (tree.find path) (tree'.find path) := by
  unfold find
  rw [h.approach_eq, h.step_eq]
  cases tree.approach path with
  | error f => exact .error f
  | ok around =>
    dsimp only [bind, Except.bind]
    cases path.names.getLast? with
    | none => exact .ok (.directory around)
    | some name =>
      have htext := h.text?_alike (around ++ [name])
      dsimp only
      generalize tree.text? (around ++ [name]) = o, tree'.text? (around ++ [name]) = o' at htext
      cases htext with
      | none =>
        dsimp only
        cases tree.step around name with
        | error f => exact .error f
        | ok next => exact .ok (.directory next)
      | some =>
        dsimp only
        split
        · exact .error _
        · exact .ok (.file _ _ _)

/-- A path leads to the one file that the trees differ in, or the same is read at it. -/
theorem read_eq_or (path : String) : tree'.read path = tree.read path ∨
    ∃ t, tree.find (.ofText path) = .ok (.file place t) := by
  have hfind := h.find_alike (.ofText path)
  unfold read
  generalize hr : tree.find (.ofText path) = r, hr' : tree'.find (.ofText path) = r' at hfind
  cases hfind with
  | error f => exact .inl rfl
  | ok hkind =>
    cases hkind with
    | directory around => exact .inl rfl
    | file other t t' =>
      by_cases hother : other = place
      · exact .inr ⟨t, by rw [hother]⟩
      · have htext := h.elsewhere other hother
        rw [text?_of_find hr, text?_of_find hr'] at htext
        exact .inl (congrArg Except.ok (Option.some.inj htext))

/-- At a path that leads to this file each tree gives its own text. -/
theorem read_of_find {path t t' : String} (hfind : tree.find (.ofText path) = .ok (.file place t))
    (htext : tree'.text? place = some t') : tree'.read path = .ok t' := by
  have hkind := h.find_alike (.ofText path)
  unfold read
  rw [hfind] at hkind
  generalize hr : tree'.find (.ofText path) = r at hkind
  cases hkind with
  | ok hkind =>
    cases hkind with
    | file _ _ found =>
      rw [text?_of_find hr] at htext
      exact congrArg Except.ok (Option.some.inj htext)

theorem holds_eq (path : FilePath) : tree'.holds path = tree.holds path := by
  have hfind := h.find_alike path
  unfold holds
  generalize tree.find path = r, tree'.find path = r' at hfind
  cases hfind with
  | ok h => rfl
  | error f => rfl

theorem isDirectoryAt_eq (path : FilePath) :
    tree'.isDirectoryAt path = tree.isDirectoryAt path := by
  have hfind := h.find_alike path
  unfold isDirectoryAt
  generalize tree.find path = r, tree'.find path = r' at hfind
  cases hfind with
  | ok h => cases h <;> rfl
  | error f => rfl

theorem makeDirectory (path : FilePath) :
    EndAlike (Twins place text text') (tree.makeDirectory path) (tree'.makeDirectory path) := by
  simp only [FileTree.makeDirectory, h.approach_eq, h.isDirectory_eq, h.isFile_eq]
  cases tree.approach path with
  | error f => exact .error f
  | ok around =>
    dsimp only [bind, Except.bind]
    cases path.names.getLast? with
    | none => exact .error _
    | some name =>
      dsimp only
      split
      · exact .error _
      · split
        · exact .error _
        · split
          · exact .error _
          · exact .ok ⟨congrArg (· ++ [around ++ [name]]) h.directories, h.elsewhere, h.here⟩

theorem ensureDirectory (path : FilePath) :
    TwinAnswers place text text' (tree.ensureDirectory path) (tree'.ensureDirectory path) := by
  have hmake := h.makeDirectory path
  unfold FileTree.ensureDirectory
  rw [h.isDirectoryAt_eq]
  generalize tree.makeDirectory path = r, tree'.makeDirectory path = r' at hmake
  cases hmake with
  | ok hmade => exact .mk _ hmade
  | error f => exact .mk _ h

omit h in
theorem makeDirectories (h : Twins place text text' tree tree') (rooted : Bool)
    (names : List String) :
    TwinAnswers place text text' (makeDirectories rooted names tree)
      (makeDirectories rooted names tree') := by
  induction names generalizing tree tree' with
  | nil => exact .mk _ h
  | cons name upper ih =>
    have hupper := ih h
    unfold FileTree.makeDirectories
    dsimp only
    rw [h.holds_eq]
    split
    · exact h.ensureDirectory _
    · generalize FileTree.makeDirectories rooted upper tree = r,
        FileTree.makeDirectories rooted upper tree' = r' at hupper
      obtain ⟨answer, hmade⟩ := hupper
      have hrest := hmade.ensureDirectory ⟨rooted, (name :: upper).reverse, false⟩
      cases answer with
      | ok =>
        dsimp only
        split
        · exact .mk _ hmade
        · exact hrest
      | error f =>
        cases f with
        | fileExists =>
          dsimp only
          split
          · exact .mk _ hmade
          · exact hrest
        | _ => exact .mk _ hmade

theorem update {change : String → String} (other : Place)
    (hchange : (∀ t t', change t = change t') ∨ ∃ more, ∀ t, change t = t ++ more) :
    Twins place text text' (tree.update other change) (tree'.update other change) := by
  refine ⟨h.directories, fun third hthird => ?_, ?_⟩
  · rw [text?_update, text?_update, h.elsewhere third hthird]
    split
    · next heq => rw [content, content, ← heq, h.elsewhere third hthird]
    · rfl
  · rw [text?_update, text?_update]
    split
    · next heq =>
      subst heq
      rw [content, content]
      obtain hsame | ⟨more, htext, htext'⟩ := h.here
      · exact .inl (by rw [hsame])
      · obtain hconst | ⟨added, hadded⟩ := hchange
        · exact .inl (congrArg some (hconst _ _))
        · refine .inr ⟨more ++ added, ?_, ?_⟩
          · rw [htext, hadded, ← String.append_assoc]
            rfl
          · rw [htext', hadded, ← String.append_assoc]
            rfl
    · exact h.here

theorem append (other : Place) (added : String) :
    Twins place text text' (tree.append other added) (tree'.append other added) :=
  h.update other (.inr ⟨added, fun _ => rfl⟩)

theorem prepare (path : String) :
    TwinAnswers place text text' (tree.prepare path) (tree'.prepare path) := by
  have hmake := h.makeDirectories (FilePath.ofText path).rooted
    (FilePath.ofText path).directory.names.reverse
  unfold FileTree.prepare
  dsimp only
  generalize FileTree.makeDirectories (FilePath.ofText path).rooted
    (FilePath.ofText path).directory.names.reverse tree = r,
    FileTree.makeDirectories (FilePath.ofText path).rooted
    (FilePath.ofText path).directory.names.reverse tree' = r' at hmake
  obtain ⟨answer, hmade⟩ := hmake
  cases answer with
  | error f => exact .mk _ hmade
  | ok =>
    dsimp only [openFile]
    rw [hmade.target_eq]
    cases FileTree.target _ (.ofText path) with
    | error f => exact .mk _ hmade
    | ok other => exact .mk _ (hmade.append other "")

theorem write (path drawing : String) :
    EndAlike (Twins place text text') (tree.write path drawing) (tree'.write path drawing) := by
  unfold FileTree.write
  rw [h.target_eq]
  cases tree.target (.ofText path) with
  | error f => exact .error f
  | ok other => exact .ok (h.update other (.inl fun _ _ => rfl))

end Twins

end FileTree

namespace CommandLine

open Running

variable {β γ : Type}

namespace Running

/-- A run that prints, settles and writes, but does not read. -/
inductive Writes : {β : Type} → Running (StateM FileTree) β → Prop
  | settle {β : Type} (r : Except (Fault Binary64) β) : Writes (settle r)
  | print (lines : List String) : Writes (print lines)
  | extend (path line : String) : Writes (onDisk (Disk.extend path line))
  | write (path drawing : String) : Writes (onDisk (Disk.write path drawing))
  | bind {β γ : Type} {p : Running (StateM FileTree) β} {f : β → Running (StateM FileTree) γ}
    (hp : Writes p) (hf : ∀ b, Writes (f b)) : Writes (p >>= f)

theorem writes_pure (b : β) : Writes (pure b) :=
  .settle (.ok b)

/-- What does not read goes the same way in twin trees. -/
theorem Writes.twins {p : Running (StateM FileTree) β} (hp : Writes p) {place : Place}
    {text text' : String} {tree tree' : FileTree} (h : FileTree.Twins place text text' tree tree')
    (output : String) :
    FileTree.TwinAnswers place text text' (p.on output tree) (p.on output tree') := by
  induction hp generalizing output tree tree' with
  | settle r => exact .mk _ h
  | print lines => exact .mk _ h
  | extend path line =>
    have hopen := h.prepare path
    simp only [on_onDisk, Disk.extend]
    generalize tree.prepare path = r, tree'.prepare path = r' at hopen
    obtain ⟨answer, hopened⟩ := hopen
    cases answer with
    | error f => exact .mk _ hopened
    | ok file => exact .mk _ (hopened.append file line)
  | write path drawing =>
    have hwrite := h.write path drawing
    simp only [on_onDisk, Disk.write]
    generalize tree.write path drawing = r, tree'.write path drawing = r' at hwrite
    cases hwrite with
    | error f => exact .mk _ h
    | ok hwritten => exact .mk _ hwritten
  | @bind _ _ p f _ _ ihp ihf =>
    have hstep := ihp h output
    rw [on_bind, on_bind]
    generalize p.on output tree = r, p.on output tree' = r' at hstep
    obtain ⟨⟨result, between⟩, hmiddle⟩ := hstep
    cases result with
    | error f => exact .mk _ hmiddle
    | ok b => exact ihf b hmiddle between

/-- Nothing that was printed is taken back. -/
theorem Writes.prints {p : Running (StateM FileTree) β} (hp : Writes p) (output : String)
    (tree : FileTree) : ∃ more, (p.on output tree).1.2 = output ++ more := by
  induction hp generalizing output tree with
  | settle | extend | write => exact ⟨"", String.append_empty.symm⟩
  | print lines => exact ⟨printed lines, rfl⟩
  | @bind _ _ p f _ _ ihp ihf =>
    obtain ⟨more, hmore⟩ := ihp output tree
    rw [on_bind]
    generalize p.on output tree = r at hmore
    obtain ⟨⟨result, between⟩, middle⟩ := r
    obtain rfl : between = output ++ more := hmore
    cases result with
    | error f => exact ⟨more, rfl⟩
    | ok b =>
      obtain ⟨further, hfurther⟩ := ihf b (output ++ more) middle
      exact ⟨more ++ further, by rw [hfurther, String.append_assoc]⟩

end Running

end CommandLine

end PlanarDrive
