import ContentTypes.Proofs.FileTree.Children
import ContentTypes.Proofs.FileTree.Parents

/-!
# Finding again what was there

A path that never goes up leads through no directories but those that contain its end. So where a tree
has grown, such a path finds a file only if it did so before, `Grows.fileExists_eq`, and a directory
that was not there has nothing in it but what has been written: `Grows.flatMap_childrenAt`. With `..`
this fails, as a path may go through a new directory and leave it again.
-/

namespace ContentTypes.FileTree

variable {α : Type} {tree after : FileTree} {path : Path} {places : List Location}
  {here location : Location} {name : FileName}

-- ---------------------------------------------------------------------------
-- The way to what is there
-- ---------------------------------------------------------------------------

theorem isDirectory_of_suffix {outer : Location} (hd : tree.IsDirectory location)
    (h : outer <:+ location) : tree.IsDirectory outer := by
  obtain ⟨names, rfl⟩ := h
  induction names with
  | nil => exact hd
  | cons name rest ih => exact ih (isDirectory_of_get?_cons hd)

theorem suffix_foldl_steps {steps : List Step} (hup : .up ∉ steps) (here : Location) :
    here <:+ steps.foldl Step.apply here := by
  induction steps generalizing here with
  | nil => exact List.suffix_rfl
  | cons step rest ih =>
    rw [List.mem_cons, not_or] at hup
    cases step with
    | stay => exact ih hup.2 here
    | up => exact absurd rfl hup.1
    | down name => exact (List.suffix_cons name here).trans (ih hup.2 (name :: here))

theorem walks_of_isDirectory {steps : List Step} (hup : .up ∉ steps)
    (hd : tree.IsDirectory (steps.foldl Step.apply here)) : tree.Walks here steps := by
  induction steps generalizing here with
  | nil => trivial
  | cons step rest ih =>
    rw [List.mem_cons, not_or] at hup
    cases step with
    | stay => exact ih hup.2 hd
    | up => exact absurd rfl hup.1
    | down name => exact ⟨isDirectory_of_suffix hd (suffix_foldl_steps hup.2 _), ih hup.2 hd⟩

theorem reaches_of_get? (hup : path.NeverUp) (hnul : '\x00' ∉ path.text.toList)
    (hne : path.text ≠ "") {front : List Step} (hsteps : path.steps = front ++ [.down name])
    {entry : FileEntry} (hget : tree.get? (tree.destination path) = some entry) :
    tree.Reaches path := by
  have hfront : Step.up ∉ front := fun hm =>
    Path.up_not_mem_steps (Path.neverUp_iff.1 hup) (by simp [hsteps, hm])
  rw [destination_of_name hsteps] at hget
  have hd := isDirectory_of_get?_cons hget
  refine ⟨hnul, hne, isDirectory_of_suffix hd (suffix_foldl_steps hfront _), ?_⟩
  rw [hsteps, List.dropLast_concat]
  exact walks_of_isDirectory hfront hd

theorem reaches_of_isDirectory (hup : path.NeverUp) (hnul : '\x00' ∉ path.text.toList)
    (hne : path.text ≠ "") (hd : tree.IsDirectory (tree.destination path)) : tree.Reaches path := by
  have hsteps := Path.up_not_mem_steps (Path.neverUp_iff.1 hup)
  refine ⟨hnul, hne, isDirectory_of_suffix hd (suffix_foldl_steps hsteps _), ?_⟩
  obtain ⟨back, hback⟩ := List.dropLast_prefix path.steps
  have hwalks := walks_of_isDirectory hsteps hd
  rw [← hback] at hwalks
  exact (walks_append.1 hwalks).1

theorem children_eq_nil (h : ¬tree.IsDirectory location) : tree.children location = [] := by
  rw [List.eq_nil_iff_forall_not_mem]
  rintro ⟨name, entry⟩ hm
  exact h (isDirectory_of_get?_cons (mem_children_iff.1 hm))

-- ---------------------------------------------------------------------------
-- Files
-- ---------------------------------------------------------------------------

namespace Grows

theorem entryAt_eq_ok (h : tree.Grows places after) {entry : FileEntry}
    (he : tree.entryAt path = .ok entry) (hp : tree.destination path ∉ places) :
    after.entryAt path = .ok entry := by
  rw [entryAt_eq_ok_iff] at he ⊢
  obtain ⟨hr, hg, hs⟩ := he
  exact ⟨h.reaches hr, h.destination path ▸ h.get?_eq_some hg hp, hs⟩

theorem fileExists_eq (h : tree.Grows places after) (hup : path.NeverUp)
    (hp : tree.destination path ∉ places) : after.fileExists path = tree.fileExists path := by
  rw [Bool.eq_iff_iff, fileExists_iff, fileExists_iff, h.destination]
  constructor
  · rintro ⟨hr, hs, contents, hfile⟩
    have hold : tree.get? (tree.destination path) = some (.file contents) := by
      rcases h.get? (tree.destination path) with hsame | ⟨-, hd⟩ | ⟨hm, -⟩
      · exact hsame.symm.trans hfile
      · exact nomatch hfile.symm.trans hd
      · exact absurd hm hp
    obtain ⟨name, hname⟩ := hr.exists_name ((h.destination path).symm ▸ hfile)
    obtain ⟨front, hsteps⟩ := List.getLast?_eq_some_iff.1 hname
    exact ⟨reaches_of_get? hup hr.noNul hr.nonempty hsteps hold, hs, contents, hold⟩
  · rintro ⟨hr, hs, contents, hfile⟩
    exact ⟨h.reaches hr, hs, contents, h.get?_eq_some hfile hp⟩

theorem readText_eq (h : tree.Grows places after) (hfile : tree.fileExists path = true)
    (hp : tree.destination path ∉ places) : after.readText path = tree.readText path := by
  obtain ⟨hr, hs, contents, hget⟩ := fileExists_iff.1 hfile
  have hentry : tree.entryAt path = .ok (.file contents) :=
    entryAt_eq_ok_iff.2 ⟨hr, hget, fun hslash => nomatch hs.symm.trans hslash⟩
  rw [FileTree.readText, FileTree.readText, h.entryAt_eq_ok hentry hp, hentry]

/-- A tree that has grown holds a text where it held it before, and nowhere else but where files were
written. -/
theorem holdsText_eq (h : tree.Grows places after) (hup : path.NeverUp)
    (hp : tree.destination path ∉ places) (text : String) :
    after.holdsText path text = tree.holdsText path text := by
  rw [Bool.eq_iff_iff, holdsText_iff, holdsText_iff]
  constructor
  · intro hafter
    obtain ⟨hr, hs, contents, hget, -⟩ := readText_eq_ok_iff.1 hafter
    have hfile : after.fileExists path = true := fileExists_iff.2 ⟨hr, hs, contents, hget⟩
    rw [h.fileExists_eq hup hp] at hfile
    rwa [h.readText_eq hfile hp] at hafter
  · intro htree
    exact h.readText htree hp

-- ---------------------------------------------------------------------------
-- Children
-- ---------------------------------------------------------------------------

theorem made_eq (h : tree.Grows places after) {f : FileName → FileEntry → List α}
    (hnew : ∀ name, tree.get? (name :: location) = none → f name .directory = [])
    (hfile : ∀ name, name :: location ∈ places → ¬tree.IsDirectory (name :: location) →
      ∀ contents, f name (.file contents) = []) :
    after.made location f = tree.made location f := by
  funext name
  unfold made
  rcases h.get? (name :: location) with hsame | ⟨hnone, hd⟩ | ⟨hm, hnot, contents, hwritten⟩
  · rw [hsame]
  · have hd : after.get? (name :: location) = some .directory := hd
    rw [hnone, hd]
    exact hnew name hnone
  · have hafter : (after.get? (name :: location)).elim [] (f name) = [] := by
      rw [hwritten]
      exact hfile name hm hnot contents
    rw [hafter]
    cases hget : tree.get? (name :: location) with
    | none => rfl
    | some entry =>
      cases entry with
      | directory => exact absurd hget hnot
      | file old => exact (hfile name hm hnot old).symm

theorem flatMap_childrenAt (h : tree.Grows places after) (hup : path.NeverUp)
    (f : FileName → FileEntry → List α)
    (hnew : ∀ name, tree.get? (name :: tree.destination path) = none → f name .directory = [])
    (hfile : ∀ name, name :: tree.destination path ∈ places →
      ¬tree.IsDirectory (name :: tree.destination path) → ∀ contents, f name (.file contents) = []) :
    (after.childrenAt path).flatMap (fun child => f child.1 child.2) =
      (tree.childrenAt path).flatMap (fun child => f child.1 child.2) := by
  rw [childrenAt_eq, childrenAt_eq, h.destination]
  by_cases hafter : after.directoryExists path = true
  · obtain ⟨hr, -⟩ := directoryExists_iff.1 hafter
    have htree : (if tree.directoryExists path = true then tree.children (tree.destination path)
        else []) = tree.children (tree.destination path) := by
      split
      · rfl
      · rename_i hnot
        refine (children_eq_nil fun hd => hnot ?_).symm
        exact directoryExists_iff.2
          ⟨reaches_of_isDirectory hup hr.noNul hr.nonempty hd, hd⟩
    rw [if_pos hafter, htree]
    exact flatMap_children_eq (h.made_eq hnew hfile)
  · have htree : ¬tree.directoryExists path = true := fun hd => hafter <| by
      obtain ⟨hr, hd⟩ := directoryExists_iff.1 hd
      exact directoryExists_iff.2 ⟨h.reaches hr, h.destination path ▸ h.isDirectory hd⟩
    rw [if_neg hafter, if_neg htree]

theorem filterMap_childrenAt (h : tree.Grows places after) (hup : path.NeverUp)
    (f : FileName → FileEntry → Option α)
    (hnew : ∀ name, tree.get? (name :: tree.destination path) = none → f name .directory = none)
    (hfile : ∀ name, name :: tree.destination path ∈ places →
      ¬tree.IsDirectory (name :: tree.destination path) → ∀ contents, f name (.file contents) = none) :
    (after.childrenAt path).filterMap (fun child => f child.1 child.2) =
      (tree.childrenAt path).filterMap (fun child => f child.1 child.2) := by
  rw [List.filterMap_eq_flatMap_toList, List.filterMap_eq_flatMap_toList]
  refine h.flatMap_childrenAt hup (fun name entry => (f name entry).toList)
    (fun name hnone => ?_) fun name hm hnot contents => ?_
  · rw [hnew name hnone, Option.toList_none]
  · rw [hfile name hm hnot contents, Option.toList_none]

end Grows

end ContentTypes.FileTree
