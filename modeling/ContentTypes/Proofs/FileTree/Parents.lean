import ContentTypes.Proofs.FileTree.Reading
import ContentTypes.Proofs.Path.Parent

/-!
# The directory of a file

A file that can be read lies in a directory, and the parent of its path leads there. So making the
directories for it finds nothing to do: `makeDirectories_parent`.
-/

namespace ContentTypes.FileTree

variable {tree : FileTree} {path parent : Path} {name : FileName} {here : Location}

-- ---------------------------------------------------------------------------
-- Steps that stay
-- ---------------------------------------------------------------------------

theorem walks_filter_stay (steps : List Step) :
    tree.Walks here (steps.filter (· ≠ .stay)) ↔ tree.Walks here steps := by
  induction steps generalizing here with
  | nil => rfl
  | cons step rest ih =>
    cases step with
    | stay => simpa [Walks, Step.apply] using ih
    | up => simpa [Walks, Step.apply] using ih
    | down name => simpa [Walks] using fun _ => ih

-- ---------------------------------------------------------------------------
-- Parents
-- ---------------------------------------------------------------------------

theorem Reaches.exists_name (h : tree.Reaches path) {contents : ByteArray}
    (hfile : tree.get? (tree.destination path) = some (.file contents)) :
    ∃ name, path.steps.getLast? = some (.down name) := by
  by_contra hnone
  have hwalks : tree.Walks (tree.origin path) path.steps := by
    rcases List.eq_nil_or_concat path.steps with hnil | ⟨front, last, hsteps⟩
    · rw [hnil]
      trivial
    · rw [List.concat_eq_append] at hsteps
      have hfront : tree.Walks (tree.origin path) front := by simpa [hsteps] using h.walks
      rw [hsteps]
      refine walks_append.2 ⟨hfront, ?_⟩
      cases last with
      | down name => exact absurd ⟨name, by simp [hsteps]⟩ hnone
      | _ => trivial
  have hdir : tree.get? (tree.destination path) = some .directory := hwalks.isDirectory h.origin
  exact nomatch hfile.symm.trans hdir

theorem exists_name_of_readText {text : String} (h : tree.readText path = .ok text) :
    ∃ name, path.steps.getLast? = some (.down name) := by
  obtain ⟨hr, -, contents, hfile, -⟩ := readText_eq_ok_iff.1 h
  exact hr.exists_name hfile

theorem destination_of_name {front : List Step} (h : path.steps = front ++ [.down name]) :
    tree.destination path = name :: front.foldl Step.apply (tree.origin path) := by
  rw [destination, h, List.foldl_append]
  rfl

theorem Reaches.directoryExists_parent (h : tree.Reaches path)
    (hname : path.steps.getLast? = some (.down name))
    (hcomponents : path.components = parent.components ++ [.normal name.text])
    (hne : parent.components ≠ []) : tree.directoryExists parent = true := by
  obtain ⟨front, hsteps⟩ := List.getLast?_eq_some_iff.1 hname
  have hfront : tree.Walks (tree.origin path) front := by simpa [hsteps] using h.walks
  have hlast : Path.Component.step? (.normal name.text) = some (.down name) :=
    Path.ofPiece_text name
  -- a dot is a step and, but for the first, no component
  have hsame : front.filter (· ≠ .stay) = parent.steps.filter (· ≠ .stay) := by
    have hall := path.filter_steps
    rw [hcomponents, List.filterMap_append, List.filterMap_cons_some hlast, List.filterMap_nil,
      ← parent.filter_steps, hsteps, List.filter_append, List.filter_cons_of_pos (by simp)] at hall
    exact List.append_cancel_right hall
  have habsolute : parent.isAbsolute = path.isAbsolute := by
    rw [Bool.eq_iff_iff, Path.isAbsolute_iff_head, Path.isAbsolute_iff_head, hcomponents,
      List.head?_append_of_ne_nil _ hne]
  have horigin : tree.origin parent = tree.origin path := by
    simp only [FileTree.origin, habsolute]
  have hwalks : tree.Walks (tree.origin parent) parent.steps := by
    rw [← walks_filter_stay, ← hsame, walks_filter_stay, horigin]
    exact hfront
  have hdir : tree.IsDirectory (tree.origin parent) := horigin ▸ h.origin
  refine directoryExists_iff.2 ⟨⟨fun hnul => h.noNul ?_, ?_, hdir, ?_⟩, hwalks.isDirectory hdir⟩
  · obtain ⟨component, hm, hc⟩ := (Path.mem_text_iff (by decide) (by decide)).1 hnul
    exact (Path.mem_text_iff (by decide) (by decide)).2 ⟨component, by simp [hcomponents, hm], hc⟩
  · intro hempty
    obtain rfl : parent = ⟨""⟩ := congrArg Path.mk hempty
    exact hne (by decide +kernel)
  · obtain ⟨back, hback⟩ := List.dropLast_prefix parent.steps
    exact (walks_append.1 (hback ▸ hwalks)).1

-- ---------------------------------------------------------------------------
-- Directories that are there
-- ---------------------------------------------------------------------------

theorem makeDirectory_of_directoryExists (h : tree.directoryExists path = true) :
    tree.makeDirectory path = .error .alreadyExists := by
  obtain ⟨hr, hd⟩ := directoryExists_iff.1 h
  obtain ⟨place, hp, hl⟩ := hr.locate
  rw [← hl] at hd
  cases place with
  | directory location =>
    rw [makeDirectory, hp]
    rfl
  | named parent name =>
    have hget : tree.get? (name :: parent.1) = some .directory := hd
    simp only [makeDirectory, hp, bind, Except.bind, hget]
    rfl

theorem makeDirectories_of_directoryExists (hpath : Path.ofComponents path.components = path)
    (h : path.components ≠ [] → tree.directoryExists path = true) :
    tree.makeDirectories path = (tree, .ok ()) := by
  unfold makeDirectories
  rcases List.eq_nil_or_concat path.components with hnil | ⟨before, last, hcomponents⟩
  · rw [hnil]
    rfl
  · rw [List.concat_eq_append] at hcomponents
    have hd := h (by simp [hcomponents])
    have hreverse : path.components.reverse = last :: before.reverse := by simp [hcomponents]
    have hsame : Path.ofComponents (last :: before.reverse).reverse = path := by
      rw [← hreverse, List.reverse_reverse, hpath]
    rw [hreverse]
    simp only [makeAncestors, hsame, makeDirectory_of_directoryExists hd, hd, if_true]

theorem makeDirectories_parent {text : String} (h : tree.readText path = .ok text) :
    tree.makeDirectories (path.parent?.getD ⟨""⟩) = (tree, .ok ()) := by
  obtain ⟨name, hname⟩ := exists_name_of_readText h
  obtain ⟨parent, hparent, hself, hcomponents⟩ := Path.parent?_of_name hname
  have hr := (readText_eq_ok_iff.1 h).1
  rw [hparent, Option.getD_some]
  exact makeDirectories_of_directoryExists hself (hr.directoryExists_parent hname hcomponents)

end ContentTypes.FileTree
