import ContentTypes.Proofs.FileTree.Agreement
import Mathlib.Data.List.Nodup

/-!
# The children of a directory

The children of a directory stand in the order of their names, and are what the tree has below it:
`mem_children_iff`. So what is made from the children of a directory is settled by what is made from
each place below it: `flatMap_children_eq`. Where two trees agree but for some files, and nothing is
made from these, it is the same in both: `Agrees.flatMap_childrenAt`.
-/

namespace ContentTypes

theorem FileName.isAbsolute_text (name : FileName) : (⟨name.text⟩ : Path).isAbsolute = false := by
  cases ha : (⟨name.text⟩ : Path).isAbsolute with
  | false => rfl
  | true =>
    have hhead : name.text.toList.head? = some '/' := by simpa [Path.isAbsolute] using ha
    exact absurd (List.mem_of_head? hhead) name.valid.2.2.2

theorem FileName.pieces_text (name : FileName) : (⟨name.text⟩ : Path).pieces = [name.text] := by
  have hsplit : name.text.toList.splitOn '/' = [name.text.toList] :=
    List.splitOn_eq_singleton name.valid.2.2.2
  simp [Path.pieces, hsplit, name.valid.1]

theorem FileName.steps_text (name : FileName) : (⟨name.text⟩ : Path).steps = [.down name] := by
  simp [Path.steps, name.pieces_text, Path.ofPiece_text]

namespace FileTree

variable {α : Type} {tree other : FileTree} {places : List Location} {location : Location}
  {name : FileName} {entry : FileEntry} {path : Path}

-- ---------------------------------------------------------------------------
-- Names below a place
-- ---------------------------------------------------------------------------

def child? (location : Location) : Location × FileEntry → Option (FileName × FileEntry)
  | (name :: parent, entry) => if parent = location then some (name, entry) else none
  | ([], _) => none

theorem child?_eq_some {found : Location × FileEntry} {child : FileName × FileEntry} :
    child? location found = some child ↔ found = (child.1 :: location, child.2) := by
  obtain ⟨place, entry⟩ := found
  obtain ⟨name, other⟩ := child
  cases place with
  | nil => simp [child?]
  | cons first parent =>
    simp only [child?, Prod.mk.injEq, List.cons.injEq]
    split
    · rename_i hparent
      simp [hparent]
    · rename_i hparent
      simp [hparent]

theorem children_perm :
    (tree.children location).Perm (tree.entries.filterMap (child? location)) := by
  refine (List.mergeSort_perm _ _).trans (.of_eq ?_)
  congr 1
  funext found
  obtain ⟨_ | ⟨first, parent⟩, entry⟩ := found <;> rfl

theorem mem_children_iff :
    (name, entry) ∈ tree.children location ↔ tree.get? (name :: location) = some entry := by
  rw [children_perm.mem_iff, tree.get?_eq_some_iff (List.cons_ne_nil _ _), List.mem_filterMap]
  simp only [child?_eq_some, exists_eq_right]

def childNames (tree : FileTree) (location : Location) : List FileName :=
  (tree.children location).map Prod.fst

theorem mem_childNames_iff :
    name ∈ tree.childNames location ↔ tree.get? (name :: location) ≠ none := by
  simp [childNames, mem_children_iff, Option.ne_none_iff_exists']

theorem nodup_childNames : (tree.childNames location).Nodup := by
  have hentries : tree.entries.Nodup := .of_map _ tree.nodup
  have hchildren : (tree.children location).Nodup := by
    refine children_perm.nodup_iff.2 (List.Nodup.filterMap (fun found found' child h h' => ?_) hentries)
    rw [Option.mem_def, child?_eq_some] at h h'
    rw [h, h']
  refine List.Nodup.map_on ?_ hchildren
  rintro ⟨name, entry⟩ hm ⟨name', entry'⟩ hm' (rfl : name = name')
  rw [Option.some.inj ((mem_children_iff.1 hm).symm.trans (mem_children_iff.1 hm'))]

def inOrder (child other : FileName × FileEntry) : Bool :=
  child.1.text ≤ other.1.text

theorem pairwise_childNames : (tree.childNames location).Pairwise fun a b => a.text ≤ b.text := by
  have htrans : ∀ a b c, inOrder a b = true → inOrder b c = true → inOrder a c = true := by
    simp only [inOrder, decide_eq_true_eq]
    exact fun _ _ _ => String.le_trans
  have htotal : ∀ a b, (inOrder a b || inOrder b a) = true := by
    simp only [inOrder, Bool.or_eq_true, decide_eq_true_eq]
    exact fun a b => String.le_total a.1.text b.1.text
  have hchildren : (tree.children location).Pairwise fun a b => inOrder a b = true :=
    List.pairwise_mergeSort htrans htotal _
  exact List.pairwise_map.2 (hchildren.imp fun h => by simpa [inOrder] using h)

/-- What a function of names and entries makes from what the tree has at a name, if anything. -/
def made (tree : FileTree) (location : Location) (f : FileName → FileEntry → List α)
    (name : FileName) : List α :=
  (tree.get? (name :: location)).elim [] (f name)

theorem made_of_not_isDirectory {f : FileName → FileEntry → List α}
    (h : ¬tree.IsDirectory (name :: location)) (hfile : ∀ contents, f name (.file contents) = []) :
    tree.made location f name = [] := by
  unfold made
  cases hget : tree.get? (name :: location) with
  | none => rfl
  | some entry =>
    cases entry with
    | directory => exact absurd hget h
    | file contents => exact hfile contents

theorem flatMap_children (f : FileName → FileEntry → List α) :
    (tree.children location).flatMap (fun child => f child.1 child.2) =
      ((tree.childNames location).filter fun name => tree.made location f name ≠ []).flatMap
        (tree.made location f) := by
  have hnames : (tree.children location).flatMap (fun child => f child.1 child.2) =
      (tree.childNames location).flatMap (tree.made location f) := by
    rw [childNames, List.flatMap_map]
    refine List.flatMap_congr fun child hm => ?_
    rw [made, mem_children_iff.1 hm, Option.elim_some]
  rw [hnames]
  generalize tree.childNames location = names
  induction names with
  | nil => rfl
  | cons name rest ih =>
    by_cases hmade : tree.made location f name = []
    · simpa [hmade] using ih
    · simpa [hmade] using ih

theorem flatMap_children_eq {f : FileName → FileEntry → List α}
    (h : other.made location f = tree.made location f) :
    (other.children location).flatMap (fun child => f child.1 child.2) =
      (tree.children location).flatMap (fun child => f child.1 child.2) := by
  -- nothing is made from a name that only one of the trees has
  have hthere : ∀ name, tree.made location f name ≠ [] →
      (name ∈ other.childNames location ↔ name ∈ tree.childNames location) := by
    intro name hne
    have hsome : tree.get? (name :: location) ≠ none := fun hnone => hne (by simp [made, hnone])
    have hother : other.get? (name :: location) ≠ none := fun hnone =>
      hne (by rw [← h, made, hnone, Option.elim_none])
    exact iff_of_true (mem_childNames_iff.2 hother) (mem_childNames_iff.2 hsome)
  rw [flatMap_children, flatMap_children, h]
  congr 1
  refine List.Perm.eq_of_pairwise ?_ (pairwise_childNames.filter _) (pairwise_childNames.filter _)
    ((List.perm_ext_iff_of_nodup (nodup_childNames.filter _) (nodup_childNames.filter _)).2 ?_)
  · rintro ⟨text, _⟩ ⟨text', _⟩ - - hle hge
    obtain rfl : text = text' := String.le_antisymm hle hge
    rfl
  · intro name
    simp only [List.mem_filter, decide_eq_true_eq]
    exact and_congr_left (hthere name)

-- ---------------------------------------------------------------------------
-- Children of the directory at a path
-- ---------------------------------------------------------------------------

theorem childrenAt_eq (tree : FileTree) (path : Path) :
    tree.childrenAt path =
      if tree.directoryExists path then tree.children (tree.destination path) else [] := by
  unfold childrenAt
  split
  · rename_i location hp
    obtain ⟨hr, hl⟩ := locate_eq_ok hp
    have hd : tree.IsDirectory (tree.destination path) := hl ▸ location.2
    rw [if_pos (directoryExists_iff.2 ⟨hr, hd⟩), ← hl]
    rfl
  · rename_i parent name hp
    obtain ⟨hr, hl⟩ := locate_eq_ok hp
    have hiff : tree.directoryExists path = true ↔ tree.IsDirectory (name :: parent.1) := by
      rw [directoryExists_iff, ← hl]
      exact and_iff_right hr
    simp only [hiff, ← hl]
    rfl
  · rename_i error hp
    refine (if_neg fun hd => ?_).symm
    obtain ⟨place, hplace, -⟩ := (directoryExists_iff.1 hd).1.locate
    exact nomatch hp.symm.trans hplace

theorem Agrees.flatMap_childrenAt (h : tree.Agrees places other) (path : Path)
    (f : FileName → FileEntry → List α)
    (hfile : ∀ name, name :: tree.destination path ∈ places →
      ∀ contents, f name (.file contents) = []) :
    (other.childrenAt path).flatMap (fun child => f child.1 child.2) =
      (tree.childrenAt path).flatMap (fun child => f child.1 child.2) := by
  rw [childrenAt_eq, childrenAt_eq, h.directoryExists_eq, h.destination]
  split
  · refine flatMap_children_eq (funext fun name => ?_)
    by_cases hp : name :: tree.destination path ∈ places
    · obtain ⟨hnot, hnot'⟩ := h.noDirectory _ hp
      rw [made_of_not_isDirectory hnot (hfile name hp), made_of_not_isDirectory hnot' (hfile name hp)]
    · rw [made, made, h.get? _ hp]
  · rfl

theorem Agrees.filterMap_childrenAt (h : tree.Agrees places other) (path : Path)
    (f : FileName → FileEntry → Option α)
    (hfile : ∀ name, name :: tree.destination path ∈ places →
      ∀ contents, f name (.file contents) = none) :
    (other.childrenAt path).filterMap (fun child => f child.1 child.2) =
      (tree.childrenAt path).filterMap (fun child => f child.1 child.2) := by
  rw [List.filterMap_eq_flatMap_toList, List.filterMap_eq_flatMap_toList]
  refine h.flatMap_childrenAt path (fun name entry => (f name entry).toList) fun name hp contents => ?_
  rw [hfile name hp contents, Option.toList_none]

theorem origin_join_name (tree : FileTree) (path : Path) (name : FileName) :
    tree.origin (path.join ⟨name.text⟩) = tree.origin path := by
  simp only [origin, Path.isAbsolute_join _ _ name.isAbsolute_text]

theorem destination_join_name (tree : FileTree) (path : Path) (name : FileName) :
    tree.destination (path.join ⟨name.text⟩) = name :: tree.destination path := by
  rw [destination_join _ _ name.isAbsolute_text, name.steps_text]
  rfl

theorem reaches_join_name (h : tree.directoryExists path = true)
    (hnul : '\x00' ∉ (path.join ⟨name.text⟩).text.toList) : tree.Reaches (path.join ⟨name.text⟩) := by
  obtain ⟨hr, hd⟩ := directoryExists_iff.1 h
  have hsteps : (path.join ⟨name.text⟩).steps = path.steps ++ [.down name] := by
    rw [Path.steps_join _ _ name.isAbsolute_text, name.steps_text]
  refine ⟨hnul, fun hempty => ?_, origin_join_name tree path name ▸ hr.origin, ?_⟩
  · have hnone : (path.join ⟨name.text⟩).steps = [] := by
      simp [Path.steps, Path.pieces, hempty]
    simp [hsteps] at hnone
  · rw [hsteps, List.dropLast_concat, origin_join_name]
    exact hr.walks_steps hd

theorem endsWithSlash_join_name (path : Path) (name : FileName) :
    (path.join ⟨name.text⟩).endsWithSlash = false := by
  obtain ⟨front, hfront⟩ := Path.text_suffix_join path ⟨name.text⟩
  have hne : name.text.toList ≠ [] := mt String.toList_eq_nil_iff.1 name.valid.1
  cases hs : (path.join ⟨name.text⟩).endsWithSlash with
  | false => rfl
  | true =>
    have hlast : name.text.toList.getLast? = some '/' := by
      simpa [Path.endsWithSlash, ← hfront, List.getLast?_append, hne] using hs
    exact absurd (List.mem_of_getLast? hlast) name.valid.2.2.2

theorem readText_of_nul (h : '\x00' ∈ path.text.toList) :
    tree.readText path = .error .nulInName := by
  simp only [readText, entryAt, locate, h, if_true]
  rfl

end FileTree

end ContentTypes
