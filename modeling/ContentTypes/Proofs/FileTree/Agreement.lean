import ContentTypes.Proofs.FileTree.Growth

/-!
# Trees that agree

Two trees agree but for some places if they have the same at every other place, and no directory at
these. No path leads through such a place, so a path to another one finds the same in both trees:
`Agrees.entryAt_eq_ok`. Writing over a file and removing it give trees that agree with the one before:
`agrees_writeBytes` and `agrees_removeAt`.
-/

namespace ContentTypes.FileTree

variable {tree mid other : FileTree} {places : List Location} {path : Path}

/-- Whether two trees have the same but for files at some places. -/
structure Agrees (tree : FileTree) (places : List Location) (other : FileTree) : Prop where
  workingDirectory : other.workingDirectory = tree.workingDirectory
  get? (location : Location) (h : location ∉ places) : other.get? location = tree.get? location
  noDirectory (location : Location) (h : location ∈ places) :
    ¬tree.IsDirectory location ∧ ¬other.IsDirectory location

namespace Agrees

theorem refl (tree : FileTree) : tree.Agrees [] tree :=
  ⟨rfl, fun _ _ => rfl, fun _ h => nomatch h⟩

theorem symm (h : tree.Agrees places other) : other.Agrees places tree where
  workingDirectory := h.workingDirectory.symm
  get? location hp := (h.get? location hp).symm
  noDirectory location hp := (h.noDirectory location hp).symm

theorem trans (h : tree.Agrees [] mid) (h' : mid.Agrees [] other) : tree.Agrees [] other where
  workingDirectory := h'.workingDirectory.trans h.workingDirectory
  get? location hp := (h'.get? location hp).trans (h.get? location hp)
  noDirectory _ hp := nomatch hp

theorem isDirectory_iff (h : tree.Agrees places other) (location : Location) :
    other.IsDirectory location ↔ tree.IsDirectory location := by
  by_cases hp : location ∈ places
  · exact iff_of_false (h.noDirectory location hp).2 (h.noDirectory location hp).1
  · rw [IsDirectory, IsDirectory, h.get? location hp]

theorem origin (h : tree.Agrees places other) (path : Path) : other.origin path = tree.origin path := by
  simp [FileTree.origin, h.workingDirectory]

theorem destination (h : tree.Agrees places other) (path : Path) :
    other.destination path = tree.destination path := by
  simp [FileTree.destination, h.origin]

theorem walks (h : tree.Agrees places other) {steps : List Step} {here : Location}
    (hw : tree.Walks here steps) : other.Walks here steps := by
  induction steps generalizing here with
  | nil => trivial
  | cons step rest ih =>
    cases step with
    | stay => exact ih hw
    | up => exact ih hw
    | down name => exact ⟨(h.isDirectory_iff _).2 hw.1, ih hw.2⟩

theorem reaches (h : tree.Agrees places other) (hr : tree.Reaches path) : other.Reaches path where
  noNul := hr.noNul
  nonempty := hr.nonempty
  origin := h.origin path ▸ (h.isDirectory_iff _).2 hr.origin
  walks := h.origin path ▸ h.walks hr.walks

theorem entryAt_eq_ok (h : tree.Agrees places other) {entry : FileEntry}
    (he : tree.entryAt path = .ok entry) (hp : tree.destination path ∉ places) :
    other.entryAt path = .ok entry := by
  rw [FileTree.entryAt_eq_ok_iff] at he ⊢
  obtain ⟨hr, hg, hs⟩ := he
  rw [h.destination, h.get? _ hp]
  exact ⟨h.reaches hr, hg, hs⟩

theorem readText_eq (h : tree.Agrees places other) {entry : FileEntry}
    (he : tree.entryAt path = .ok entry) (hp : tree.destination path ∉ places) :
    other.readText path = tree.readText path := by
  rw [readText, readText, h.entryAt_eq_ok he hp, he]

theorem readText_eq_ok (h : tree.Agrees [] other) {text : String}
    (hr : tree.readText path = .ok text) : other.readText path = .ok text := by
  obtain ⟨entry, he, -⟩ := bind_eq_ok.1 hr
  rw [h.readText_eq he List.not_mem_nil, hr]

theorem directoryExists_eq (h : tree.Agrees places other) (path : Path) :
    other.directoryExists path = tree.directoryExists path := by
  rw [Bool.eq_iff_iff, directoryExists_iff, directoryExists_iff, h.destination, h.isDirectory_iff]
  exact and_congr_left fun _ => ⟨h.symm.reaches, h.reaches⟩

theorem fileExists_eq (h : tree.Agrees places other) (hp : tree.destination path ∉ places) :
    other.fileExists path = tree.fileExists path := by
  rw [Bool.eq_iff_iff, fileExists_iff, fileExists_iff, h.destination, h.get? _ hp]
  exact and_congr_left fun _ => ⟨h.symm.reaches, h.reaches⟩

end Agrees

-- ---------------------------------------------------------------------------
-- Writing a file
-- ---------------------------------------------------------------------------

theorem agrees_of_writeBytes {contents : ByteArray} (h : tree.writeBytes path contents = .ok other) :
    tree.Agrees [tree.destination path] other ∧
      other.get? (tree.destination path) = some (.file contents) := by
  obtain ⟨-, -, hnot, hworking, hget⟩ := writeBytes_eq_ok h
  have hwritten : other.get? (tree.destination path) = some (.file contents) := by
    rw [hget, if_pos rfl]
  refine ⟨⟨hworking, fun location hp => ?_, fun location hp => ?_⟩, hwritten⟩
  · rw [hget, if_neg (fun hl => hp (List.mem_singleton.2 hl))]
  · obtain rfl := List.mem_singleton.1 hp
    exact ⟨hnot, fun hd => nomatch hwritten.symm.trans hd⟩

theorem agrees_writeBytes (h : tree.fileExists path = true) (contents : ByteArray) :
    ∃ after, tree.writeBytes path contents = .ok after ∧
      tree.Agrees [tree.destination path] after ∧
      after.get? (tree.destination path) = some (.file contents) := by
  obtain ⟨hr, hs, old, hfile⟩ := fileExists_iff.1 h
  have hnot : ¬tree.IsDirectory (tree.destination path) := fun hd => nomatch hfile.symm.trans hd
  obtain ⟨after, hafter⟩ : ∃ after, tree.writeBytes path contents = .ok after := by
    obtain ⟨place, hp, hl⟩ := hr.locate
    rw [← hl] at hnot
    cases place with
    | directory location => exact absurd location.2 hnot
    | named parent name =>
      have hwritable : ¬(path.endsWithSlash = true ∨ tree.IsDirectory (name :: parent.1)) := by
        simp only [hs, Bool.false_eq_true, false_or]
        exact hnot
      exact ⟨_, bind_eq_ok.2 ⟨_, hp, dif_neg hwritable⟩⟩
  exact ⟨after, hafter, agrees_of_writeBytes hafter⟩

theorem toUTF8_of_fromUTF8? {contents : ByteArray} {text : String}
    (h : String.fromUTF8? contents = some text) : text.toUTF8 = contents := by
  unfold String.fromUTF8? at h
  split at h
  · cases h
    rfl
  · cases h

theorem writeText_of_readText {text : String} (h : tree.readText path = .ok text) :
    ∃ after, tree.writeText path text = .ok after ∧ tree.Agrees [] after := by
  obtain ⟨hr, hs, contents, hfile, htext⟩ := readText_eq_ok_iff.1 h
  obtain ⟨after, hafter, hagrees, hwritten⟩ :=
    agrees_writeBytes (fileExists_iff.2 ⟨hr, hs, contents, hfile⟩) text.toUTF8
  refine ⟨after, hafter, hagrees.workingDirectory, fun location _ => ?_, fun _ hm => nomatch hm⟩
  by_cases hl : location = tree.destination path
  · rw [hl, hwritten, hfile, toUTF8_of_fromUTF8? htext]
  · exact hagrees.get? location (fun hp => hl (List.mem_singleton.1 hp))

-- ---------------------------------------------------------------------------
-- Removing a file
-- ---------------------------------------------------------------------------

theorem get?_remove {place : Location} (hplace : place ≠ []) (location : Location) :
    (tree.remove place).get? location =
      if place <:+ location then none else tree.get? location := by
  by_cases hroot : location = []
  · subst hroot
    simp [FileTree.get?, hplace]
  · have hiff : ∀ entry, (tree.remove place).get? location = some entry ↔
        tree.get? location = some entry ∧ ¬place <:+ location := fun entry => by
      rw [get?_eq_some_iff _ hroot, get?_eq_some_iff _ hroot]
      simp [remove, ← List.isSuffixOf_iff_suffix]
    refine Option.ext fun entry => ?_
    rw [hiff]
    split
    · rename_i hs
      simp [hs]
    · rename_i hs
      simp [hs]

theorem get?_below_file {place location : Location} {contents : ByteArray}
    (h : tree.get? place = some (.file contents)) (hs : place <:+ location)
    (hne : location ≠ place) : tree.get? location = none := by
  induction location with
  | nil => exact absurd (List.suffix_nil.1 hs).symm hne
  | cons name parent ih =>
    have hs : place <:+ parent := (List.suffix_cons_iff.1 hs).resolve_left (Ne.symm hne)
    refine Option.eq_none_iff_forall_ne_some.2 fun entry hentry => ?_
    have hd : tree.get? parent = some .directory := isDirectory_of_get?_cons hentry
    by_cases hp : parent = place
    · rw [hp, h] at hd
      cases hd
    · exact nomatch (ih hs hp).symm.trans hd

theorem agrees_removeAt (h : tree.fileExists path = true) :
    ∃ after, tree.removeAt path = .ok after ∧ tree.Agrees [tree.destination path] after ∧
      after.get? (tree.destination path) = none := by
  obtain ⟨hr, hs, contents, hfile⟩ := fileExists_iff.1 h
  have hentry : tree.entryAt path = .ok (.file contents) :=
    entryAt_eq_ok_iff.2 ⟨hr, hfile, fun hslash => nomatch hs.symm.trans hslash⟩
  have hnot : ¬tree.IsDirectory (tree.destination path) := fun hd => nomatch hfile.symm.trans hd
  have hroot : tree.destination path ≠ [] := fun hl => hnot (hl ▸ tree.isDirectory_nil)
  have hremove : tree.removeAt path = .ok (tree.remove (tree.destination path)) := by
    obtain ⟨place, hp, hl⟩ := hr.locate
    unfold removeAt
    rw [hentry, hp, ← hl]
    cases place <;> rfl
  have hgone : (tree.remove (tree.destination path)).get? (tree.destination path) = none := by
    rw [get?_remove hroot, if_pos List.suffix_rfl]
  refine ⟨_, hremove, ⟨rfl, fun location hp => ?_, fun location hp => ?_⟩, hgone⟩
  · rw [get?_remove hroot]
    split
    · rename_i hbelow
      exact (get?_below_file hfile hbelow fun hl => hp (List.mem_singleton.2 hl)).symm
    · rfl
  · obtain rfl := List.mem_singleton.1 hp
    exact ⟨hnot, fun hd => nomatch hgone.symm.trans hd⟩

end ContentTypes.FileTree
