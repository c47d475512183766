import ContentTypes.Proofs.FileTree.Reading

/-!
# Growing trees

Making directories and writing files only lets a tree grow: no directory is lost, and no file but those
that are written changes. `Grows` says this of any number of such changes, also of those that fail; what
is read of a file stays the same unless it is one of the written ones: `Grows.readText`.
-/

namespace ContentTypes.FileTree

variable {tree mid after : FileTree} {path : Path} {places others : List Location}

/-- What may become of a tree when directories are made and files are written at some places. -/
structure Grows (tree : FileTree) (places : List Location) (after : FileTree) : Prop where
  workingDirectory : after.workingDirectory = tree.workingDirectory
  get? (location : Location) :
    after.get? location = tree.get? location ∨
      (tree.get? location = none ∧ after.IsDirectory location) ∨
      (location ∈ places ∧ ¬tree.IsDirectory location ∧
        ∃ contents, after.get? location = some (.file contents))

namespace Grows

theorem refl (tree : FileTree) : tree.Grows [] tree :=
  ⟨rfl, fun _ => .inl rfl⟩

theorem isDirectory (h : tree.Grows places after) {location : Location}
    (hd : tree.IsDirectory location) : after.IsDirectory location := by
  rcases h.get? location with hs | ⟨hn, _⟩ | ⟨_, hnot, _⟩
  · exact hs.trans hd
  · exact absurd (hd.symm.trans hn) nofun
  · exact absurd hd hnot

theorem get?_eq_some (h : tree.Grows places after) {location : Location} {entry : FileEntry}
    (hg : tree.get? location = some entry) (hp : location ∉ places) :
    after.get? location = some entry := by
  rcases h.get? location with hs | ⟨hn, _⟩ | ⟨hm, _⟩
  · exact hs.trans hg
  · exact absurd (hg.symm.trans hn) nofun
  · exact absurd hm hp

theorem trans (h : tree.Grows places mid) (h' : mid.Grows others after) :
    tree.Grows (places ++ others) after := by
  refine ⟨h'.workingDirectory.trans h.workingDirectory, fun location => ?_⟩
  rcases h.get? location with hs | ⟨hn, hd⟩ | ⟨hm, hnot, contents, hc⟩
  · rcases h'.get? location with hs' | ⟨hn', hd'⟩ | ⟨hm', hnot', hc'⟩
    · exact .inl (hs'.trans hs)
    · exact .inr (.inl ⟨hs ▸ hn', hd'⟩)
    · exact .inr (.inr ⟨List.mem_append_right _ hm', fun hd => hnot' (hs.trans hd), hc'⟩)
  · exact .inr (.inl ⟨hn, h'.isDirectory hd⟩)
  · refine .inr (.inr ⟨List.mem_append_left _ hm, hnot, ?_⟩)
    rcases h'.get? location with hs' | ⟨hn', _⟩ | ⟨_, _, hc'⟩
    · exact ⟨contents, hs'.trans hc⟩
    · exact absurd (hc.symm.trans hn') nofun
    · exact hc'

theorem mono (h : tree.Grows places after) (hsub : places ⊆ others) : tree.Grows others after := by
  refine ⟨h.workingDirectory, fun location => ?_⟩
  rcases h.get? location with hs | hd | ⟨hm, hw⟩
  · exact .inl hs
  · exact .inr (.inl hd)
  · exact .inr (.inr ⟨hsub hm, hw⟩)

theorem origin (h : tree.Grows places after) (path : Path) : after.origin path = tree.origin path := by
  simp [FileTree.origin, h.workingDirectory]

theorem destination (h : tree.Grows places after) (path : Path) :
    after.destination path = tree.destination path := by
  simp [FileTree.destination, h.origin]

theorem walks (h : tree.Grows places after) {steps : List Step} {here : Location}
    (hw : tree.Walks here steps) : after.Walks here steps := by
  induction steps generalizing here with
  | nil => trivial
  | cons step rest ih =>
    cases step with
    | stay => exact ih hw
    | up => exact ih hw
    | down name => exact ⟨h.isDirectory hw.1, ih hw.2⟩

theorem reaches (h : tree.Grows places after) (hr : tree.Reaches path) : after.Reaches path where
  noNul := hr.noNul
  nonempty := hr.nonempty
  origin := h.origin path ▸ h.isDirectory hr.origin
  walks := h.origin path ▸ h.walks hr.walks

theorem readText (h : tree.Grows places after) {text : String} (hr : tree.readText path = .ok text)
    (hp : tree.destination path ∉ places) : after.readText path = .ok text := by
  rw [readText_eq_ok_iff] at hr ⊢
  obtain ⟨hreach, hs, contents, hg, ht⟩ := hr
  exact ⟨h.reaches hreach, hs, contents, h.destination path ▸ h.get?_eq_some hg hp, ht⟩

end Grows

-- ---------------------------------------------------------------------------
-- Making directories
-- ---------------------------------------------------------------------------

theorem makeDirectory_grows (h : tree.makeDirectory path = .ok after) : tree.Grows [] after := by
  obtain ⟨place, -, h⟩ := bind_eq_ok.1 h
  cases place with
  | directory location => simp at h
  | named parent name =>
    cases hg : tree.get? (name :: parent.1) with
    | some found => simp [hg] at h
    | none =>
      simp only [hg, pure_eq_ok] at h
      subst h
      refine ⟨rfl, fun location => ?_⟩
      by_cases hl : location = name :: parent.1
      · exact .inr (.inl ⟨hl ▸ hg, by simp [IsDirectory, hl]⟩)
      · exact .inl (by simp [hl])

theorem ensureDirectory_grows (tree : FileTree) (path : Path) :
    tree.Grows [] (tree.ensureDirectory path).1 := by
  unfold ensureDirectory
  cases h : tree.makeDirectory path with
  | ok after => exact makeDirectory_grows h
  | error error => exact .refl tree

theorem makeAncestors_grows (tree : FileTree) (components : List Path.Component) :
    tree.Grows [] (tree.makeAncestors components).1 := by
  induction components with
  | nil => exact .refl tree
  | cons last before ih =>
    unfold makeAncestors
    simp only
    split
    · rename_i after h
      exact makeDirectory_grows h
    · generalize tree.makeAncestors before = made at ih
      obtain ⟨mid, result⟩ := made
      cases result with
      | ok u => exact ih.trans (mid.ensureDirectory_grows _)
      | error error => exact ih
    · exact .refl tree

theorem makeDirectories_grows (tree : FileTree) (path : Path) :
    tree.Grows [] (tree.makeDirectories path).1 :=
  tree.makeAncestors_grows path.components.reverse

-- ---------------------------------------------------------------------------
-- Writing
-- ---------------------------------------------------------------------------

theorem writeBytes_eq_ok {contents : ByteArray} (h : tree.writeBytes path contents = .ok after) :
    tree.Reaches path ∧ path.endsWithSlash = false ∧ ¬tree.IsDirectory (tree.destination path) ∧
      after.workingDirectory = tree.workingDirectory ∧
      ∀ location, after.get? location =
        if location = tree.destination path then some (.file contents) else tree.get? location := by
  obtain ⟨place, hp, h⟩ := bind_eq_ok.1 h
  obtain ⟨hr, hl⟩ := locate_eq_ok hp
  cases place with
  | directory location => simp at h
  | named parent name =>
    simp only [Place.location] at hl
    simp only at h
    split at h
    · simp at h
    · rename_i hn
      simp only [not_or, Bool.not_eq_true] at hn
      simp only [pure_eq_ok] at h
      subst h
      exact ⟨hr, hn.1, hl ▸ hn.2, rfl, fun location => by simp [hl]⟩

theorem writeText_eq_ok {text : String} (h : tree.writeText path text = .ok after) :
    tree.Reaches path ∧ path.endsWithSlash = false ∧ ¬tree.IsDirectory (tree.destination path) ∧
      after.workingDirectory = tree.workingDirectory ∧
      ∀ location, after.get? location =
        if location = tree.destination path then some (.file text.toUTF8) else tree.get? location :=
  writeBytes_eq_ok h

theorem writeText_grows {text : String} (h : tree.writeText path text = .ok after) :
    tree.Grows [tree.destination path] after := by
  obtain ⟨-, -, hd, hw, hg⟩ := writeText_eq_ok h
  refine ⟨hw, fun location => ?_⟩
  by_cases hl : location = tree.destination path
  · exact .inr (.inr ⟨List.mem_singleton.2 hl, hl ▸ hd, _, by rw [hg, if_pos hl]⟩)
  · exact .inl (by rw [hg, if_neg hl])

theorem readText_writeText {text : String} (h : tree.writeText path text = .ok after) :
    after.readText path = .ok text := by
  have hgrows := writeText_grows h
  obtain ⟨hr, hs, -, -, hg⟩ := writeText_eq_ok h
  refine readText_eq_ok_iff.2 ⟨hgrows.reaches hr, hs, text.toUTF8, ?_, fromUTF8?_toUTF8 text⟩
  rw [hg, if_pos (hgrows.destination path)]

end ContentTypes.FileTree
