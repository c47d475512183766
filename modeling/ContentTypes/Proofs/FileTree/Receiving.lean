import ContentTypes.Proofs.FileTree.Agreement

/-!
# Trees that receive contents

`Receives` says what a list of writes leaves of a tree: at each place the contents that were written
there last, and elsewhere what was there before, but that directories may be made where nothing was. It
is closed under doing one list of writes after another: `Receives.trans`. A write that is left out
because a file has its contents already counts as one: `receives_of_readText`.
-/

namespace ContentTypes.FileTree

variable {tree mid after : FileTree} {writes more : List (Location × ByteArray)}
  {location : Location} {contents : ByteArray} {path : Path}

-- ---------------------------------------------------------------------------
-- The last write
-- ---------------------------------------------------------------------------

def lastWritten? (writes : List (Location × ByteArray)) (location : Location) : Option ByteArray :=
  writes.reverse.lookup location

@[simp] theorem lastWritten?_nil : lastWritten? [] location = none := rfl

theorem lastWritten?_append : lastWritten? (writes ++ more) location =
    (lastWritten? more location).or (lastWritten? writes location) := by
  simp [lastWritten?, List.lookup_append]

theorem lastWritten?_singleton {place : Location} : lastWritten? [(place, contents)] location =
    if location = place then some contents else none := by
  by_cases h : location = place
  · simp [lastWritten?, h]
  · have hne : (location == place) = false := by simpa using h
    simp [lastWritten?, List.lookup_cons, h, hne]

theorem mem_of_lastWritten? (h : lastWritten? writes location = some contents) :
    location ∈ writes.map Prod.fst := by
  obtain ⟨front, back, hwrites, -⟩ := List.lookup_eq_some_iff.1 h
  have hmem : (location, contents) ∈ writes.reverse := by simp [hwrites]
  exact List.mem_map.2 ⟨_, List.mem_reverse.1 hmem, rfl⟩

-- ---------------------------------------------------------------------------
-- Receiving
-- ---------------------------------------------------------------------------

/-- What becomes of a tree when contents are written one after the other and directories are made. -/
structure Receives (tree : FileTree) (writes : List (Location × ByteArray)) (after : FileTree) :
    Prop where
  workingDirectory : after.workingDirectory = tree.workingDirectory
  /-- Contents are never written over a directory, and the last ones stay. -/
  written (location : Location) (contents : ByteArray)
    (h : lastWritten? writes location = some contents) :
    ¬tree.IsDirectory location ∧ after.get? location = some (.file contents)
  /-- Elsewhere nothing changes but that a directory may be made where nothing was. -/
  kept (location : Location) (h : lastWritten? writes location = none) :
    after.get? location = tree.get? location ∨
      (tree.get? location = none ∧ after.IsDirectory location)

theorem receives_of_grows (h : tree.Grows [] after) : tree.Receives [] after where
  workingDirectory := h.workingDirectory
  written := by simp
  kept location _ := by
    rcases h.get? location with hsame | hmade | ⟨hm, -⟩
    · exact .inl hsame
    · exact .inr hmade
    · exact nomatch hm

namespace Receives

theorem isDirectory (h : tree.Receives writes after) (hd : tree.IsDirectory location) :
    after.IsDirectory location := by
  cases hlast : lastWritten? writes location with
  | some contents => exact absurd hd (h.written location contents hlast).1
  | none =>
    rcases h.kept location hlast with hsame | ⟨-, hmade⟩
    · exact hsame.trans hd
    · exact hmade

theorem exists_file (h : tree.Receives writes after)
    (hfile : tree.get? location = some (.file contents)) :
    ∃ current, after.get? location = some (.file current) := by
  cases hlast : lastWritten? writes location with
  | some written => exact ⟨written, (h.written location written hlast).2⟩
  | none =>
    rcases h.kept location hlast with hsame | ⟨hnone, -⟩
    · exact ⟨contents, hsame.trans hfile⟩
    · exact nomatch hfile.symm.trans hnone

theorem trans (h : tree.Receives writes mid) (h' : mid.Receives more after) :
    tree.Receives (writes ++ more) after where
  workingDirectory := h'.workingDirectory.trans h.workingDirectory
  written location contents hlast := by
    rw [lastWritten?_append] at hlast
    cases hmore : lastWritten? more location with
    | some later =>
      obtain rfl : later = contents := by simpa [hmore] using hlast
      -- a directory of the first tree would still be one when the later write comes
      obtain ⟨hnot, hthere⟩ := h'.written location later hmore
      exact ⟨fun hd => hnot (h.isDirectory hd), hthere⟩
    | none =>
      have hearlier : lastWritten? writes location = some contents := by simpa [hmore] using hlast
      obtain ⟨hnot, hthere⟩ := h.written location contents hearlier
      rcases h'.kept location hmore with hsame | ⟨hnone, -⟩
      · exact ⟨hnot, hsame.trans hthere⟩
      -- no directory is made where the earlier contents are
      · exact nomatch hthere.symm.trans hnone
  kept location hlast := by
    rw [lastWritten?_append, Option.or_eq_none_iff] at hlast
    rcases h.kept location hlast.2 with hsame | ⟨hnone, hmade⟩
    · rcases h'.kept location hlast.1 with hsame' | ⟨hnone', hmade'⟩
      · exact .inl (hsame'.trans hsame)
      · exact .inr ⟨hsame.symm.trans hnone', hmade'⟩
    · exact .inr ⟨hnone, h'.isDirectory hmade⟩

theorem destination (h : tree.Receives writes after) (path : Path) :
    after.destination path = tree.destination path := by
  simp [FileTree.destination, FileTree.origin, h.workingDirectory]

theorem grows (h : tree.Receives writes after) : tree.Grows (writes.map Prod.fst) after where
  workingDirectory := h.workingDirectory
  get? location := by
    cases hlast : lastWritten? writes location with
    | some contents =>
      obtain ⟨hnot, hthere⟩ := h.written location contents hlast
      exact .inr (.inr ⟨mem_of_lastWritten? hlast, hnot, contents, hthere⟩)
    | none =>
      rcases h.kept location hlast with hsame | hmade
      · exact .inl hsame
      · exact .inr (.inl hmade)

end Receives

-- ---------------------------------------------------------------------------
-- Texts
-- ---------------------------------------------------------------------------

theorem receives_of_get? (hworking : after.workingDirectory = tree.workingDirectory)
    (hnot : ¬tree.IsDirectory location)
    (hget : ∀ place, after.get? place =
      if place = location then some (.file contents) else tree.get? place) :
    tree.Receives [(location, contents)] after where
  workingDirectory := hworking
  written place current hlast := by
    rw [lastWritten?_singleton] at hlast
    split at hlast
    · rename_i hplace
      subst hplace
      cases hlast
      exact ⟨hnot, by simp [hget]⟩
    · cases hlast
  kept place hlast := by
    rw [lastWritten?_singleton] at hlast
    split at hlast
    · cases hlast
    · rename_i hplace
      exact .inl (by simp [hget, hplace])

theorem receives_of_writeText {text : String} (h : tree.writeText path text = .ok after) :
    tree.Receives [(tree.destination path, text.toUTF8)] after := by
  obtain ⟨-, -, hnot, hworking, hget⟩ := writeText_eq_ok h
  exact receives_of_get? hworking hnot hget

theorem receives_of_readText {text : String} (h : tree.readText path = .ok text) :
    tree.Receives [(tree.destination path, text.toUTF8)] tree := by
  obtain ⟨-, -, contents, hfile, htext⟩ := readText_eq_ok_iff.1 h
  rw [toUTF8_of_fromUTF8? htext]
  refine receives_of_get? rfl (fun hd => nomatch hfile.symm.trans hd) fun place => ?_
  split
  · rename_i hplace
    rw [hplace, hfile]
  · rfl

end ContentTypes.FileTree
