import ContentTypes.Path

/-!
# File trees

A finite tree of directories and files, with a working directory from which relative paths start.
A place in the tree is given by the names that lead to it, the innermost first. Every entry lies in a
directory of the tree, and no place has two entries; the root is a directory without an entry.

Names are Unicode text. Names of other bytes, and the conversions that would be lossy or fail on them,
have no counterpart here, and neither have links and permissions: an entry is a directory or a file.

`insert` and `remove` are the only operations that change a tree. What they do is said by `get?`.
-/

namespace ContentTypes

def IsFileName (text : String) : Prop :=
  text ≠ "" ∧ text ≠ "." ∧ text ≠ ".." ∧ '/' ∉ text.toList

instance (text : String) : Decidable (IsFileName text) :=
  inferInstanceAs (Decidable (_ ∧ _ ∧ _ ∧ _))

structure FileName where
  text : String
  valid : IsFileName text
  deriving DecidableEq

/-- The names on the way to a place, the innermost first. -/
abbrev Location := List FileName

inductive FileEntry where
  | directory
  | file (contents : ByteArray)

instance : DecidableEq FileEntry
  | .directory, .directory => isTrue rfl
  | .directory, .file _ | .file _, .directory => isFalse (by simp)
  | .file a, .file b =>
    decidable_of_iff (a.data = b.data) (by rw [FileEntry.file.injEq, ByteArray.ext_iff])

def IsDirectoryAmong (entries : List (Location × FileEntry)) (location : Location) : Prop :=
  location = [] ∨ (location, FileEntry.directory) ∈ entries

instance (entries : List (Location × FileEntry)) (location : Location) :
    Decidable (IsDirectoryAmong entries location) :=
  inferInstanceAs (Decidable (_ ∨ _))

structure FileTree where
  entries : List (Location × FileEntry)
  workingDirectory : Location
  nodup : (entries.map Prod.fst).Nodup
  rootless : [] ∉ entries.map Prod.fst
  closed : ∀ name location, name :: location ∈ entries.map Prod.fst →
    IsDirectoryAmong entries location

namespace FileTree

def root : FileTree where
  entries := []
  workingDirectory := []
  nodup := by simp
  rootless := by simp
  closed := by simp

def get? (tree : FileTree) (location : Location) : Option FileEntry :=
  if location = [] then some .directory else tree.entries.lookup location

def IsDirectory (tree : FileTree) (location : Location) : Prop :=
  tree.get? location = some .directory

instance (tree : FileTree) (location : Location) : Decidable (tree.IsDirectory location) :=
  inferInstanceAs (Decidable (_ = _))

theorem lookup_eq_some_of_mem {entries : List (Location × FileEntry)}
    (h : (entries.map Prod.fst).Nodup) {location : Location} {entry : FileEntry}
    (hm : (location, entry) ∈ entries) : entries.lookup location = some entry := by
  induction entries with
  | nil => simp at hm
  | cons first rest ih =>
    obtain ⟨place, other⟩ := first
    simp only [List.map_cons, List.nodup_cons] at h
    rcases List.mem_cons.1 hm with he | hr
    · cases he
      simp
    · have hne : location ≠ place := by
        rintro rfl
        exact h.1 (List.mem_map.2 ⟨_, hr, rfl⟩)
      have hb : (location == place) = false := by simp [hne]
      simp only [List.lookup_cons, hb]
      exact ih h.2 hr

theorem mem_of_lookup_eq_some {entries : List (Location × FileEntry)} {location : Location}
    {entry : FileEntry} (h : entries.lookup location = some entry) :
    (location, entry) ∈ entries := by
  induction entries with
  | nil => simp at h
  | cons first rest ih =>
    obtain ⟨place, other⟩ := first
    by_cases hp : location = place
    · subst hp
      simp at h
      simp [h]
    · have hb : (location == place) = false := by simp [hp]
      simp only [List.lookup_cons, hb] at h
      exact List.mem_cons_of_mem _ (ih h)

theorem get?_eq_some_iff (tree : FileTree) {location : Location} (h : location ≠ [])
    {entry : FileEntry} :
    tree.get? location = some entry ↔ (location, entry) ∈ tree.entries := by
  simp only [get?, h, if_false]
  exact ⟨mem_of_lookup_eq_some, lookup_eq_some_of_mem tree.nodup⟩

theorem isDirectory_iff (tree : FileTree) (location : Location) :
    tree.IsDirectory location ↔ IsDirectoryAmong tree.entries location := by
  by_cases h : location = []
  · simp [IsDirectory, get?, IsDirectoryAmong, h]
  · simp only [IsDirectory, IsDirectoryAmong, h, false_or]
    exact get?_eq_some_iff tree h

theorem isDirectory_of_get?_cons {tree : FileTree} {name : FileName} {location : Location}
    {entry : FileEntry} (h : tree.get? (name :: location) = some entry) :
    tree.IsDirectory location := by
  rw [isDirectory_iff]
  rw [get?_eq_some_iff tree (by simp)] at h
  exact tree.closed name location (List.mem_map.2 ⟨_, h, rfl⟩)

/-- Puts an entry into a directory, in place of a file of that name if there is one. A directory may
only be replaced by a directory. -/
def insert (tree : FileTree) (name : FileName) (parent : Location) (entry : FileEntry)
    (hparent : tree.IsDirectory parent)
    (hentry : ¬tree.IsDirectory (name :: parent) ∨ entry = .directory) : FileTree where
  entries := (name :: parent, entry) :: tree.entries.filter (·.1 ≠ name :: parent)
  workingDirectory := tree.workingDirectory
  nodup := by
    simp only [List.map_cons, List.nodup_cons]
    refine ⟨?_, tree.nodup.sublist ((List.filter_sublist).map _)⟩
    simp
  rootless := by
    have h := tree.rootless
    simp only [List.map_cons, List.mem_cons, List.mem_map, List.mem_filter, not_or, not_exists]
    refine ⟨by simp, fun pair ⟨⟨hm, _⟩, hn⟩ => h (List.mem_map.2 ⟨pair, hm, hn⟩)⟩
  closed := by
    intro other place hm
    have hdir : IsDirectoryAmong tree.entries place := by
      simp only [List.map_cons, List.mem_cons, List.mem_map, List.mem_filter] at hm
      rcases hm with he | ⟨pair, ⟨hm, _⟩, hn⟩
      · cases he
        exact (isDirectory_iff tree parent).1 hparent
      · exact tree.closed other place (List.mem_map.2 ⟨pair, hm, hn⟩)
    rcases hdir with hroot | hm
    · exact .inl hroot
    · refine .inr ?_
      by_cases hp : place = name :: parent
      · subst hp
        rcases hentry with hnot | rfl
        · exact absurd ((isDirectory_iff tree _).2 (.inr hm)) hnot
        · simp
      · exact List.mem_cons_of_mem _ (List.mem_filter.2 ⟨hm, by simpa using hp⟩)

theorem lookup_filter_ne (entries : List (Location × FileEntry)) {location place : Location}
    (h : location ≠ place) :
    (entries.filter (·.1 ≠ place)).lookup location = entries.lookup location := by
  induction entries with
  | nil => rfl
  | cons first rest ih =>
    obtain ⟨other, entry⟩ := first
    by_cases hp : other = place
    · subst hp
      have hb : (location == other) = false := by simp [h]
      simpa [List.lookup_cons, hb] using ih
    · simp only [List.filter_cons, ne_eq, hp, not_false_eq_true, decide_true, if_true]
      simp only [List.lookup_cons]
      split
      · rfl
      · simpa using ih

@[simp] theorem get?_insert (tree : FileTree) (name : FileName) (parent : Location)
    (entry : FileEntry) (hparent hentry) (location : Location) :
    (tree.insert name parent entry hparent hentry).get? location =
      if location = name :: parent then some entry else tree.get? location := by
  by_cases hroot : location = []
  · simp [get?, hroot]
  · simp only [get?, hroot, if_false, insert]
    by_cases h : location = name :: parent
    · simp [h]
    · have hb : (location == name :: parent) = false := by simpa using h
      simp only [List.lookup_cons, hb, h, if_false]
      exact lookup_filter_ne _ h

def remove (tree : FileTree) (place : Location) : FileTree where
  entries := tree.entries.filter fun entry => !place.isSuffixOf entry.1
  workingDirectory := tree.workingDirectory
  nodup := tree.nodup.sublist ((List.filter_sublist).map _)
  rootless := by
    intro h
    obtain ⟨pair, hm, hn⟩ := List.mem_map.1 h
    exact tree.rootless (List.mem_map.2 ⟨pair, (List.mem_filter.1 hm).1, hn⟩)
  closed := by
    intro name location h
    obtain ⟨⟨there, entry⟩, hm, rfl⟩ := List.mem_map.1 h
    obtain ⟨hm, hkept⟩ := List.mem_filter.1 hm
    rcases tree.closed name location (List.mem_map.2 ⟨_, hm, rfl⟩) with hroot | hdir
    · exact .inl hroot
    · refine .inr (List.mem_filter.2 ⟨hdir, ?_⟩)
      simp only [Bool.not_eq_true', List.isSuffixOf_iff_suffix, ← Bool.not_eq_true] at hkept ⊢
      exact fun hs => hkept (hs.trans (List.suffix_cons _ _))

def children (tree : FileTree) (location : Location) : List (FileName × FileEntry) :=
  (tree.entries.filterMap fun (place, entry) =>
    match place with
    | name :: parent => if parent = location then some (name, entry) else none
    | [] => none).mergeSort fun a b => a.1.text ≤ b.1.text

end FileTree

end ContentTypes
