import ContentTypes.Proofs.Outcome
import ContentTypes.Proofs.Path.Join

/-!
# Where a path leads

The place to which a path leads is a matter of names alone: `destination`. Whether the way there can be
gone depends on the directories on it: `Reaches`. With the two, reading by path is looking up a place:
`entryAt_eq_ok_iff` and `readText_eq_ok_iff`.
-/

namespace ContentTypes

def Step.apply (here : Location) : Step → Location
  | .stay => here
  | .up => here.tail
  | .down name => name :: here

theorem Path.GoesDown.foldl_steps {path : Path} (h : path.GoesDown) (here : Location) :
    path.steps.foldl Step.apply here = path.names.reverse ++ here := by
  have hup := Path.up_not_mem_steps h.not_mem_pieces
  unfold Path.names
  generalize path.steps = steps at hup
  induction steps generalizing here with
  | nil => rfl
  | cons step rest ih =>
    simp only [List.mem_cons, not_or] at hup
    cases step with
    | stay => simpa [Step.apply] using ih here hup.2
    | up => exact absurd rfl hup.1
    | down name => simpa [Step.apply] using ih (name :: here) hup.2

namespace FileTree

variable {tree : FileTree} {path : Path}

def origin (tree : FileTree) (path : Path) : Location :=
  if path.isAbsolute then [] else tree.workingDirectory

/-- Where a path leads, whatever is there. -/
def destination (tree : FileTree) (path : Path) : Location :=
  path.steps.foldl Step.apply (tree.origin path)

theorem destination_join (tree : FileTree) (directory : Path) (h : path.isAbsolute = false) :
    tree.destination (directory.join path) =
      path.steps.foldl Step.apply (tree.destination directory) := by
  simp only [destination, origin, Path.steps_join _ _ h, Path.isAbsolute_join _ _ h,
    List.foldl_append]

/-- The directories to which steps down lead are there. -/
def Walks (tree : FileTree) (here : Location) : List Step → Prop
  | [] => True
  | .down name :: rest => tree.IsDirectory (name :: here) ∧ tree.Walks (name :: here) rest
  | step :: rest => tree.Walks (step.apply here) rest

/-- The way to the last name of a path can be gone. -/
structure Reaches (tree : FileTree) (path : Path) : Prop where
  noNul : '\x00' ∉ path.text.toList
  nonempty : path.text ≠ ""
  origin : tree.IsDirectory (tree.origin path)
  walks : tree.Walks (tree.origin path) path.steps.dropLast

-- ---------------------------------------------------------------------------
-- Going
-- ---------------------------------------------------------------------------

theorem step_down_eq_ok_iff {here there : tree.Directory} {name : FileName} :
    tree.step here (.down name) = .ok there ↔
      tree.IsDirectory (name :: here.1) ∧ there.1 = name :: here.1 := by
  simp only [step]
  split
  · rename_i hd
    constructor
    · intro h
      cases h
      exact ⟨hd, rfl⟩
    · rintro ⟨_, ht⟩
      exact congrArg Except.ok (Subtype.ext ht.symm)
  · rename_i hf
    simp [IsDirectory, hf]
  · rename_i hn
    simp [IsDirectory, hn]

theorem foldlM_step_eq_ok_iff {steps : List Step} {here there : tree.Directory} :
    steps.foldlM tree.step here = .ok there ↔
      tree.Walks here.1 steps ∧ there.1 = steps.foldl Step.apply here.1 := by
  induction steps generalizing here with
  | nil =>
    simp only [List.foldlM_nil, pure_eq_ok, Walks, true_and, List.foldl_nil]
    exact ⟨fun h => h ▸ rfl, fun h => Subtype.ext h.symm⟩
  | cons step rest ih =>
    simp only [List.foldlM_cons, bind_eq_ok, List.foldl_cons]
    cases step with
    | stay => simp [FileTree.step, Walks, Step.apply, ih]
    | up => simp [FileTree.step, Walks, Step.apply, ih]
    | down name =>
      simp only [step_down_eq_ok_iff, Walks, Step.apply, ih]
      constructor
      · rintro ⟨next, ⟨hd, hn⟩, hw, ht⟩
        exact ⟨⟨hd, hn ▸ hw⟩, hn ▸ ht⟩
      · rintro ⟨⟨hd, hw⟩, ht⟩
        exact ⟨⟨name :: here.1, hd⟩, ⟨hd, rfl⟩, hw, ht⟩

theorem Walks.isDirectory {steps : List Step} {here : Location} (h : tree.Walks here steps)
    (hd : tree.IsDirectory here) : tree.IsDirectory (steps.foldl Step.apply here) := by
  induction steps generalizing here with
  | nil => exact hd
  | cons step rest ih =>
    cases step with
    | stay => exact ih h hd
    | up => exact ih h (isDirectory_tail hd)
    | down name => exact ih h.2 h.1

theorem walks_append {front back : List Step} {here : Location} :
    tree.Walks here (front ++ back) ↔
      tree.Walks here front ∧ tree.Walks (front.foldl Step.apply here) back := by
  induction front generalizing here with
  | nil => exact (and_iff_right trivial).symm
  | cons step rest ih =>
    cases step with
    | stay => exact ih
    | up => exact ih
    | down name =>
      rw [List.cons_append]
      simp only [Walks, ih, and_assoc]
      rfl

theorem Reaches.walks_steps (h : tree.Reaches path) (hd : tree.IsDirectory (tree.destination path)) :
    tree.Walks (tree.origin path) path.steps := by
  rcases List.eq_nil_or_concat path.steps with hnil | ⟨front, last, hsteps⟩
  · rw [hnil]
    trivial
  · rw [List.concat_eq_append] at hsteps
    have hfront : tree.Walks (tree.origin path) front := by simpa [hsteps] using h.walks
    rw [hsteps, walks_append]
    refine ⟨hfront, ?_⟩
    cases last with
    | down name => exact ⟨by simpa [destination, hsteps, Step.apply] using hd, trivial⟩
    | _ => trivial

theorem start_eq_ok_iff {here : tree.Directory} :
    tree.start path = .ok here ↔ here.1 = tree.origin path := by
  unfold start origin
  split
  · exact ⟨fun h => by cases h; rfl, fun h => congrArg Except.ok (Subtype.ext h.symm)⟩
  · split
    · exact ⟨fun h => by cases h; rfl, fun h => congrArg Except.ok (Subtype.ext h.symm)⟩
    · rename_i hd
      exact ⟨fun h => (nomatch h), fun h => absurd (h ▸ here.2) hd⟩

def Place.location : tree.Place → Location
  | .directory location => location.1
  | .named parent name => name :: parent.1

theorem locate_eq_ok {place : tree.Place} (h : tree.locate path = .ok place) :
    tree.Reaches path ∧ place.location = tree.destination path := by
  unfold locate at h
  by_cases hnul : '\x00' ∈ path.text.toList
  · simp [hnul, bind_eq_ok] at h
  by_cases hempty : path.text = ""
  · simp [hempty, bind_eq_ok] at h
  simp only [hnul, hempty, if_false] at h
  obtain ⟨here, hs, h⟩ := bind_eq_ok.1 h
  rw [start_eq_ok_iff] at hs
  have hd : tree.IsDirectory (tree.origin path) := hs ▸ here.2
  cases hlast : path.steps.getLast? with
  | none =>
    have hnone : path.steps = [] := List.getLast?_eq_none_iff.1 hlast
    simp only [hlast, pure_eq_ok] at h
    subst h
    exact ⟨⟨hnul, hempty, hd, by simp [hnone, Walks]⟩, by
      simp [Place.location, destination, hnone, hs]⟩
  | some last =>
    simp only [hlast] at h
    obtain ⟨parent, hp, h⟩ := bind_eq_ok.1 h
    rw [foldlM_step_eq_ok_iff, hs] at hp
    have hend : last.apply parent.1 = tree.destination path := by
      obtain ⟨front, hf⟩ := List.getLast?_eq_some_iff.1 hlast
      simp [destination, hf, hp.2]
    refine ⟨⟨hnul, hempty, hd, hp.1⟩, ?_⟩
    rw [← hend]
    cases last with
    | down name => cases h; rfl
    | stay => cases h; rfl
    | up => cases h; rfl

theorem Reaches.locate (h : tree.Reaches path) :
    ∃ place, tree.locate path = .ok place ∧ place.location = tree.destination path := by
  suffices hex : ∃ place, tree.locate path = .ok place by
    obtain ⟨place, hp⟩ := hex
    exact ⟨place, hp, (locate_eq_ok hp).2⟩
  have hs : tree.start path = .ok ⟨tree.origin path, h.origin⟩ := start_eq_ok_iff.2 rfl
  unfold FileTree.locate
  simp only [h.noNul, h.nonempty, if_false]
  cases hlast : path.steps.getLast? with
  | none => exact ⟨_, bind_eq_ok.2 ⟨_, hs, rfl⟩⟩
  | some last =>
    have hp : path.steps.dropLast.foldlM tree.step ⟨tree.origin path, h.origin⟩ =
        .ok ⟨_, h.walks.isDirectory h.origin⟩ := foldlM_step_eq_ok_iff.2 ⟨h.walks, rfl⟩
    cases last with
    | down name => exact ⟨_, bind_eq_ok.2 ⟨_, hs, bind_eq_ok.2 ⟨_, hp, rfl⟩⟩⟩
    | stay => exact ⟨_, bind_eq_ok.2 ⟨_, hs, bind_eq_ok.2 ⟨_, hp, rfl⟩⟩⟩
    | up => exact ⟨_, bind_eq_ok.2 ⟨_, hs, bind_eq_ok.2 ⟨_, hp, rfl⟩⟩⟩

-- ---------------------------------------------------------------------------
-- Reading
-- ---------------------------------------------------------------------------

theorem entryAt_eq_ok_iff {entry : FileEntry} :
    tree.entryAt path = .ok entry ↔
      tree.Reaches path ∧ tree.get? (tree.destination path) = some entry ∧
        (path.endsWithSlash = true → entry = .directory) := by
  unfold entryAt
  rw [bind_eq_ok]
  constructor
  · rintro ⟨place, hp, h⟩
    obtain ⟨hr, hl⟩ := locate_eq_ok hp
    refine ⟨hr, hl ▸ ?_⟩
    -- a directory is there as itself; at a name there may be nothing, or a file where the path ends
    -- with a slash
    cases place with
    | directory location =>
      simp only [pure_eq_ok] at h
      subst h
      exact ⟨location.2, fun _ => rfl⟩
    | named parent name =>
      simp only [Place.location]
      cases hg : tree.get? (name :: parent.1) with
      | none => simp [hg] at h
      | some found =>
        cases found with
        | directory =>
          simp only [hg, pure_eq_ok] at h
          subst h
          exact ⟨rfl, fun _ => rfl⟩
        | file contents =>
          cases hs : path.endsWithSlash with
          | true => simp [hg, hs] at h
          | false =>
            simp only [hg, hs, Bool.false_eq_true, if_false, pure_eq_ok] at h
            subst h
            exact ⟨rfl, fun hslash => absurd hslash Bool.false_ne_true⟩
  · rintro ⟨hr, hg, hs⟩
    obtain ⟨place, hp, hl⟩ := hr.locate
    refine ⟨place, hp, ?_⟩
    rw [← hl] at hg
    cases place with
    | directory location =>
      have hd : tree.get? location.1 = some .directory := location.2
      exact pure_eq_ok.2 (Option.some.inj (hd.symm.trans hg))
    | named parent name =>
      simp only [Place.location] at hg
      cases entry with
      | directory => simp [hg]
      | file contents =>
        have hs : path.endsWithSlash ≠ true := fun ht => by simpa using hs ht
        simp [hg, hs]

theorem directoryExists_iff :
    tree.directoryExists path = true ↔
      tree.Reaches path ∧ tree.IsDirectory (tree.destination path) := by
  have hentry : tree.directoryExists path = true ↔ tree.entryAt path = .ok .directory := by
    unfold directoryExists
    split <;> simp_all
  rw [hentry, entryAt_eq_ok_iff]
  simp [IsDirectory]

theorem fileExists_iff :
    tree.fileExists path = true ↔
      tree.Reaches path ∧ path.endsWithSlash = false ∧
        ∃ contents, tree.get? (tree.destination path) = some (.file contents) := by
  have hentry : tree.fileExists path = true ↔
      ∃ contents, tree.entryAt path = .ok (.file contents) := by
    unfold fileExists
    split <;> simp_all
  simp only [hentry, entryAt_eq_ok_iff, reduceCtorEq, imp_false, Bool.not_eq_true]
  constructor
  · rintro ⟨contents, hr, hg, hs⟩
    exact ⟨hr, hs, contents, hg⟩
  · rintro ⟨hr, hs, contents, hg⟩
    exact ⟨contents, hr, hg, hs⟩

theorem readText_eq_ok_iff {text : String} :
    tree.readText path = .ok text ↔
      tree.Reaches path ∧ path.endsWithSlash = false ∧
        ∃ contents, tree.get? (tree.destination path) = some (.file contents) ∧
          String.fromUTF8? contents = some text := by
  unfold readText
  simp only [bind_eq_ok, entryAt_eq_ok_iff]
  constructor
  · rintro ⟨entry, ⟨hr, hg, hs⟩, h⟩
    cases entry with
    | directory => simp at h
    | file contents =>
      have hs : path.endsWithSlash = false := by simpa using hs
      refine ⟨hr, hs, contents, hg, ?_⟩
      cases ht : String.fromUTF8? contents with
      | none => simp [ht] at h
      | some current => simpa [ht] using h
  · rintro ⟨hr, hs, contents, hg, ht⟩
    exact ⟨.file contents, ⟨hr, hg, by simp [hs]⟩, by simp [ht]⟩

theorem holdsText_iff {text : String} :
    tree.holdsText path text = true ↔ tree.readText path = .ok text := by
  unfold holdsText
  split
  · rename_i current h
    simp [h]
  · rename_i error h
    simp [h]

end FileTree

end ContentTypes
