import ContentTypes.FileTree.Access

/-!
# Pieces of joined paths

The pieces of a joined path are those of its parts, one after the other: `pieces_join`. A path that is
relative and has no `..` only goes down, by its names. Of a normal path these are the components, so two
normal paths with the same names are the same.
-/

namespace ContentTypes.Path

-- ---------------------------------------------------------------------------
-- Pieces
-- ---------------------------------------------------------------------------

@[simp] theorem pieces_empty : (⟨""⟩ : Path).pieces = [] := by
  simp [pieces]

theorem pieces_append_slash (left right : String) :
    (⟨left ++ "/" ++ right⟩ : Path).pieces = (⟨left⟩ : Path).pieces ++ (⟨right⟩ : Path).pieces := by
  have h : (left ++ "/" ++ right).toList = left.toList ++ '/' :: right.toList := by simp
  simp only [pieces, h, List.splitOn_append_cons_self, List.filter_append, List.map_append]

theorem not_mem_of_mem_splitOn {mark : Char} {text piece : List Char}
    (h : piece ∈ text.splitOn mark) : mark ∉ piece := by
  induction text generalizing piece with
  | nil => simp_all
  | cons c rest ih =>
    rw [List.splitOn_cons_eq_if_modifyHead] at h
    by_cases hc : c = mark
    · simp only [hc, beq_self_eq_true, if_true, List.mem_cons] at h
      rcases h with rfl | h
      · exact List.not_mem_nil
      · exact ih h
    · cases hs : rest.splitOn mark with
      | nil => exact absurd hs (List.splitOn_ne_nil mark rest)
      | cons first others =>
        simp only [hs, beq_iff_eq, hc, if_false, List.modifyHead_cons, List.mem_cons] at h ih
        rcases h with rfl | h
        · simpa [Ne.symm hc] using ih (.inl rfl)
        · exact ih (.inr h)

theorem splitOn_append {mark : Char} {front : List Char} (h : mark ∉ front) (text : List Char) :
    (front ++ text).splitOn mark = (text.splitOn mark).modifyHead (front ++ ·) := by
  induction front with
  | nil => exact List.modifyHead_id.symm ▸ rfl
  | cons c rest ih =>
    rw [List.mem_cons, not_or] at h
    have hne : (c == mark) = false := beq_eq_false_iff_ne.2 (Ne.symm h.1)
    rw [List.cons_append, List.splitOn_cons_eq_if_modifyHead, hne, ih h.2, List.modifyHead_modifyHead]
    rfl

theorem isFileName_of_mem_pieces {path : Path} {piece : String} (h : piece ∈ path.pieces)
    (hdot : piece ≠ ".") (hdots : piece ≠ "..") : IsFileName piece := by
  obtain ⟨characters, hm, rfl⟩ := List.mem_map.1 h
  obtain ⟨hs, hne⟩ := List.mem_filter.1 hm
  have hempty : String.ofList characters ≠ "" := by simpa using hne
  exact ⟨hempty, hdot, hdots, by simpa using not_mem_of_mem_splitOn hs⟩

theorem ofPiece_text (name : FileName) : Step.ofPiece name.text = some (.down name) := by
  simp [Step.ofPiece, name.valid, name.valid.2.1, name.valid.2.2.1]

-- ---------------------------------------------------------------------------
-- Joining
-- ---------------------------------------------------------------------------

theorem exists_of_endsWithSlash {path : Path} (h : path.endsWithSlash = true) :
    ∃ front : String, path.text = front ++ "/" := by
  have h : path.text.toList.getLast? = some '/' := by simpa [endsWithSlash] using h
  obtain ⟨front, hf⟩ := List.getLast?_eq_some_iff.1 h
  exact ⟨String.ofList front, by simp [← String.toList_inj, hf]⟩

theorem pieces_join (left right : Path) (h : right.isAbsolute = false) :
    (left.join right).pieces = left.pieces ++ right.pieces := by
  obtain ⟨left⟩ := left
  obtain ⟨right⟩ := right
  unfold join
  split
  · rename_i hj
    have he : left = "" := by simpa [h] using hj
    simp [he]
  · split
    · rename_i hs
      obtain ⟨front, rfl⟩ := exists_of_endsWithSlash hs
      have hp := pieces_append_slash front ""
      simp only [String.append_empty, pieces_empty, List.append_nil] at hp
      simp only [hp, pieces_append_slash]
    · exact pieces_append_slash left right

theorem steps_join (left right : Path) (h : right.isAbsolute = false) :
    (left.join right).steps = left.steps ++ right.steps := by
  simp [steps, pieces_join left right h]

theorem isAbsolute_join (left right : Path) (h : right.isAbsolute = false) :
    (left.join right).isAbsolute = left.isAbsolute := by
  unfold join
  split
  · rename_i hj
    have he : left.text = "" := by simpa [h] using hj
    rw [h]
    simp [isAbsolute, he]
  · rename_i hj
    have hne : left.text ≠ "" := by simpa [h] using hj
    obtain ⟨c, rest, hc⟩ := List.exists_cons_of_ne_nil (mt String.toList_eq_nil_iff.1 hne)
    split <;> simp [isAbsolute, hc]

theorem text_suffix_join (left right : Path) :
    right.text.toList <:+ (left.join right).text.toList := by
  unfold join
  split
  · exact List.suffix_rfl
  · split
    · exact ⟨left.text.toList, by simp⟩
    · exact ⟨left.text.toList ++ ['/'], by simp⟩

-- ---------------------------------------------------------------------------
-- Paths that go down
-- ---------------------------------------------------------------------------

/-- Whether a path is relative and never goes up. -/
def GoesDown (path : Path) : Prop :=
  path.isAbsolute = false ∧ .parent ∉ path.components

instance : DecidablePred GoesDown := fun path =>
  inferInstanceAs (Decidable (path.isAbsolute = false ∧ .parent ∉ path.components))

theorem parent_mem_components_iff {path : Path} : .parent ∈ path.components ↔ ".." ∈ path.pieces := by
  have hpiece : ∀ piece, componentOfPiece piece = some .parent ↔ piece = ".." := by
    intro piece
    unfold componentOfPiece
    split
    · rename_i hdot
      simp [hdot]
    · split <;> simp_all
  unfold components
  rw [List.mem_append, List.mem_filterMap]
  simp only [hpiece, exists_eq_right]
  refine or_iff_right fun hfront => ?_
  split at hfront
  · simp at hfront
  · split at hfront <;> simp at hfront

theorem up_not_mem_steps {path : Path} (h : ".." ∉ path.pieces) : Step.up ∉ path.steps := by
  intro hm
  obtain ⟨piece, hp, hs⟩ := List.mem_filterMap.1 hm
  have hd : piece = ".." := by
    unfold Step.ofPiece at hs
    split at hs
    · cases hs
    · split at hs
      · assumption
      · split at hs <;> cases hs
  exact h (hd ▸ hp)

theorem GoesDown.not_mem_pieces {path : Path} (h : path.GoesDown) : ".." ∉ path.pieces :=
  mt parent_mem_components_iff.2 h.2

def names (path : Path) : List FileName :=
  path.steps.filterMap fun step =>
    match step with
    | .down name => some name
    | _ => none

theorem names_ne_nil {path : Path} {piece : String} (h : piece ∈ path.pieces) (hdot : piece ≠ ".")
    (hdots : piece ≠ "..") : path.names ≠ [] := by
  have hname := isFileName_of_mem_pieces h hdot hdots
  have hstep : Step.down ⟨piece, hname⟩ ∈ path.steps :=
    List.mem_filterMap.2 ⟨piece, h, by simp [Step.ofPiece, hdot, hdots, hname]⟩
  exact List.ne_nil_of_mem (List.mem_filterMap.2 ⟨_, hstep, rfl⟩)

theorem map_text_filterMap_ofPiece (pieces : List String) (hdots : ".." ∉ pieces)
    (hnames : ∀ piece ∈ pieces, piece ≠ "." → piece ≠ ".." → IsFileName piece) :
    pieces.filterMap componentOfPiece =
      ((pieces.filterMap Step.ofPiece).filterMap fun step =>
        match step with
        | .down name => some name
        | _ => none).map fun name => .normal name.text := by
  induction pieces with
  | nil => rfl
  | cons piece rest ih =>
    simp only [List.mem_cons, not_or] at hdots
    have hrest := ih hdots.2 fun p hp => hnames p (List.mem_cons_of_mem _ hp)
    have hne : piece ≠ ".." := fun he => hdots.1 he.symm
    by_cases hdot : piece = "."
    · simp [componentOfPiece, Step.ofPiece, hdot, hrest]
    · have hf := hnames piece List.mem_cons_self hdot hne
      simp [componentOfPiece, Step.ofPiece, hdot, hne, hf, hrest]

theorem GoesDown.filterMap_pieces {path : Path} (h : path.GoesDown) :
    path.pieces.filterMap componentOfPiece = path.names.map fun name => .normal name.text :=
  map_text_filterMap_ofPiece path.pieces h.not_mem_pieces fun _ => isFileName_of_mem_pieces

-- ---------------------------------------------------------------------------
-- Normal paths
-- ---------------------------------------------------------------------------

/-- A path with names for all its components. -/
def IsNormal (path : Path) : Prop :=
  ∀ component ∈ path.components, ∃ name, component = .normal name

instance (path : Path) : Decidable path.IsNormal :=
  decidable_of_iff (∀ component ∈ path.components, component = .normal component.text)
    ⟨fun h component hm => ⟨_, h component hm⟩, fun h component hm => by
      obtain ⟨name, rfl⟩ := h component hm
      rfl⟩

theorem IsNormal.goesDown {path : Path} (h : path.IsNormal) : path.GoesDown := by
  constructor
  · cases ha : path.isAbsolute with
    | false => rfl
    | true =>
      obtain ⟨name, hn⟩ := h .root (by simp [components, ha])
      cases hn
  · intro hm
    obtain ⟨name, hn⟩ := h .parent hm
    cases hn

theorem IsNormal.head?_pieces_ne {path : Path} (h : path.IsNormal) :
    path.pieces.head? ≠ some "." := by
  intro hd
  obtain ⟨name, hn⟩ := h .current (by simp [components, h.goesDown.1, hd])
  cases hn

theorem IsNormal.components_eq {path : Path} (h : path.IsNormal) :
    path.components = path.pieces.filterMap componentOfPiece := by
  simp [components, h.goesDown.1, h.head?_pieces_ne]

theorem IsNormal.components_eq_names {path : Path} (h : path.IsNormal) :
    path.components = path.names.map fun name => .normal name.text := by
  rw [h.components_eq, h.goesDown.filterMap_pieces]

theorem IsNormal.same_of_names {path other : Path} (h : path.IsNormal) (ho : other.IsNormal)
    (hn : path.names = other.names) : path.same other = true := by
  simp [same, h.components_eq_names, ho.components_eq_names, hn]

-- ---------------------------------------------------------------------------
-- Paths that never go up
-- ---------------------------------------------------------------------------

variable {path left right : Path}

def NeverUp (path : Path) : Prop :=
  .parent ∉ path.components

instance : DecidablePred NeverUp := fun path =>
  inferInstanceAs (Decidable (.parent ∉ path.components))

theorem neverUp_iff : path.NeverUp ↔ ".." ∉ path.pieces :=
  not_congr parent_mem_components_iff

theorem NeverUp.join (hl : left.NeverUp) (hr : right.NeverUp) : (left.join right).NeverUp := by
  cases ha : right.isAbsolute with
  | true =>
    have hjoin : left.join right = right := by simp [Path.join, ha]
    rwa [hjoin]
  | false =>
    rw [neverUp_iff] at hl hr ⊢
    rw [pieces_join left right ha, List.mem_append, not_or]
    exact ⟨hl, hr⟩

theorem neverUp_name (name : FileName) : (⟨name.text⟩ : Path).NeverUp := by
  rw [neverUp_iff]
  intro hm
  obtain ⟨part, hpart, htext⟩ := List.mem_map.1 hm
  rw [List.splitOn_eq_singleton name.valid.2.2.2] at hpart
  obtain rfl := List.mem_singleton.1 (List.mem_filter.1 hpart).1
  rw [String.ofList_toList] at htext
  exact name.valid.2.2.1 htext

end ContentTypes.Path
