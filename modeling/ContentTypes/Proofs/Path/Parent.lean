import ContentTypes.Proofs.Path.Join
import Mathlib.Data.List.Basic

/-!
# The parent of a path

The components of a path are again those of the path that they make, and so are the first few of them:
`components_ofComponents`. The parent of a path that ends with a name takes the same steps but for the
last one: `parent?_of_name`.
-/

namespace ContentTypes.Path

-- ---------------------------------------------------------------------------
-- Components that may stand anywhere
-- ---------------------------------------------------------------------------

namespace Component

def IsInner : Component → Prop
  | root | current => False
  | parent => True
  | normal name => IsFileName name

def step? : Component → Option Step
  | root | current => none
  | parent => some .up
  | normal name => Step.ofPiece name

variable {component : Component}

theorem IsInner.text_ne (h : component.IsInner) :
    component.text ≠ "" ∧ component.text ≠ "." ∧ '/' ∉ component.text.toList := by
  cases component with
  | normal name => exact ⟨h.1, h.2.1, h.2.2.2⟩
  | parent => exact ⟨by decide, by decide, by decide⟩
  | _ => exact h.elim

theorem IsInner.componentOfPiece (h : component.IsInner) :
    componentOfPiece component.text = some component := by
  cases component with
  | normal name => simp [Path.componentOfPiece, text, h.2.1, h.2.2.1]
  | parent => rfl
  | _ => exact h.elim

end Component

def IsFront (front : List Component) : Prop :=
  front = [] ∨ front = [.root] ∨ front = [.current]

theorem isInner_of_mem_pieces {path : Path} {piece : String} {component : Component}
    (h : piece ∈ path.pieces) (hc : componentOfPiece piece = some component) :
    component.IsInner := by
  unfold componentOfPiece at hc
  split at hc
  · cases hc
  · rename_i hdot
    split at hc
    · cases hc
      trivial
    · rename_i hdots
      cases hc
      exact isFileName_of_mem_pieces h hdot hdots

theorem isInner_of_mem_filterMap {path : Path} {component : Component}
    (h : component ∈ path.pieces.filterMap componentOfPiece) : component.IsInner := by
  obtain ⟨piece, hpiece, hcomponent⟩ := List.mem_filterMap.1 h
  exact isInner_of_mem_pieces hpiece hcomponent

/-- The root, or a dot, with which a path begins. -/
def front (path : Path) : List Component :=
  if path.isAbsolute then [.root]
  else if path.pieces.head? = some "." then [.current]
  else []

theorem isFront_front (path : Path) : IsFront path.front := by
  unfold front IsFront
  split
  · exact .inr (.inl rfl)
  · split
    · exact .inr (.inr rfl)
    · exact .inl rfl

theorem components_eq (path : Path) :
    path.components = path.front ++ path.pieces.filterMap componentOfPiece := rfl

-- ---------------------------------------------------------------------------
-- Components make a path
-- ---------------------------------------------------------------------------

theorem pieces_ofComponents {components : List Component}
    (h : ∀ component ∈ components, '/' ∉ component.text.toList) :
    (ofComponents components).pieces = (components.map (·.text)).filter (· ≠ "") := by
  unfold ofComponents
  split
  · rename_i hroot
    subst hroot
    decide +kernel
  · by_cases hnil : components = []
    · subst hnil
      decide +kernel
    · have hne : components.map (·.text.toList) ≠ [] := by simpa using hnil
      have hslash : ∀ text ∈ components.map (·.text.toList), '/' ∉ text := by simpa using h
      have hsplit : ("/".intercalate (components.map (·.text))).toList.splitOn '/' =
          components.map (·.text.toList) := by
        rw [String.toList_intercalate, List.map_map]
        exact List.splitOn_intercalate '/' hslash hne
      simp only [pieces, hsplit, List.filter_map, List.map_map]
      congr 1
      · funext component
        simp
      · refine List.filter_congr fun component _ => ?_
        simp

theorem isAbsolute_ofComponents_root (rest : List Component) :
    (ofComponents (.root :: rest)).isAbsolute = true := by
  cases rest with
  | nil => decide
  | cons component rest =>
    simp [ofComponents, isAbsolute, Component.text, String.intercalate_cons_cons]

theorem isAbsolute_ofComponents_cons {component : Component} {rest : List Component}
    (hempty : component.text ≠ "") (hslash : '/' ∉ component.text.toList) :
    (ofComponents (component :: rest)).isAbsolute = false := by
  have hroot : component :: rest ≠ [.root] := by
    intro h
    cases h
    exact hempty rfl
  obtain ⟨c, tail, hc⟩ := List.exists_cons_of_ne_nil (mt String.toList_eq_nil_iff.1 hempty)
  have hne : c ≠ '/' := by
    rintro rfl
    exact hslash (by simp [hc])
  rw [ofComponents, if_neg hroot]
  cases rest with
  | nil => simp [isAbsolute, hc, hne]
  | cons next rest => simp [isAbsolute, String.intercalate_cons_cons, hc, hne]

theorem filterMap_componentOfPiece {inner : List Component}
    (h : ∀ component ∈ inner, component.IsInner) :
    (inner.map (·.text)).filterMap componentOfPiece = inner := by
  induction inner with
  | nil => rfl
  | cons component rest ih =>
    rw [List.forall_mem_cons] at h
    rw [List.map_cons, List.filterMap_cons_some h.1.componentOfPiece, ih h.2]

theorem components_ofComponents {front inner : List Component} (hfront : IsFront front)
    (hinner : ∀ component ∈ inner, component.IsInner) :
    (ofComponents (front ++ inner)).components = front ++ inner := by
  have htexts : (inner.map (·.text)).filter (· ≠ "") = inner.map (·.text) :=
    List.filter_eq_self.2 fun text hm => by
      obtain ⟨component, hc, rfl⟩ := List.mem_map.1 hm
      simpa using (hinner component hc).text_ne.1
  have hslash : ∀ component ∈ inner, '/' ∉ component.text.toList :=
    fun component hm => (hinner component hm).text_ne.2.2
  have hparts := filterMap_componentOfPiece hinner
  rw [components_eq]
  rcases hfront with rfl | rfl | rfl
  · have hpieces := pieces_ofComponents hslash
    rw [List.nil_append, hpieces, htexts, hparts, front]
    cases inner with
    | nil => decide
    | cons component rest =>
      have hc := (hinner component List.mem_cons_self).text_ne
      rw [isAbsolute_ofComponents_cons hc.1 hc.2.2, hpieces, htexts]
      simp [hc.2.1]
  · have hpieces : (ofComponents ([.root] ++ inner)).pieces = inner.map (·.text) := by
      rw [pieces_ofComponents (by simpa [Component.text] using hslash)]
      simpa [Component.text] using htexts
    rw [hpieces, hparts, front, List.singleton_append, isAbsolute_ofComponents_root]
    rfl
  · have hpieces : (ofComponents ([.current] ++ inner)).pieces = "." :: inner.map (·.text) := by
      rw [pieces_ofComponents (by simpa [Component.text] using hslash)]
      simpa [Component.text] using htexts
    have habsolute : (ofComponents ([.current] ++ inner)).isAbsolute = false :=
      isAbsolute_ofComponents_cons (by decide) (by decide)
    rw [hpieces, front, habsolute, hpieces, List.filterMap_cons_none rfl, hparts]
    rfl

-- ---------------------------------------------------------------------------
-- Steps and characters
-- ---------------------------------------------------------------------------

theorem text_of_componentOfPiece {piece : String} {component : Component}
    (h : componentOfPiece piece = some component) : component.text = piece := by
  unfold componentOfPiece at h
  split at h
  · cases h
  · split at h
    · rename_i hdots
      cases h
      exact hdots.symm
    · cases h
      rfl

theorem filter_steps (path : Path) :
    path.steps.filter (· ≠ .stay) = path.components.filterMap Component.step? := by
  have hpiece : ∀ piece, (Step.ofPiece piece).filter (· ≠ .stay) =
      (componentOfPiece piece).bind Component.step? := by
    intro piece
    unfold Step.ofPiece componentOfPiece
    by_cases hdot : piece = "."
    · simp [hdot]
    by_cases hdots : piece = ".."
    · simp [hdots, Component.step?]
    by_cases hname : IsFileName piece <;>
      simp [hdot, hdots, hname, Component.step?, Step.ofPiece]
  have hfront : path.front.filterMap Component.step? = [] := by
    rcases path.isFront_front with h | h | h <;> rw [h] <;> rfl
  rw [components_eq, List.filterMap_append, hfront, List.nil_append, List.filterMap_filterMap, steps,
    List.filter_filterMap]
  exact List.filterMap_congr fun piece _ => hpiece piece

theorem mem_splitOn_iff {mark c : Char} {text : List Char} (h : c ≠ mark) :
    c ∈ text ↔ ∃ part ∈ text.splitOn mark, c ∈ part := by
  induction text with
  | nil => simp
  | cons d rest ih =>
    rw [List.splitOn_cons_eq_if_modifyHead]
    by_cases hd : d = mark
    · subst hd
      simp [h, ih]
    · cases hs : rest.splitOn mark with
      | nil => exact absurd hs (List.splitOn_ne_nil mark rest)
      | cons first others =>
        simp [hd, ih, hs, or_assoc]

theorem mem_text_iff_pieces {path : Path} {c : Char} (h : c ≠ '/') :
    c ∈ path.text.toList ↔ ∃ piece ∈ path.pieces, c ∈ piece.toList := by
  rw [mem_splitOn_iff h]
  constructor
  · rintro ⟨part, hpart, hc⟩
    have hne : part ≠ [] := List.ne_nil_of_mem hc
    exact ⟨String.ofList part, List.mem_map.2 ⟨part, List.mem_filter.2 ⟨hpart, by simpa using hne⟩,
      rfl⟩, by simpa using hc⟩
  · rintro ⟨piece, hpiece, hc⟩
    obtain ⟨part, hpart, rfl⟩ := List.mem_map.1 hpiece
    exact ⟨part, (List.mem_filter.1 hpart).1, by simpa using hc⟩

theorem mem_text_iff {path : Path} {c : Char} (hslash : c ≠ '/') (hdot : c ≠ '.') :
    c ∈ path.text.toList ↔ ∃ component ∈ path.components, c ∈ component.text.toList := by
  rw [mem_text_iff_pieces hslash, components_eq]
  constructor
  · rintro ⟨piece, hpiece, hc⟩
    cases hcomponent : componentOfPiece piece with
    | none =>
      have hpiece : piece = "." := by
        unfold componentOfPiece at hcomponent
        split at hcomponent
        · assumption
        · split at hcomponent <;> cases hcomponent
      simp [hpiece, hdot] at hc
    | some component =>
      exact ⟨component, List.mem_append_right _ (List.mem_filterMap.2 ⟨piece, hpiece, hcomponent⟩),
        (text_of_componentOfPiece hcomponent).symm ▸ hc⟩
  · rintro ⟨component, hm, hc⟩
    rcases List.mem_append.1 hm with hm | hm
    · rcases path.isFront_front with hfront | hfront | hfront <;>
        simp_all [Component.text]
    · obtain ⟨piece, hpiece, hcomponent⟩ := List.mem_filterMap.1 hm
      exact ⟨piece, hpiece, text_of_componentOfPiece hcomponent ▸ hc⟩

theorem isAbsolute_iff_head {path : Path} :
    path.isAbsolute = true ↔ path.components.head? = some .root := by
  rw [components_eq, front]
  cases habsolute : path.isAbsolute with
  | true => simp
  | false =>
    refine iff_of_false Bool.false_ne_true fun hhead => ?_
    simp only [Bool.false_eq_true, if_false] at hhead
    split at hhead
    · simp at hhead
    · rw [List.nil_append] at hhead
      exact isInner_of_mem_filterMap (List.mem_of_mem_head? hhead)

-- ---------------------------------------------------------------------------
-- Parents
-- ---------------------------------------------------------------------------

theorem exists_step_of_mem_pieces {path : Path} {piece : String} (h : piece ∈ path.pieces) :
    ∃ step, Step.ofPiece piece = some step := by
  unfold Step.ofPiece
  split
  · exact ⟨_, rfl⟩
  · rename_i hdot
    split
    · exact ⟨_, rfl⟩
    · rename_i hdots
      rw [dif_pos (isFileName_of_mem_pieces h hdot hdots)]
      exact ⟨_, rfl⟩

theorem ofPiece_eq_down {piece : String} {name : FileName}
    (h : Step.ofPiece piece = some (.down name)) :
    piece = name.text ∧ componentOfPiece piece = some (.normal name.text) := by
  unfold Step.ofPiece at h
  split at h
  · cases h
  · rename_i hdot
    split at h
    · cases h
    · rename_i hdots
      split at h
      · cases h
        exact ⟨rfl, by rw [componentOfPiece, if_neg hdot, if_neg hdots]⟩
      · cases h

theorem pieces_of_name {path : Path} {name : FileName}
    (h : path.steps.getLast? = some (.down name)) :
    ∃ before, path.pieces = before ++ [name.text] ∧
      componentOfPiece name.text = some (.normal name.text) := by
  rcases List.eq_nil_or_concat path.pieces with hnil | ⟨before, last, hpieces⟩
  · simp [steps, hnil] at h
  · rw [List.concat_eq_append] at hpieces
    have hmem : last ∈ path.pieces := by simp [hpieces]
    obtain ⟨step, hstep⟩ := exists_step_of_mem_pieces hmem
    have hlast : step = .down name := by simpa [steps, hpieces, hstep] using h
    obtain ⟨rfl, hcomponent⟩ := ofPiece_eq_down (hlast ▸ hstep)
    exact ⟨before, hpieces, hcomponent⟩

theorem parent?_of_name {path : Path} {name : FileName}
    (h : path.steps.getLast? = some (.down name)) :
    ∃ parent, path.parent? = some parent ∧ ofComponents parent.components = parent ∧
      path.components = parent.components ++ [.normal name.text] := by
  obtain ⟨before, hpieces, hname⟩ := pieces_of_name h
  have hpath : path.components =
      (path.front ++ before.filterMap componentOfPiece) ++ [.normal name.text] := by
    rw [components_eq, hpieces, List.filterMap_append, List.filterMap_cons_some hname,
      List.filterMap_nil, List.append_assoc]
  have hparent : (ofComponents (path.front ++ before.filterMap componentOfPiece)).components =
      path.front ++ before.filterMap componentOfPiece := by
    refine components_ofComponents path.isFront_front fun component hm => ?_
    obtain ⟨piece, hpiece, hcomponent⟩ := List.mem_filterMap.1 hm
    have hmem : piece ∈ path.pieces := by simp [hpieces, hpiece]
    exact isInner_of_mem_pieces hmem hcomponent
  refine ⟨_, ?_, by rw [hparent], by rw [hparent, hpath]⟩
  simp [parent?, hpath]

-- ---------------------------------------------------------------------------
-- Stems
-- ---------------------------------------------------------------------------

theorem isFileName_of_mem_components {path : Path} {name : String}
    (h : .normal name ∈ path.components) : IsFileName name := by
  rcases List.mem_append.1 h with h | h
  · have hfront : .normal name ∈ path.front := h
    rcases path.isFront_front with hf | hf | hf <;> simp [hf] at hfront
  · exact isInner_of_mem_filterMap h

theorem subset_cutExtension (name : List Char) : (cutExtension name).1 ⊆ name := by
  unfold cutExtension
  dsimp only
  split
  · exact fun _ hm => hm
  · exact fun _ hm => hm
  · rename_i dot stem _ hdrop
    intro c hm
    have hc : c ∈ name.reverse.drop (name.reverse.takeWhile (· ≠ '.')).length := by
      rw [hdrop]
      exact List.mem_cons_of_mem dot (List.mem_reverse.1 hm)
    exact List.mem_reverse.1 (List.mem_of_mem_drop hc)

theorem isFileName_of_fileName? {path : Path} {name : String} (h : path.fileName? = some name) :
    IsFileName name := by
  unfold fileName? at h
  split at h
  · rename_i last hlast
    cases h
    exact isFileName_of_mem_components (List.mem_of_getLast? hlast)
  · cases h

theorem slash_not_mem_stem (path : Path) : '/' ∉ (path.stem?.getD "").toList := by
  unfold stem?
  cases hname : path.fileName? with
  | none => exact List.not_mem_nil
  | some name =>
    rw [Option.map_some, Option.getD_some, String.toList_ofList]
    exact fun hm => (isFileName_of_fileName? hname).2.2.2 (subset_cutExtension _ hm)

end ContentTypes.Path
