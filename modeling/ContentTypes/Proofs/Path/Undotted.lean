import ContentTypes.Proofs.Path.Parent

/-!
# Dots at the beginning of a path

Two paths that differ in nothing but a dot at the beginning have different components and still lead to
the same place. Nothing else is lost when the dots are dropped: `undotted_eq_iff`. Of a path that goes
down the names are left, so two such paths lead to one place if these are the same:
`GoesDown.undotted_eq_iff`.
-/

namespace ContentTypes.Path

variable {path other : Path}

/-- The components of a path that lead somewhere. -/
def undotted (path : Path) : List Component :=
  path.components.filter (· ≠ .current)

theorem undotted_eq (path : Path) :
    path.undotted = path.front.filter (· ≠ .current) ++ path.pieces.filterMap componentOfPiece := by
  rw [undotted, components_eq, List.filter_append]
  congr 1
  refine List.filter_eq_self.2 fun component hm => ?_
  have hinner := isInner_of_mem_filterMap hm
  cases component <;> simp_all [Component.IsInner]

theorem components_eq_undotted (path : Path) :
    path.components = path.undotted ∨ path.components = .current :: path.undotted := by
  rw [undotted_eq, components_eq]
  rcases path.isFront_front with h | h | h
  · exact .inl (by rw [h]; rfl)
  · exact .inl (by rw [h]; rfl)
  · exact .inr (by rw [h]; rfl)

theorem undotted_eq_iff :
    path.undotted = other.undotted ↔
      path.components = other.components ∨ path.components = .current :: other.components ∨
        other.components = .current :: path.components := by
  constructor
  · intro h
    rcases path.components_eq_undotted with hp | hp <;>
      rcases other.components_eq_undotted with ho | ho
    · exact .inl (by rw [hp, ho, h])
    · exact .inr (.inr (by rw [hp, ho, h]))
    · exact .inr (.inl (by rw [hp, ho, h]))
    · exact .inl (by rw [hp, ho, h])
  · rintro (h | h | h)
    · rw [undotted, undotted, h]
    · rw [undotted, undotted, h, List.filter_cons_of_neg (by decide)]
    · rw [undotted, undotted, h, List.filter_cons_of_neg (by decide)]

theorem GoesDown.undotted_eq_names (h : path.GoesDown) :
    path.undotted = path.names.map fun name => .normal name.text := by
  have hfront : path.front.filter (· ≠ .current) = [] := by
    unfold front
    rw [h.1]
    split <;> simp_all
  rw [undotted_eq, hfront, List.nil_append, h.filterMap_pieces]

theorem GoesDown.undotted_eq_iff (h : path.GoesDown) (ho : other.GoesDown) :
    path.undotted = other.undotted ↔ path.names = other.names := by
  rw [h.undotted_eq_names, ho.undotted_eq_names]
  refine List.map_inj_right fun name name' hn => ?_
  cases name
  cases name'
  cases hn
  rfl

end ContentTypes.Path
