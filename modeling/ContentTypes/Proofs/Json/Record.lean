import ContentTypes.Json.Record
import ContentTypes.Proofs.Outcome

/-!
# What reading a record keeps

A property of what has been read that no field destroys holds of the whole record, whether this is
written as an object or as an array: `Record.Keeps.read`.
-/

namespace ContentTypes.Json

variable {σ : Type} {P : σ → Prop} {state result : σ} {text rest : List Char}

theorem placed_eq_ok {α : Type} {outcome : Except Fault α} {a : α} :
    placed outcome = .ok a ↔ outcome = .ok a :=
  mapError_eq_ok

theorem placed_ok {α : Type} {a : α} : placed (.ok a) = .ok a := rfl

def Field.Keeps (field : Field σ) (P : σ → Prop) : Prop :=
  ∀ state text result rest, P state → field.read state text = .ok (result, rest) → P result

namespace Record

variable {record : Record σ}

def Keeps (record : Record σ) (P : σ → Prop) : Prop :=
  ∀ field ∈ record.fields, field.Keeps P

theorem Keeps.readMembers {limit members : Nat} {isFirst : Bool} (h : record.Keeps P)
    (hstate : P state)
    (hread : record.readMembers limit isFirst state members text = .ok (result, rest)) :
    P result := by
  induction members generalizing isFirst state text with
  | zero => cases hread
  | succ members ih =>
    unfold Record.readMembers at hread
    obtain ⟨⟨more, text'⟩, -, hread⟩ := bind_eq_ok.1 hread
    cases more with
    | true =>
      simp only [if_true] at hread
      obtain ⟨⟨key, text''⟩, -, hread⟩ := bind_eq_ok.1 hread
      split at hread
      · rename_i field hfield
        split at hread
        · cases hread
        · obtain ⟨text'', -, hread⟩ := bind_eq_ok.1 hread
          obtain ⟨⟨state', rest'⟩, hfieldRead, hread⟩ := bind_eq_ok.1 hread
          exact ih (h field (List.mem_of_find?_eq_some hfield) _ _ _ _ hstate hfieldRead) hread
      · obtain ⟨text'', -, hread⟩ := bind_eq_ok.1 hread
        obtain ⟨text'', -, hread⟩ := bind_eq_ok.1 hread
        exact ih hstate hread
    | false =>
      simp only [Bool.false_eq_true, if_false] at hread
      split at hread
      · cases hread
      · obtain rfl := (Prod.mk.inj (pure_eq_ok.1 hread)).1
        exact hstate

theorem Keeps.readItems {isFirst : Bool} {index : Nat} {fields : List (Field σ)}
    (h : ∀ field ∈ fields, field.Keeps P) (hstate : P state)
    (hread : record.readItems isFirst index state fields text = .ok (result, rest)) : P result := by
  induction fields generalizing isFirst index state text with
  | nil =>
    obtain rfl := (Prod.mk.inj (Except.ok.inj hread)).1
    exact hstate
  | cons field fields ih =>
    obtain ⟨hfield, hfields⟩ := List.forall_mem_cons.1 h
    unfold Record.readItems at hread
    obtain ⟨⟨more, text'⟩, -, hread⟩ := bind_eq_ok.1 hread
    dsimp only at hread
    split at hread
    · obtain ⟨⟨state', rest'⟩, hfieldRead, hread⟩ := bind_eq_ok.1 hread
      exact ih hfields (hfield _ _ _ _ hstate hfieldRead) hread
    · split at hread
      · cases hread
      · exact ih hfields hstate hread

theorem Keeps.read {fields : Nat → Record σ} {limit room : Nat}
    (h : ∀ room, (fields room).Keeps P) (hstate : P state)
    (hread : Record.read fields limit state room text = .ok (result, rest)) : P result := by
  unfold Record.read at hread
  split at hread
  · split at hread
    · cases hread
    · obtain ⟨⟨state', rest'⟩, hmembers, hread⟩ := bind_eq_ok.1 hread
      obtain rfl := (Prod.mk.inj (pure_eq_ok.1 hread)).1
      exact Keeps.readMembers (h _) hstate (mapError_eq_ok.1 hmembers)
  · split at hread
    · cases hread
    · obtain ⟨⟨state', rest'⟩, hitems, hread⟩ := bind_eq_ok.1 hread
      obtain ⟨rest'', -, hread⟩ := bind_eq_ok.1 hread
      obtain rfl := (Prod.mk.inj (pure_eq_ok.1 hread)).1
      exact Keeps.readItems (h _) hstate (mapError_eq_ok.1 hitems)
  · unfold mismatch at hread
    split at hread
    · cases hread
    · cases hread
    · obtain ⟨found, -, hread⟩ := bind_eq_ok.1 hread
      cases hread

end Record

theorem exists_of_readText {α : Type} {read : Nat → List Char → Except Fault (α × List Char)}
    {source : String} {value : α} (h : readText read source = .ok value) :
    ∃ rest, read (itemLimit source.toList) source.toList = .ok (value, rest) := by
  obtain ⟨⟨found, rest⟩, hread, h⟩ := bind_eq_ok.1 (mapError_eq_ok.1 h)
  obtain ⟨-, -, h⟩ := bind_eq_ok.1 h
  obtain rfl := pure_eq_ok.1 h
  exact ⟨rest, hread⟩

end ContentTypes.Json
