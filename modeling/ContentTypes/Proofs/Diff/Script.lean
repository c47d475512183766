import ContentTypes.Diff.Search

/-!
# Edit scripts

Edits make up a script if each begins where the ones before it end: an equal run in both texts, a
deletion in the old one, an insertion in the new one. Nothing is said of where a deletion stands in
the new text or an insertion in the old one.

The search gives a script for the whole of both texts, at whatever point they are split.
-/

namespace ContentTypes.Diff

variable {old new : List String} {i j i' j' n m : Nat}

def Agree (old new : List String) (i j n : Nat) : Prop :=
  ∀ k < n, old[i + k]? = new[j + k]?

namespace Agree

theorem mono (h : Agree old new i j n) (hm : m ≤ n) : Agree old new i j m :=
  fun k hk => h k (by omega)

theorem right (h : Agree old new i j n) (k : Nat) : Agree old new (i + k) (j + k) (n - k) := by
  intro l hl
  simpa [Nat.add_assoc] using h (k + l) (by omega)

theorem append (h : Agree old new i j n) (h' : Agree old new (i + n) (j + n) m) :
    Agree old new i j (n + m) := by
  intro k hk
  by_cases hn : k < n
  · exact h k hn
  · have hkn := h' (k - n) (by omega)
    rwa [show i + n + (k - n) = i + k by omega, show j + n + (k - n) = j + k by omega] at hkn

theorem slice_eq (h : Agree old new i j n) : slice old i n = slice new j n := by
  refine List.ext_getElem? fun k => ?_
  simp only [slice, List.getElem?_take, List.getElem?_drop]
  split
  · exact h k ‹_›
  · rfl

end Agree

-- ---------------------------------------------------------------------------
-- What two texts have in common at their ends
-- ---------------------------------------------------------------------------

theorem exists_front (a b : List String) : ∃ front, front.length = commonPrefix a b ∧
    a = front ++ a.drop (commonPrefix a b) ∧ b = front ++ b.drop (commonPrefix a b) := by
  fun_induction commonPrefix a b with
  | case1 as b bs ih =>
    obtain ⟨front, hlength, has, hbs⟩ := ih
    exact ⟨b :: front, by simpa using hlength, by simpa using has, by simpa using hbs⟩
  | case2 => exact ⟨[], rfl, rfl, rfl⟩
  | case3 => exact ⟨[], rfl, rfl, rfl⟩

theorem exists_back (a b : List String) : ∃ back, back.length = commonSuffix a b ∧
    a = a.take (a.length - commonSuffix a b) ++ back ∧
      b = b.take (b.length - commonSuffix a b) ++ back := by
  obtain ⟨front, hlength, ha, hb⟩ := exists_front a.reverse b.reverse
  refine ⟨front.reverse, by simpa [commonSuffix] using hlength, ?_, ?_⟩
  · have := congrArg List.reverse ha
    rwa [List.reverse_append, List.drop_reverse, List.reverse_reverse, List.reverse_reverse] at this
  · have := congrArg List.reverse hb
    rwa [List.reverse_append, List.drop_reverse, List.reverse_reverse, List.reverse_reverse] at this

theorem drop_pieces {text first second : List String}
    (h : first ++ second <+: text.drop i) :
    first <+: text.drop i ∧ second <+: text.drop (i + first.length) := by
  obtain ⟨rest, h⟩ := h
  refine ⟨⟨second ++ rest, by simpa using h⟩, ⟨rest, ?_⟩⟩
  rw [← List.drop_drop, ← h, List.append_assoc, List.drop_left]

theorem Agree.of_common {lines : List String} (ho : lines <+: old.drop i)
    (hn : lines <+: new.drop j) : Agree old new i j lines.length := by
  obtain ⟨oldRest, ho⟩ := ho
  obtain ⟨newRest, hn⟩ := hn
  intro k hk
  rw [← List.getElem?_drop, ← List.getElem?_drop, ← ho, ← hn, List.getElem?_append_left hk,
    List.getElem?_append_left hk]

-- ---------------------------------------------------------------------------
-- Scripts
-- ---------------------------------------------------------------------------

namespace Edit

def oldLength (edit : Edit) : Nat :=
  if edit.kind = .insert then 0 else edit.length

def newLength (edit : Edit) : Nat :=
  if edit.kind = .delete then 0 else edit.length

@[simp] theorem oldLength_equal : oldLength ⟨.equal, i, j, n⟩ = n := rfl
@[simp] theorem oldLength_delete : oldLength ⟨.delete, i, j, n⟩ = n := rfl
@[simp] theorem oldLength_insert : oldLength ⟨.insert, i, j, n⟩ = 0 := rfl
@[simp] theorem newLength_equal : newLength ⟨.equal, i, j, n⟩ = n := rfl
@[simp] theorem newLength_delete : newLength ⟨.delete, i, j, n⟩ = 0 := rfl
@[simp] theorem newLength_insert : newLength ⟨.insert, i, j, n⟩ = n := rfl

structure StandsAt (old new : List String) (i j : Nat) (edit : Edit) : Prop where
  old_eq : edit.kind ≠ .insert → edit.old = i
  new_eq : edit.kind ≠ .delete → edit.new = j
  agree : edit.kind = .equal → 0 < edit.length ∧ Agree old new i j edit.length

section
variable {edit : Edit} (h : edit.StandsAt old new i j)
include h

theorem StandsAt.eq_equal (hk : edit.kind = .equal) :
    ∃ n, edit = ⟨.equal, i, j, n⟩ ∧ 0 < n ∧ Agree old new i j n := by
  obtain ⟨kind, old', new', length⟩ := edit
  obtain rfl : kind = .equal := hk
  obtain ⟨rfl, rfl⟩ := And.intro (h.old_eq nofun) (h.new_eq nofun)
  exact ⟨length, rfl, h.agree rfl⟩

theorem StandsAt.eq_delete (hk : edit.kind = .delete) : ∃ k n, edit = ⟨.delete, i, k, n⟩ := by
  obtain ⟨kind, old', new', length⟩ := edit
  obtain rfl : kind = .delete := hk
  obtain rfl := h.old_eq nofun
  exact ⟨new', length, rfl⟩

theorem StandsAt.eq_insert (hk : edit.kind = .insert) : ∃ k n, edit = ⟨.insert, k, j, n⟩ := by
  obtain ⟨kind, old', new', length⟩ := edit
  obtain rfl : kind = .insert := hk
  obtain rfl := h.new_eq nofun
  exact ⟨old', length, rfl⟩

end

end Edit

/-- The edits lead from the lines `i` and `j` to the lines `i'` and `j'`. -/
def Script (old new : List String) : (i j : Nat) → List Edit → (i' j' : Nat) → Prop
  | i, j, [], i', j' => i' = i ∧ j' = j
  | i, j, edit :: edits, i', j' =>
    edit.StandsAt old new i j ∧ Script old new (i + edit.oldLength) (j + edit.newLength) edits i' j'

def Complete (old new : List String) (edits : List Edit) : Prop :=
  Script old new 0 0 edits old.length new.length

namespace Script

variable {edits others : List Edit}

theorem append_iff : Script old new i j (edits ++ others) i' j' ↔
    ∃ k l, Script old new i j edits k l ∧ Script old new k l others i' j' := by
  induction edits generalizing i j with
  | nil => simp [Script, and_assoc]
  | cons edit edits ih => simp [Script, ih, and_assoc]

theorem append {k l : Nat} (h : Script old new i j edits k l)
    (h' : Script old new k l others i' j') : Script old new i j (edits ++ others) i' j' :=
  append_iff.2 ⟨k, l, h, h'⟩

theorem le (h : Script old new i j edits i' j') : i ≤ i' ∧ j ≤ j' := by
  induction edits generalizing i j with
  | nil => simp_all [Script]
  | cons edit edits ih =>
    have := ih h.2
    omega

theorem equal (h : Agree old new i j n) (hn : 0 < n) :
    Script old new i j [⟨.equal, i, j, n⟩] (i + n) (j + n) :=
  ⟨⟨fun _ => rfl, fun _ => rfl, fun _ => ⟨hn, h⟩⟩, rfl, rfl⟩

theorem delete (k : Nat) : Script old new i j [⟨.delete, i, k, n⟩] (i + n) j :=
  ⟨⟨fun _ => rfl, nofun, nofun⟩, rfl, rfl⟩

theorem insert (k : Nat) : Script old new i j [⟨.insert, k, j, n⟩] i (j + n) :=
  ⟨⟨nofun, fun _ => rfl, nofun⟩, rfl, rfl⟩

theorem replace : Script old new i j [⟨.delete, i, j, n⟩, ⟨.insert, i, j, m⟩] (i + n) (j + m) :=
  (delete j).append (insert i)

end Script

-- ---------------------------------------------------------------------------
-- The search
-- ---------------------------------------------------------------------------

namespace Script

theorem equal_or_nil (h : Agree old new i j n) :
    Script old new i j (if n = 0 then [] else [⟨.equal, i, j, n⟩]) (i + n) (j + n) := by
  split
  · simp_all [Script]
  · exact .equal h (by omega)

theorem surround {front back : Nat} {inner : List Edit} (hfront : Agree old new i j front)
    (hinner : Script old new (i + front) (j + front) inner (i + front + n) (j + front + m))
    (hback : Agree old new (i + front + n) (j + front + m) back) :
    Script old new i j
      ((if front = 0 then [] else [⟨.equal, i, j, front⟩]) ++ inner
        ++ (if back = 0 then [] else [⟨.equal, i + front + n, j + front + m, back⟩]))
      (i + front + n + back) (j + front + m + back) :=
  ((equal_or_nil hfront).append hinner).append (equal_or_nil hback)

end Script

theorem searchFrom_script (depth : Nat) {oldPart newPart : List String}
    (ho : oldPart <+: old.drop i) (hn : newPart <+: new.drop j) :
    Script old new i j (searchFrom depth i j oldPart newPart)
      (i + oldPart.length) (j + newPart.length) := by
  induction depth generalizing i j oldPart newPart with
  | zero => exact .replace
  | succ depth ih =>
    -- cut both parts into what they have in common in front, a middle, and what they have in common
    -- behind
    obtain ⟨front, hfront, hoFront, hnFront⟩ := exists_front oldPart newPart
    simp only [searchFrom]
    generalize oldPart.drop (commonPrefix oldPart newPart) = oldRest at *
    generalize newPart.drop (commonPrefix oldPart newPart) = newRest at *
    obtain ⟨back, hback, hoBack, hnBack⟩ := exists_back oldRest newRest
    generalize oldRest.take (oldRest.length - commonSuffix oldRest newRest) = oldMid at *
    generalize newRest.take (newRest.length - commonSuffix oldRest newRest) = newMid at *
    rw [← hfront, ← hback]
    subst hoFront hnFront hoBack hnBack
    obtain ⟨hoFront, ho⟩ := drop_pieces ho
    obtain ⟨hnFront, hn⟩ := drop_pieces hn
    obtain ⟨hoMid, hoBack⟩ := drop_pieces ho
    obtain ⟨hnMid, hnBack⟩ := drop_pieces hn
    simp only [List.length_append, ← Nat.add_assoc]
    refine .surround (.of_common hoFront hnFront) ?_ (.of_common hoBack hnBack)
    split
    · exact ⟨rfl, rfl⟩
    · exact .delete _
    · exact .insert _
    · split
      -- the middles are split at one point, and each half is searched alone
      · rename_i x y _
        rw [← List.take_append_drop x oldMid] at hoMid
        rw [← List.take_append_drop y newMid] at hnMid
        obtain ⟨hoHead, hoTail⟩ := drop_pieces hoMid
        obtain ⟨hnHead, hnTail⟩ := drop_pieces hnMid
        have h := (ih hoHead hnHead).append (ih hoTail hnTail)
        rwa [Nat.add_assoc _ (oldMid.take x).length, Nat.add_assoc _ (newMid.take y).length,
          ← List.length_append, ← List.length_append, List.take_append_drop,
          List.take_append_drop] at h
      · exact .replace

theorem search_complete (old new : List String) : Complete old new (search old new) := by
  simpa [Complete, search] using searchFrom_script (i := 0) (j := 0) (old.length + new.length)
    (List.prefix_refl old) (List.prefix_refl new)

end ContentTypes.Diff
