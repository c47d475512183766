import ContentTypes.Proofs.Diff.Applying

/-!
# Cutting blocks into hunks

Only equal lines are left out, before the first hunk, between two hunks and after the last one.
-/

namespace ContentTypes.Diff

variable {old new : List String} {i j i' j' k l gap : Nat} {block : Block} {blocks : List Block}

-- ---------------------------------------------------------------------------
-- Parts of a block of equal lines
-- ---------------------------------------------------------------------------

namespace Tiles

variable (count : Nat)

theorem firstLines (h : block.StandsAt old new i j) (hequal : block.isEqual) (hcount : 0 < count) :
    Tiles old new i j [block.firstLines count] (i + min block.oldLength count)
      (j + min block.oldLength count) := by
  obtain ⟨hpos, hlength, ha⟩ := h.equal hequal
  have hfirst : (block.firstLines count).StandsAt old new i j := by
    refine ⟨h.old_eq, h.new_eq, fun _ => ⟨?_, ?_, ha.mono (Nat.min_le_left ..)⟩⟩
    · simp only [Block.firstLines]
      omega
    · simp only [Block.firstLines, hlength]
  have htiles := Tiles.single hfirst
  simpa only [Block.firstLines, hlength] using htiles

theorem lastLines (h : block.StandsAt old new i j) (hequal : block.isEqual) (hcount : 0 < count) :
    Tiles old new (i + (block.oldLength - count)) (j + (block.oldLength - count))
      [block.lastLines count] (i + block.oldLength) (j + block.newLength) := by
  obtain ⟨hpos, hlength, ha⟩ := h.equal hequal
  have hlast : (block.lastLines count).StandsAt old new (i + (block.oldLength - count))
      (j + (block.oldLength - count)) := by
    refine ⟨?_, ?_, fun _ => ⟨?_, ?_, ha.right _⟩⟩
    · simp only [Block.lastLines, h.old_eq]
    · simp only [Block.lastLines, h.new_eq]
    · simp only [Block.lastLines]
      omega
    · simp only [Block.lastLines, hlength]
  have htiles := Tiles.single hlast
  have hlast (start : Nat) : start + (block.oldLength - count)
      + (block.oldLength - (block.oldLength - count)) = start + block.oldLength := by omega
  rw [show (block.lastLines count).oldLength = block.oldLength - (block.oldLength - count) from rfl,
    show (block.lastLines count).newLength = block.newLength - (block.oldLength - count) from rfl,
    hlength, hlast, hlast] at htiles
  rwa [hlength]

end Tiles

-- ---------------------------------------------------------------------------
-- The ends of the texts
-- ---------------------------------------------------------------------------

theorem Tiles.trimFront (h : Tiles old new i j blocks i' j') :
    ∃ gap, Agree old new i j gap ∧ Tiles old new (i + gap) (j + gap) (trimFront blocks) i' j' := by
  cases blocks with
  | nil => exact ⟨0, nofun, h⟩
  | cons block rest =>
    obtain ⟨hblock, h⟩ := h
    cases hequal : block.isEqual with
    | true =>
      obtain ⟨-, -, ha⟩ := hblock.equal hequal
      refine ⟨block.oldLength - contextLines, ha.mono (Nat.sub_le ..), ?_⟩
      simp only [Diff.trimFront, hequal, ↓reduceIte]
      exact (Tiles.lastLines contextLines hblock hequal (by decide)).append h
    | false =>
      refine ⟨0, nofun, ?_⟩
      simp only [Diff.trimFront, hequal]
      exact ⟨hblock, h⟩

theorem trimBack_append (block : Block) (front : List Block) :
    trimBack (front ++ [block]) =
      front ++ [if block.isEqual then block.firstLines contextLines else block] := by
  simp [trimBack]

theorem Agree.drop_eq (ha : Agree old new i j gap) (h : old.drop (i + gap) = new.drop (j + gap)) :
    old.drop i = new.drop j := by
  rw [Block.drop_eq_slice_append old i gap, Block.drop_eq_slice_append new j gap, ha.slice_eq, h]

theorem Tiles.drop_eq_of_equal (h : Tiles old new i j blocks i' j')
    (hall : ∀ block ∈ blocks, block.isEqual) (hend : old.drop i' = new.drop j') :
    old.drop i = new.drop j := by
  induction blocks generalizing i j with
  | nil =>
    obtain ⟨rfl, rfl⟩ := h
    exact hend
  | cons block blocks ih =>
    obtain ⟨-, hlength, ha⟩ := h.1.equal (hall block (by simp))
    have hrest := ih h.2 fun b hb => hall b (by simp [hb])
    rw [hlength] at hrest
    exact ha.drop_eq hrest

theorem Tiles.trimBack (h : Tiles old new i j blocks i' j')
    (hend : old.drop i' = new.drop j') :
    ∃ k l, Tiles old new i j (trimBack blocks) k l ∧ k ≤ i' ∧ l ≤ j' ∧ old.drop k = new.drop l := by
  obtain rfl | ⟨front, block, rfl⟩ := List.eq_nil_or_concat blocks
  · exact ⟨i', j', h, le_rfl, le_rfl, hend⟩
  · rw [List.concat_eq_append] at h ⊢
    rw [trimBack_append]
    obtain ⟨k, l, hfront, hblock, rfl, rfl⟩ := Tiles.append_iff.1 h
    cases hequal : block.isEqual with
    | true =>
      obtain ⟨-, hlength, ha⟩ := hblock.equal hequal
      refine ⟨_, _, hfront.append (.firstLines _ hblock hequal (by decide)), by omega, by omega, ?_⟩
      refine (ha.right (min block.oldLength contextLines)).drop_eq ?_
      rw [show k + min block.oldLength contextLines + (block.oldLength
        - min block.oldLength contextLines) = k + block.oldLength by omega,
        show l + min block.oldLength contextLines + (block.oldLength
        - min block.oldLength contextLines) = l + block.newLength by omega, hend]
    | false => exact ⟨_, _, hfront.append (.single hblock), le_rfl, le_rfl, hend⟩

-- ---------------------------------------------------------------------------
-- Between hunks
-- ---------------------------------------------------------------------------

theorem cutHunks_spaced {current : Hunk} (ha : Agree old new i j gap)
    (hcurrent : Tiles old new (i + gap) (j + gap) current.reverse k l)
    (h : Tiles old new k l blocks i' j') (hi' : i' ≤ old.length) (hj' : j' ≤ new.length)
    (hend : old.drop i' = new.drop j') : Spaced old new i j (cutHunks current blocks) := by
  -- `gap` equal lines come before the hunk so far, and the remaining blocks after it
  induction blocks generalizing current i j gap k l with
  | nil =>
    obtain ⟨rfl, rfl⟩ := h
    simp only [cutHunks]
    split
    · rename_i hall
      exact ha.drop_eq (hcurrent.drop_eq_of_equal
        (fun block hb => List.all_eq_true.1 hall block (by simpa using hb)) hend)
    · rename_i hnot
      refine ⟨gap, i', j', fun hnil => hnot ?_, ha, hcurrent, hi', hj', hend⟩
      simp [List.reverse_eq_nil_iff.1 hnil]
  | cons block rest ih =>
    obtain ⟨hblock, h⟩ := h
    obtain ⟨hle, hle'⟩ := h.le
    simp only [cutHunks]
    split
    · rename_i hcut
      -- the first of the equal lines end this hunk, the last begin the next, and those between are
      -- the new gap
      obtain ⟨hequal, hlong⟩ := hcut
      obtain ⟨hpos, hlength, hagree⟩ := hblock.equal hequal
      have hfirst := Tiles.firstLines contextLines hblock hequal (by decide)
      have hlast := Tiles.lastLines contextLines hblock hequal (by decide)
      rw [Nat.min_eq_right (by omega)] at hfirst
      refine ⟨gap, k + contextLines, l + contextLines, by simp, ha,
        by simpa using hcurrent.append hfirst, by omega, by omega, ?_⟩
      have hleftOut : Agree old new (k + contextLines) (l + contextLines)
          (block.oldLength - 2 * contextLines) :=
        (hagree.right contextLines).mono (by omega)
      refine ih hleftOut ?_ h
      rw [List.reverse_singleton, show k + contextLines + (block.oldLength - 2 * contextLines) =
        k + (block.oldLength - contextLines) by omega, show l + contextLines + (block.oldLength
        - 2 * contextLines) = l + (block.oldLength - contextLines) by omega]
      exact hlast
    · exact ih ha (by simpa using hcurrent.append (.single hblock)) h

theorem hunks_spaced (h : Tiles old new 0 0 blocks old.length new.length) :
    Spaced old new 0 0 (hunks blocks) := by
  obtain ⟨gap, ha, hfront⟩ := h.trimFront
  obtain ⟨k, l, hback, hk, hl, hend⟩ := hfront.trimBack (by simp)
  exact cutHunks_spaced ha ⟨rfl, rfl⟩ hback hk hl hend

end ContentTypes.Diff
