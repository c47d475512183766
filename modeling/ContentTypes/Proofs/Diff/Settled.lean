import ContentTypes.Diff.Settle
import ContentTypes.Proofs.Diff.Script

/-!
# Settling keeps a script

Each move of an edit replaces one or two neighbours by others that lead from the same lines to the
same lines. An insertion turns over the lines that it passes; a deletion never passes equal lines,
since it has no lines of the new text to compare with them.
-/

namespace ContentTypes.Diff

variable {old new : List String} {i j c : Nat} {before after : List Edit}
  {edit next previous here : Edit} {kind : EditKind}

/-- The one edits can stand for the others in any script within the two texts. -/
def Replaces (old new : List String) (edits others : List Edit) : Prop :=
  ∀ i j i' j', i' ≤ old.length → j' ≤ new.length →
    Script old new i j edits i' j' → Script old new i j others i' j'

theorem Complete.replace (before after : List Edit) {edits others : List Edit}
    (hr : Replaces old new edits others)
    (h : Complete old new (before ++ (edits ++ after))) :
    Complete old new (before ++ (others ++ after)) := by
  obtain ⟨i, j, hbefore, h⟩ := Script.append_iff.1 h
  obtain ⟨i', j', hedits, hafter⟩ := Script.append_iff.1 h
  exact hbefore.append ((hr i j i' j' hafter.le.1 hafter.le.2 hedits).append hafter)

-- ---------------------------------------------------------------------------
-- Lines in common at the ends of two runs
-- ---------------------------------------------------------------------------

section
variable {n m : Nat}

theorem slice_front (text : List String) : slice text i n <+: text.drop i :=
  List.take_prefix ..

theorem length_slice {text : List String} (h : i + n ≤ text.length) :
    (slice text i n).length = n := by
  simp only [slice, List.length_take, List.length_drop]
  omega

theorem agree_commonPrefix (hi : i + n ≤ old.length) (hj : j + m ≤ new.length)
    (hc : c = commonPrefix (slice old i n) (slice new j m)) :
    c ≤ n ∧ c ≤ m ∧ Agree old new i j c := by
  obtain ⟨front, hlength, ho, hn⟩ := exists_front (slice old i n) (slice new j m)
  have hfrontOld : front <+: slice old i n := ⟨_, ho.symm⟩
  have hfrontNew : front <+: slice new j m := ⟨_, hn.symm⟩
  have hle := hfrontOld.length_le
  have hle' := hfrontNew.length_le
  rw [hlength, ← hc, length_slice] at hle hle'
  · refine ⟨hle, hle', ?_⟩
    rw [hc, ← hlength]
    exact .of_common (hfrontOld.trans (slice_front old)) (hfrontNew.trans (slice_front new))
  · exact hj
  · exact hi

theorem agree_commonSuffix (hi : i + n ≤ old.length) (hj : j + m ≤ new.length)
    (hc : c = commonSuffix (slice old i n) (slice new j m)) :
    c ≤ n ∧ c ≤ m ∧ Agree old new (i + (n - c)) (j + (m - c)) c := by
  obtain ⟨back, hlength, ho, hn⟩ := exists_back (slice old i n) (slice new j m)
  rw [← hc] at hlength ho hn
  have hle := congrArg List.length ho
  have hle' := congrArg List.length hn
  have hbackOld := (drop_pieces (ho ▸ slice_front old)).2
  have hbackNew := (drop_pieces (hn ▸ slice_front new)).2
  simp only [List.length_append, List.length_take, length_slice hi, length_slice hj] at *
  rw [Nat.min_eq_left (Nat.sub_le n c)] at hbackOld
  rw [Nat.min_eq_left (Nat.sub_le m c)] at hbackNew
  have hagree := Agree.of_common hbackOld hbackNew
  rw [hlength] at hagree
  exact ⟨by omega, by omega, hagree⟩

end

-- ---------------------------------------------------------------------------
-- One move
-- ---------------------------------------------------------------------------

namespace Replaces

theorem swap (hp : previous.kind ≠ .equal) (hh : here.kind ≠ .equal)
    (hne : previous.kind ≠ here.kind) : Replaces old new [previous, here] [here, previous] := by
  rintro i j i' j' - - ⟨hprevious, hhere, rfl, rfl⟩
  cases hk : previous.kind with
  | equal => exact absurd hk hp
  | delete =>
    have hk' : here.kind = .insert := by cases hk' : here.kind <;> simp_all
    obtain ⟨k, n, rfl⟩ := hprevious.eq_delete hk
    obtain ⟨l, m, rfl⟩ := hhere.eq_insert hk'
    exact (Script.insert l).append (.delete k)
  | insert =>
    have hk' : here.kind = .delete := by cases hk' : here.kind <;> simp_all
    obtain ⟨k, n, rfl⟩ := hprevious.eq_insert hk
    obtain ⟨l, m, rfl⟩ := hhere.eq_delete hk'
    exact (Script.delete l).append (.insert k)

theorem merge (hk : edit.kind = next.kind) :
    Replaces old new [edit, next] [edit.lengthen next.length] := by
  rintro i j i' j' - - ⟨hedit, hnext, rfl, rfl⟩
  cases hkind : next.kind with
  | equal =>
    obtain ⟨n, rfl, hn, ha⟩ := hedit.eq_equal (hk.trans hkind)
    obtain ⟨m, rfl, -, ha'⟩ := hnext.eq_equal hkind
    simpa [Edit.lengthen, Nat.add_assoc] using Script.equal (ha.append ha') (by omega)
  | delete =>
    obtain ⟨k, n, rfl⟩ := hedit.eq_delete (hk.trans hkind)
    obtain ⟨l, m, rfl⟩ := hnext.eq_delete hkind
    simpa [Edit.lengthen, Nat.add_assoc] using Script.delete (n := n + m) k
  | insert =>
    obtain ⟨k, n, rfl⟩ := hedit.eq_insert (hk.trans hkind)
    obtain ⟨l, m, rfl⟩ := hnext.eq_insert hkind
    simpa [Edit.lengthen, Nat.add_assoc] using Script.insert (n := n + m) k

theorem grow {k l : Nat} (hk : next.kind = .equal) :
    Replaces old new [⟨.equal, k, l, c⟩, next] [(next.shiftLeft c).lengthen c] := by
  intro i j i' j' hi' hj' h
  have hmerged := merge (by rw [hk]) i j i' j' hi' hj' h
  obtain ⟨hadded, hnext, -⟩ := h
  obtain rfl := hadded.old_eq nofun
  obtain rfl := hadded.new_eq nofun
  obtain ⟨n, rfl, -⟩ := hnext.eq_equal hk
  simpa [Edit.shiftLeft, Edit.lengthen, Nat.add_comm] using hmerged

/-- An insertion moves up over as many lines as its last ones are like. -/
theorem rotateUp (hp : previous.kind = .equal) (hh : here.kind = .insert)
    (hc : c = commonSuffix (previous.oldLines old) (here.newLines new)) (hpos : 0 < c) :
    Replaces old new [previous, here]
      ((if (previous.shorten c).length = 0 then [] else [previous.shorten c])
        ++ [here.shiftLeft c,
          ⟨.equal, previous.old + previous.length - c, here.new + here.length - c, c⟩]) := by
  rintro i j i' j' hi' hj' ⟨hprevious, hhere, rfl, rfl⟩
  obtain ⟨n, rfl, -, ha⟩ := hprevious.eq_equal hp
  obtain ⟨k, m, rfl⟩ := hhere.eq_insert hh
  simp only [Edit.oldLength_equal, Edit.newLength_equal, Edit.oldLength_insert,
    Edit.newLength_insert, Nat.add_zero] at *
  obtain ⟨hcn, hcm, hagree⟩ := agree_commonSuffix hi' hj' hc
  rw [show j + n + (m - c) = j + (n - c) + m by omega] at hagree
  refine Script.append_iff.2 ⟨i + (n - c), j + (n - c), .equal_or_nil (ha.mono (Nat.sub_le n c)),
    ⟨nofun, fun _ => ?_, nofun⟩, ⟨fun _ => ?_, fun _ => ?_, fun _ => ⟨hpos, hagree⟩⟩, ?_, ?_⟩
  all_goals simp only [Edit.shiftLeft, Edit.oldLength_insert, Edit.newLength_insert,
    Edit.oldLength_equal, Edit.newLength_equal]
  all_goals omega

theorem rotateDown (hh : here.kind = .insert) (hn : next.kind = .equal)
    (hc : c = commonPrefix (next.oldLines old) (here.newLines new)) (hpos : 0 < c) :
    Replaces old new [here, next]
      ([⟨.equal, next.old, here.new, c⟩, here.shiftRight c]
        ++ if ((next.shiftRight c).shorten c).length = 0 then []
          else [(next.shiftRight c).shorten c]) := by
  rintro i j i' j' hi' hj' ⟨hhere, hnext, rfl, rfl⟩
  obtain ⟨k, m, rfl⟩ := hhere.eq_insert hh
  obtain ⟨n, rfl, -, ha⟩ := hnext.eq_equal hn
  simp only [Edit.oldLength_equal, Edit.newLength_equal, Edit.oldLength_insert,
    Edit.newLength_insert, Nat.add_zero] at *
  obtain ⟨hcn, hcm, hagree⟩ := agree_commonPrefix (m := m) hi' (Nat.le_of_add_right_le hj') hc
  have hkept := Script.equal_or_nil (ha.right c)
  rw [Nat.add_assoc i, Nat.add_assoc (j + m), Nat.add_sub_cancel' hcn] at hkept
  refine Script.append_iff.2 ⟨i + c, j + m + c,
    ⟨⟨fun _ => rfl, fun _ => rfl, fun _ => ⟨hpos, hagree⟩⟩, ⟨nofun, fun _ => rfl, nofun⟩, rfl, ?_⟩,
    hkept⟩
  simp only [Edit.shiftRight, Edit.newLength_insert, Edit.newLength_equal]
  omega

end Replaces

theorem Complete.length_ne_zero (before : List Edit)
    (h : Complete old new (before ++ edit :: after)) (hk : edit.kind = .equal) : edit.length ≠ 0 := by
  obtain ⟨i, j, -, hedit, -⟩ := Script.append_iff.1 h
  exact Nat.pos_iff_ne_zero.1 (hedit.agree hk).1

-- ---------------------------------------------------------------------------
-- Moves
-- ---------------------------------------------------------------------------

def Focus.edits (focus : Focus) : List Edit :=
  focus.before.reverse ++ focus.here :: focus.after

structure Focus.OnChange (old new : List String) (kind : EditKind) (focus : Focus) : Prop where
  kind_eq : focus.here.kind = kind
  complete : Complete old new focus.edits

theorem commonSuffix_nil (lines : List String) : commonSuffix lines [] = 0 := by
  cases h : lines.reverse <;> simp [commonSuffix, commonPrefix, h]

theorem commonPrefix_nil (lines : List String) : commonPrefix lines [] = 0 := by
  cases lines <;> simp [commonPrefix]

theorem kind_eq_insert (hkind : here.kind ≠ .equal) (h : here.newLines new ≠ []) :
    here.kind = .insert := by
  cases hk : here.kind with
  | equal => exact absurd hk hkind
  | delete => exact absurd (by simp [Edit.newLines, hk]) h
  | insert => rfl

theorem reverse_ite {p : Prop} [Decidable p] (edit : Edit) (edits : List Edit) :
    (if p then edits else edit :: edits).reverse = edits.reverse ++ if p then [] else [edit] := by
  split <;> simp

theorem append_ite {p : Prop} [Decidable p] (edit : Edit) (edits : List Edit) :
    (if p then edits else edit :: edits) = (if p then [] else [edit]) ++ edits := by
  split <;> simp

theorem moveUp_onChange (hkind : kind ≠ .equal) (moves : Nat) {focus : Focus}
    (h : focus.OnChange old new kind) : (moveUp old new moves focus).OnChange old new kind := by
  induction moves generalizing focus with
  | zero => exact h
  | succ moves ih =>
    obtain ⟨before, here, after⟩ := focus
    obtain ⟨hk, h⟩ := h
    cases before with
    | nil => exact ⟨hk, h⟩
    | cons previous rest =>
      simp only [Focus.edits, List.reverse_cons, List.append_assoc, List.singleton_append] at h hk
      simp only [moveUp]
      split
      -- equal lines: as many as the change ends with go behind it, and join those that are there
      · rename_i hp
        split
        · split
          · exact absurd ‹_› (h.length_ne_zero _ hp)
          · exact ⟨hk, by simpa [Focus.edits] using h⟩
        · rename_i hcount
          have hinsert : here.kind = .insert := kind_eq_insert (hk ▸ hkind) fun hnil =>
            hcount (by rw [hnil, commonSuffix_nil])
          refine ih ⟨hk, ?_⟩
          have hmoved := Complete.replace rest.reverse after
            (.rotateUp hp hinsert rfl (Nat.pos_of_ne_zero hcount)) h
          rw [List.append_assoc, ← List.append_assoc, ← reverse_ite] at hmoved
          cases after with
          | nil => exact hmoved
          | cons next others =>
            by_cases hn : next.kind = .equal
            · have hgrown := Complete.replace (_ ++ [_]) others (.grow hn)
                (by rwa [List.append_assoc])
              rw [List.append_assoc] at hgrown
              simp only [hn, ↓reduceIte]
              exact hgrown
            · simp only [hn, ↓reduceIte]
              exact hmoved
      -- another change: one of the same kind is merged, one of the other kind is passed
      · rename_i hp
        split
        · rename_i hsame
          exact ih ⟨hsame.trans hk, Complete.replace rest.reverse after (.merge hsame) h⟩
        · rename_i hdiffer
          exact ih ⟨hk, Complete.replace rest.reverse after (.swap hp (hk ▸ hkind) hdiffer) h⟩

theorem moveDown_onChange (hkind : kind ≠ .equal) (moves : Nat) {focus : Focus}
    (h : focus.OnChange old new kind) : (moveDown old new moves focus).OnChange old new kind := by
  induction moves generalizing focus with
  | zero => exact h
  | succ moves ih =>
    obtain ⟨before, here, after⟩ := focus
    obtain ⟨hk, h⟩ := h
    cases after with
    | nil => exact ⟨hk, h⟩
    | cons next rest =>
      simp only [Focus.edits] at h hk
      simp only [moveDown]
      split
      -- equal lines: as many as the change begins with go before it, and join those that are there
      · rename_i hn
        split
        · split
          · exact absurd ‹_› (Complete.length_ne_zero (before.reverse ++ [here])
              (by simpa using h) hn)
          · exact ⟨hk, h⟩
        · rename_i hcount
          have hinsert : here.kind = .insert := kind_eq_insert (hk ▸ hkind) fun hnil =>
            hcount (by rw [hnil, commonPrefix_nil])
          refine ih ⟨hk, ?_⟩
          have hmoved := Complete.replace before.reverse rest
            (.rotateDown hinsert hn rfl (Nat.pos_of_ne_zero hcount)) h
          rw [List.append_assoc, ← append_ite] at hmoved
          cases before with
          | nil => exact hmoved
          | cons previous others =>
            by_cases hp : previous.kind = .equal
            · rw [List.reverse_cons, List.append_assoc] at hmoved
              have hlonger := Complete.replace others.reverse _ (.merge hp) hmoved
              simp only [hp, ↓reduceIte]
              simpa [Focus.edits] using hlonger
            · simp only [hp, ↓reduceIte]
              simpa [Focus.edits] using hmoved
      -- another change: one of the same kind is merged, one of the other kind is passed
      · rename_i hn
        split
        · rename_i hsame
          exact ih ⟨hk, Complete.replace before.reverse rest (.merge hsame.symm) h⟩
        · rename_i hdiffer
          have hswapped := Complete.replace before.reverse rest
            (.swap (hk ▸ hkind) hn (Ne.symm hdiffer)) h
          exact ih ⟨hk, by simpa [Focus.edits] using hswapped⟩

-- ---------------------------------------------------------------------------
-- All edits
-- ---------------------------------------------------------------------------

theorem settleFrom_complete (hkind : kind ≠ .equal) (steps : Nat)
    (h : Complete old new (before.reverse ++ after)) :
    Complete old new (settleFrom old new kind steps before after) := by
  induction steps generalizing before after with
  | zero => exact h
  | succ steps ih =>
    cases after with
    | nil => simpa [settleFrom] using h
    | cons here after =>
      simp only [settleFrom]
      split
      · rename_i hk
        have hup : (moveUp old new (weight before) ⟨before, here, after⟩).OnChange old new kind :=
          moveUp_onChange hkind _ ⟨hk, h⟩
        have hdown := moveDown_onChange hkind (weight (moveUp old new (weight before)
          ⟨before, here, after⟩).after) hup
        exact ih (by simpa [Focus.edits] using hdown.complete)
      · exact ih (by simpa using h)

theorem settle_complete {edits : List Edit} (h : Complete old new edits) :
    Complete old new (settle old new edits) := by
  have hkind {kind : EditKind} (hne : kind ≠ .equal) {edits : List Edit}
      (h : Complete old new edits) : Complete old new (settleKind old new kind edits) :=
    settleFrom_complete hne _ h
  exact hkind (by decide) (hkind (by decide) h)

end ContentTypes.Diff
