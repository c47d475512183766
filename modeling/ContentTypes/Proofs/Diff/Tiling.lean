import ContentTypes.Diff.Hunk
import ContentTypes.Proofs.Diff.Settled
import Mathlib.Data.List.Forall2
import Mathlib.Data.List.SplitBy

/-!
# Blocks

Blocks tile two texts: each stands in both where the ones before it end. What is recorded of a block
can differ from this in one respect. Settling swaps deletions and insertions as they are, so a block
of deletions alone need not be recorded where it stands in the new text, nor a block of insertions
alone where it stands in the old one.
-/

namespace ContentTypes.Diff

variable {old new : List String} {i j i' j' k l n : Nat}

namespace Block

/-- What may be recorded of a block, and where it stands. -/
inductive RecordOf : (recorded placed : Block) → Prop
  | placed (block : Block) : RecordOf block block
  | deletion (old oldLength new recordedNew : Nat) :
    RecordOf ⟨false, old, oldLength, recordedNew, 0⟩ ⟨false, old, oldLength, new, 0⟩
  | insertion (old new newLength recordedOld : Nat) :
    RecordOf ⟨false, recordedOld, 0, new, newLength⟩ ⟨false, old, 0, new, newLength⟩

/-- The block stands at the lines `i` and `j`. -/
structure StandsAt (old new : List String) (i j : Nat) (block : Block) : Prop where
  old_eq : block.old = i
  new_eq : block.new = j
  equal : block.isEqual → 0 < block.oldLength ∧ block.newLength = block.oldLength ∧
    Agree old new i j block.oldLength

end Block

def Tiles (old new : List String) : (i j : Nat) → List Block → (i' j' : Nat) → Prop
  | i, j, [], i', j' => i' = i ∧ j' = j
  | i, j, block :: blocks, i', j' =>
    block.StandsAt old new i j ∧
      Tiles old new (i + block.oldLength) (j + block.newLength) blocks i' j'

namespace Tiles

variable {blocks others : List Block}

theorem append_iff : Tiles old new i j (blocks ++ others) i' j' ↔
    ∃ k l, Tiles old new i j blocks k l ∧ Tiles old new k l others i' j' := by
  induction blocks generalizing i j with
  | nil => simp [Tiles, and_assoc]
  | cons block blocks ih => simp [Tiles, ih, and_assoc]

theorem append (h : Tiles old new i j blocks k l) (h' : Tiles old new k l others i' j') :
    Tiles old new i j (blocks ++ others) i' j' :=
  append_iff.2 ⟨k, l, h, h'⟩

theorem single {block : Block} (h : block.StandsAt old new i j) :
    Tiles old new i j [block] (i + block.oldLength) (j + block.newLength) :=
  ⟨h, rfl, rfl⟩

theorem le (h : Tiles old new i j blocks i' j') : i ≤ i' ∧ j ≤ j' := by
  induction blocks generalizing i j with
  | nil => simp_all [Tiles]
  | cons block blocks ih =>
    have := ih h.2
    omega

end Tiles

-- ---------------------------------------------------------------------------
-- From edits to blocks
-- ---------------------------------------------------------------------------

section
variable {edits : List Edit}

theorem totalLength_cons (edit : Edit) :
    totalLength (edit :: edits) = edit.length + totalLength edits :=
  rfl

theorem Script.of_equal (hall : ∀ edit ∈ edits, edit.kind = .equal)
    (h : Script old new i j edits i' j') :
    i' = i + totalLength edits ∧ j' = j + totalLength edits ∧
      Agree old new i j (totalLength edits) := by
  induction edits generalizing i j with
  | nil => exact ⟨h.1, h.2, nofun⟩
  | cons edit edits ih =>
    obtain ⟨hedit, h⟩ := h
    have hk : edit.kind = .equal := hall edit (by simp)
    obtain ⟨n, rfl, -, ha⟩ := hedit.eq_equal hk
    obtain ⟨hi', hj', ha'⟩ := ih (fun e he => hall e (by simp [he])) h
    simp only [Edit.oldLength_equal, Edit.newLength_equal, Nat.add_assoc] at hi' hj'
    exact ⟨hi', hj', ha.append ha'⟩

/-- Deletions do not move in the new text and insertions do not in the old one, so the first of each
stands at the beginning. -/
theorem Script.of_change (hall : ∀ edit ∈ edits, edit.kind ≠ .equal)
    (h : Script old new i j edits i' j') :
    i' = i + totalLength (edits.filter (·.kind = .delete)) ∧
      j' = j + totalLength (edits.filter (·.kind = .insert)) ∧
      (∀ edit ∈ (edits.filter (·.kind = .delete)).head?, edit.old = i) ∧
      ∀ edit ∈ (edits.filter (·.kind = .insert)).head?, edit.new = j := by
  induction edits generalizing i j with
  | nil => exact ⟨h.1, h.2, nofun, nofun⟩
  | cons edit edits ih =>
    obtain ⟨hedit, h⟩ := h
    have ih := ih (fun e he => hall e (by simp [he])) h
    cases hk : edit.kind with
    | equal => exact absurd hk (hall edit (by simp))
    | delete =>
      obtain ⟨k, n, rfl⟩ := hedit.eq_delete hk
      obtain ⟨hi', hj', -, hnew⟩ := ih
      refine ⟨?_, by simpa using hj', by simp, by simpa using hnew⟩
      simp [hi', totalLength_cons, Nat.add_assoc]
    | insert =>
      obtain ⟨k, n, rfl⟩ := hedit.eq_insert hk
      obtain ⟨hi', hj', hold, -⟩ := ih
      refine ⟨by simpa using hi', ?_, by simpa using hold, by simp⟩
      simp [hj', totalLength_cons, Nat.add_assoc]

namespace Block

def Covers (old new : List String) (i j : Nat) (recorded : List Block) (i' j' : Nat) : Prop :=
  ∃ placed, List.Forall₂ RecordOf recorded placed ∧ Tiles old new i j placed i' j'

theorem covers_ofEqual? (hall : ∀ edit ∈ edits, edit.kind = .equal)
    (h : Script old new i j edits i' j') :
    Covers old new i j (ofEqual? edits).toList i' j' := by
  cases edits with
  | nil => exact ⟨[], .nil, h⟩
  | cons first rest =>
    obtain ⟨hi', hj', ha⟩ := h.of_equal hall
    have hk : first.kind = .equal := hall first (by simp)
    have hlength := (h.1.agree hk).1
    exact ⟨_, .cons (.placed _) .nil, ⟨h.1.old_eq (by simp [hk]), h.1.new_eq (by simp [hk]),
      fun _ => ⟨Nat.lt_of_lt_of_le hlength (Nat.le_add_right ..), rfl, ha⟩⟩, hi', hj'⟩

theorem covers_ofChange? (hall : ∀ edit ∈ edits, edit.kind ≠ .equal)
    (h : Script old new i j edits i' j') :
    Covers old new i j (ofChange? edits).toList i' j' := by
  obtain ⟨hi', hj', hold, hnew⟩ := h.of_change hall
  simp only [ofChange?]
  cases hd : (edits.filter (·.kind = .delete)).head? with
  | some deletion =>
    obtain rfl := hold _ hd
    cases hi : (edits.filter (·.kind = .insert)).head? with
    | some insertion =>
      obtain rfl := hnew _ hi
      exact ⟨_, .cons (.placed _) .nil, ⟨rfl, rfl, nofun⟩, hi', hj'⟩
    | none =>
      rw [List.head?_eq_none_iff.1 hi] at hj'
      exact ⟨_, .cons (.deletion _ _ j _) .nil, ⟨rfl, rfl, nofun⟩, hi', hj'⟩
  | none =>
    rw [List.head?_eq_none_iff.1 hd] at hi'
    cases hi : (edits.filter (·.kind = .insert)).head? with
    | some insertion =>
      obtain rfl := hnew _ hi
      exact ⟨_, .cons (.insertion i _ _ _) .nil, ⟨rfl, rfl, nofun⟩, hi', hj'⟩
    | none =>
      rw [List.head?_eq_none_iff.1 hi] at hj'
      exact ⟨[], .nil, hi', hj'⟩

theorem Covers.append {recorded others : List Block} (h : Covers old new i j recorded k l)
    (h' : Covers old new k l others i' j') : Covers old new i j (recorded ++ others) i' j' := by
  obtain ⟨placed, hrecord, htiles⟩ := h
  obtain ⟨placed', hrecord', htiles'⟩ := h'
  exact ⟨placed ++ placed', List.rel_append hrecord hrecord', htiles.append htiles'⟩

theorem alike_of_isChain
    (h : edits.IsChain fun a b => ((a.kind = .equal) == (b.kind = .equal)) = true) :
    (∀ edit ∈ edits, edit.kind = .equal) ∨ ∀ edit ∈ edits, edit.kind ≠ .equal := by
  induction edits with
  | nil => exact .inl nofun
  | cons first rest ih =>
    cases rest with
    | nil => simpa using Decidable.em (first.kind = .equal)
    | cons second rest =>
      obtain ⟨hsame, h⟩ := List.isChain_cons_cons.1 h
      have hiff : first.kind = .equal ↔ second.kind = .equal := by simpa using hsame
      refine (ih h).imp (fun hall => ?_) (fun hall => ?_)
      · exact List.forall_mem_cons.2 ⟨hiff.2 (hall second (by simp)), hall⟩
      · exact List.forall_mem_cons.2 ⟨fun hk => hall second (by simp) (hiff.1 hk), hall⟩

theorem filterMap_cons_toList {α β : Type} (f : α → Option β) (a : α) (as : List α) :
    (a :: as).filterMap f = (f a).toList ++ as.filterMap f := by
  cases h : f a <;> simp [h]

theorem covers_groups {groups : List (List Edit)} (hgroups : ∀ group ∈ groups,
      (∀ edit ∈ group, edit.kind = .equal) ∨ ∀ edit ∈ group, edit.kind ≠ .equal)
    (h : Script old new i j groups.flatten i' j') :
    Covers old new i j (groups.filterMap fun group =>
      if group.all (·.kind = .equal) then ofEqual? group else ofChange? group) i' j' := by
  induction groups generalizing i j with
  | nil => exact ⟨[], .nil, h⟩
  | cons group groups ih =>
    obtain ⟨k, l, hgroup, h⟩ := Script.append_iff.1 h
    have hblock : Covers old new i j (if group.all (·.kind = .equal) then ofEqual? group
        else ofChange? group).toList k l := by
      split
      · rename_i hall
        exact covers_ofEqual? (fun edit he => by simpa using List.all_eq_true.1 hall edit he) hgroup
      · rename_i hnot
        rcases hgroups group (by simp) with hall | hall
        · exact absurd (List.all_eq_true.2 fun edit he => by simpa using hall edit he) hnot
        · exact covers_ofChange? hall hgroup
    rw [filterMap_cons_toList]
    exact hblock.append (ih (fun g hg => hgroups g (by simp [hg])) h)

theorem covers_ofEdits (h : Script old new i j edits i' j') :
    Covers old new i j (ofEdits edits) i' j' := by
  refine covers_groups (fun group hg => alike_of_isChain (List.isChain_of_mem_splitBy hg)) ?_
  rwa [List.flatten_splitBy]

end Block

end

theorem blocks_cover (old new : List String) :
    Block.Covers old new 0 0 (blocks old new) old.length new.length :=
  Block.covers_ofEdits (settle_complete (search_complete old new))

end ContentTypes.Diff
