import ContentTypes.Proofs.Diff.Cutting

/-!
# Recorded ranges

The hunks of blocks as they are recorded show the same lines as those of the blocks at their places,
and they begin at the same line of at least one text. So they apply only if all their ranges are
right. A range can be wrong only at a block that begins or ends the texts: everywhere else a hunk
begins and ends with equal lines, which are recorded at their places.
-/

namespace ContentTypes.Diff

open List (Forall₂)
open Block (RecordOf)

variable {old new : List String} {i j i' j' done made : Nat} {recorded placed block : Block}
  {blocks places : List Block} {current current' : Hunk}

-- ---------------------------------------------------------------------------
-- Hunks that apply
-- ---------------------------------------------------------------------------

/-- The hunks show the same and begin at the same line of one of the texts. -/
structure PatchHunk.Alike (hunk other : PatchHunk) : Prop where
  changes_eq : hunk.changes = other.changes
  start_eq : hunk.oldStart = other.oldStart ∨ hunk.newStart = other.newStart

theorem PatchHunk.FitsAt.unique {hunk other : PatchHunk} {lines : List String}
    (h : hunk.FitsAt done made lines) (h' : other.FitsAt done made lines) (hs : hunk.Alike other) :
    hunk = other := by
  have hle := h.start_le
  have hle' := h'.start_le
  have hnew := h.newStart_eq
  have hnew' := h'.newStart_eq
  have hstart := hs.start_eq
  have hold : hunk.oldStart = other.oldStart := by omega
  refine PatchHunk.ext hold ?_ (by rw [hnew, hnew', hold]) ?_ hs.changes_eq
  · rw [h.oldLength_eq, h'.oldLength_eq, hs.changes_eq]
  · rw [h.newLength_eq, h'.newLength_eq, hs.changes_eq]

theorem applyHunks_unique {hunks others : List PatchHunk} {lines : List String}
    (hs : Forall₂ PatchHunk.Alike hunks others) (h : (applyHunks done made hunks lines).isSome)
    (h' : (applyHunks done made others lines).isSome) : hunks = others := by
  induction hs generalizing done made lines with
  | nil => rfl
  | @cons hunk other hunks others hs _ ih =>
    simp only [applyHunks] at h h'
    split at h
    · split at h'
      · rename_i hfits hfits'
        obtain rfl := hfits.unique hfits' hs
        rw [ih (by simpa using h) (by simpa using h')]
      · simp at h'
    · simp at h

-- ---------------------------------------------------------------------------
-- Hunks of recorded blocks
-- ---------------------------------------------------------------------------

namespace Block.RecordOf

theorem isEqual_eq (h : RecordOf recorded placed) : recorded.isEqual = placed.isEqual := by
  cases h <;> rfl

theorem lengths_eq (h : RecordOf recorded placed) :
    recorded.oldLength = placed.oldLength ∧ recorded.newLength = placed.newLength := by
  cases h <;> exact ⟨rfl, rfl⟩

theorem eq_of_isEqual (h : RecordOf recorded placed) (hequal : placed.isEqual) :
    recorded = placed := by
  cases h with
  | placed => rfl
  | deletion => exact absurd hequal nofun
  | insertion => exact absurd hequal nofun

theorem start_eq (h : RecordOf recorded placed) :
    recorded.old = placed.old ∨ recorded.new = placed.new := by
  cases h with
  | placed => exact .inl rfl
  | deletion => exact .inl rfl
  | insertion => exact .inr rfl

theorem eq_of_starts (h : RecordOf recorded placed) (hold : recorded.old = placed.old)
    (hnew : recorded.new = placed.new) : recorded = placed := by
  cases h <;> simp_all

end Block.RecordOf

/-- The hunk as it is recorded, and as it stands. Its ends are recorded at their places if the first
and the last of all blocks are. -/
structure Hunk.RecordOf (first last : Prop) (recorded placed : Hunk) : Prop where
  blocks : Forall₂ Block.RecordOf recorded placed
  head_eq : first → recorded.head? = placed.head?
  last_eq : last → recorded.getLast? = placed.getLast?

section
variable {α : Type} {R : α → α → Prop} {as as' bs bs' cs cs' : List α}

theorem head?_append_congr (h : Forall₂ R as as') (h' : (as ++ bs).head? = (as' ++ bs').head?)
    (hcs : cs.head? = cs'.head?) : (as ++ cs).head? = (as' ++ cs').head? := by
  cases h with
  | nil => exact hcs
  | cons => simpa using h'

theorem getLast?_append_congr (h : Forall₂ R as as')
    (h' : (bs ++ as).getLast? = (bs' ++ as').getLast?) (hcs : cs.getLast? = cs'.getLast?) :
    (cs ++ as).getLast? = (cs' ++ as').getLast? := by
  cases h with
  | nil => simpa using hcs
  | cons =>
    rw [List.getLast?_append_of_ne_nil _ (List.cons_ne_nil _ _),
      List.getLast?_append_of_ne_nil _ (List.cons_ne_nil _ _)] at h' ⊢
    exact h'

end

theorem all_isEqual_congr (h : Forall₂ RecordOf blocks places) :
    blocks.all (·.isEqual) = places.all (·.isEqual) := by
  induction h with
  | nil => rfl
  | cons hrecord _ ih => rw [List.all_cons, List.all_cons, hrecord.isEqual_eq, ih]

theorem cutHunks_record {first last : Prop} (hcurrent : Forall₂ RecordOf current current')
    (h : Forall₂ RecordOf blocks places)
    (hfirst : first → (current.reverse ++ blocks).head? = (current'.reverse ++ places).head?)
    (hlast : last → (current.reverse ++ blocks).getLast? = (current'.reverse ++ places).getLast?) :
    Forall₂ (Hunk.RecordOf first last) (cutHunks current blocks) (cutHunks current' places) := by
  -- equal lines are recorded where they stand, so both lists are cut at the same blocks
  induction h generalizing current current' with
  | nil =>
    simp only [cutHunks, all_isEqual_congr hcurrent]
    split
    · exact .nil
    · refine .cons ⟨List.rel_reverse hcurrent, ?_, ?_⟩ .nil
      · simpa using hfirst
      · simpa using hlast
  | @cons block place blocks places hrecord h ih =>
    by_cases hcut : place.isEqual ∧ 2 * contextLines < place.oldLength
    · obtain rfl := hrecord.eq_of_isEqual hcut.1
      simp only [cutHunks, hcut, and_self, ↓reduceIte]
      refine .cons ⟨List.rel_reverse (.cons (.placed _) hcurrent), fun hf => ?_, fun _ => ?_⟩
        (ih (.cons (.placed _) .nil) (fun _ => rfl) fun hl => ?_)
      · rw [List.reverse_cons, List.reverse_cons]
        exact head?_append_congr (List.rel_reverse hcurrent) (hfirst hf) rfl
      · simp
      · have hlast' := hlast hl
        rw [List.append_cons current.reverse, List.append_cons current'.reverse] at hlast'
        exact getLast?_append_congr h hlast' rfl
    · have hcut' : ¬(block.isEqual ∧ 2 * contextLines < block.oldLength) := by
        rintro ⟨hequal, hlong⟩
        obtain rfl := hrecord.eq_of_isEqual (hrecord.isEqual_eq ▸ hequal)
        exact hcut ⟨hequal, hlong⟩
      simp only [cutHunks, hcut, hcut', ↓reduceIte]
      exact ih (.cons hrecord hcurrent) (by simpa using hfirst) (by simpa using hlast)

-- ---------------------------------------------------------------------------
-- Trimming
-- ---------------------------------------------------------------------------

def trimHead (shorten : Block → Block) : List Block → List Block
  | block :: rest => (if block.isEqual then shorten block else block) :: rest
  | [] => []

theorem trimFront_eq (blocks : List Block) :
    trimFront blocks = trimHead (·.lastLines contextLines) blocks := by
  cases blocks <;> rfl

theorem trimBack_eq (blocks : List Block) :
    trimBack blocks = (trimHead (·.firstLines contextLines) blocks.reverse).reverse := by
  simp only [trimBack]
  cases blocks.reverse <;> rfl

namespace Hunk.RecordOf

variable {first last : Prop}

theorem reverse (h : Hunk.RecordOf first last blocks places) :
    Hunk.RecordOf last first blocks.reverse places.reverse :=
  ⟨List.rel_reverse h.blocks, by simpa using h.last_eq, by simpa using h.head_eq⟩

theorem trimHead (shorten : Block → Block) (h : Hunk.RecordOf first last blocks places) :
    Hunk.RecordOf first last (trimHead shorten blocks) (trimHead shorten places) := by
  obtain ⟨hblocks, hhead, hlast⟩ := h
  cases hblocks with
  | nil => exact ⟨.nil, hhead, hlast⟩
  | @cons block place blocks places hrecord h =>
    have hshort : Block.RecordOf (if block.isEqual then shorten block else block)
        (if place.isEqual then shorten place else place) := by
      cases hrecord with
      | placed => exact .placed _
      | deletion => exact .deletion ..
      | insertion => exact .insertion ..
    refine ⟨.cons hshort h, fun hf => ?_, fun hl => ?_⟩
    · have heq := hhead hf
      simp only [List.head?_cons, Option.some.injEq] at heq
      simp [Diff.trimHead, heq]
    · have heq := hlast hl
      cases h with
      | nil =>
        simp only [List.getLast?_singleton, Option.some.injEq] at heq
        simp [Diff.trimHead, heq]
      | cons => simpa [Diff.trimHead] using heq

end Hunk.RecordOf

theorem hunks_record {first last : Prop} (h : Hunk.RecordOf first last blocks places) :
    Forall₂ (Hunk.RecordOf first last) (hunks blocks) (hunks places) := by
  have htrimmed := ((h.trimHead (·.lastLines contextLines)).reverse.trimHead
    (·.firstLines contextLines)).reverse
  rw [← trimFront_eq, ← trimFront_eq, ← trimBack_eq, ← trimBack_eq] at htrimmed
  exact cutHunks_record .nil htrimmed.blocks htrimmed.head_eq htrimmed.last_eq

theorem Hunk.RecordOf.alike {first last : Prop} {recorded placed : Hunk}
    (h : Hunk.RecordOf first last recorded placed) :
    (recorded.patch old new).Alike (placed.patch old new) := by
  obtain ⟨hblocks, -, -⟩ := h
  refine ⟨(changes_of_record _ _ hblocks).1, ?_⟩
  cases hblocks with
  | nil => exact .inl rfl
  | cons hrecord => exact hrecord.start_eq

theorem Hunk.RecordOf.patch_eq {recorded placed : Hunk}
    (h : Hunk.RecordOf True True recorded placed) :
    recorded.patch old new = placed.patch old new := by
  simp only [Hunk.patch, Hunk.oldStart, Hunk.oldEnd, Hunk.newStart, Hunk.newEnd,
    h.head_eq trivial, h.last_eq trivial, (changes_of_record _ _ h.blocks).1]

-- ---------------------------------------------------------------------------
-- Changes at the ends
-- ---------------------------------------------------------------------------

section
variable {shorten : Block → Block}

theorem head?_trimHead (hs : ∀ block, (shorten block).isEqual = block.isEqual)
    (hb : block.isEqual = false) :
    (trimHead shorten blocks).head? = some block ↔ blocks.head? = some block := by
  cases blocks with
  | nil => rfl
  | cons first rest =>
    cases hequal : first.isEqual with
    | true =>
      have hne (other : Block) (ho : other.isEqual = true) : other ≠ block := by
        rintro rfl
        exact absurd ho (by simp [hb])
      simp [trimHead, hequal, hne first hequal, hne _ ((hs first).trans hequal)]
    | false => simp [trimHead, hequal]

theorem getLast?_trimHead (hs : ∀ block, (shorten block).isEqual = block.isEqual)
    (hb : block.isEqual = false) :
    (trimHead shorten blocks).getLast? = some block ↔ blocks.getLast? = some block := by
  match blocks with
  | [] => rfl
  | [first] => exact (head?_trimHead hs hb : (trimHead shorten [first]).head? = some block ↔ _)
  | first :: second :: rest => simp [trimHead]

end

theorem isEqual_firstLines (block : Block) :
    (block.firstLines contextLines).isEqual = block.isEqual :=
  rfl

theorem isEqual_lastLines (block : Block) :
    (block.lastLines contextLines).isEqual = block.isEqual :=
  rfl

theorem head?_trimmed (hb : block.isEqual = false) :
    (trimBack (trimFront blocks)).head? = some block ↔ blocks.head? = some block := by
  rw [trimBack_eq, trimFront_eq, List.head?_reverse, getLast?_trimHead isEqual_firstLines hb,
    List.getLast?_reverse, head?_trimHead isEqual_lastLines hb]

theorem getLast?_trimmed (hb : block.isEqual = false) :
    (trimBack (trimFront blocks)).getLast? = some block ↔ blocks.getLast? = some block := by
  rw [trimBack_eq, trimFront_eq, List.getLast?_reverse, head?_trimHead isEqual_firstLines hb,
    List.head?_reverse, getLast?_trimHead isEqual_lastLines hb]

theorem cutHunks_nil (hb : block.isEqual = false) (h : block ∈ current) :
    cutHunks current [] = [current.reverse] := by
  have hnot : ¬current.all (·.isEqual) = true := fun hall => by
    simp [List.all_eq_true.1 hall block h] at hb
  rw [cutHunks, if_neg hnot]

theorem head?_cutHunks (hb : block.isEqual = false)
    (h : (current.reverse ++ blocks).head? = some block) :
    (cutHunks current blocks).head?.bind List.head? = some block := by
  induction blocks generalizing current with
  | nil =>
    rw [List.append_nil] at h
    rw [cutHunks_nil hb (List.mem_reverse.1 (List.mem_of_head? h))]
    exact h
  | cons next rest ih =>
    simp only [cutHunks]
    split
    · rename_i hcut
      cases hcurrent : current.reverse with
      | nil =>
        obtain rfl : next = block := by simpa [hcurrent] using h
        simp [hcut.1] at hb
      | cons first others =>
        simpa [hcurrent] using h
    · exact ih (by simpa using h)

theorem getLast?_cutHunks (hb : block.isEqual = false)
    (h : (current.reverse ++ blocks).getLast? = some block) :
    (cutHunks current blocks).getLast?.bind List.getLast? = some block := by
  induction blocks generalizing current with
  | nil =>
    rw [List.append_nil] at h
    rw [cutHunks_nil hb (List.mem_reverse.1 (List.mem_of_getLast? h))]
    exact h
  | cons next rest ih =>
    simp only [cutHunks]
    split
    · rename_i hcut
      cases rest with
      | nil =>
        obtain rfl : next = block := by simpa using h
        simp [hcut.1] at hb
      | cons second others =>
        have hrest : (cutHunks [next.lastLines contextLines] (second :: others)).getLast?.bind
            List.getLast? = some block := ih (by simpa using h)
        obtain ⟨hunk, hhunk, hlast⟩ := Option.bind_eq_some_iff.1 hrest
        simp [List.getLast?_cons, hhunk, hlast]
    · exact ih (by simpa using h)

/-- A hunk begins with equal lines if it does not begin with the first block. -/
theorem head?_of_mem_cutHunks {hunk : Hunk} (h : hunk ∈ cutHunks current blocks) :
    hunk.head? = (current.reverse ++ blocks).head? ∨
      ∃ block, hunk.head? = some block ∧ block.isEqual := by
  induction blocks generalizing current with
  | nil =>
    simp only [cutHunks] at h
    split at h
    · simp at h
    · rw [List.mem_singleton] at h
      simp [h]
  | cons next rest ih =>
    simp only [cutHunks] at h
    split at h
    · rename_i hcut
      rcases List.mem_cons.1 h with rfl | h
      · cases hcurrent : current.reverse with
        | nil => exact .inr ⟨next.firstLines contextLines, by simp [hcurrent], hcut.1⟩
        | cons first others => exact .inl (by simp [hcurrent])
      · exact (ih h).elim (fun hhead => .inr ⟨_, hhead, hcut.1⟩) .inr
    · simpa using ih h

theorem ne_nil_of_mem_cutHunks {hunk : Hunk} (h : hunk ∈ cutHunks current blocks) : hunk ≠ [] := by
  induction blocks generalizing current with
  | nil =>
    simp only [cutHunks] at h
    split at h
    · simp at h
    · rename_i hnot
      rw [List.mem_singleton.1 h]
      intro hnil
      simp [List.reverse_eq_nil_iff.1 hnil] at hnot
  | cons next rest ih =>
    simp only [cutHunks] at h
    split at h
    · rcases List.mem_cons.1 h with rfl | h
      · simp
      · exact ih h
    · exact ih h

theorem head?_hunks (hb : block.isEqual = false) (h : blocks.head? = some block) :
    (hunks blocks).head?.bind List.head? = some block :=
  head?_cutHunks hb ((head?_trimmed hb).2 h)

theorem getLast?_hunks (hb : block.isEqual = false) (h : blocks.getLast? = some block) :
    (hunks blocks).getLast?.bind List.getLast? = some block :=
  getLast?_cutHunks hb ((getLast?_trimmed hb).2 h)

end ContentTypes.Diff
