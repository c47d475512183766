import ContentTypes.Proofs.Diff.Recording

/-!
# Where the ranges are right

The hunks shown are those of the blocks at their places exactly if the first block is recorded at
the beginning of both texts and the last one at their end. Then they turn the one text into the other,
and else they do not apply.
-/

namespace ContentTypes.Diff

open List (Forall₂)
open Block (RecordOf)

variable {old new : List String} {i j i' j' : Nat} {records places : List Block}

structure EndsInPlace (old new : List String) (blocks : List Block) : Prop where
  first : ∀ block ∈ blocks.head?, block.old = 0 ∧ block.new = 0
  last : ∀ block ∈ blocks.getLast?,
    block.old + block.oldLength = old.length ∧ block.new + block.newLength = new.length

instance (blocks : List Block) : Decidable (EndsInPlace old new blocks) :=
  decidable_of_iff (_ ∧ _) ⟨fun ⟨first, last⟩ => ⟨first, last⟩, fun ⟨first, last⟩ => ⟨first, last⟩⟩

section
variable {α : Type} {R : α → α → Prop} {as as' : List α}

theorem rel_head? (h : Forall₂ R as as') : Option.Rel R as.head? as'.head? := by
  cases h with
  | nil => exact .none
  | cons h => exact .some h

theorem rel_getLast? (h : Forall₂ R as as') : Option.Rel R as.getLast? as'.getLast? := by
  simpa using rel_head? (List.rel_reverse h)

theorem eq_of_rel {a a' : Option α} (h : Option.Rel R a a')
    (heq : ∀ b b', a = some b → a' = some b' → R b b' → b = b') : a = a' := by
  cases h with
  | none => rfl
  | some h => rw [heq _ _ rfl rfl h]

theorem map_eq_map {β : Type} {f g : α → β} (h : Forall₂ R as as')
    (hfg : ∀ a a', R a a' → f a = g a') : as.map f = as'.map g := by
  induction h with
  | nil => rfl
  | cons h _ ih => rw [List.map_cons, List.map_cons, hfg _ _ h, ih]

end

theorem Spaced.exists_tiles {hunks : List Hunk} {hunk : Hunk} (h : Spaced old new i j hunks)
    (hmem : hunk ∈ hunks) : hunk ≠ [] ∧ ∃ k l i' j', Tiles old new k l hunk i' j' := by
  induction hunks generalizing i j with
  | nil => simp at hmem
  | cons first rest ih =>
    obtain ⟨gap, i', j', hne, -, htiles, -, -, h⟩ := h
    rcases List.mem_cons.1 hmem with rfl | hmem
    · exact ⟨hne, _, _, _, _, htiles⟩
    · exact ih h hmem

/-- Only a hunk at the beginning can be without lines of one of the texts. -/
theorem ranges_of_mem {hunk : Hunk} (h : Tiles old new 0 0 places old.length new.length)
    (hmem : hunk ∈ hunks places) :
    (hunk.oldStart < hunk.oldEnd ∧ hunk.newStart < hunk.newEnd) ∨
      (hunk.oldStart = 0 ∧ hunk.newStart = 0) := by
  obtain ⟨hne, k, l, i', j', htiles⟩ := (hunks_spaced h).exists_tiles hmem
  obtain ⟨hold, hnew⟩ := Hunk.starts_of_tiles hne htiles
  obtain ⟨hold', hnew'⟩ := Hunk.ends_of_tiles hne htiles
  obtain ⟨first, rest, rfl⟩ := List.exists_cons_of_ne_nil hne
  obtain ⟨hfirst, hrest⟩ := htiles
  obtain ⟨hle, hle'⟩ := hrest.le
  cases hequal : first.isEqual with
  | true =>
    obtain ⟨hpos, hlength, -⟩ := hfirst.equal hequal
    exact .inl ⟨by omega, by omega⟩
  | false =>
    right
    have hhead : (trimBack (trimFront places)).head? = some first := by
      rcases head?_of_mem_cutHunks hmem with hhead | ⟨block, hhead, hblock⟩
      · exact hhead.symm
      · obtain rfl : first = block := by simpa using hhead
        simp [hequal] at hblock
    rw [head?_trimmed hequal] at hhead
    cases places with
    | nil => simp at hhead
    | cons place others =>
      obtain rfl : place = first := by simpa using hhead
      exact ⟨h.1.old_eq, h.1.new_eq⟩

theorem Tiles.endsInPlace (h : Tiles old new 0 0 places old.length new.length) :
    EndsInPlace old new places := by
  cases hplaces : places with
  | nil => exact ⟨nofun, nofun⟩
  | cons first rest =>
    have hne : places ≠ [] := by simp [hplaces]
    obtain ⟨hold, hnew⟩ := Hunk.starts_of_tiles hne h
    obtain ⟨hold', hnew'⟩ := Hunk.ends_of_tiles hne h
    rw [← hplaces]
    refine ⟨fun block hb => ?_, fun block hb => ?_⟩
    · rw [Option.mem_def] at hb
      simpa [Hunk.oldStart, Hunk.newStart, hb] using And.intro hold hnew
    · rw [Option.mem_def] at hb
      simpa [Hunk.oldEnd, Hunk.newEnd, hb] using And.intro hold' hnew'

section
variable (h : Forall₂ RecordOf records places)
include h

theorem endsInPlace_iff (htiles : Tiles old new 0 0 places old.length new.length) :
    EndsInPlace old new records ↔
      records.head? = places.head? ∧ records.getLast? = places.getLast? := by
  have hplaces := htiles.endsInPlace
  constructor
  · intro hrecords
    constructor
    · refine eq_of_rel (rel_head? h) fun block place hblock hplace hrecord => ?_
      obtain ⟨hold, hnew⟩ := hrecords.first _ hblock
      obtain ⟨hold', hnew'⟩ := hplaces.first _ hplace
      exact hrecord.eq_of_starts (by omega) (by omega)
    · refine eq_of_rel (rel_getLast? h) fun block place hblock hplace hrecord => ?_
      obtain ⟨hold, hnew⟩ := hrecords.last _ hblock
      obtain ⟨hold', hnew'⟩ := hplaces.last _ hplace
      obtain ⟨hlength, hlength'⟩ := hrecord.lengths_eq
      exact hrecord.eq_of_starts (by omega) (by omega)
  · rintro ⟨hhead, hlast⟩
    exact ⟨hhead ▸ hplaces.first, hlast ▸ hplaces.last⟩

theorem head?_eq_of_patches
    (heq : (hunks records).map (·.patch old new) = (hunks places).map (·.patch old new)) :
    records.head? = places.head? := by
  refine eq_of_rel (rel_head? h) fun block place hblock hplace hrecord => ?_
  cases hequal : place.isEqual with
  | true => exact hrecord.eq_of_isEqual hequal
  | false =>
    obtain ⟨hunk, hhunk, hhead⟩ := Option.bind_eq_some_iff.1
      (head?_hunks (hrecord.isEqual_eq.trans hequal) hblock)
    obtain ⟨hunk', hhunk', hhead'⟩ := Option.bind_eq_some_iff.1 (head?_hunks hequal hplace)
    have hpatch : hunk.patch old new = hunk'.patch old new := by
      simpa [hhunk, hhunk'] using congrArg List.head? heq
    have hold := congrArg PatchHunk.oldStart hpatch
    have hnew := congrArg PatchHunk.newStart hpatch
    simp only [Hunk.patch, Hunk.oldStart, Hunk.newStart, hhead, hhead', Option.map_some,
      Option.getD_some] at hold hnew
    exact hrecord.eq_of_starts hold hnew

theorem getLast?_eq_of_patches (htiles : Tiles old new 0 0 places old.length new.length)
    (heq : (hunks records).map (·.patch old new) = (hunks places).map (·.patch old new)) :
    records.getLast? = places.getLast? := by
  refine eq_of_rel (rel_getLast? h) fun block place hblock hplace hrecord => ?_
  cases hequal : place.isEqual with
  | true => exact hrecord.eq_of_isEqual hequal
  | false =>
    obtain ⟨hunk, hhunk, hlast⟩ := Option.bind_eq_some_iff.1
      (getLast?_hunks (hrecord.isEqual_eq.trans hequal) hblock)
    obtain ⟨hunk', hhunk', hlast'⟩ := Option.bind_eq_some_iff.1 (getLast?_hunks hequal hplace)
    have hpatch : hunk.patch old new = hunk'.patch old new := by
      simpa [hhunk, hhunk'] using congrArg List.getLast? heq
    -- a range that is cut off at zero looks like that of a hunk without lines
    have hranges := ranges_of_mem htiles (List.mem_of_getLast? hhunk')
    obtain ⟨hlength, hlength'⟩ := hrecord.lengths_eq
    have hstart := congrArg PatchHunk.oldStart hpatch
    have hstart' := congrArg PatchHunk.newStart hpatch
    have hold := congrArg PatchHunk.oldLength hpatch
    have hnew := congrArg PatchHunk.newLength hpatch
    simp only [Hunk.patch] at hstart hstart' hold hnew
    have hend : hunk.oldEnd = block.old + block.oldLength ∧
        hunk.newEnd = block.new + block.newLength := by
      simp [Hunk.oldEnd, Hunk.newEnd, hlast]
    have hend' : hunk'.oldEnd = place.old + place.oldLength ∧
        hunk'.newEnd = place.new + place.newLength := by
      simp [Hunk.oldEnd, Hunk.newEnd, hlast']
    exact hrecord.eq_of_starts (by omega) (by omega)

theorem patches_eq_iff (htiles : Tiles old new 0 0 places old.length new.length) :
    (hunks records).map (·.patch old new) = (hunks places).map (·.patch old new) ↔
      records.head? = places.head? ∧ records.getLast? = places.getLast? := by
  refine ⟨fun heq => ⟨head?_eq_of_patches h heq, getLast?_eq_of_patches h htiles heq⟩, ?_⟩
  rintro ⟨hfirst, hlast⟩
  have hrecord : Hunk.RecordOf True True records places := ⟨h, fun _ => hfirst, fun _ => hlast⟩
  exact map_eq_map (hunks_record hrecord) fun _ _ hhunk => hhunk.patch_eq

end

/-- The hunks shown are those that turn the old text into the new one, but for the ranges. They
apply if both ends of the texts are recorded at their places, and not otherwise. -/
theorem applyHunks_blocks (old new : List String) :
    ∃ right : List PatchHunk,
      right.map (·.changes) = (hunks (blocks old new)).map (·.flatMap (·.changes old new)) ∧
      applyHunks 0 0 right old = some new ∧
      applyHunks 0 0 ((hunks (blocks old new)).map (·.patch old new)) old =
        if EndsInPlace old new (blocks old new) then some new else none := by
  obtain ⟨places, hrecord, htiles⟩ := blocks_cover old new
  have hhunks : Forall₂ (Hunk.RecordOf False False) (hunks (blocks old new)) (hunks places) :=
    hunks_record ⟨hrecord, nofun, nofun⟩
  have hright : applyHunks 0 0 ((hunks places).map (·.patch old new)) old = some new := by
    simpa using (hunks_spaced htiles).apply
  have hends := (patches_eq_iff hrecord htiles).trans (endsInPlace_iff hrecord htiles).symm
  refine ⟨(hunks places).map (·.patch old new), ?_, hright, ?_⟩
  · rw [List.map_map]
    exact (map_eq_map hhunks fun _ _ hhunk => (changes_of_record _ _ hhunk.blocks).1).symm
  · split
    · rename_i hplace
      rw [hends.2 hplace, hright]
    · rename_i hplace
      refine Option.not_isSome_iff_eq_none.1 fun happlies => hplace (hends.1 ?_)
      have halike : Forall₂ PatchHunk.Alike ((hunks (blocks old new)).map (·.patch old new))
          ((hunks places).map (·.patch old new)) :=
        List.forall₂_map_left_iff.2 (List.forall₂_map_right_iff.2 (hhunks.imp fun _ _ h => h.alike))
      exact applyHunks_unique halike happlies (by simp [hright])

end ContentTypes.Diff
