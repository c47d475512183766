import ContentTypes.Text.CaseMap

/-!
# Images of the upper-case map

A character that the map changes goes to ASCII capitals and to characters beyond ASCII: `mem_uppercase`.
Small letters of ASCII are changed, so none is left in an image: `not_isSmall_of_mem_uppercase`. The map
changes nothing that an image begins with: `uppercase_of_head?`.
-/

namespace ContentTypes.Text

/-- Code points from `first` to `last` are ASCII capitals, or scalar values beyond ASCII. -/
def AreImages (first last : Nat) : Prop :=
  0x41 ≤ first ∧ last ≤ 0x5A ∨ 0x80 ≤ first ∧ last < 0xD800 ∨ 0xE000 ≤ first ∧ last < 0x110000

instance (first last : Nat) : Decidable (AreImages first last) :=
  inferInstanceAs (Decidable (_ ∨ _))

def IsImage (c : Char) : Prop :=
  0x41 ≤ c.toNat ∧ c.toNat ≤ 0x5A ∨ 0x80 ≤ c.toNat

def IsSmall (c : Char) : Prop :=
  0x61 ≤ c.toNat ∧ c.toNat ≤ 0x7A

instance : DecidablePred IsSmall := fun c =>
  inferInstanceAs (Decidable (0x61 ≤ c.toNat ∧ c.toNat ≤ 0x7A))

theorem IsImage.not_isSmall {c : Char} (h : IsImage c) : ¬IsSmall c := by
  unfold IsImage at h
  unfold IsSmall
  omega

theorem areImages_of_mem_runs :
    ∀ run ∈ uppercaseMap.runs, AreImages run.image (run.image + (run.last - run.first)) := by
  decide +kernel

theorem areImages_of_mem_expansions :
    ∀ expansion ∈ uppercaseMap.expansions,
      expansion.2 ≠ [] ∧ ∀ code ∈ expansion.2, AreImages code code := by
  decide +kernel

theorem toNat_ofNat {first last code : Nat} (h : AreImages first last) (hf : first ≤ code)
    (hl : code ≤ last) : (Char.ofNat code).toNat = code := by
  unfold AreImages at h
  have hvalid : code.isValidChar := by
    unfold Nat.isValidChar
    omega
  unfold Char.ofNat
  rw [dif_pos hvalid]
  rfl

theorem isImage_ofNat {first last code : Nat} (h : AreImages first last) (hf : first ≤ code)
    (hl : code ≤ last) : IsImage (Char.ofNat code) := by
  have hcode := toNat_ofNat h hf hl
  unfold AreImages at h
  unfold IsImage
  omega

theorem image?_eq_some {run : CaseRun} {code image : Nat} (h : run.image? code = some image) :
    run.image ≤ image ∧ image ≤ run.image + (run.last - run.first) := by
  unfold CaseRun.image? at h
  split at h
  · cases h
    omega
  · cases h

theorem lookup_mem {codes : List Nat} {code : Nat} {pairs : List (Nat × List Nat)}
    (h : pairs.lookup code = some codes) : (code, codes) ∈ pairs := by
  obtain ⟨front, back, hp, -⟩ := List.lookup_eq_some_iff.1 h
  simp [hp]

theorem CaseMap.apply_cases (map : CaseMap) (c : Char) :
    map.apply c = [c] ∨
      (∃ codes, (c.toNat, codes) ∈ map.expansions ∧ map.apply c = codes.map Char.ofNat) ∨
      ∃ run ∈ map.runs, ∃ image, run.image? c.toNat = some image ∧
        map.apply c = [Char.ofNat image] := by
  unfold CaseMap.apply
  cases he : map.expansions.lookup c.toNat with
  | some codes => exact .inr (.inl ⟨codes, lookup_mem he, rfl⟩)
  | none =>
    cases hr : map.runs.findSome? (·.image? c.toNat) with
    | none => exact .inl rfl
    | some image =>
      obtain ⟨run, hm, hi⟩ := List.exists_of_findSome?_eq_some hr
      exact .inr (.inr ⟨run, hm, image, hi, rfl⟩)

theorem uppercase_cases (c : Char) :
    uppercase c = [c] ∨ uppercase c ≠ [] ∧ ∀ d ∈ uppercase c, IsImage d := by
  unfold uppercase
  rcases uppercaseMap.apply_cases c with hc | ⟨codes, hm, hc⟩ | ⟨run, hm, image, hi, hc⟩
  · exact .inl hc
  · obtain ⟨hne, hcodes⟩ := areImages_of_mem_expansions _ hm
    rw [hc]
    refine .inr ⟨by simpa using hne, fun d hd => ?_⟩
    obtain ⟨code, hcode, rfl⟩ := List.mem_map.1 hd
    exact isImage_ofNat (hcodes code hcode) (Nat.le_refl _) (Nat.le_refl _)
  · obtain ⟨hf, hl⟩ := image?_eq_some hi
    rw [hc]
    refine .inr ⟨by simp, fun d hd => ?_⟩
    rw [List.mem_singleton.1 hd]
    exact isImage_ofNat (areImages_of_mem_runs run hm) hf hl

theorem uppercase_ne_nil (c : Char) : uppercase c ≠ [] := by
  rcases uppercase_cases c with h | h
  · simp [h]
  · exact h.1

theorem mem_uppercase {c d : Char} (h : d ∈ uppercase c) : d = c ∨ IsImage d := by
  rcases uppercase_cases c with hc | hc
  · exact .inl (List.mem_singleton.1 (hc ▸ h))
  · exact .inr (hc.2 d h)

theorem uppercase_ne_of_isSmall {c : Char} (h : IsSmall c) : uppercase c ≠ [c] := by
  have hall : ∀ step < 26, uppercase (Char.ofNat (0x61 + step)) ≠ [Char.ofNat (0x61 + step)] := by
    decide +kernel
  have hc := hall (c.toNat - 0x61) (by unfold IsSmall at h; omega)
  rwa [Nat.add_sub_cancel' h.1, Char.ofNat_toNat] at hc

theorem not_isSmall_of_mem_uppercase {c d : Char} (h : d ∈ uppercase c) : ¬IsSmall d := by
  intro hd
  rcases uppercase_cases c with hc | hc
  · obtain rfl := List.mem_singleton.1 (hc ▸ h)
    exact uppercase_ne_of_isSmall hd hc
  · exact (hc.2 d h).not_isSmall hd

-- ---------------------------------------------------------------------------
-- Characters that are their own upper case
-- ---------------------------------------------------------------------------

def CaseMap.sources (map : CaseMap) : List CaseRun :=
  map.runs ++ map.expansions.map fun (code, _) => ⟨code, code, 1, code⟩

def CaseMap.Keeps (map : CaseMap) (code : Nat) : Prop :=
  ∀ run ∈ map.sources, run.image? code = none

instance (map : CaseMap) : DecidablePred map.Keeps := fun code =>
  inferInstanceAs (Decidable (∀ run ∈ map.sources, run.image? code = none))

theorem CaseMap.apply_of_keeps {map : CaseMap} {c : Char} (h : map.Keeps c.toNat) :
    map.apply c = [c] := by
  rcases map.apply_cases c with hc | ⟨codes, hm, -⟩ | ⟨run, hm, image, hi, -⟩
  · exact hc
  · have hsource := h _ (List.mem_append_right _ (List.mem_map_of_mem hm))
    simp [CaseRun.image?] at hsource
  · cases hi.symm.trans (h run (List.mem_append_left _ hm))

theorem sources_of_ascii :
    ∀ run ∈ uppercaseMap.sources, run.first = 0x61 ∧ run.last = 0x7A ∨ 0x80 ≤ run.first := by
  decide +kernel

theorem uppercase_of_ascii {c : Char} (hascii : c.toNat < 0x80) (h : ¬IsSmall c) :
    uppercase c = [c] := by
  apply CaseMap.apply_of_keeps
  intro run hrun
  have hsource := sources_of_ascii run hrun
  refine if_neg fun hcode => ?_
  unfold IsSmall at h
  omega

/-- Whether no image of a run is moved by another: the codes lie apart, or those of the other are every
second one and the images lie between. -/
def CaseRun.misses (run other : CaseRun) : Bool :=
  (run.image + (run.last - run.first)).blt other.first || other.last.blt run.image ||
    other.stride == 2 && (run.stride == 2 || run.last == run.first) &&
      (run.image + other.first) % 2 == 1

theorem CaseRun.image?_of_misses {run other : CaseRun} {code image : Nat}
    (h : run.misses other = true) (hi : run.image? code = some image) : other.image? image = none := by
  simp only [misses, Bool.or_eq_true, Bool.and_eq_true, Nat.blt_eq, beq_iff_eq] at h
  unfold image? at hi ⊢
  split at hi
  · rename_i hcode
    cases hi
    refine if_neg fun himage => ?_
    obtain (hbelow | habove) | ⟨⟨hother, hrun⟩, hbetween⟩ := h
    · omega
    · omega
    · rw [hother] at himage
      rcases hrun with hrun | hrun
      · rw [hrun] at hcode
        omega
      · omega
  · cases hi

theorem misses_of_mem_runs :
    ∀ run ∈ uppercaseMap.runs, uppercaseMap.sources.all run.misses = true := by
  decide +kernel

theorem keeps_of_mem_expansions :
    ∀ expansion ∈ uppercaseMap.expansions, ∀ code ∈ expansion.2.head?, uppercaseMap.Keeps code := by
  decide +kernel

theorem uppercase_of_head? {c d : Char} (h : (uppercase c).head? = some d) : uppercase d = [d] := by
  unfold uppercase at h ⊢
  rcases uppercaseMap.apply_cases c with hc | ⟨codes, hm, hc⟩ | ⟨run, hm, image, hi, hc⟩
  · rw [hc] at h
    obtain rfl := Option.some.inj h
    exact hc
  · rw [hc, List.head?_map] at h
    obtain ⟨code, hcode, rfl⟩ := Option.map_eq_some_iff.1 h
    have himages := (areImages_of_mem_expansions _ hm).2 code (List.mem_of_head? hcode)
    apply CaseMap.apply_of_keeps
    rw [toNat_ofNat himages (Nat.le_refl _) (Nat.le_refl _)]
    exact keeps_of_mem_expansions _ hm code hcode
  · rw [hc] at h
    obtain rfl := Option.some.inj h
    obtain ⟨hf, hl⟩ := image?_eq_some hi
    apply CaseMap.apply_of_keeps
    rw [toNat_ofNat (areImages_of_mem_runs run hm) hf hl]
    intro other hother
    exact CaseRun.image?_of_misses (List.all_eq_true.1 (misses_of_mem_runs run hm) other hother) hi

end ContentTypes.Text
