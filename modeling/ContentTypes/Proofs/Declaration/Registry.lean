import ContentTypes.Declaration.Import
import Mathlib.Data.List.Nodup
import Mathlib.Data.Prod.Basic

/-!
# What the registry of imports holds

Registering a need adds its symbols to those of its path and leaves those of the other paths as they
are. A registry in which no path stands twice and no statement repeats a symbol stays so. Of needs that
agree, as those of an entity file do, it keeps the first for each path: `foldl_insert_empty`.
-/

namespace ContentTypes.Declaration

-- ---------------------------------------------------------------------------
-- Adding symbols to a need
-- ---------------------------------------------------------------------------

namespace ImportNeed

variable {need : ImportNeed} {symbol other : ImportSymbol} {symbols : List ImportSymbol}

theorem mem_addSymbol : other ∈ (need.addSymbol symbol).symbols ↔
    other ∈ need.symbols ∨ other = symbol := by
  unfold addSymbol
  split
  · rename_i h
    refine ⟨Or.inl, ?_⟩
    rintro (h' | rfl)
    · exact h'
    · exact h
  · simp

theorem mem_addSymbols : other ∈ (need.addSymbols symbols).symbols ↔
    other ∈ need.symbols ∨ other ∈ symbols := by
  induction symbols generalizing need with
  | nil => simp [addSymbols]
  | cons symbol symbols ih =>
    have hstep : need.addSymbols (symbol :: symbols) = (need.addSymbol symbol).addSymbols symbols := rfl
    rw [hstep, ih, mem_addSymbol, List.mem_cons, or_assoc]

theorem nodup_addSymbol (h : need.symbols.Nodup) : (need.addSymbol symbol).symbols.Nodup := by
  unfold addSymbol
  split
  · exact h
  · rename_i hnot
    have hone : [symbol].Nodup := List.nodup_singleton symbol
    exact h.append hone (by simpa using hnot)

theorem nodup_addSymbols (h : need.symbols.Nodup) : (need.addSymbols symbols).symbols.Nodup := by
  induction symbols generalizing need with
  | nil => exact h
  | cons symbol symbols ih => exact ih (nodup_addSymbol h)

theorem addSymbols_of_subset (h : symbols ⊆ need.symbols) : need.addSymbols symbols = need := by
  induction symbols with
  | nil => rfl
  | cons symbol symbols ih =>
    obtain ⟨hfirst, hrest⟩ := List.cons_subset.1 h
    have hstep : need.addSymbol symbol = need := if_pos hfirst
    calc
      need.addSymbols (symbol :: symbols) = (need.addSymbol symbol).addSymbols symbols := rfl
      _ = need := by rw [hstep, ih hrest]

end ImportNeed

-- ---------------------------------------------------------------------------
-- Bindings
-- ---------------------------------------------------------------------------

namespace ImportRegistry

def bindings (registry : ImportRegistry) : List (String × ImportSymbol) :=
  registry.needs.flatMap fun need => need.symbols.map (need.path, ·)

variable {registry : ImportRegistry} {need : ImportNeed} {path : String} {symbol : ImportSymbol}

theorem mem_bindings : (path, symbol) ∈ registry.bindings ↔
    ∃ need ∈ registry.needs, need.path = path ∧ symbol ∈ need.symbols := by
  simp [bindings, and_comm]

theorem mem_mergeNeed_symbols {needs : List ImportNeed} (h : need.path ∈ needs.map (·.path)) :
    (∃ n ∈ mergeNeed need needs, n.path = path ∧ symbol ∈ n.symbols) ↔
      (∃ n ∈ needs, n.path = path ∧ symbol ∈ n.symbols) ∨
        (need.path = path ∧ symbol ∈ need.symbols) := by
  induction needs with
  | nil => cases h
  | cons earlier rest ih =>
    by_cases hpath : earlier.path = need.path
    · simp only [mergeNeed, hpath, if_true, List.exists_mem_cons_iff, ImportNeed.addSymbols_path,
        ImportNeed.mem_addSymbols]
      rw [and_or_left, or_assoc, or_assoc]
      exact or_congr_right or_comm
    · have hrest := (List.mem_cons.1 h).resolve_left (Ne.symm hpath)
      simp only [mergeNeed, hpath, if_false, List.exists_mem_cons_iff, ih hrest, or_assoc]

theorem mem_bindings_insert : (path, symbol) ∈ (registry.insert need).bindings ↔
    (path, symbol) ∈ registry.bindings ∨ (need.path = path ∧ symbol ∈ need.symbols) := by
  rw [mem_bindings, mem_bindings]
  by_cases h : need.path ∈ registry.paths
  · rw [insert_of_mem h]
    exact mem_mergeNeed_symbols h
  · rw [insert_of_not_mem h]
    simp [or_and_right, exists_or]

theorem mem_bindings_foldl_insert {needs : List ImportNeed} :
    (path, symbol) ∈ (needs.foldl insert registry).bindings ↔
      (path, symbol) ∈ registry.bindings ∨
        ∃ need ∈ needs, need.path = path ∧ symbol ∈ need.symbols := by
  induction needs generalizing registry with
  | nil => simp
  | cons need needs ih =>
    rw [List.foldl_cons, ih, mem_bindings_insert, List.exists_mem_cons_iff, or_assoc]

theorem mem_paths_foldl_insert {needs : List ImportNeed} :
    path ∈ (needs.foldl insert registry).paths ↔
      path ∈ registry.paths ∨ path ∈ needs.map (·.path) := by
  induction needs generalizing registry with
  | nil => simp
  | cons need needs ih =>
    rw [List.foldl_cons, ih, paths_insert]
    split
    · rename_i h
      constructor
      · rintro (h' | h')
        · exact .inl h'
        · exact .inr (List.mem_cons_of_mem _ h')
      · rintro (h' | h')
        · exact .inl h'
        · rcases List.mem_cons.1 h' with rfl | h'
          · exact .inl h
          · exact .inr h'
    · simp [or_assoc]

-- ---------------------------------------------------------------------------
-- Tidy registries
-- ---------------------------------------------------------------------------

structure IsTidy (registry : ImportRegistry) : Prop where
  paths : registry.paths.Nodup
  symbols : ∀ need ∈ registry.needs, need.symbols.Nodup

theorem isTidy_empty : empty.IsTidy :=
  ⟨List.nodup_nil, fun _ h => nomatch h⟩

theorem mem_mergeNeed {needs : List ImportNeed} {n : ImportNeed} (h : n ∈ mergeNeed need needs) :
    n ∈ needs ∨ ∃ earlier ∈ needs, n = earlier.addSymbols need.symbols := by
  induction needs with
  | nil => cases h
  | cons earlier rest ih =>
    unfold mergeNeed at h
    split at h
    · rcases List.mem_cons.1 h with rfl | h
      · exact .inr ⟨earlier, List.mem_cons_self, rfl⟩
      · exact .inl (List.mem_cons_of_mem _ h)
    · rcases List.mem_cons.1 h with rfl | h
      · exact .inl List.mem_cons_self
      · rcases ih h with hrest | ⟨n', hn', rfl⟩
        · exact .inl (List.mem_cons_of_mem _ hrest)
        · exact .inr ⟨n', List.mem_cons_of_mem _ hn', rfl⟩

theorem IsTidy.insert (h : registry.IsTidy) (hneed : need.symbols.Nodup) :
    (registry.insert need).IsTidy := by
  by_cases hpath : need.path ∈ registry.paths
  · refine ⟨by rw [paths_insert, if_pos hpath]; exact h.paths, fun n hn => ?_⟩
    rw [insert_of_mem hpath] at hn
    rcases mem_mergeNeed hn with hn | ⟨earlier, hearlier, rfl⟩
    · exact h.symbols n hn
    · exact ImportNeed.nodup_addSymbols (h.symbols earlier hearlier)
  · refine ⟨?_, fun n hn => ?_⟩
    · rw [paths_insert, if_neg hpath, ← List.concat_eq_append]
      exact h.paths.concat hpath
    · rw [insert_of_not_mem hpath] at hn
      rcases List.mem_append.1 hn with hn | hn
      · exact h.symbols n hn
      · rwa [List.mem_singleton.1 hn]

theorem IsTidy.foldl_insert {needs : List ImportNeed} (h : registry.IsTidy)
    (hneeds : ∀ need ∈ needs, need.symbols.Nodup) :
    (needs.foldl ImportRegistry.insert registry).IsTidy := by
  induction needs generalizing registry with
  | nil => exact h
  | cons need needs ih =>
    rw [List.forall_mem_cons] at hneeds
    exact ih (h.insert hneeds.1) hneeds.2

theorem IsTidy.eq_of_path {need' : ImportNeed} (h : registry.IsTidy) (hneed : need ∈ registry.needs)
    (hneed' : need' ∈ registry.needs) (hpath : need.path = need'.path) : need = need' :=
  List.inj_on_of_nodup_map h.paths hneed hneed' hpath

theorem IsTidy.mem_bindings_iff (h : registry.IsTidy) (hneed : need ∈ registry.needs) :
    (need.path, symbol) ∈ registry.bindings ↔ symbol ∈ need.symbols := by
  rw [mem_bindings]
  constructor
  · rintro ⟨same, hsame, hpath, hsymbol⟩
    obtain rfl := h.eq_of_path hsame hneed hpath
    exact hsymbol
  · intro hsymbol
    exact ⟨need, hneed, rfl, hsymbol⟩

theorem IsTidy.nodup_bindings (h : registry.IsTidy) : registry.bindings.Nodup := by
  refine List.nodup_flatMap.2 ⟨fun need hneed => ?_, ?_⟩
  · exact (h.symbols need hneed).map (Prod.mk_right_injective need.path)
  · refine (List.pairwise_map.1 h.paths).imp fun hne => ?_
    intro (_, _) hleft hright
    obtain ⟨_, -, rfl, -⟩ := List.mem_map.1 hleft
    obtain ⟨_, -, heq⟩ := List.mem_map.1 hright
    exact hne (Prod.ext_iff.1 heq).1.symm

-- ---------------------------------------------------------------------------
-- Needs that agree
-- ---------------------------------------------------------------------------

def Agree (needs : List ImportNeed) : Prop :=
  ∀ need ∈ needs, ∀ other ∈ needs, need.path = other.path → need = other

/-- The needs of a list without those that come after another one for their path. -/
def firstNeeds (needs : List ImportNeed) : List ImportNeed :=
  needs.eraseDupsBy fun need earlier => need.path = earlier.path

variable {needs : List ImportNeed}

theorem firstNeeds_cons :
    firstNeeds (need :: needs) = need :: firstNeeds (needs.filter (·.path ≠ need.path)) := by
  simp [firstNeeds, List.eraseDupsBy_cons]

theorem firstNeeds_sublist (needs : List ImportNeed) : (firstNeeds needs).Sublist needs := by
  match needs with
  | [] => exact .slnil
  | need :: rest =>
    rw [firstNeeds_cons]
    exact ((firstNeeds_sublist (rest.filter (·.path ≠ need.path))).trans List.filter_sublist).cons_cons _
termination_by needs.length
decreasing_by exact Nat.lt_succ_of_le (List.length_filter_le _ rest)

theorem mergeNeed_of_mem (h : need ∈ needs)
    (hagree : ∀ other ∈ needs, other.path = need.path → other = need) :
    mergeNeed need needs = needs := by
  induction needs with
  | nil => cases h
  | cons earlier rest ih =>
    rw [List.forall_mem_cons] at hagree
    unfold mergeNeed
    split
    · rename_i hpath
      rw [hagree.1 hpath, ImportNeed.addSymbols_of_subset (List.Subset.refl _)]
    · rename_i hpath
      have hrest : need ∈ rest := List.mem_of_ne_of_mem (fun heq => hpath (heq ▸ rfl)) h
      rw [ih hrest hagree.2]

theorem insert_of_agree (hagree : Agree (registry.needs ++ [need]))
    (h : need.path ∈ registry.paths) : registry.insert need = registry := by
  have hneed : need ∈ registry.needs ++ [need] := by simp
  have hsame : ∀ other ∈ registry.needs, other.path = need.path → other = need :=
    fun other hother hpath => hagree other (by simp [hother]) need hneed hpath
  obtain ⟨other, hother, hpath⟩ := List.mem_map.1 h
  have hmem : need ∈ registry.needs := hsame other hother hpath ▸ hother
  rw [insert_of_mem h, mergeNeed_of_mem hmem hsame]

theorem Agree.sublist {others : List ImportNeed} (h : Agree needs) (hsub : others.Sublist needs) :
    Agree others :=
  fun need hneed other hother => h need (hsub.subset hneed) other (hsub.subset hother)

/-- Of needs that agree the registry keeps the first for each path that it lacks. -/
theorem foldl_insert_of_agree (hagree : Agree (registry.needs ++ needs)) :
    (needs.foldl insert registry).needs =
      registry.needs ++ firstNeeds (needs.filter fun need => need.path ∉ registry.paths) := by
  induction needs generalizing registry with
  | nil => simp [firstNeeds]
  | cons need rest ih =>
    rw [List.foldl_cons]
    by_cases h : need.path ∈ registry.paths
    · have hone : Agree (registry.needs ++ [need]) := hagree.sublist (by simp)
      rw [insert_of_agree hone h, ih (hagree.sublist (by simp)),
        List.filter_cons_of_neg (by simpa using h)]
    · have hlast : (registry.insert need).needs = registry.needs ++ [need] := by
        rw [insert_of_not_mem h]
      have hpaths : (registry.insert need).paths = registry.paths ++ [need.path] := by
        rw [paths_insert, if_neg h]
      rw [ih (by rwa [hlast, List.append_assoc, List.singleton_append]), hlast, hpaths,
        List.filter_cons_of_pos (by simpa using h), firstNeeds_cons, List.filter_filter,
        List.append_assoc, List.singleton_append]
      simp [and_comm]

theorem foldl_insert_empty (hagree : Agree needs) :
    (needs.foldl insert .empty).needs = firstNeeds needs := by
  rw [foldl_insert_of_agree (by simpa [empty] using hagree)]
  simp [empty, paths]

theorem insert_foldl_insert (hagree : Agree (needs ++ [need]))
    (h : need.path ∈ (needs.foldl insert .empty).paths) :
    (needs.foldl insert .empty).insert need = needs.foldl insert .empty := by
  refine insert_of_agree (hagree.sublist ?_) h
  rw [foldl_insert_empty (hagree.sublist (List.sublist_append_left ..))]
  exact (firstNeeds_sublist needs).append_right [need]

end ImportRegistry

end ContentTypes.Declaration
