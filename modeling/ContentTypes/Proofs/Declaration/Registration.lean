import ContentTypes.Proofs.Assoc
import ContentTypes.Proofs.Declaration.Registry
import Mathlib.Data.List.Induction

/-!
# Needs registered in a row

A registry to which needs were given one after the other has their paths in the order in which they
first came. Under each path stand the symbols of its first need as they are, and then the symbols that
its later needs add, each where it comes first: `registry_of_needs`.
-/

namespace ContentTypes.Declaration

-- ---------------------------------------------------------------------------
-- The symbols of one path
-- ---------------------------------------------------------------------------

namespace ImportNeed

variable {need : ImportNeed} {symbols : List ImportSymbol}

theorem addSymbol_symbols (need : ImportNeed) (symbol : ImportSymbol) :
    (need.addSymbol symbol).symbols =
      if symbol ∈ need.symbols then need.symbols else need.symbols ++ [symbol] := by
  unfold addSymbol
  split <;> rfl

theorem addSymbols_append (need : ImportNeed) (symbols more : List ImportSymbol) :
    need.addSymbols (symbols ++ more) = (need.addSymbols symbols).addSymbols more :=
  List.foldl_append

theorem addSymbols_symbols (need : ImportNeed) (symbols : List ImportSymbol) :
    (need.addSymbols symbols).symbols =
      need.symbols ++ (symbols.filter (· ∉ need.symbols)).eraseDups := by
  induction symbols using List.reverseRecOn with
  | nil => simp [addSymbols]
  | append_singleton symbols symbol ih =>
    rw [addSymbols_append]
    change ((need.addSymbols symbols).addSymbol symbol).symbols = _
    rw [addSymbol_symbols, ih, List.filter_append]
    by_cases hneed : symbol ∈ need.symbols
    · simp [hneed]
    · by_cases hsymbols : symbol ∈ symbols
      · simp [hneed, hsymbols, Assoc.eraseDups_append_singleton]
      · simp [hneed, hsymbols, Assoc.eraseDups_append_singleton]

end ImportNeed

namespace ImportRegistry

/-- The symbols with which needs leave a path: those of its first need, and of its later needs those that
the first one lacks, each where it comes first. -/
def symbolsLeft (needs : List ImportNeed) (path : String) : List ImportSymbol :=
  match needs.filter (·.path = path) with
  | [] => []
  | first :: later =>
    first.symbols ++ ((later.flatMap (·.symbols)).filter (· ∉ first.symbols)).eraseDups

variable {needs : List ImportNeed} {need : ImportNeed} {path : String}

theorem symbolsLeft_of_ne (h : path ≠ need.path) :
    symbolsLeft (needs ++ [need]) path = symbolsLeft needs path := by
  simp [symbolsLeft, Ne.symm h]

theorem symbolsLeft_of_not_mem (h : need.path ∉ needs.map (·.path)) :
    symbolsLeft (needs ++ [need]) need.path = need.symbols := by
  have hnone : needs.filter (·.path = need.path) = [] :=
    List.filter_eq_nil_iff.2 fun other hother => by
      simpa using fun hpath => h (List.mem_map.2 ⟨other, hother, hpath⟩)
  rw [symbolsLeft, List.filter_append, hnone]
  simp

theorem symbolsLeft_of_mem (h : need.path ∈ needs.map (·.path)) :
    symbolsLeft (needs ++ [need]) need.path =
      ((⟨need.path, symbolsLeft needs need.path⟩ : ImportNeed).addSymbols need.symbols).symbols := by
  obtain ⟨other, hother, hpath⟩ := List.mem_map.1 h
  have hfound : other ∈ needs.filter (·.path = need.path) :=
    List.mem_filter.2 ⟨hother, by simpa using hpath⟩
  cases hneeds : needs.filter (·.path = need.path) with
  | nil => simp [hneeds] at hfound
  | cons first later =>
    have hmore : (needs ++ [need]).filter (·.path = need.path) = first :: (later ++ [need]) := by
      simp [List.filter_append, hneeds]
    simp only [symbolsLeft, hneeds, hmore, ← ImportNeed.addSymbols_symbols]
    rw [List.flatMap_append, List.flatMap_singleton, ImportNeed.addSymbols_append]
    -- Only the path tells the two needs apart to which the symbols are added.
    simp only [ImportNeed.addSymbols_symbols]

-- ---------------------------------------------------------------------------
-- All paths
-- ---------------------------------------------------------------------------

def left (needs : List ImportNeed) : List ImportNeed :=
  (needs.map (·.path)).eraseDups.map fun path => ⟨path, symbolsLeft needs path⟩

theorem mergeNeed_map {paths : List String} (hpaths : paths.Nodup) (h : need.path ∈ paths)
    (symbols : String → List ImportSymbol) :
    mergeNeed need (paths.map fun path => ⟨path, symbols path⟩) =
      paths.map fun path =>
        if path = need.path then (⟨path, symbols path⟩ : ImportNeed).addSymbols need.symbols
        else ⟨path, symbols path⟩ := by
  induction paths with
  | nil => cases h
  | cons first rest ih =>
    obtain ⟨hfirst, hrest⟩ := List.nodup_cons.1 hpaths
    rw [List.map_cons, List.map_cons, mergeNeed]
    by_cases hpath : first = need.path
    · have hothers : ∀ path ∈ rest, path ≠ need.path := by
        rintro path hmem rfl
        exact hfirst (hpath ▸ hmem)
      rw [if_pos hpath, if_pos hpath]
      refine congrArg (_ :: ·) (List.map_congr_left fun path hmem => ?_)
      rw [if_neg (hothers path hmem)]
    · rw [if_neg hpath, if_neg hpath, ih hrest ((List.mem_cons.1 h).resolve_left (Ne.symm hpath))]

theorem paths_left (needs : List ImportNeed) :
    paths ⟨left needs⟩ = (needs.map (·.path)).eraseDups := by
  simp [paths, left, Function.comp_def]

theorem insert_left (needs : List ImportNeed) (need : ImportNeed) :
    insert ⟨left needs⟩ need = ⟨left (needs ++ [need])⟩ := by
  have hsymbols : ∀ path, path ≠ need.path →
      symbolsLeft (needs ++ [need]) path = symbolsLeft needs path := fun _ => symbolsLeft_of_ne
  -- only at the path of the need do the symbols depend on it
  by_cases h : need.path ∈ needs.map (·.path)
  · have hpath : need.path ∈ paths ⟨left needs⟩ := by
      rwa [paths_left, List.mem_eraseDups]
    rw [insert_of_mem hpath, left, mergeNeed_map (Assoc.nodup_eraseDups _) (List.mem_eraseDups.2 h),
      left, List.map_append, List.map_singleton, Assoc.eraseDups_append_singleton, if_pos h]
    refine congrArg mk (List.map_congr_left fun path _ => ?_)
    split
    · rename_i hpath
      subst hpath
      rw [symbolsLeft_of_mem h]
      exact congrArg (ImportNeed.mk · _) (ImportNeed.addSymbols_path _ _)
    · rename_i hpath
      rw [hsymbols path hpath]
  · have hnew : need.path ∉ paths ⟨left needs⟩ := by
      rwa [paths_left, List.mem_eraseDups]
    rw [insert_of_not_mem hnew, left, left, List.map_append, List.map_singleton,
      Assoc.eraseDups_append_singleton, if_neg h, List.map_append, List.map_singleton,
      symbolsLeft_of_not_mem h]
    refine congrArg (mk <| · ++ _) (List.map_congr_left fun path hmem => ?_)
    rw [hsymbols path]
    rintro rfl
    exact h (List.mem_eraseDups.1 hmem)

theorem foldl_insert_empty_eq_left (needs : List ImportNeed) :
    needs.foldl insert empty = ⟨left needs⟩ := by
  induction needs using List.reverseRecOn with
  | nil => rfl
  | append_singleton needs need ih =>
    rw [List.foldl_append, List.foldl_cons, List.foldl_nil, ih, insert_left]

theorem paths_foldl_insert (needs : List ImportNeed) :
    (needs.foldl insert empty).paths = (needs.map (·.path)).eraseDups := by
  rw [foldl_insert_empty_eq_left, paths_left]

/-- A registry that needs were given to one after the other has their paths in the order in which they
first came, each with the symbols that its needs leave it with. Whoever registers the next need is told
that it is new exactly if none of them was for its path. What the registry binds is what the needs asked
for. -/
theorem registry_of_needs (needs : List ImportNeed) :
    (needs.foldl insert empty).paths = (needs.map (·.path)).eraseDups ∧
      (needs.foldl insert empty).needs =
        (needs.map (·.path)).eraseDups.map (fun path => ⟨path, symbolsLeft needs path⟩) ∧
      (∀ next, ((needs.foldl insert empty).register next).2 = true ↔
        next.path ∉ needs.map (·.path)) ∧
      ∀ path symbol, (path, symbol) ∈ (needs.foldl insert empty).bindings ↔
        ∃ need ∈ needs, need.path = path ∧ symbol ∈ need.symbols := by
  refine ⟨paths_foldl_insert needs, congrArg ImportRegistry.needs (foldl_insert_empty_eq_left needs),
    fun next => ?_, fun path symbol => ?_⟩
  · rw [register_snd_iff, paths_foldl_insert, List.mem_eraseDups]
  · rw [mem_bindings_foldl_insert]
    simp [bindings, empty]

end ImportRegistry

end ContentTypes.Declaration
