/-!
# Imports of a generated file

What a declaration takes from another module, and the registry that collects it: one statement for
each path, in the order in which the paths were first registered.
-/

namespace ContentTypes.Declaration

/-- An imported name, and the name under which it is known in the file if that is another one. -/
structure ImportSymbol where
  name : String
  alias? : Option String := none
  deriving DecidableEq, Repr

namespace ImportSymbol

def localName (symbol : ImportSymbol) : String :=
  symbol.alias?.getD symbol.name

def text (symbol : ImportSymbol) : String :=
  match symbol.alias? with
  | some other => symbol.name ++ " as " ++ other
  | none => symbol.name

end ImportSymbol

structure ImportNeed where
  path : String
  symbols : List ImportSymbol
  deriving DecidableEq, Repr

namespace ImportNeed

def statement (need : ImportNeed) : String :=
  "import \x7b " ++ ", ".intercalate (need.symbols.map (·.text)) ++ " \x7d from '" ++ need.path
    ++ "';"

def addSymbol (need : ImportNeed) (symbol : ImportSymbol) : ImportNeed :=
  if symbol ∈ need.symbols then need else { need with symbols := need.symbols ++ [symbol] }

def addSymbols (need : ImportNeed) (symbols : List ImportSymbol) : ImportNeed :=
  symbols.foldl addSymbol need

@[simp] theorem addSymbol_path (need : ImportNeed) (symbol : ImportSymbol) :
    (need.addSymbol symbol).path = need.path := by
  unfold addSymbol
  split <;> rfl

@[simp] theorem addSymbols_path (need : ImportNeed) (symbols : List ImportSymbol) :
    (need.addSymbols symbols).path = need.path := by
  induction symbols generalizing need with
  | nil => rfl
  | cons symbol symbols ih => exact (ih _).trans (addSymbol_path need symbol)

end ImportNeed

structure ImportRegistry where
  needs : List ImportNeed := []

namespace ImportRegistry

def empty : ImportRegistry := {}

def paths (registry : ImportRegistry) : List String :=
  registry.needs.map (·.path)

def contains (registry : ImportRegistry) (path : String) : Bool :=
  registry.paths.contains path

def mergeNeed (need : ImportNeed) : List ImportNeed → List ImportNeed
  | [] => []
  | earlier :: rest =>
    if earlier.path = need.path then earlier.addSymbols need.symbols :: rest
    else earlier :: mergeNeed need rest

/-- A need for a new path is kept as it is; one for a path that is there adds the symbols that the
path lacks. Whoever registers it is told whether the path was new. -/
def register (registry : ImportRegistry) (need : ImportNeed) : ImportRegistry × Bool :=
  if registry.contains need.path then (⟨mergeNeed need registry.needs⟩, false)
  else (⟨registry.needs ++ [need]⟩, true)

/-- Registers a need for someone who does not ask whether its path was new. -/
def insert (registry : ImportRegistry) (need : ImportNeed) : ImportRegistry :=
  (registry.register need).1

def statements (registry : ImportRegistry) : List String :=
  registry.needs.map (·.statement)

variable {registry : ImportRegistry} {need : ImportNeed} {path : String}

@[simp] theorem contains_iff : registry.contains path = true ↔ path ∈ registry.paths :=
  List.contains_iff_mem

theorem insert_of_mem (h : need.path ∈ registry.paths) :
    registry.insert need = ⟨mergeNeed need registry.needs⟩ := by
  rw [insert, register, if_pos (contains_iff.2 h)]

theorem insert_of_not_mem (h : need.path ∉ registry.paths) :
    registry.insert need = ⟨registry.needs ++ [need]⟩ := by
  rw [insert, register, if_neg (mt contains_iff.1 h)]

theorem register_snd_iff : (registry.register need).2 = true ↔ need.path ∉ registry.paths := by
  by_cases h : need.path ∈ registry.paths <;> simp [register, h]

@[simp] theorem map_path_mergeNeed (need : ImportNeed) (needs : List ImportNeed) :
    (mergeNeed need needs).map (·.path) = needs.map (·.path) := by
  induction needs with
  | nil => rfl
  | cons earlier rest ih =>
    rw [mergeNeed]
    split
    · simp
    · simp [ih]

theorem paths_insert (registry : ImportRegistry) (need : ImportNeed) :
    (registry.insert need).paths =
      if need.path ∈ registry.paths then registry.paths else registry.paths ++ [need.path] := by
  split
  · rename_i h
    rw [insert_of_mem h]
    exact map_path_mergeNeed need registry.needs
  · rename_i h
    rw [insert_of_not_mem h, paths, List.map_append]
    rfl

end ImportRegistry

end ContentTypes.Declaration
