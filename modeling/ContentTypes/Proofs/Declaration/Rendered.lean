import ContentTypes.Proofs.Declaration.PropertyNames
import ContentTypes.Proofs.Diff.PatchText
import ContentTypes.Proofs.Text.JoinedLines

/-!
# Reading a unit back

The text of a unit says where its parts are by indentation and empty lines alone, and its lines may look
like anything: a property like the end of a block, a name like a header, a path like another import. It
is still read back line by line (`readUnit?_render`), since no line of a part can stand where another
part would start.

Lines are ended by line feeds here. A carriage return is a character of its line.
-/

namespace ContentTypes.Text

def afterStart? (start line : String) : Option String :=
  (line.toList.dropPrefix? start.toList).map String.ofList

def beforeEnd? (ending line : String) : Option String :=
  (line.toList.dropSuffix? ending.toList).map String.ofList

theorem afterStart?_append (start rest : String) : afterStart? start (start ++ rest) = some rest := by
  simp [afterStart?, Diff.dropPrefix?_append]

theorem beforeEnd?_append (rest ending : String) : beforeEnd? ending (rest ++ ending) = some rest := by
  have hdrop : (rest ++ ending).toList.dropSuffix? ending.toList = some rest.toList :=
    List.dropSuffix?_eq_some_iff.2 ⟨ending.toList, by simp, by simp⟩
  rw [beforeEnd?, hdrop, Option.map_some, String.ofList_toList]

end ContentTypes.Text

namespace ContentTypes.Declaration.GeneratedUnit

open Text (afterStart? beforeEnd? endedLines)

-- ---------------------------------------------------------------------------
-- The reader
-- ---------------------------------------------------------------------------

/-- The members of a block, and the lines that follow it. What opens the block comes before the lines. -/
def readBlock? : List String → Option (List String × List String)
  | [] => none
  | line :: lines =>
    if line = "\x7d" then some ([], lines)
    else do
      let member ← afterStart? "  " line
      let (members, after) ← readBlock? lines
      pure (member :: members, after)

def readDeclaration? : List String → Option (String × List String × List String)
  | [] => none
  | header :: lines => do
    let header ← afterStart? "export interface " header
    let name ← beforeEnd? " \x7b" header
    let (members, after) ← readBlock? lines
    pure (name, members, after)

/-- The lines up to the first declaration that are imports, without the empty line that ends them. -/
def readImports? (lines : List String) : Option (List String × List String) :=
  match lines.span fun line => (afterStart? "import " line).isSome with
  | ([], rest) => some ([], rest)
  | (statements, "" :: rest) => some (statements, rest)
  | _ => none

def readNested? (kind : ContentKind) : List String → Option (List String)
  | [] => none
  | first :: members =>
    if first = identifierLine then
      match kind, members with
      | .component, members => some members
      | .entity, opening :: members => do
        let (nested, after) ← readBlock? members
        if opening = "attributes: \x7b" ∧ after = [] then some nested else none
      | .entity, [] => none
    else none

structure Reading where
  statements : List String
  name : String
  nested : List String
  flat : List String
  deriving DecidableEq

def readLines? (kind : ContentKind) (lines : List String) : Option Reading := do
  let (statements, lines) ← readImports? lines
  let (name, members, lines) ← readDeclaration? lines
  let nested ← readNested? kind members
  let lines ← lines.dropPrefix? [""]
  let (other, flat, lines) ← readDeclaration? lines
  if other = flatName name ∧ lines = [] then some ⟨statements, name, nested, flat⟩ else none

def readUnit? (kind : ContentKind) (text : String) : Option Reading :=
  readLines? kind (endedLines text)

def nestedMembers (unit : GeneratedUnit) : List String :=
  identifierLine :: match unit.kind with
    | .entity => "attributes: \x7b" :: (indented "  " unit.nested ++ ["\x7d"])
    | .component => unit.nested

theorem lines_eq_declarations (unit : GeneratedUnit) :
    unit.lines = unit.importLines
      ++ ("export interface " ++ unit.name ++ " \x7b") :: (indented "  " unit.nestedMembers
      ++ "\x7d" :: "" :: ("export interface " ++ flatName unit.name ++ " \x7b")
        :: (indented "  " unit.flat ++ ["\x7d"])) := by
  cases hkind : unit.kind with
  | entity =>
    have hindent (line : String) : "  " ++ ("  " ++ line) = "    " ++ line := by
      rw [← String.append_assoc]
      rfl
    simp [lines, nestedBody, nestedMembers, hkind, indented, identifierLine, hindent]
  | component => simp [lines, nestedBody, nestedMembers, hkind, indented, identifierLine]

-- ---------------------------------------------------------------------------
-- The characters of the lines
-- ---------------------------------------------------------------------------

section

variable {p : Char → Prop} {unit : GeneratedUnit}

theorem forall_fixed (hfixed : ∀ c, ' ' ≤ c → p c) {text : String}
    (h : text.toList.all (' ' ≤ ·) = true) : ∀ c ∈ text.toList, p c := fun c hc =>
  hfixed c (of_decide_eq_true (List.all_eq_true.1 h c hc))

theorem forall_header_iff (hfixed : ∀ c, ' ' ≤ c → p c) (name : String) :
    (∀ c ∈ ("export interface " ++ name ++ " \x7b").toList, p c) ↔ ∀ c ∈ name.toList, p c := by
  have hstart : ∀ c ∈ "export interface ".toList, p c := forall_fixed hfixed (by decide)
  have hend : ∀ c ∈ " \x7b".toList, p c := forall_fixed hfixed (by decide)
  rw [String.toList_append, String.toList_append, List.forall_mem_append, List.forall_mem_append,
    and_iff_left hend, and_iff_right hstart]

theorem forall_indented_iff (hfixed : ∀ c, ' ' ≤ c → p c) (lines : List String) :
    (∀ line ∈ indented "  " lines, ∀ c ∈ line.toList, p c) ↔
      ∀ line ∈ lines, ∀ c ∈ line.toList, p c := by
  simp [indented, hfixed ' ' (Char.le_refl ' ')]

theorem forall_importLines_iff : (∀ line ∈ unit.importLines, ∀ c ∈ line.toList, p c) ↔
    ∀ need ∈ unit.imports, ∀ c ∈ need.statement.toList, p c := by
  unfold importLines
  split
  · rename_i hempty
    simp [List.isEmpty_iff.1 hempty]
  · have hblank : ∀ c ∈ "".toList, p c := List.forall_mem_nil p
    rw [List.forall_mem_append, List.forall_mem_map, List.forall_mem_singleton, and_iff_left hblank]

theorem forall_nestedMembers_iff (hfixed : ∀ c, ' ' ≤ c → p c) :
    (∀ line ∈ unit.nestedMembers, ∀ c ∈ line.toList, p c) ↔
      ∀ line ∈ unit.nested, ∀ c ∈ line.toList, p c := by
  have hid : ∀ c ∈ identifierLine.toList, p c := forall_fixed hfixed (by decide)
  have hopening : ∀ c ∈ "attributes: \x7b".toList, p c := forall_fixed hfixed (by decide)
  have hclosing : ∀ c ∈ "\x7d".toList, p c := forall_fixed hfixed (by decide)
  rw [nestedMembers, List.forall_mem_cons, and_iff_right hid]
  cases unit.kind with
  | component => rfl
  | entity =>
    rw [List.forall_mem_cons, List.forall_mem_append, List.forall_mem_singleton,
      and_iff_right hopening, and_iff_left hclosing, forall_indented_iff hfixed]

/-- What holds of the blank and of all that can be seen holds of the characters of the lines if it holds
of those of the unit's parts. -/
theorem forall_lines_iff (hfixed : ∀ c, ' ' ≤ c → p c) :
    (∀ line ∈ unit.lines, ∀ c ∈ line.toList, p c) ↔
      (∀ c ∈ unit.name.toList, p c) ∧ (∀ need ∈ unit.imports, ∀ c ∈ need.statement.toList, p c) ∧
        (∀ line ∈ unit.nested, ∀ c ∈ line.toList, p c) ∧
          ∀ line ∈ unit.flat, ∀ c ∈ line.toList, p c := by
  have hclosing : ∀ c ∈ "\x7d".toList, p c := forall_fixed hfixed (by decide)
  have hmark : ∀ c ∈ "CM_".toList, p c := forall_fixed hfixed (by decide)
  have hflatName : (∀ c ∈ (flatName unit.name).toList, p c) ↔ ∀ c ∈ unit.name.toList, p c := by
    rw [flatName, String.toList_append, List.forall_mem_append, and_iff_right hmark]
  have hblank : ∀ c ∈ "".toList, p c := List.forall_mem_nil p
  rw [lines_eq_declarations]
  simp only [List.forall_mem_append, List.forall_mem_cons, forall_importLines_iff,
    forall_header_iff hfixed, forall_indented_iff hfixed, forall_nestedMembers_iff hfixed, hflatName]
  constructor
  · rintro ⟨himports, hname, hnested, -, -, -, hflat, -⟩
    exact ⟨hname, himports, hnested, hflat⟩
  · rintro ⟨hname, himports, hnested, hflat⟩
    exact ⟨himports, hname, hnested, hclosing, hblank, hname, hflat, hclosing, List.forall_mem_nil _⟩

end

-- ---------------------------------------------------------------------------
-- The parts of a text
-- ---------------------------------------------------------------------------

theorem readBlock?_indented (members after : List String) :
    readBlock? (indented "  " members ++ "\x7d" :: after) = some (members, after) := by
  induction members with
  | nil => rfl
  | cons member members ih =>
    -- A member is indented, so whatever it says it does not end the block.
    have hne : "  " ++ member ≠ "\x7d" := fun h => by
      simpa using congrArg (·.toList.head?) h
    rw [indented, List.map_cons, List.cons_append, readBlock?, if_neg hne, Text.afterStart?_append,
      ← indented, ih]
    rfl

theorem readDeclaration?_indented (name : String) (members after : List String) :
    readDeclaration? (("export interface " ++ name ++ " \x7b") :: (indented "  " members ++
      "\x7d" :: after)) = some (name, members, after) := by
  rw [readDeclaration?, String.append_assoc, Text.afterStart?_append, Option.bind_eq_bind,
    Option.bind_some, Text.beforeEnd?_append, readBlock?_indented]
  rfl

theorem afterStart?_import_statement (need : ImportNeed) :
    (afterStart? "import " need.statement).isSome = true := by
  have hstatement : need.statement = "import " ++ ("\x7b " ++ (", ".intercalate
      (need.symbols.map (·.text)) ++ (" \x7d from '" ++ (need.path ++ "';")))) := by
    simp [ImportNeed.statement, String.ext_iff]
  rw [hstatement, Text.afterStart?_append]
  rfl

theorem afterStart?_import_header (name : String) :
    afterStart? "import " ("export interface " ++ name ++ " \x7b") = none := by
  simp [afterStart?, List.dropPrefix?]

theorem readImports?_importLines (unit : GeneratedUnit) {header : String} (rest : List String)
    (hheader : afterStart? "import " header = none) :
    readImports? (unit.importLines ++ header :: rest) =
      some (unit.imports.map (·.statement), header :: rest) := by
  have hstatements : ∀ statement ∈ unit.imports.map (·.statement),
      (afterStart? "import " statement).isSome = true := by
    intro statement hmem
    obtain ⟨need, -, rfl⟩ := List.mem_map.1 hmem
    exact afterStart?_import_statement need
  rw [readImports?, List.span_eq_takeWhile_dropWhile, importLines]
  cases himports : unit.imports with
  | nil => simp [hheader]
  | cons need needs =>
    rw [himports] at hstatements
    -- The empty line is no import and ends them. There is none if there are no imports.
    have hempty : (afterStart? "import " "").isSome = false := rfl
    rw [List.isEmpty_cons, if_neg Bool.false_ne_true, List.append_assoc,
      List.takeWhile_append_of_pos hstatements, List.dropWhile_append_of_pos hstatements]
    simp [hempty]

theorem readNested?_nestedMembers (unit : GeneratedUnit) :
    readNested? unit.kind unit.nestedMembers = some unit.nested := by
  cases hkind : unit.kind with
  | component => simp [readNested?, nestedMembers, hkind]
  | entity => simp [readNested?, nestedMembers, hkind, readBlock?_indented]

-- ---------------------------------------------------------------------------
-- The whole text
-- ---------------------------------------------------------------------------

/-- Whether what stands on one line of the text is on one line by itself. -/
structure SingleLined (unit : GeneratedUnit) : Prop where
  name : '\n' ∉ unit.name.toList
  statements : ∀ need ∈ unit.imports, '\n' ∉ need.statement.toList
  nested : ∀ line ∈ unit.nested, '\n' ∉ line.toList
  flat : ∀ line ∈ unit.flat, '\n' ∉ line.toList

theorem SingleLined.lines {unit : GeneratedUnit} (h : unit.SingleLined) :
    ∀ line ∈ unit.lines, '\n' ∉ line.toList := by
  have hfixed (c : Char) (hc : ' ' ≤ c) : ¬c = '\n' := by
    rintro rfl
    exact absurd hc (by decide)
  simpa only [List.forall_mem_ne'] using (forall_lines_iff hfixed).2
    (by simpa only [List.forall_mem_ne'] using ⟨h.name, h.statements, h.nested, h.flat⟩)

def reading (unit : GeneratedUnit) : Reading :=
  ⟨unit.imports.map (·.statement), unit.name, unit.nested, unit.flat⟩

theorem readLines?_lines (unit : GeneratedUnit) :
    readLines? unit.kind unit.lines = some unit.reading := by
  have hblank (lines : List String) : ("" :: lines).dropPrefix? [""] = some lines :=
    List.dropPrefix?_eq_some_iff.2 ⟨[""], rfl, rfl⟩
  rw [readLines?, lines_eq_declarations, readImports?_importLines unit _ (afterStart?_import_header _)]
  simp only [Option.bind_eq_bind, Option.bind_some, readDeclaration?_indented, readNested?_nestedMembers,
    hblank, and_self, if_true, reading]

/-- The text of a unit is read back as its imports, its name and its lines, so that units of one kind with
the same text have these in common. -/
theorem readUnit?_render {unit : GeneratedUnit} (h : unit.SingleLined) :
    readUnit? unit.kind unit.render = some unit.reading ∧
      ∀ other : GeneratedUnit, other.SingleLined → other.kind = unit.kind →
        other.render = unit.render → other.reading = unit.reading := by
  have hread {unit : GeneratedUnit} (h : unit.SingleLined) :
      readUnit? unit.kind unit.render = some unit.reading := by
    rw [readUnit?, render, Text.endedLines_joinLines h.lines, readLines?_lines]
  refine ⟨hread h, fun other hother hkind hrender => Option.some.inj ?_⟩
  rw [← hread hother, hkind, hrender, hread h]

def deceptive : GeneratedUnit where
  kind := .entity
  name := "Row \x7b"
  imports := [⟨"import ", [⟨"export interface Row \x7b", none⟩]⟩]
  nested := ["\x7d", "", "export interface Row \x7b"]
  flat := ["", "  \x7d", "id: number;"]

theorem readUnit?_deceptive : deceptive.SingleLined ∧
    readUnit? .entity deceptive.render =
      some ⟨["import \x7b export interface Row \x7b \x7d from 'import ';"], "Row \x7b",
        ["\x7d", "", "export interface Row \x7b"], ["", "  \x7d", "id: number;"]⟩ := by
  have hsingle : deceptive.SingleLined := ⟨by decide, by decide, by decide, by decide⟩
  exact ⟨hsingle, (readUnit?_render hsingle).1⟩

end ContentTypes.Declaration.GeneratedUnit
