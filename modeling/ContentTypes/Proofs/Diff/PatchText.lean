import ContentTypes.Proofs.Diff.Applying
import ContentTypes.Proofs.Text.SplitLines

/-!
# Reading a diff

A diff is read back line by line: two lines that name the file, then for each hunk a line with its
ranges and the lines that it shows, each with a mark in front. The remark that a text does not end
its last line comes after that line.

What is written for blocks is read back as their hunks.
-/

namespace ContentTypes.Diff

open Text (Unbroken ended)

variable {old new : List String}

-- ---------------------------------------------------------------------------
-- The reader
-- ---------------------------------------------------------------------------

def readNumber? (text : List Char) : Option (Nat × List Char) :=
  match text.takeWhile (·.isDigit) with
  | [] => none
  | digits => some (Nat.ofDigitChars 10 digits 0, text.dropWhile (·.isDigit))

/-- How many lines come before a range, its length, and what comes after it. A range of one line is
given by the number of the line, an empty one by that of the line before it. -/
def readRange? (text : List Char) : Option (Nat × Nat × List Char) := do
  let (start, rest) ← readNumber? text
  match rest with
  | ',' :: rest =>
    let (length, rest) ← readNumber? rest
    pure (if length = 0 then start else start - 1, length, rest)
  | rest => pure (start - 1, 1, rest)

def readHeader? (line : List Char) : Option PatchHunk := do
  let rest ← line.dropPrefix? "@@ -".toList
  let (oldStart, oldLength, rest) ← readRange? rest
  let rest ← rest.dropPrefix? " +".toList
  let (newStart, newLength, rest) ← readRange? rest
  if rest = " @@\n".toList then pure ⟨oldStart, oldLength, newStart, newLength, []⟩ else none

def kindOfMark? : Char → Option EditKind
  | ' ' => some .equal
  | '-' => some .delete
  | '+' => some .insert
  | _ => none

def readChange? (unended : Bool) : List Char → Option LineChange
  | [] => none
  | mark :: text => (kindOfMark? mark).map fun kind =>
    ⟨kind, String.ofList (if unended then text.dropLast else text)⟩

def remark : List Char :=
  "\\ No newline at end of file".toList

structure Reading where
  /-- The line before is not ended. -/
  unended : Bool := false
  changes : List LineChange := []
  hunks : List PatchHunk := []

def readLine? (line : List Char) (later : Reading) : Option Reading :=
  if line = remark ++ ['\n'] then
    if later.unended then none else some { later with unended := true }
  else
    match readHeader? line with
    | some ranges =>
      if later.unended then none
      else some { hunks := { ranges with changes := later.changes } :: later.hunks }
    | none => (readChange? later.unended line).map fun change =>
      { changes := change :: later.changes, hunks := later.hunks }

/-- Lines are read from the last to the first, so that it is known of each line if it is ended. -/
def readLines? : List (List Char) → Option Reading
  | [] => some {}
  | line :: lines => (readLines? lines).bind (readLine? line)

def readPatch? (text : String) : Option (List PatchHunk) :=
  match Text.splitLines text.toList with
  | oldName :: newName :: lines =>
    if "--- ".toList <+: oldName ∧ "+++ ".toList <+: newName then
      (readLines? lines).bind fun reading =>
        if reading.unended ∨ reading.changes ≠ [] then none else some reading.hunks
    else none
  | _ => none

def applyPatch? (patch current : String) : Option String :=
  (readPatch? patch).bind fun hunks =>
    (applyHunks 0 0 hunks (linesOf current)).map String.join

-- ---------------------------------------------------------------------------
-- Ranges
-- ---------------------------------------------------------------------------

section
variable {rest : List Char}

theorem dropPrefix?_append (front rest : List Char) :
    (front ++ rest).dropPrefix? front = some rest :=
  List.dropPrefix?_eq_some_iff.2 ⟨front, rfl, by simp⟩

theorem readNumber?_toDigits (n : Nat) (hrest : ∀ c ∈ rest.head?, c.isDigit = false) :
    readNumber? (Nat.toDigits 10 n ++ rest) = some (n, rest) := by
  have hdigits : ∀ c ∈ Nat.toDigits 10 n, c.isDigit = true := fun c hc =>
    Nat.isDigit_of_mem_toDigits (by decide) (by decide) hc
  have htake : rest.takeWhile (·.isDigit) = [] := by
    cases rest with
    | nil => rfl
    | cons c rest => simp [hrest c (by simp)]
  have hdrop : rest.dropWhile (·.isDigit) = rest := by
    cases rest with
    | nil => rfl
    | cons c rest => simp [hrest c (by simp)]
  rw [readNumber?, List.takeWhile_append_of_pos hdigits, List.dropWhile_append_of_pos hdigits,
    htake, hdrop, List.append_nil]
  cases hn : Nat.toDigits 10 n with
  | nil => exact absurd hn Nat.toDigits_ne_nil
  | cons digit digits =>
    rw [← hn]
    simp [Nat.ofDigitChars_ten_toDigits]

theorem readRange?_rangeText (start length : Nat) (hrest : ∀ c ∈ rest.head?, c = ' ') :
    readRange? ((rangeText start length).toList ++ rest) = some (start, length, rest) := by
  have hspace : ∀ c ∈ rest.head?, c.isDigit = false := fun c hc => by
    rw [hrest c hc]
    decide
  by_cases hone : length = 1
  · subst hone
    simp only [readRange?, rangeText, ↓reduceIte, Nat.toString_eq_repr, Nat.toList_repr,
      readNumber?_toDigits _ hspace, Option.bind_eq_bind, Option.bind_some]
    split
    · simp at hrest
    · rfl
  · have hnumber (n : Nat) :
        readNumber? (Nat.toDigits 10 n ++ ',' :: (Nat.toDigits 10 length ++ rest)) =
          some (n, ',' :: (Nat.toDigits 10 length ++ rest)) := readNumber?_toDigits n (by simp)
    simp only [rangeText, if_neg hone]
    generalize hshown : (if length = 0 then start else start + 1) = shown
    have hstart : (if length = 0 then shown else shown - 1) = start := by
      split at hshown <;> simp_all
      omega
    simp [readRange?, hnumber, readNumber?_toDigits _ hspace, hstart]

theorem unbroken_toDigits (n : Nat) : Unbroken (Nat.toDigits 10 n) := by
  intro c hc
  have hdigit : c.isDigit = true := Nat.isDigit_of_mem_toDigits (by decide) (by decide) hc
  constructor <;> rintro rfl <;> simp at hdigit

theorem unbroken_rangeText (start length : Nat) : Unbroken (rangeText start length).toList := by
  simp only [rangeText]
  split
  · simpa using unbroken_toDigits (start + 1)
  · have hcomma : Unbroken [','] := by simp [Unbroken]
    split
    · simpa using ((unbroken_toDigits start).append hcomma).append (unbroken_toDigits length)
    · simpa using ((unbroken_toDigits (start + 1)).append hcomma).append (unbroken_toDigits length)

end

namespace Hunk

variable {hunk : Hunk}

theorem header_eq (hne : hunk ≠ []) : hunk.header =
    "@@ -" ++ rangeText hunk.oldStart (hunk.oldEnd - hunk.oldStart) ++ " +"
      ++ rangeText hunk.newStart (hunk.newEnd - hunk.newStart) ++ " @@\n" := by
  obtain ⟨first, hfirst⟩ := Option.ne_none_iff_exists'.1 (mt List.head?_eq_none_iff.1 hne)
  obtain ⟨last, hlast⟩ := Option.ne_none_iff_exists'.1 (mt List.getLast?_eq_none_iff.1 hne)
  simp [header, oldStart, oldEnd, newStart, newEnd, hfirst, hlast]

theorem readHeader?_header (old new : List String) (hne : hunk ≠ []) :
    readHeader? hunk.header.toList = some { hunk.patch old new with changes := [] } := by
  simp only [header_eq hne, String.toList_append, List.append_assoc, readHeader?,
    dropPrefix?_append, Option.bind_eq_bind, Option.bind_some]
  rw [readRange?_rangeText _ _ (by simp)]
  simp only [dropPrefix?_append, Option.bind_some]
  rw [readRange?_rangeText _ _ (by simp)]
  rfl

end Hunk

-- ---------------------------------------------------------------------------
-- Lines
-- ---------------------------------------------------------------------------

def ReadsTo (text : List Char) (later earlier : Reading) : Prop :=
  ∃ bodies, (∀ body ∈ bodies, Unbroken body) ∧ text = (ended bodies).flatten ∧
    ∀ lines, readLines? lines = some later → readLines? (ended bodies ++ lines) = some earlier

namespace ReadsTo

variable {text text' : List Char} {reading reading' reading'' : Reading}

theorem nil : ReadsTo [] reading reading :=
  ⟨[], nofun, rfl, fun _ h => h⟩

theorem append (h : ReadsTo text reading' reading) (h' : ReadsTo text' reading'' reading') :
    ReadsTo (text ++ text') reading'' reading := by
  obtain ⟨bodies, hbodies, rfl, hread⟩ := h
  obtain ⟨bodies', hbodies', rfl, hread'⟩ := h'
  refine ⟨bodies ++ bodies', List.forall_mem_append.2 ⟨hbodies, hbodies'⟩, by simp [ended], ?_⟩
  intro lines hlines
  rw [ended, List.map_append, List.append_assoc]
  exact hread _ (hread' lines hlines)

theorem line {body : List Char} (hbody : Unbroken body)
    (h : readLine? (body ++ ['\n']) reading = some reading') :
    ReadsTo (body ++ ['\n']) reading reading' :=
  ⟨[body], by simpa using hbody, by simp [ended], fun lines hlines => by
    simp [ended, readLines?, hlines, h]⟩

end ReadsTo

def IsLine (line : String) : Prop :=
  ∃ body, Unbroken body ∧ (line.toList = body ++ ['\n'] ∨ line.toList = body)

namespace LineChange

def mark : EditKind → Char
  | .equal => ' '
  | .delete => '-'
  | .insert => '+'

def text (change : LineChange) : String :=
  markedLine (mark change.kind) change.line

variable {change : LineChange} {changes later : List LineChange} {hunks : List PatchHunk}

theorem readLine?_mark (kind : EditKind) (text : List Char) (reading : Reading) :
    readLine? (mark kind :: text) reading =
      some { changes := ⟨kind, String.ofList (if reading.unended then text.dropLast else text)⟩
               :: reading.changes
             hunks := reading.hunks } := by
  have hremark : mark kind :: text ≠ remark ++ ['\n'] := fun h => by
    have hhead : some (mark kind) = some '\\' := congrArg List.head? h
    cases kind <;> exact absurd hhead (by decide)
  have hheader : readHeader? (mark kind :: text) = none := by
    have hprefix : (mark kind :: text).dropPrefix? ['@', '@', ' ', '-'] = none := by
      cases kind <;> simp [List.dropPrefix?, mark]
    rw [readHeader?, show "@@ -".toList = ['@', '@', ' ', '-'] from rfl, hprefix]
    rfl
  have hkind : kindOfMark? (mark kind) = some kind := by cases kind <;> rfl
  simp only [readLine?, if_neg hremark, hheader, readChange?, hkind, Option.map_some]

theorem unbroken_mark (kind : EditKind) : Unbroken [mark kind] := by
  cases kind <;> simp [Unbroken, mark]

theorem unbroken_remark : Unbroken remark := by
  decide

theorem readsTo (h : IsLine change.line) :
    ReadsTo change.text.toList ⟨false, later, hunks⟩ ⟨false, change :: later, hunks⟩ := by
  obtain ⟨kind, line⟩ := change
  obtain ⟨body, hbody, hline | hline⟩ := h
  · have htext : (LineChange.text ⟨kind, line⟩).toList = (mark kind :: body) ++ ['\n'] := by
      simp [LineChange.text, markedLine, hline]
    rw [htext]
    refine .line ((unbroken_mark kind).append hbody) ?_
    rw [List.cons_append, readLine?_mark, ← hline]
    simp
  · have hlast : ((body.getLast?).any fun c => c = '\n' || c = '\r') = false := by
      cases hc : body.getLast? with
      | none => rfl
      | some c => simpa using hbody c (List.mem_of_getLast? hc)
    have htext : (LineChange.text ⟨kind, line⟩).toList =
        ((mark kind :: body) ++ ['\n']) ++ (remark ++ ['\n']) := by
      have hremark : "\n\\ No newline at end of file\n".toList = '\n' :: (remark ++ ['\n']) := by
        decide
      simp [LineChange.text, markedLine, hline, hlast, hremark]
    rw [htext]
    have hread : ReadsTo (remark ++ ['\n']) ⟨false, later, hunks⟩ ⟨true, later, hunks⟩ :=
      .line unbroken_remark (by simp [readLine?])
    refine ReadsTo.append (.line ((unbroken_mark kind).append hbody) ?_) hread
    rw [List.cons_append, readLine?_mark, ← hline]
    simp

theorem readsTo_all (h : ∀ change ∈ changes, IsLine change.line) :
    ReadsTo (changes.flatMap (·.text.toList)) ⟨false, later, hunks⟩
      ⟨false, changes ++ later, hunks⟩ := by
  induction changes with
  | nil => exact .nil
  | cons change changes ih =>
    obtain ⟨hchange, h⟩ := List.forall_mem_cons.1 h
    exact (readsTo hchange).append (ih h)

end LineChange

theorem isLine_of_mem {text line : String} (htext : '\r' ∉ text.toList) (h : line ∈ linesOf text) :
    IsLine line := by
  obtain ⟨line, hline, rfl⟩ := List.mem_map.1 h
  simpa [IsLine] using Text.exists_body_of_mem htext hline

-- ---------------------------------------------------------------------------
-- Hunks
-- ---------------------------------------------------------------------------

theorem Block.toList_text (block : Block) : (block.text old new).toList =
    (block.changes old new).flatMap (·.text.toList) := by
  simp only [Block.text, Block.changes]
  split <;> simp [List.flatMap_map, LineChange.text, LineChange.mark]

theorem Block.line_mem {block : Block} {change : LineChange} (h : change ∈ block.changes old new) :
    change.line ∈ old ∨ change.line ∈ new := by
  have hslice {text : List String} {start length : Nat} {line : String}
      (hline : line ∈ slice text start length) : line ∈ text :=
    List.mem_of_mem_drop (List.mem_of_mem_take hline)
  simp only [Block.changes] at h
  split at h
  · obtain ⟨line, hline, rfl⟩ := List.mem_map.1 h
    exact .inl (hslice hline)
  · rcases List.mem_append.1 h with h | h
    · obtain ⟨line, hline, rfl⟩ := List.mem_map.1 h
      exact .inl (hslice hline)
    · obtain ⟨line, hline, rfl⟩ := List.mem_map.1 h
      exact .inr (hslice hline)

section
variable {hunk : Hunk} {hunks : List Hunk} {later : List PatchHunk}
  (hold : ∀ line ∈ old, IsLine line) (hnew : ∀ line ∈ new, IsLine line)
include hold hnew

omit hold hnew in
theorem Hunk.header_readsTo (hne : hunk ≠ []) : ReadsTo hunk.header.toList
    ⟨false, hunk.flatMap (·.changes old new) ++ [], later⟩
    ⟨false, [], hunk.patch old new :: later⟩ := by
  have hranges := readHeader?_header old new hne
  have hremark : hunk.header.toList ≠ remark ++ ['\n'] := fun h => by
    have hhead : hunk.header.toList.head? = some '\\' := congrArg List.head? h
    simp [header_eq hne] at hhead
  obtain ⟨body, hbody, hheader⟩ : ∃ body, Unbroken body ∧ hunk.header.toList = body ++ ['\n'] := by
    refine ⟨("@@ -" ++ rangeText hunk.oldStart (hunk.oldEnd - hunk.oldStart) ++ " +"
      ++ rangeText hunk.newStart (hunk.newEnd - hunk.newStart) ++ " @@").toList, ?_, ?_⟩
    · simp only [String.toList_append]
      refine .append (.append (.append (.append ?_ (unbroken_rangeText _ _)) ?_)
        (unbroken_rangeText _ _)) ?_
      all_goals simp [Unbroken]
    · simp [header_eq hne]
  rw [hheader] at hranges hremark ⊢
  refine .line hbody ?_
  simp [readLine?, hremark, hranges, Hunk.patch]

theorem Hunk.readsTo (hne : hunk ≠ []) : ReadsTo (hunk.text old new).toList
    ⟨false, [], later⟩ ⟨false, [], hunk.patch old new :: later⟩ := by
  have htext : (hunk.text old new).toList = hunk.header.toList ++
      (hunk.flatMap (·.changes old new)).flatMap (·.text.toList) := by
    simp [Hunk.text, List.flatMap_map, Block.toList_text, List.flatMap_assoc]
  rw [htext]
  refine (Hunk.header_readsTo hne).append (LineChange.readsTo_all (fun change hc => ?_))
  obtain ⟨block, -, hchange⟩ := List.mem_flatMap.1 hc
  exact (Block.line_mem hchange).elim (hold _) (hnew _)

theorem readsTo_hunks (hne : ∀ hunk ∈ hunks, hunk ≠ []) :
    ReadsTo (hunks.flatMap fun hunk => (hunk.text old new).toList) {}
      { hunks := hunks.map (·.patch old new) } := by
  induction hunks with
  | nil => exact .nil
  | cons hunk hunks ih =>
    obtain ⟨hhunk, hne⟩ := List.forall_mem_cons.1 hne
    exact (Hunk.readsTo hold hnew hhunk).append (ih hne)

theorem readPatch?_unified {label : String} {blocks : List Block} (hlabel : Unbroken label.toList)
    (hne : ∀ hunk ∈ Diff.hunks blocks, hunk ≠ []) (hsome : Diff.hunks blocks ≠ []) :
    readPatch? (unified label old new blocks) =
      some ((Diff.hunks blocks).map (·.patch old new)) := by
  obtain ⟨bodies, hbodies, htext, hread⟩ := readsTo_hunks hold hnew hne
  have hlines := hread [] rfl
  rw [List.append_nil] at hlines
  have hunified : (unified label old new blocks).toList =
      (ended (("--- a/" ++ label).toList :: ("+++ b/" ++ label).toList :: bodies)).flatten := by
    obtain ⟨first, rest, hhunks⟩ := List.exists_cons_of_ne_nil hsome
    rw [hhunks] at htext
    simp only [unified, hhunks, String.toList_append, String.toList_join, List.flatMap_map, htext]
    simp [ended]
  rw [readPatch?, hunified, Text.splitLines_ended]
  · have hnames : "--- ".toList <+: ("--- a/" ++ label).toList ++ ['\n'] ∧
        "+++ ".toList <+: ("+++ b/" ++ label).toList ++ ['\n'] :=
      ⟨⟨"a/".toList ++ label.toList ++ ['\n'], by simp⟩,
        ⟨"b/".toList ++ label.toList ++ ['\n'], by simp⟩⟩
    simp only [ended, List.map_cons, if_pos hnames] at hlines ⊢
    simp [hlines]
  · simp only [String.toList_append]
    refine List.forall_mem_cons.2 ⟨.append ?_ hlabel,
      List.forall_mem_cons.2 ⟨.append ?_ hlabel, hbodies⟩⟩
    all_goals simp [Unbroken]

end

end ContentTypes.Diff
