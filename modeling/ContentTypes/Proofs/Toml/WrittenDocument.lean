import ContentTypes.Proofs.Assoc
import ContentTypes.Proofs.Toml.WrittenString
import ContentTypes.Toml.Reader
import Mathlib.Algebra.BigOperators.Group.List.Basic

/-!
# Documents are read as they are written

A value is read from its text whatever follows it, unless that is a quote: `IsWritten`. A text is
read line by line, and each line makes its change to the draft: `ofText?_lines`. So a document with
members and tables of members gives back what was written: `ofText?_document`.
-/

namespace ContentTypes.Toml

variable {item : List Char → Option (Value × List Char)} {limit room n : Nat} {rest : List Char}

-- ---------------------------------------------------------------------------
-- Values
-- ---------------------------------------------------------------------------

/-- A text from which a value is read, up to what follows it. -/
structure IsWritten (item : List Char → Option (Value × List Char)) (text : List Char)
    (value : Value) : Prop where
  begins : ∃ c others, text = c :: others ∧ isBlank c = false
  reads {rest : List Char} : rest.head? ≠ some '"' → rest.head? ≠ some '\'' →
    item (text ++ rest) = some (value, rest)

theorem exists_quote_writeString (text : String) :
    ∃ quote others, (writeString text).toList = quote :: others ∧ (quote = '"' ∨ quote = '\'') := by
  rw [writeString, String.toList_ofList]
  cases StringForm.choose text.toList with
  | basic | multilineBasic => exact ⟨'"', _, rfl, .inl rfl⟩
  | literal | multilineLiteral => exact ⟨'\'', _, rfl, .inr rfl⟩

theorem value?_of_quote {quote : Char} (h : quote = '"' ∨ quote = '\'') (others : List Char) :
    value? limit room (quote :: others) =
      (string? (quote :: others)).map fun (text, rest) => (.string text, rest) := by
  rcases h with rfl | rfl <;> cases room <;> rfl

theorem isWritten_writeString (text : String) :
    IsWritten (value? limit room) (writeString text).toList (.string text) := by
  obtain ⟨quote, others, htext, hquote⟩ := exists_quote_writeString text
  refine ⟨⟨quote, others, htext, ?_⟩, fun {rest} hdouble hsingle => ?_⟩
  · rcases hquote with rfl | rfl <;> rfl
  · have hread := string?_writeString text hdouble hsingle
    rw [htext, List.cons_append] at hread ⊢
    rw [value?_of_quote hquote, hread]
    rfl

theorem isWritten_writeBoolean (value : Bool) :
    IsWritten (value? limit room) (writeBoolean value).toList (.boolean value) := by
  cases value with
  | false => exact ⟨⟨'f', _, rfl, rfl⟩, fun _ _ => by cases room <;> rfl⟩
  | true => exact ⟨⟨'t', _, rfl, rfl⟩, fun _ _ => by cases room <;> rfl⟩

-- ---------------------------------------------------------------------------
-- Arrays
-- ---------------------------------------------------------------------------

theorem skipFiller_writeString (text : String) (rest : List Char) :
    skipFiller false ((writeString text).toList ++ rest) = (writeString text).toList ++ rest := by
  obtain ⟨quote, others, htext, rfl | rfl⟩ := exists_quote_writeString text <;> rw [htext] <;> rfl

theorem items?_of_string {mark : Char} {text : String} {before : List Char} (done : List Value)
    (hmark : mark = ',' ∨ mark = ']')
    (hbefore : skipFiller false before = (writeString text).toList ++ mark :: rest) :
    items? (value? limit room) done (n + 1) before =
      if mark = ',' then items? (value? limit room) (.string text :: done) n rest
      else some ((.string text :: done).reverse, rest) := by
  have hwritten : value? limit room ((writeString text).toList ++ mark :: rest) =
      some (.string text, mark :: rest) := by
    rcases hmark with rfl | rfl <;> exact (isWritten_writeString text).reads (by simp) (by simp)
  obtain ⟨quote, others, htext, hquote⟩ := exists_quote_writeString text
  rw [htext, List.cons_append] at hbefore hwritten
  rw [items?, hbefore]
  rcases hquote with rfl | rfl <;> rcases hmark with rfl | rfl <;>
    simp [hwritten, skipFiller, isBlank]

def itemLine (text : String) : String :=
  "    " ++ writeString text ++ ",\n"

theorem items?_itemLines (texts : List String) (done : List Value) (rest : List Char)
    (hn : texts.length < n) :
    items? (value? limit room) done n
        ('\n' :: ((texts.map itemLine).flatMap String.toList ++ ']' :: rest)) =
      some (done.reverse ++ texts.map .string, rest) := by
  obtain ⟨n, rfl⟩ := Nat.exists_eq_add_one.2 (Nat.zero_lt_of_lt hn)
  induction texts generalizing n done with
  | nil => simp [items?, skipFiller, isBlank]
  | cons text texts ih =>
    have hn : texts.length < n := by simpa using hn
    obtain ⟨n, rfl⟩ := Nat.exists_eq_add_one.2 (Nat.zero_lt_of_lt hn)
    have hline : skipFiller false
        ('\n' :: (((text :: texts).map itemLine).flatMap String.toList ++ ']' :: rest)) =
          (writeString text).toList ++
            ',' :: '\n' :: ((texts.map itemLine).flatMap String.toList ++ ']' :: rest) := by
      rw [← skipFiller_writeString]
      simp [itemLine, skipFiller, isBlank]
    rw [items?_of_string done (.inl rfl) hline, if_pos rfl, ih _ n hn]
    simp

theorem toList_writeStrings (text other : String) (texts : List String) :
    (writeStrings (text :: other :: texts)).toList = '[' ::
      ('\n' :: (((text :: other :: texts).map itemLine).flatMap String.toList ++ [']'])) := by
  have hline : (fun text => "    " ++ writeString text ++ ",\n") = itemLine := rfl
  simp [writeStrings, hline]

theorem isWritten_writeStrings {texts : List String} (h : texts.length < limit) :
    IsWritten (value? limit (room + 1)) (writeStrings texts).toList
      (.array (texts.map .string)) := by
  have hread : ∀ {text : List Char} {items : List Value}, (∀ rest,
      items? (value? limit room) [] limit (text ++ rest) = some (items, rest)) →
      IsWritten (value? limit (room + 1)) ('[' :: text) (.array items) :=
    fun h => ⟨⟨'[', _, rfl, rfl⟩, fun _ _ => by simp [value?, h]⟩
  obtain ⟨limit, rfl⟩ := Nat.exists_eq_add_one.2 (Nat.zero_lt_of_lt h)
  match texts, h with
  | [], _ =>
    have hwritten : (writeStrings []).toList = ['[', ']'] := rfl
    exact hwritten ▸ hread fun rest => rfl
  | [text], _ =>
    have hwritten : (writeStrings [text]).toList = '[' :: ((writeString text).toList ++ [']']) := by
      simp [writeStrings]
    refine hwritten ▸ hread fun rest => ?_
    have hbefore := skipFiller_writeString text (']' :: rest)
    simpa using items?_of_string [] (.inr rfl) hbefore
  | text :: other :: texts, h =>
    refine toList_writeStrings text other texts ▸ hread fun rest => ?_
    simpa using items?_itemLines (text :: other :: texts) [] rest h

theorem length_le_flatMap {α β : Type} {items : List α} {f : α → List β}
    (h : ∀ item ∈ items, f item ≠ []) : items.length ≤ (items.flatMap f).length := by
  rw [List.length_flatMap, ← List.length_map fun item => (f item).length]
  refine List.length_le_sum_of_one_le _ fun n hn => ?_
  obtain ⟨item, hm, rfl⟩ := List.mem_map.1 hn
  exact List.length_pos_iff.2 (h item hm)

theorem length_le_writeStrings (texts : List String) :
    texts.length ≤ (writeStrings texts).toList.length := by
  match texts with
  | [] => exact Nat.zero_le _
  | [_] => simp [writeStrings]
  | text :: other :: texts =>
    have hlines : (text :: other :: texts).length ≤
        ((text :: other :: texts).flatMap fun text => (itemLine text).toList).length :=
      length_le_flatMap fun text _ => by simp [itemLine]
    rw [toList_writeStrings, List.flatMap_map]
    simp only [List.length_cons, List.length_append] at hlines ⊢
    omega

-- ---------------------------------------------------------------------------
-- Keys
-- ---------------------------------------------------------------------------

def IsBareKey (key : String) : Prop :=
  key.toList ≠ [] ∧ key.toList.all isBareKeyChar = true

instance : DecidablePred IsBareKey := fun _ =>
  inferInstanceAs (Decidable (_ ∧ _))

theorem ne_of_isBareKeyChar {c : Char} (h : isBareKeyChar c = true) :
    isBlank c = false ∧ ∀ mark ∈ ['"', '\'', '[', '#', '\n', '\r', '\uFEFF'], c ≠ mark := by
  have hnot : (['"', '\'', '[', '#', '\n', '\r', '\uFEFF'].all (!isBareKeyChar ·)) = true := rfl
  constructor
  · cases hblank : isBlank c with
    | false => rfl
    | true =>
      have hc : c = ' ' ∨ c = '\t' := by simpa [isBlank] using hblank
      rcases hc with rfl | rfl <;> cases h
  · rintro mark hmark rfl
    have hbare := List.all_eq_true.1 hnot c hmark
    rw [h] at hbare
    cases hbare

variable {key : String}

theorem IsBareKey.exists_cons (h : IsBareKey key) :
    ∃ c others, key.toList = c :: others ∧ isBareKeyChar c = true := by
  obtain ⟨c, others, hkey⟩ := List.exists_cons_of_ne_nil h.1
  exact ⟨c, others, hkey, List.all_eq_true.1 h.2 c (hkey ▸ List.mem_cons_self)⟩

theorem skipBlanks_cons {c : Char} (h : isBlank c = false) (rest : List Char) :
    skipBlanks (c :: rest) = c :: rest := by
  simp [skipBlanks, h]

theorem simpleKey?_of_isBareKey (h : IsBareKey key) (rest : List Char)
    (hrest : ∀ c ∈ rest.head?, isBareKeyChar c = false) :
    simpleKey? (key.toList ++ rest) = some (key, rest) := by
  obtain ⟨c, others, hc, hbare⟩ := h.exists_cons
  obtain ⟨-, hmarks⟩ := ne_of_isBareKeyChar hbare
  have hbehind : rest.takeWhile isBareKeyChar = [] ∧ rest.dropWhile isBareKeyChar = rest := by
    cases rest with
    | nil => exact ⟨rfl, rfl⟩
    | cons c rest => simp [hrest c (by simp)]
  have hkey : ∀ c ∈ key.toList, isBareKeyChar c = true := List.all_eq_true.1 h.2
  have htake : (key.toList ++ rest).takeWhile isBareKeyChar = c :: others := by
    rw [List.takeWhile_append_of_pos hkey, hbehind.1, List.append_nil, hc]
  have hdrop : (key.toList ++ rest).dropWhile isBareKeyChar = rest := by
    rw [List.dropWhile_append_of_pos hkey, hbehind.2]
  have hname : String.ofList (c :: others) = key := hc ▸ String.ofList_toList
  unfold simpleKey?
  split
  · rename_i hstart
    rw [hc] at hstart
    exact absurd (List.cons.inj hstart).1 (hmarks '"' (by simp))
  · rename_i hstart
    rw [hc] at hstart
    exact absurd (List.cons.inj hstart).1 (hmarks '\'' (by simp))
  · simp only [htake, hdrop, hname]

theorem key?_of_isBareKey (h : IsBareKey key) (rest : List Char)
    (hrest : ∀ c ∈ rest.head?, isBareKeyChar c = false)
    (hdot : (skipBlanks rest).head? ≠ some '.') :
    key? (key.toList ++ rest) = some ([key], skipBlanks rest) := by
  obtain ⟨c, others, hc, hbare⟩ := h.exists_cons
  have hstart : skipBlanks (key.toList ++ rest) = key.toList ++ rest := by
    rw [hc]
    exact skipBlanks_cons (ne_of_isBareKeyChar hbare).1 _
  rw [key?, maximalKeyLength, keyParts?, hstart, simpleKey?_of_isBareKey h rest hrest]
  simp only [Option.bind_eq_bind, Option.bind_some]
  split <;> simp_all

-- ---------------------------------------------------------------------------
-- Lines
-- ---------------------------------------------------------------------------

theorem header?_of_isBareKey (h : IsBareKey key) (draft : Draft) (rest : List Char) :
    header? draft (key.toList ++ ']' :: '\n' :: rest) =
      (draft.openTable [key]).map fun draft => (draft, rest) := by
  obtain ⟨c, others, hc, hbare⟩ := h.exists_cons
  have hbracket := (ne_of_isBareKeyChar hbare).2 '[' (by simp)
  have hread := key?_of_isBareKey h (']' :: '\n' :: rest) (by simp; decide)
    (by simp [skipBlanks_cons, isBlank])
  rw [skipBlanks_cons rfl] at hread
  rw [hc] at hread ⊢
  conv => lhs; unfold header?
  split
  · simp_all
  · rw [hread, Option.map_eq_bind]
    rfl

structure Member where
  key : String
  text : List Char
  value : Value

/-- A member that is read where its values may be nested deepest. -/
structure Member.IsWritten (limit : Nat) (member : Member) : Prop where
  key : IsBareKey member.key
  value : Toml.IsWritten (value? limit maximalDepth) member.text member.value

theorem member?_of_isWritten {member : Member} (h : member.IsWritten limit) (rest : List Char) :
    member? (value? limit maximalDepth)
        (member.key.toList ++ ' ' :: '=' :: ' ' :: (member.text ++ '\n' :: rest)) =
      some (([member.key], member.value), '\n' :: rest) := by
  have hskip : skipBlanks (' ' :: '=' :: ' ' :: (member.text ++ '\n' :: rest)) =
      '=' :: ' ' :: (member.text ++ '\n' :: rest) := rfl
  have hread := key?_of_isBareKey h.key (' ' :: '=' :: ' ' :: (member.text ++ '\n' :: rest))
    (by simp; decide) (by simp [hskip])
  rw [hskip] at hread
  have hvalue : value? limit maximalDepth (skipBlanks (' ' :: (member.text ++ '\n' :: rest))) =
      some (member.value, '\n' :: rest) := by
    obtain ⟨c, others, htext, hblank⟩ := h.value.begins
    have hstart : skipBlanks (member.text ++ '\n' :: rest) = member.text ++ '\n' :: rest := by
      rw [htext]
      exact skipBlanks_cons hblank _
    exact (congrArg _ hstart).trans (h.value.reads (by simp) (by simp))
  rw [member?, hread]
  refine (congrArg (· >>= _) hvalue).trans ?_
  rfl

inductive Line where
  | blank
  | header (key : String)
  | entry (member : Member)

namespace Line

def text : Line → List Char
  | blank => ['\n']
  | header key => '[' :: (key.toList ++ [']', '\n'])
  | entry member => member.key.toList ++ ' ' :: '=' :: ' ' :: (member.text ++ ['\n'])

def IsWritten (limit : Nat) : Line → Prop
  | blank => True
  | header key => IsBareKey key
  | entry member => member.IsWritten limit

def change (draft : Draft) : Line → Option Draft
  | blank => some draft
  | header key => draft.openTable [key]
  | entry member => draft.addValue [member.key] member.value

theorem exists_text_cons {line : Line} (h : line.IsWritten limit) :
    ∃ c others, line.text = c :: others ∧ c ≠ '\uFEFF' := by
  cases line with
  | blank => exact ⟨'\n', [], rfl, by decide⟩
  | header key => exact ⟨'[', _, rfl, by decide⟩
  | entry member =>
    obtain ⟨c, others, hc, hbare⟩ := h.key.exists_cons
    refine ⟨c, others ++ ' ' :: '=' :: ' ' :: (member.text ++ ['\n']), ?_, ?_⟩
    · rw [text, hc, List.cons_append]
    · exact (ne_of_isBareKeyChar hbare).2 _ (by simp)

end Line

theorem lines?_line {line : Line} (h : line.IsWritten limit) (draft : Draft) (n : Nat)
    (rest : List Char) :
    lines? limit draft (n + 1) (line.text ++ rest) =
      line.change draft >>= fun draft => lines? limit draft n rest := by
  cases line with
  | blank => rfl
  | header key =>
    have hline : (Line.header key).text ++ rest = '[' :: (key.toList ++ ']' :: '\n' :: rest) := by
      simp [Line.text]
    have hskip : skipBlanks ('[' :: (key.toList ++ ']' :: '\n' :: rest)) =
        '[' :: (key.toList ++ ']' :: '\n' :: rest) := rfl
    rw [hline, lines?, hskip]
    simp only [header?_of_isBareKey h, Line.change]
    cases draft.openTable [key] <;> rfl
  | entry member =>
    have hline : (Line.entry member).text ++ rest =
        member.key.toList ++ ' ' :: '=' :: ' ' :: (member.text ++ '\n' :: rest) := by
      simp [Line.text]
    have hread := member?_of_isWritten h rest
    obtain ⟨c, others, hc, hbare⟩ := h.key.exists_cons
    obtain ⟨hblank, hmarks⟩ := ne_of_isBareKeyChar hbare
    have hskip : skipBlanks (c :: others ++ ' ' :: '=' :: ' ' :: (member.text ++ '\n' :: rest)) =
        c :: (others ++ ' ' :: '=' :: ' ' :: (member.text ++ '\n' :: rest)) :=
      skipBlanks_cons hblank _
    have hcontent : ¬(c = '#' ∨ c = '\n' ∨ c = '\r') := by
      simp [hmarks '#' (by simp), hmarks '\n' (by simp), hmarks '\r' (by simp)]
    rw [hc] at hread
    rw [hline, lines?, hc, hskip]
    split
    · simp_all
    · simp_all
    · rename_i hcons
      obtain ⟨rfl, rfl⟩ := List.cons.inj hcons
      rw [if_neg hcontent, ← List.cons_append, hread]
      rfl

theorem lines?_lines {lines : List Line} (h : ∀ line ∈ lines, line.IsWritten limit)
    (hn : lines.length < n) (draft : Draft) :
    lines? limit draft n (lines.flatMap Line.text) = lines.foldlM Line.change draft := by
  obtain ⟨n, rfl⟩ := Nat.exists_eq_add_one.2 (Nat.zero_lt_of_lt hn)
  induction lines generalizing n draft with
  | nil => rfl
  | cons line rest ih =>
    have hn : rest.length < n := by simpa using hn
    obtain ⟨n, rfl⟩ := Nat.exists_eq_add_one.2 (Nat.zero_lt_of_lt hn)
    rw [List.flatMap_cons, lines?_line (h line List.mem_cons_self), List.foldlM_cons]
    have hrest : ∀ line ∈ rest, line.IsWritten limit := fun line hl =>
      h line (List.mem_cons_of_mem _ hl)
    exact bind_congr fun draft => ih hrest draft n hn

theorem ofText?_lines {text : String} {lines : List Line}
    (htext : text.toList = lines.flatMap Line.text)
    (h : ∀ line ∈ lines, line.IsWritten (text.toList.length + 1)) :
    ofText? text =
      lines.foldlM Line.change {} >>= fun draft => draft.close.map entriesToValues := by
  have hlength : lines.length ≤ text.toList.length := by
    rw [htext]
    refine length_le_flatMap fun line hl => ?_
    obtain ⟨c, others, hc, -⟩ := Line.exists_text_cons (h line hl)
    simp [hc]
  have hlines : lines? (text.toList.length + 1) {} (text.toList.length + 1) text.toList =
      lines.foldlM Line.change {} := by
    conv => lhs; rw [htext]
    exact lines?_lines (htext ▸ h) (Nat.lt_succ_of_le (htext ▸ hlength)) {}
  unfold ofText?
  -- no line begins with a byte order mark
  split
  · rename_i rest hstart
    cases lines with
    | nil => exact absurd (hstart.symm.trans htext) (List.cons_ne_nil _ _)
    | cons line others =>
      obtain ⟨c, later, hc, hmark⟩ := Line.exists_text_cons (h line List.mem_cons_self)
      rw [hstart, List.flatMap_cons, hc, List.cons_append] at htext
      exact absurd (List.cons.inj htext).1.symm hmark
  · dsimp only
    rw [hlines]
    refine bind_congr fun draft => ?_
    rw [Option.map_eq_bind]
    rfl

-- ---------------------------------------------------------------------------
-- Tables
-- ---------------------------------------------------------------------------

theorem change_member {draft : Draft} {member : Member}
    (h : member.key ∉ draft.current.map Prod.fst) :
    Line.change draft (.entry member) =
      some { draft with current := draft.current ++ [(member.key, .value member.value)] } := by
  have hlookup := Assoc.lookup_eq_none_iff.2 h
  simp [Line.change, Draft.addValue, splitKey, Entries.addValue, Entries.modifyAt, hlookup]

theorem change_header {draft : Draft} {root : Entries} (hclose : draft.close = some root)
    (h : key ∉ root.map Prod.fst) :
    Line.change draft (.header key) = some { root, path := [key] } := by
  have hlookup := Assoc.lookup_eq_none_iff.2 h
  have hremove : root.remove key = root := List.filter_eq_self.2 fun pair hp =>
    decide_eq_true fun he => h (he ▸ List.mem_map_of_mem hp)
  simp [Line.change, Draft.openTable, hclose, splitKey, Draft.tableAt?, Draft.claimed?, hlookup,
    Entries.modifyAt, hremove]

theorem close_table {root current : Entries} (h : key ∉ root.map Prod.fst) :
    Draft.close { root, current, path := [key] } =
      some (root ++ [(key, .table false false current)]) := by
  have hlookup := Assoc.lookup_eq_none_iff.2 h
  simp [Draft.close, splitKey, Entries.modifyAt, hlookup]

def Member.node (member : Member) : String × Node :=
  (member.key, .value member.value)

theorem foldlM_members {members : List Member} (draft : Draft)
    (h : (draft.current.map Prod.fst ++ members.map Member.key).Nodup) :
    (members.map Line.entry).foldlM Line.change draft =
      some { draft with current := draft.current ++ members.map Member.node } := by
  induction members generalizing draft with
  | nil => simp
  | cons member rest ih =>
    have hkey : member.key ∉ draft.current.map Prod.fst := by
      rw [List.map_cons] at h
      exact Assoc.not_mem_of_nodup h
    rw [List.map_cons, List.foldlM_cons, change_member hkey]
    refine (ih _ (by simpa using h)).trans ?_
    simp [Member.node]

def tableLines (table : String × List Member) : List Line :=
  .blank :: .header table.1 :: table.2.map .entry

def tableNode (table : String × List Member) : String × Node :=
  (table.1, .table false false (table.2.map Member.node))

theorem foldlM_tables {tables : List (String × List Member)} {draft : Draft} {root : Entries}
    (hclose : draft.close = some root) (hkeys : (root.map Prod.fst ++ tables.map Prod.fst).Nodup)
    (hmembers : ∀ table ∈ tables, (table.2.map Member.key).Nodup) :
    (tables.flatMap tableLines).foldlM Line.change draft >>= Draft.close =
      some (root ++ tables.map tableNode) := by
  induction tables generalizing draft root with
  | nil => simpa using hclose
  | cons table rest ih =>
    have hkey : table.1 ∉ root.map Prod.fst := by
      rw [List.map_cons] at hkeys
      exact Assoc.not_mem_of_nodup hkeys
    have htable : (tableLines table).foldlM Line.change draft =
        some { root, current := table.2.map Member.node, path := [table.1] } := by
      have hblank : Line.change draft .blank = some draft := rfl
      have hheader : Line.change draft (.header table.1) = some { root, path := [table.1] } :=
        change_header hclose hkey
      rw [tableLines, List.foldlM_cons, hblank, Option.bind_eq_bind, Option.bind_some,
        List.foldlM_cons, hheader, Option.bind_eq_bind, Option.bind_some]
      simpa using foldlM_members { root, path := [table.1] } (hmembers table List.mem_cons_self)
    rw [List.flatMap_cons, List.foldlM_append, htable]
    refine (ih (close_table hkey) (by simpa [tableNode] using hkeys) fun table ht =>
      hmembers table (List.mem_cons_of_mem _ ht)).trans ?_
    simp [tableNode]

def documentLines (members : List Member) (tables : List (String × List Member)) : List Line :=
  members.map .entry ++ tables.flatMap tableLines

/-- A table that is read as it is written. -/
structure IsWrittenTable (limit : Nat) (table : String × List Member) : Prop where
  key : IsBareKey table.1
  members : ∀ member ∈ table.2, member.IsWritten limit
  distinct : (table.2.map Member.key).Nodup

theorem isWritten_documentLines {members : List Member} {tables : List (String × List Member)}
    (hmembers : ∀ member ∈ members, member.IsWritten limit)
    (htables : ∀ table ∈ tables, IsWrittenTable limit table) :
    ∀ line ∈ documentLines members tables, line.IsWritten limit := by
  intro line hl
  rcases List.mem_append.1 hl with hl | hl
  · obtain ⟨member, hm, rfl⟩ := List.mem_map.1 hl
    exact hmembers member hm
  · obtain ⟨table, ht, hl⟩ := List.mem_flatMap.1 hl
    rcases List.mem_cons.1 hl with rfl | hl
    · trivial
    · rcases List.mem_cons.1 hl with rfl | hl
      · exact (htables table ht).key
      · obtain ⟨member, hm, rfl⟩ := List.mem_map.1 hl
        exact (htables table ht).members member hm

def Member.pair (member : Member) : String × Value :=
  (member.key, member.value)

theorem entriesToValues_append (front back : Entries) :
    entriesToValues (front ++ back) = entriesToValues front ++ entriesToValues back := by
  induction front with
  | nil => rfl
  | cons entry rest ih =>
    rw [List.cons_append, entriesToValues, ih, entriesToValues, List.cons_append]

theorem entriesToValues_nodes (members : List Member) :
    entriesToValues (members.map Member.node) = members.map Member.pair := by
  induction members with
  | nil => rfl
  | cons member rest ih => rw [List.map_cons, Member.node, entriesToValues, ih]; rfl

theorem entriesToValues_tableNodes (tables : List (String × List Member)) :
    entriesToValues (tables.map tableNode) =
      tables.map fun table => (table.1, .table (table.2.map Member.pair)) := by
  induction tables with
  | nil => rfl
  | cons table rest ih =>
    rw [List.map_cons, tableNode, entriesToValues, Node.toValue, entriesToValues_nodes, ih]
    rfl

theorem ofText?_document {text : String} {members : List Member}
    {tables : List (String × List Member)}
    (htext : text.toList = (documentLines members tables).flatMap Line.text)
    (hmembers : ∀ member ∈ members, member.IsWritten (text.toList.length + 1))
    (htables : ∀ table ∈ tables, IsWrittenTable (text.toList.length + 1) table)
    (hkeys : (members.map Member.key ++ tables.map Prod.fst).Nodup) :
    ofText? text = some (members.map Member.pair ++
      tables.map fun table => (table.1, .table (table.2.map Member.pair))) := by
  have htop : (members.map Line.entry).foldlM Line.change {} =
      some { current := members.map Member.node } := by
    simpa using foldlM_members {} (by simpa using (List.nodup_append.1 hkeys).1)
  have hclose : Draft.close { current := members.map Member.node } =
      some (members.map Member.node) := rfl
  have hfst : Prod.fst ∘ Member.node = Member.key := rfl
  have hnodes := foldlM_tables hclose (by simpa [hfst] using hkeys)
    fun table ht => (htables table ht).distinct
  rw [ofText?_lines htext (isWritten_documentLines hmembers htables), documentLines,
    List.foldlM_append, htop]
  refine (Option.map_bind.symm.trans (congrArg _ hnodes)).trans ?_
  rw [Option.map_some, entriesToValues_append, entriesToValues_nodes, entriesToValues_tableNodes]

end ContentTypes.Toml
