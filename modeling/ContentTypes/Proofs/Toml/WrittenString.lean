import ContentTypes.Toml.Lexeme
import ContentTypes.Toml.Writer
import Mathlib.Tactic.IntervalCases
import Mathlib.Tactic.SplitIfs

/-!
# Strings are read as they are written

Of the four forms of a string each is read back: `string?_writeString`. Between double quotes each
character stands for itself or has an escape, which both readers take alike: `StandsFor`. Where several
lines are allowed, one or two quotes may stand before others, so the induction carries them along.
-/

namespace ContentTypes.Toml

-- ---------------------------------------------------------------------------
-- Characters and escapes
-- ---------------------------------------------------------------------------

/-- What may be written between double quotes for a character. -/
inductive StandsFor : List Char → Char → Prop
  | plain {c : Char} : isBasicChar c = true → StandsFor [c] c
  | short {name c : Char} : shortEscape? name = some c → StandsFor ['\\', name] c
  | code {first second c : Char} : hexChar? ['0', '0', first, second] = some c →
    StandsFor ['\\', 'u', '0', '0', first, second] c

variable {c : Char} {piece done rest : List Char}

theorem ne_of_isBasicChar (h : isBasicChar c = true) : c ≠ '"' ∧ c ≠ '\\' ∧ c ≠ '\n' ∧ c ≠ '\r' := by
  refine ⟨?_, ?_, ?_, ?_⟩ <;> rintro rfl <;> exact absurd h (by decide)

theorem tab_or_printable_of_isControl (h : isControl c = false) (hline : c ≠ '\n') :
    c = '\t' ∨ ' ' ≤ c ∧ c ≠ '\x7f' := by
  by_cases htab : c = '\t'
  · exact .inl htab
  · have hlow : ¬c < ' ' ∧ c ≠ '\x7f' := by simpa [isControl, htab, hline] using h
    exact .inr ⟨Char.not_lt.1 hlow.1, hlow.2⟩

theorem isBasicChar_of_isControl (hcontrol : isControl c = false) (hquote : c ≠ '"')
    (hslash : c ≠ '\\') (hline : c ≠ '\n') : isBasicChar c = true := by
  rcases tab_or_printable_of_isControl hcontrol hline with rfl | ⟨hlow, hdelete⟩
  · rfl
  · simp [isBasicChar, hquote, hslash, hlow, hdelete]

theorem isLiteralChar_of_isControl (hcontrol : isControl c = false) (hquote : c ≠ '\'')
    (hline : c ≠ '\n') : isLiteralChar c = true := by
  rcases tab_or_printable_of_isControl hcontrol hline with rfl | ⟨hlow, hdelete⟩
  · rfl
  · simp [isLiteralChar, hquote, hlow, hdelete]

theorem hexChar?_of_isControl (h : isControl c = true) :
    hexChar? ['0', '0', upperHexDigit (c.toNat / 16), upperHexDigit (c.toNat % 16)] = some c := by
  have hall : ∀ n < 128, hexChar? ['0', '0', upperHexDigit (n / 16), upperHexDigit (n % 16)] =
      some (Char.ofNat n) := by decide +kernel
  have hlow : c.toNat < 128 := by
    simp only [isControl, Bool.or_eq_true, Bool.and_eq_true, decide_eq_true_eq] at h
    rcases h with ⟨⟨hlow, -⟩, -⟩ | rfl
    · have hlow : c.toNat < ' '.toNat := hlow
      exact Nat.lt_trans hlow (by decide)
    · decide
  rw [hall c.toNat hlow, Char.ofNat_toNat]

theorem standsFor_escapedChar (hquote : c ≠ '"') (hline : c ≠ '\n') :
    StandsFor (escapedChar c) c := by
  unfold escapedChar
  split_ifs with hback htab hfeed hreturn hslash hcontrol
  · exact hback ▸ .short rfl
  · exact htab ▸ .short rfl
  · exact hfeed ▸ .short rfl
  · exact hreturn ▸ .short rfl
  · subst hslash
    exact .short rfl
  · exact .code (hexChar?_of_isControl hcontrol)
  · exact .plain (isBasicChar_of_isControl (by simpa using hcontrol) hquote hslash hline)

theorem StandsFor.exists_cons (h : StandsFor piece c) :
    ∃ first others, piece = first :: others ∧ first ≠ '"' ∧ first ≠ '\n' ∧ first ≠ '\r' := by
  cases h with
  | plain h =>
    obtain ⟨hquote, -, hline, hreturn⟩ := ne_of_isBasicChar h
    exact ⟨c, [], rfl, hquote, hline, hreturn⟩
  | _ => exact ⟨'\\', _, rfl, by decide, by decide, by decide⟩

theorem basicString?_of_standsFor (h : StandsFor piece c) (done rest : List Char) :
    basicString? done (piece ++ rest) = basicString? (c :: done) rest := by
  cases h with
  | plain h =>
    obtain ⟨hquote, hslash, -, -⟩ := ne_of_isBasicChar h
    rw [List.singleton_append]
    conv => lhs; unfold basicString?
    split <;> simp_all
  | short h =>
    unfold shortEscape? at h
    split at h <;> cases h <;> rfl
  | code h => simp [basicString?, h]

theorem multilineBasic?_of_standsFor (h : StandsFor piece c) (done rest : List Char) :
    multilineBasic? false done (piece ++ rest) = multilineBasic? false (c :: done) rest := by
  cases h with
  | plain h =>
    obtain ⟨hquote, hslash, hline, hreturn⟩ := ne_of_isBasicChar h
    rw [List.singleton_append]
    conv => lhs; unfold multilineBasic?
    split <;> simp_all
  | short h =>
    unfold shortEscape? at h
    split at h <;> cases h <;> rfl
  | code h => simp [multilineBasic?, h]

-- ---------------------------------------------------------------------------
-- One line between double quotes
-- ---------------------------------------------------------------------------

theorem exists_basicPiece (c : Char) (run : Nat) (text : List Char) :
    ∃ piece, StandsFor piece c ∧
      basicBody false run (c :: text) = piece ++ basicBody false 0 text := by
  by_cases hquote : c = '"'
  · subst hquote
    exact ⟨['\\', '"'], .short rfl, by simp [basicBody]⟩
  · by_cases hline : c = '\n'
    · exact ⟨['\\', 'n'], hline ▸ .short rfl, by simp [basicBody, hline]⟩
    · exact ⟨_, standsFor_escapedChar hquote hline, by simp [basicBody, hquote, hline]⟩

theorem basicString?_basicBody (text : List Char) (run : Nat) (done rest : List Char) :
    basicString? done (basicBody false run text ++ '"' :: rest) =
      some (String.ofList (done.reverse ++ text), rest) := by
  induction text generalizing run done with
  | nil => simp [basicBody, basicString?]
  | cons c text ih =>
    obtain ⟨piece, hstands, hbody⟩ := exists_basicPiece c run text
    rw [hbody, List.append_assoc, basicString?_of_standsFor hstands, ih]
    simp

theorem literalString?_text {text : List Char} (h : ∀ c ∈ text, isLiteralChar c = true)
    (rest : List Char) :
    literalString? (text ++ '\'' :: rest) = some (String.ofList text, rest) := by
  have hquote : isLiteralChar '\'' = false := by decide
  unfold literalString?
  rw [List.dropWhile_append_of_pos h, List.takeWhile_append_of_pos h]
  simp [hquote]

-- ---------------------------------------------------------------------------
-- Several lines
-- ---------------------------------------------------------------------------

section
variable {quote : Char} {run : Nat}

theorem replicate_append_closing (hrun : run ≤ 2) :
    List.replicate run quote ++ quote :: quote :: quote :: rest =
      quote :: quote :: quote :: (List.replicate run quote ++ rest) := by
  interval_cases run <;> rfl

theorem closingQuotes_replicate (hrun : run ≤ 2) (hrest : rest.head? ≠ some quote) :
    closingQuotes quote (List.replicate run quote ++ rest) = (List.replicate run quote, rest) := by
  interval_cases run <;> rcases rest with _ | ⟨a, _ | ⟨b, rest⟩⟩ <;>
    simp_all [closingQuotes, List.replicate_succ]

theorem multilineBasic?_replicate (hrun : run ≤ 2) (hc : c ≠ '"') :
    multilineBasic? false done (List.replicate run '"' ++ c :: rest) =
      multilineBasic? false (List.replicate run '"' ++ done) (c :: rest) := by
  interval_cases run
  · rfl
  · simp [multilineBasic?, hc]
  · simp [multilineBasic?, hc]

theorem multilineBasic?_closing (hrun : run ≤ 2) (hrest : rest.head? ≠ some '"') :
    multilineBasic? false done (List.replicate run '"' ++ '"' :: '"' :: '"' :: rest) =
      some (String.ofList (done.reverse ++ List.replicate run '"'), rest) := by
  rw [replicate_append_closing hrun, multilineBasic?, closingQuotes_replicate hrun hrest]

theorem multilineLiteral?_replicate (hrun : run ≤ 2) (hc : c ≠ '\'') :
    multilineLiteral? done (List.replicate run '\'' ++ c :: rest) =
      multilineLiteral? (List.replicate run '\'' ++ done) (c :: rest) := by
  interval_cases run
  · rfl
  · simp [multilineLiteral?, hc]
  · simp [multilineLiteral?, hc]

theorem multilineLiteral?_closing (hrun : run ≤ 2) (hrest : rest.head? ≠ some '\'') :
    multilineLiteral? done (List.replicate run '\'' ++ '\'' :: '\'' :: '\'' :: rest) =
      some (String.ofList (done.reverse ++ List.replicate run '\''), rest) := by
  rw [replicate_append_closing hrun, multilineLiteral?, closingQuotes_replicate hrun hrest]

/-- What a string of several lines holds for a character besides quotes. If it begins with the end of a
line, so does the text. -/
theorem exists_multilinePiece (hquote : c ≠ '"') (run : Nat) (text : List Char) :
    ∃ first others, basicBody true run (c :: text) = (first :: others) ++ basicBody true 0 text ∧
      first ≠ '"' ∧ (first = '\n' → c = '\n') ∧ first ≠ '\r' ∧
      ∀ done rest, multilineBasic? false done ((first :: others) ++ rest) =
        multilineBasic? false (c :: done) rest := by
  by_cases hline : c = '\n'
  · subst hline
    exact ⟨'\n', [], by simp [basicBody], by decide, fun _ => rfl, by decide, fun _ _ => rfl⟩
  · have hstands := standsFor_escapedChar hquote hline
    have hbody : basicBody true run (c :: text) = escapedChar c ++ basicBody true 0 text := by
      simp [basicBody, hquote, hline]
    obtain ⟨first, others, hpiece, hfirst, hfirstLine, hreturn⟩ := hstands.exists_cons
    rw [hpiece] at hstands hbody
    exact ⟨first, others, hbody, hfirst, fun h => absurd h hfirstLine, hreturn,
      multilineBasic?_of_standsFor hstands⟩

/-- Quotes that were read last are carried along until it is known what follows them. -/
theorem multilineBasic?_basicBody (hrest : rest.head? ≠ some '"') (text : List Char)
    (hrun : run ≤ 2) (done : List Char) :
    multilineBasic? false done
        (List.replicate run '"' ++ (basicBody true run text ++ '"' :: '"' :: '"' :: rest)) =
      some (String.ofList (done.reverse ++ List.replicate run '"' ++ text), rest) := by
  induction text generalizing run done with
  | nil => simpa [basicBody] using multilineBasic?_closing hrun hrest
  | cons c text ih =>
    by_cases hquote : c = '"'
    · subst hquote
      by_cases hfull : run < 2
      · have hbody : basicBody true run ('"' :: text) = '"' :: basicBody true (run + 1) text := by
          simp [basicBody, hfull]
        have hnext := ih (show run + 1 ≤ 2 by omega) done
        rw [List.replicate_succ'] at hnext
        simpa [hbody] using hnext
      · obtain rfl : run = 2 := by omega
        have hbody : basicBody true 2 ('"' :: text) = '\\' :: '"' :: basicBody true 0 text := by
          simp [basicBody]
        rw [hbody, List.cons_append, multilineBasic?_replicate hrun (by decide)]
        have hescaped : StandsFor ['\\', '"'] '"' := .short rfl
        refine (multilineBasic?_of_standsFor hescaped _ _).trans ?_
        simpa using ih (Nat.zero_le 2) ('"' :: (List.replicate 2 '"' ++ done))
    · obtain ⟨first, others, hbody, hfirst, -, -, hread⟩ := exists_multilinePiece hquote run text
      rw [hbody, List.append_assoc, List.cons_append, multilineBasic?_replicate hrun hfirst,
        ← List.cons_append, hread]
      simpa using ih (Nat.zero_le 2) (c :: (List.replicate run '"' ++ done))

theorem multilineLiteral?_cons (hquote : c ≠ '\'') (hchar : c = '\n' ∨ isLiteralChar c = true)
    (done rest : List Char) :
    multilineLiteral? done (c :: rest) = multilineLiteral? (c :: done) rest := by
  rcases hchar with rfl | hchar
  · rfl
  · have hreturn : c ≠ '\r' := by
      rintro rfl
      exact absurd hchar (by decide)
    conv => lhs; unfold multilineLiteral?
    split <;> simp_all

theorem multilineLiteral?_text (hrest : rest.head? ≠ some '\'') (text : List Char) (hrun : run ≤ 2)
    (hchars : ∀ c ∈ text, c = '\n' ∨ c = '\'' ∨ isLiteralChar c = true)
    (htriple : hasTriple '\'' run text = false) (done : List Char) :
    multilineLiteral? done
        (List.replicate run '\'' ++ (text ++ '\'' :: '\'' :: '\'' :: rest)) =
      some (String.ofList (done.reverse ++ List.replicate run '\'' ++ text), rest) := by
  induction text generalizing run done with
  | nil => simpa using multilineLiteral?_closing hrun hrest
  | cons c text ih =>
    have hothers : ∀ c ∈ text, c = '\n' ∨ c = '\'' ∨ isLiteralChar c = true := fun c hc =>
      hchars c (List.mem_cons_of_mem _ hc)
    by_cases hquote : c = '\''
    · subst hquote
      have hnext : run ≠ 2 ∧ hasTriple '\'' (run + 1) text = false := by
        simpa [hasTriple] using htriple
      have hread := ih (show run + 1 ≤ 2 by omega) hothers hnext.2 done
      rw [List.replicate_succ'] at hread
      simpa using hread
    · have hnext : hasTriple '\'' 0 text = false := by simpa [hasTriple, hquote] using htriple
      have hchar : c = '\n' ∨ isLiteralChar c = true :=
        (hchars c List.mem_cons_self).imp_right fun h => h.resolve_left hquote
      have hread := multilineLiteral?_cons hquote hchar
      rw [List.cons_append, multilineLiteral?_replicate hrun hquote, hread]
      simpa using ih (Nat.zero_le 2) hothers hnext (c :: (List.replicate run '\'' ++ done))

end

-- ---------------------------------------------------------------------------
-- The four forms
-- ---------------------------------------------------------------------------

theorem dropFirstNewline_of_head {text : List Char} (hline : text.head? ≠ some '\n')
    (hreturn : text.head? ≠ some '\r') : dropFirstNewline text = text := by
  unfold dropFirstNewline newline?
  split <;> simp_all

theorem dropFirstNewline_firstNewline {text : List Char} (tail : List Char)
    (h : '\n' ∉ text → tail.head? ≠ some '\n' ∧ tail.head? ≠ some '\r') :
    dropFirstNewline (firstNewline text ++ tail) = tail := by
  unfold firstNewline
  by_cases hline : '\n' ∈ text
  · simp [hline, dropFirstNewline, newline?]
  · obtain ⟨hhead, hreturn⟩ := h hline
    simpa [hline] using dropFirstNewline_of_head hhead hreturn

theorem string?_of_basic {text : List Char} (h : ∀ others, text ≠ '"' :: '"' :: others) :
    string? ('"' :: text) = basicString? [] text := by
  conv => lhs; unfold string?
  split <;> simp_all

theorem string?_of_literal {text : List Char} (h : ∀ others, text ≠ '\'' :: '\'' :: others) :
    string? ('\'' :: text) = literalString? text := by
  conv => lhs; unfold string?
  split <;> simp_all

theorem string?_basic (hrest : rest.head? ≠ some '"') (text : List Char) :
    string? (StringForm.basic.write text ++ rest) = some (String.ofList text, rest) := by
  have hwritten : StringForm.basic.write text ++ rest =
      '"' :: (basicBody false 0 text ++ '"' :: rest) := by simp [StringForm.write]
  rw [hwritten, string?_of_basic, basicString?_basicBody]
  · rfl
  · intro others he
    cases text with
    | nil => simp [(List.cons.inj he).2] at hrest
    | cons c text =>
      obtain ⟨piece, hstands, hbody⟩ := exists_basicPiece c 0 text
      obtain ⟨first, rest, rfl, hfirst, -, -⟩ := hstands.exists_cons
      rw [hbody] at he
      exact hfirst (List.cons.inj he).1

theorem string?_literal {text : List Char} (hne : text ≠ [])
    (h : ∀ c ∈ text, isLiteralChar c = true) (rest : List Char) :
    string? (StringForm.literal.write text ++ rest) = some (String.ofList text, rest) := by
  have hwritten : StringForm.literal.write text ++ rest = '\'' :: (text ++ '\'' :: rest) := by
    simp [StringForm.write]
  rw [hwritten, string?_of_literal, literalString?_text h]
  intro others he
  obtain ⟨c, text, rfl⟩ := List.exists_cons_of_ne_nil hne
  have hfirst := h c List.mem_cons_self
  rw [(List.cons.inj he).1] at hfirst
  exact absurd hfirst (by decide)

theorem string?_multilineBasic (hrest : rest.head? ≠ some '"') (text : List Char) :
    string? (StringForm.multilineBasic.write text ++ rest) = some (String.ofList text, rest) := by
  have hwritten : StringForm.multilineBasic.write text ++ rest = '"' :: '"' :: '"' ::
      (firstNewline text ++ (basicBody true 0 text ++ '"' :: '"' :: '"' :: rest)) := by
    simp [StringForm.write]
  have hread := multilineBasic?_basicBody hrest text (Nat.zero_le 2) []
  rw [hwritten, string?, dropFirstNewline_firstNewline]
  · exact hread
  · intro hline
    cases text with
    | nil => exact ⟨by simp [basicBody], by simp [basicBody]⟩
    | cons c text =>
      by_cases hquote : c = '"'
      · simp [basicBody, hquote]
      · obtain ⟨first, others, hbody, -, hfirst, hreturn, -⟩ := exists_multilinePiece hquote 0 text
        have hne : first ≠ '\n' := fun he => hline (hfirst he ▸ List.mem_cons_self)
        rw [hbody]
        exact ⟨by simpa using hne, by simpa using hreturn⟩

theorem string?_multilineLiteral (hrest : rest.head? ≠ some '\'') {text : List Char}
    (hchars : ∀ c ∈ text, c = '\n' ∨ c = '\'' ∨ isLiteralChar c = true)
    (htriple : hasTriple '\'' 0 text = false) :
    string? (StringForm.multilineLiteral.write text ++ rest) = some (String.ofList text, rest) := by
  have hwritten : StringForm.multilineLiteral.write text ++ rest = '\'' :: '\'' :: '\'' ::
      (firstNewline text ++ (text ++ '\'' :: '\'' :: '\'' :: rest)) := by
    simp [StringForm.write]
  have hread := multilineLiteral?_text hrest text (Nat.zero_le 2) hchars htriple []
  rw [hwritten, string?, dropFirstNewline_firstNewline]
  · exact hread
  · intro hline
    cases text with
    | nil => exact ⟨by simp, by simp⟩
    | cons c text =>
      have hchar := hchars c List.mem_cons_self
      have hne : c ≠ '\n' := fun he => hline (he ▸ List.mem_cons_self)
      have hreturn : c ≠ '\r' := by
        rintro rfl
        revert hchar
        decide
      exact ⟨by simpa using hne, by simpa using hreturn⟩

-- ---------------------------------------------------------------------------
-- Strings
-- ---------------------------------------------------------------------------

theorem string?_writeString (text : String) (hdouble : rest.head? ≠ some '"')
    (hsingle : rest.head? ≠ some '\'') :
    string? ((writeString text).toList ++ rest) = some (text, rest) := by
  rw [writeString, String.toList_ofList]
  have htext : String.ofList text.toList = text := String.ofList_toList
  suffices h : string? ((StringForm.choose text.toList).write text.toList ++ rest) =
      some (String.ofList text.toList, rest) by rwa [htext] at h
  generalize text.toList = text
  unfold StringForm.choose
  dsimp only
  -- one goal for each form, with what is known of the text where that form is chosen
  split_ifs with hbasic hliteral hbasicLines hliteralLines hline
  · exact string?_basic hdouble text
  · simp only [Bool.and_eq_true, Bool.not_eq_true', List.any_eq_false, List.contains_eq_mem,
      decide_eq_false_iff_not] at hbasic hliteral
    obtain ⟨⟨hplain, hline⟩, hquote⟩ := hliteral
    refine string?_literal ?_ (fun c hc => ?_) rest
    · rintro rfl
      simp at hbasic
    · exact isLiteralChar_of_isControl (by simpa using hplain c hc) (fun he => hquote (he ▸ hc))
        fun he => hline (he ▸ hc)
  · exact string?_multilineBasic hdouble text
  · simp only [Bool.and_eq_true, Bool.not_eq_true', List.any_eq_false] at hliteralLines
    refine string?_multilineLiteral hsingle (fun c hc => ?_) hliteralLines.2
    by_cases hline : c = '\n'
    · exact .inl hline
    · by_cases hquote : c = '\''
      · exact .inr (.inl hquote)
      · have hcontrol : isControl c = false := by simpa using hliteralLines.1 c hc
        exact .inr (.inr (isLiteralChar_of_isControl hcontrol hquote hline))
  · exact string?_basic hdouble text
  · exact string?_multilineBasic hdouble text

end ContentTypes.Toml
