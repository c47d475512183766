import ContentTypes.Json.Skip
import ContentTypes.Proofs.Json.Grammar
import ContentTypes.Proofs.Outcome
import Mathlib.Data.List.TakeWhile

/-!
# Reading the parts of a text

A reader succeeds exactly on the texts of its rule in the grammar. A string or a number that is passed
over may be any; one that is read has to stand for characters or lie in range.
-/

namespace ContentTypes.Json

variable {c : Char} {text rest : List Char}

-- ---------------------------------------------------------------------------
-- Blanks and words
-- ---------------------------------------------------------------------------

theorem skipBlanks_cons (hc : isBlank c = false) : skipBlanks (c :: text) = c :: text := by
  simp [skipBlanks, hc]

theorem afterBlanks_skipBlanks : AfterBlanks text (skipBlanks text) :=
  ⟨text.takeWhile isBlank, fun _ hc => List.mem_takeWhile_imp hc,
    List.takeWhile_append_dropWhile.symm⟩

theorem skipBlanks_eq_of_afterBlanks (h : AfterBlanks text rest) :
    skipBlanks text = skipBlanks rest := by
  obtain ⟨blanks, hblanks, rfl⟩ := h
  simp only [skipBlanks, List.dropWhile_append_of_pos hblanks]

theorem afterBlanks_cons_iff (hc : isBlank c = false) :
    AfterBlanks text (c :: rest) ↔ skipBlanks text = c :: rest := by
  constructor
  · intro h
    rw [skipBlanks_eq_of_afterBlanks h, skipBlanks_cons hc]
  · intro h
    exact h ▸ afterBlanks_skipBlanks

theorem afterBlanks_nil_iff : AfterBlanks text [] ↔ skipBlanks text = [] := by
  constructor
  · exact fun h => skipBlanks_eq_of_afterBlanks h
  · intro h
    exact h ▸ afterBlanks_skipBlanks

theorem readEnd_eq_ok {u : Unit} : readEnd text = .ok u ↔ AfterBlanks text [] := by
  rw [afterBlanks_nil_iff, readEnd]
  split
  · simp_all
  · simp_all

theorem readWord_eq_ok {word : List Char} : readWord word text = .ok rest ↔ text = word ++ rest := by
  induction word generalizing text with
  | nil => simp [readWord]
  | cons c word ih =>
    cases text with
    | nil => simp [readWord]
    | cons d text =>
      by_cases h : d = c
      · simp [readWord, h, ih]
      · simp [readWord, h]

theorem readColon_eq_ok : readColon text = .ok rest ↔ AfterBlanks text (':' :: rest) := by
  rw [afterBlanks_cons_iff (by decide), readColon]
  split <;> simp_all

-- ---------------------------------------------------------------------------
-- Strings
-- ---------------------------------------------------------------------------

theorem skipString_plain (hquote : c ≠ '"') (hbackslash : c ≠ '\\') (hcontrol : ¬c < ' ') :
    skipString (c :: text) = skipString text := by
  rw [skipString, if_neg hcontrol] <;> simp [hquote, hbackslash]

theorem readString_plain {done : List Char} (hquote : c ≠ '"') (hbackslash : c ≠ '\\')
    (hcontrol : ¬c < ' ') : readString done (c :: text) = readString (c :: done) text := by
  rw [readString, if_neg hcontrol] <;> simp [hquote, hbackslash]

theorem ne_backslash (hescape : ∀ d others, c = '\\' → text = d :: others → False)
    (hend : c = '\\' → text = [] → False) : c ≠ '\\' := by
  rintro rfl
  cases text with
  | nil => exact hend rfl rfl
  | cons d others => exact hescape d others rfl rfl

theorem ne_u_of_shortEscape {d : Char} (h : shortEscape? c = some d) : c ≠ 'u' := by
  rintro rfl
  cases h

theorem stringText_of_skipString (h : skipString text = .ok rest) :
    ∃ parts, StringText text parts rest := by
  fun_induction skipString text with
  | case1 | case4 | case5 | case7 | case8 | case9 => cases h
  | case2 =>
    cases h
    exact ⟨[], .close⟩
  | case3 a b c d text hdigits ih =>
    obtain ⟨code, hdigits⟩ := Option.isSome_iff_exists.1 hdigits
    obtain ⟨parts, hparts⟩ := ih h
    exact ⟨_, .unit hdigits hparts⟩
  | case6 c text _ hescape ih =>
    obtain ⟨d, hescape⟩ := Option.isSome_iff_exists.1 hescape
    obtain ⟨parts, hparts⟩ := ih h
    exact ⟨_, .short hescape hparts⟩
  | case10 c text hquote _ hescape hend hcontrol ih =>
    obtain ⟨parts, hparts⟩ := ih h
    exact ⟨_, .plain hquote (ne_backslash hescape hend) hcontrol hparts⟩

theorem skipString_of_stringText {parts : List StringPart} (h : StringText text parts rest) :
    skipString text = .ok rest := by
  induction h with
  | close => rfl
  | plain hquote hbackslash hcontrol _ ih => rw [skipString_plain hquote hbackslash hcontrol, ih]
  | short hescape _ ih =>
    rw [skipString, if_pos (by simp [hescape]), ih]
    exact ne_u_of_shortEscape hescape
  | unit hdigits _ ih => simp [skipString, hdigits, ih]

theorem skipString_eq_ok : skipString text = .ok rest ↔ ∃ parts, StringText text parts rest :=
  ⟨stringText_of_skipString, fun ⟨_, h⟩ => skipString_of_stringText h⟩

theorem readString_of_stringText {done chars : List Char} {parts : List StringPart}
    (h : StringText text parts rest) (hchars : charsOf? parts = some chars) :
    readString done text = .ok (String.ofList (done.reverse ++ chars), rest) := by
  fun_induction charsOf? parts generalizing text done chars with
  | case1 =>
    cases h
    cases hchars
    simp [readString]
  | case2 c parts ih =>
    obtain ⟨others, hothers, rfl⟩ := Option.map_eq_some_iff.1 hchars
    cases h with
    | plain hquote hbackslash hcontrol h =>
      simp [readString_plain hquote hbackslash hcontrol, ih h hothers]
    | short hescape h =>
      rw [readString, hescape]
      · simp [ih h hothers]
      · exact ne_u_of_shortEscape hescape
  | case3 | case5 | case6 => cases hchars
  | case4 code hcode hleading trailing parts htrailing ih =>
    obtain ⟨others, hothers, rfl⟩ := Option.map_eq_some_iff.1 hchars
    cases h with
    | unit hdigits h =>
      cases h with
      | unit hdigits' h =>
        simp [readString, hdigits, hcode, hleading, hdigits', htrailing, ih h hothers]
  | case7 code parts hcode hleading ih =>
    obtain ⟨others, hothers, rfl⟩ := Option.map_eq_some_iff.1 hchars
    cases h with
    | unit hdigits h => simp [readString, hdigits, hcode, hleading, ih h hothers]

theorem charsOf?_unit {code : Nat} {parts : List StringPart}
    (hcode : isTrailingSurrogate code = false) (hleading : isLeadingSurrogate code = false) :
    charsOf? (.unit code :: parts) = (charsOf? parts).map (Char.ofNat code :: ·) := by
  rw [charsOf?.eq_def]
  simp [hcode, hleading]

theorem charsOf?_surrogates {code trailing : Nat} {parts : List StringPart}
    (hcode : isTrailingSurrogate code = false) (hleading : isLeadingSurrogate code = true)
    (htrailing : isTrailingSurrogate trailing = true) :
    charsOf? (.unit code :: .unit trailing :: parts) =
      (charsOf? parts).map (ofSurrogates code trailing :: ·) := by
  rw [charsOf?.eq_def]
  simp [hcode, hleading, htrailing]

theorem stringText_of_readString {done : List Char} {string : String}
    (h : readString done text = .ok (string, rest)) :
    ∃ parts chars, StringText text parts rest ∧ charsOf? parts = some chars ∧
      string = String.ofList (done.reverse ++ chars) := by
  fun_induction readString done text with
  | case1 | case3 | case4 | case6 | case8 | case9 | case10 | case11 | case12 | case13 | case14
  | case16 | case17 | case18 => cases h
  | case2 =>
    cases h
    exact ⟨[], [], .close, rfl, by simp⟩
  | case5 done a b c d text code hdigits hcode hleading ih =>
    obtain ⟨parts, chars, hparts, hchars, rfl⟩ := ih h
    refine ⟨_, Char.ofNat code :: chars, .unit hdigits hparts, ?_, by simp⟩
    rw [charsOf?_unit (by simpa using hcode) (by simpa using hleading), hchars, Option.map_some]
  | case7 done a b c d leading hdigits hcode hleading a' b' c' d' text trailing hdigits' htrailing
      ih =>
    obtain ⟨parts, chars, hparts, hchars, rfl⟩ := ih h
    refine ⟨_, ofSurrogates leading trailing :: chars, .unit hdigits (.unit hdigits' hparts), ?_,
      by simp⟩
    rw [charsOf?_surrogates (by simpa using hcode) (by simpa using hleading) htrailing, hchars,
      Option.map_some]
  | case15 done c text _ d hescape ih =>
    obtain ⟨parts, chars, hparts, hchars, rfl⟩ := ih h
    exact ⟨_, d :: chars, .short hescape hparts, by simp [charsOf?, hchars], by simp⟩
  | case19 done c text hquote _ hescape hend hcontrol ih =>
    obtain ⟨parts, chars, hparts, hchars, rfl⟩ := ih h
    exact ⟨_, c :: chars, .plain hquote (ne_backslash hescape hend) hcontrol hparts,
      by simp [charsOf?, hchars], by simp⟩

theorem readString_eq_ok {string : String} :
    readString [] text = .ok (string, rest) ↔
      ∃ parts, StringText text parts rest ∧ textOf? parts = some string := by
  constructor
  · intro h
    obtain ⟨parts, chars, hparts, hchars, rfl⟩ := stringText_of_readString h
    exact ⟨parts, hparts, by simp [textOf?, hchars]⟩
  · rintro ⟨parts, hparts, htext⟩
    obtain ⟨chars, hchars, rfl⟩ := Option.map_eq_some_iff.1 htext
    simp [readString_of_stringText hparts hchars]

-- ---------------------------------------------------------------------------
-- Numbers
-- ---------------------------------------------------------------------------

theorem spanDigits_of_digitsText {digits : List Char} (h : DigitsText text digits rest) :
    spanDigits text = (digits, rest) := by
  obtain ⟨rfl, -, hdigits, hstops⟩ := h
  rw [spanDigits, List.takeWhile_append_of_pos hdigits, List.dropWhile_append_of_pos hdigits]
  cases rest with
  | nil => simp
  | cons d rest => simp [hstops d rfl]

theorem digitsText_spanDigits (hc : c.isDigit = true) :
    DigitsText (c :: text) (spanDigits (c :: text)).1 (spanDigits (c :: text)).2 where
  split := List.takeWhile_append_dropWhile.symm
  nonempty := by simp [spanDigits, hc]
  isDigit _ hd := List.mem_takeWhile_imp hd
  stops d hd := by
    have h := List.head?_dropWhile_not (·.isDigit) (c :: text)
    rwa [show (List.dropWhile (·.isDigit) (c :: text)).head? = some d from hd] at h

theorem digitsText_iff {digits : List Char} :
    DigitsText text digits rest ↔
      (∃ c ∈ text.head?, c.isDigit = true) ∧ spanDigits text = (digits, rest) := by
  constructor
  · intro h
    refine ⟨?_, spanDigits_of_digitsText h⟩
    obtain ⟨rfl, hne, hdigits, -⟩ := h
    obtain ⟨c, digits, rfl⟩ := List.exists_cons_of_ne_nil hne
    exact ⟨c, rfl, hdigits c List.mem_cons_self⟩
  · rintro ⟨⟨c, hhead, hc⟩, hspan⟩
    obtain ⟨others, rfl⟩ := List.head?_eq_some_iff.1 hhead
    have hdigits : DigitsText (c :: others) _ _ := digitsText_spanDigits hc
    rwa [hspan] at hdigits

theorem scanDigits_eq_ok {atEnd : Error} {digits : List Char} :
    scanDigits atEnd text = .ok (digits, rest) ↔ DigitsText text digits rest := by
  rw [digitsText_iff]
  cases text with
  | nil => simp [scanDigits]
  | cons c others => by_cases hc : c.isDigit <;> simp [scanDigits, hc]

theorem scanWhole_eq_ok {atEnd : Error} {digits : List Char} :
    scanWhole atEnd text = .ok (digits, rest) ↔ WholeText text digits rest := by
  constructor
  · intro h
    unfold scanWhole at h
    split at h
    · cases h
    · split at h
      · split at h
        · cases h
        · rename_i d others hd
          cases h
          exact ⟨⟨rfl, by simp, by simp, by simpa using hd⟩, fun _ => rfl⟩
      · cases h
        exact ⟨⟨rfl, by simp, by simp, by simp⟩, fun _ => rfl⟩
    · rename_i c others hzero
      split at h
      · rename_i hc
        have hdigits : DigitsText (c :: others) _ _ := digitsText_spanDigits hc
        cases h
        refine ⟨hdigits, fun hhead => ?_⟩
        have hhead : c = '0' := by simpa [hc] using hhead
        exact absurd hhead hzero
      · cases h
  · rintro ⟨hdigits, hzero⟩
    obtain ⟨⟨c, hhead, hc⟩, hspan⟩ := digitsText_iff.1 hdigits
    obtain ⟨others, rfl⟩ := List.head?_eq_some_iff.1 hhead
    by_cases hc0 : c = '0'
    · subst hc0
      obtain ⟨hsplit, hne, -, hstops⟩ := hdigits
      obtain ⟨d, digits, rfl⟩ := List.exists_cons_of_ne_nil hne
      obtain ⟨rfl, -⟩ := List.cons.inj hsplit
      cases hzero rfl
      cases hsplit
      cases rest with
      | nil => rfl
      | cons d rest => simp [scanWhole, hstops d rfl]
    · simp [scanWhole, hc, hspan]

theorem scanFraction_eq_ok {atEnd : Error} {fraction? : Option (List Char)} :
    scanFraction atEnd text = .ok (fraction?, rest) ↔ FractionText text fraction? rest := by
  constructor
  · intro h
    unfold scanFraction at h
    split at h
    · obtain ⟨⟨digits, rest'⟩, hdigits, h⟩ := bind_eq_ok.1 h
      cases pure_eq_ok.1 h
      exact .some (scanDigits_eq_ok.1 hdigits)
    · rename_i hpoint
      cases h
      refine .none fun hhead => ?_
      obtain ⟨others, rfl⟩ := List.head?_eq_some_iff.1 hhead
      exact hpoint others rfl
  · intro h
    cases h with
    | none hpoint =>
      unfold scanFraction
      split
      · exact absurd rfl hpoint
      · rfl
    | some hdigits =>
      rw [scanFraction, scanDigits_eq_ok.2 hdigits]
      rfl

theorem scanExponent_eq_ok {atEnd : Error} {exponent? : Option (Bool × List Char)} :
    scanExponent atEnd text = .ok (exponent?, rest) ↔ ExponentText text exponent? rest := by
  constructor
  · intro h
    unfold scanExponent at h
    split at h
    · rename_i mark others
      split at h
      · rename_i hmark
        obtain ⟨⟨digits, rest'⟩, hdigits, h⟩ := bind_eq_ok.1 h
        cases pure_eq_ok.1 h
        have hdigits := scanDigits_eq_ok.1 hdigits
        split at hdigits
        · exact .plus hmark hdigits
        · exact .minus hmark hdigits
        · exact .unsigned hmark hdigits
      · rename_i hmark
        cases h
        simp only [not_or] at hmark
        exact .none (by simp [hmark.1]) (by simp [hmark.2])
    · cases h
      exact .none (by simp) (by simp)
  · intro h
    cases h with
    | none hsmall hcapital =>
      cases text <;> simp_all [scanExponent]
    | unsigned hmark hdigits =>
      obtain ⟨⟨c, hhead, hc⟩, -⟩ := digitsText_iff.1 hdigits
      obtain ⟨others, rfl⟩ := List.head?_eq_some_iff.1 hhead
      have hplus : c ≠ '+' := by rintro rfl; cases hc
      have hminus : c ≠ '-' := by rintro rfl; cases hc
      rw [scanExponent, if_pos hmark, scanDigits_eq_ok.2 hdigits]
      · rfl
      · simp [hplus]
      · simp [hminus]
    | plus hmark hdigits =>
      rw [scanExponent, if_pos hmark, scanDigits_eq_ok.2 hdigits]
      rfl
    | minus hmark hdigits =>
      rw [scanExponent, if_pos hmark, scanDigits_eq_ok.2 hdigits]
      rfl

theorem signText_split :
    SignText text (match text with | '-' :: rest => (true, rest) | _ => (false, text)).1
      (match text with | '-' :: rest => (true, rest) | _ => (false, text)).2 := by
  split
  · simp [SignText]
  · rename_i hsign
    have hhead : text.head? ≠ some '-' := fun hhead =>
      (List.head?_eq_some_iff.1 hhead).elim hsign
    simp [SignText, hhead]

theorem SignText.unique {negative negative' : Bool} {rest' : List Char}
    (h : SignText text negative rest) (h' : SignText text negative' rest') :
    negative = negative' ∧ rest = rest' := by
  cases negative <;> cases negative' <;> simp_all [SignText]

theorem scanNumber_eq_ok {atEnd : Error} {spelled : NumberText} :
    scanNumber atEnd text = .ok (spelled, rest) ↔ NumberSpelled text spelled rest := by
  constructor
  · intro h
    obtain ⟨⟨whole, text₂⟩, hwhole, h⟩ := bind_eq_ok.1 h
    obtain ⟨⟨fraction?, text₃⟩, hfraction, h⟩ := bind_eq_ok.1 h
    obtain ⟨⟨exponent?, text₄⟩, hexponent, h⟩ := bind_eq_ok.1 h
    cases pure_eq_ok.1 h
    exact ⟨_, _, _, signText_split, scanWhole_eq_ok.1 hwhole, scanFraction_eq_ok.1 hfraction,
      scanExponent_eq_ok.1 hexponent⟩
  · rintro ⟨text₁, text₂, text₃, hsign, hwhole, hfraction, hexponent⟩
    obtain ⟨negative, whole, fraction?, exponent?⟩ := spelled
    obtain ⟨rfl, rfl⟩ := signText_split.unique hsign
    refine bind_eq_ok.2 ⟨(whole, text₂), scanWhole_eq_ok.2 hwhole, ?_⟩
    refine bind_eq_ok.2 ⟨(fraction?, text₃), scanFraction_eq_ok.2 hfraction, ?_⟩
    exact bind_eq_ok.2 ⟨(exponent?, rest), scanExponent_eq_ok.2 hexponent, rfl⟩

theorem toOption_value {spelled : NumberText} : (spelled.value rest).toOption = spelled.number? := by
  unfold NumberText.number? NumberText.value
  dsimp only
  split
  · split
    · rfl
    · split <;> rfl
  · split
    · split <;> rfl
    · split <;> rfl

theorem value_eq_ok {spelled : NumberText} {number : Number} :
    spelled.value rest = .ok number ↔ spelled.number? = some number := by
  rw [← @toOption_value rest, toOption_eq_some]

theorem readNumber_eq_ok {number : Number} :
    readNumber text = .ok (number, rest) ↔
      ∃ spelled, NumberSpelled text spelled rest ∧ spelled.number? = some number := by
  simp only [readNumber, bind_eq_ok, pure_eq_ok, Prod.exists, scanNumber_eq_ok, Prod.mk.injEq]
  constructor
  · rintro ⟨spelled, text', hspelled, number, hvalue, rfl, rfl⟩
    exact ⟨spelled, hspelled, value_eq_ok.1 hvalue⟩
  · rintro ⟨spelled, hspelled, hvalue⟩
    exact ⟨spelled, rest, hspelled, number, value_eq_ok.2 hvalue, rfl, rfl⟩

-- ---------------------------------------------------------------------------
-- Scalars
-- ---------------------------------------------------------------------------

theorem NumberSpelled.head {spelled : NumberText} (h : NumberSpelled text spelled rest) :
    ∃ c others, text = c :: others ∧ (c = '-' ∨ c.isDigit = true) := by
  obtain ⟨text₁, text₂, text₃, hsign, hwhole, -⟩ := h
  cases hnegative : spelled.negative with
  | true =>
    rw [hnegative] at hsign
    exact ⟨'-', text₁, hsign, .inl rfl⟩
  | false =>
    rw [hnegative] at hsign
    obtain ⟨-, rfl⟩ := hsign
    obtain ⟨⟨c, hhead, hc⟩, -⟩ := digitsText_iff.1 hwhole.toDigitsText
    obtain ⟨others, rfl⟩ := List.head?_eq_some_iff.1 hhead
    exact ⟨c, others, rfl, .inr hc⟩

def StartsScalar (c : Char) : Prop :=
  c ∈ ['n', 't', 'f', '"', '-'] ∨ c.isDigit = true

instance : DecidablePred StartsScalar := fun _ => inferInstanceAs (Decidable (_ ∨ _))

theorem StartsScalar.ne {d : Char} (h : StartsScalar c) (hd : ¬StartsScalar d) : c ≠ d :=
  fun he => hd (he ▸ h)

theorem StartsScalar.isBlank_eq_false (h : StartsScalar c) : isBlank c = false := by
  simp [isBlank, h.ne (d := ' ') (by decide), h.ne (d := '\n') (by decide),
    h.ne (d := '\t') (by decide), h.ne (d := '\r') (by decide)]

theorem ScalarText.head {tree : Tree} (h : ScalarText text tree rest) :
    ∃ c others, text = c :: others ∧ StartsScalar c := by
  cases h with
  | null | isTrue | isFalse | string _ => exact ⟨_, _, rfl, by decide⟩
  | number hnumber =>
    obtain ⟨c, others, rfl, hc⟩ := hnumber.head
    exact ⟨c, others, rfl, hc.imp_left fun hc => by simp [hc]⟩

theorem skipScalar_number (hc : c = '-' ∨ c.isDigit = true) :
    skipScalar (c :: text) = (scanNumber .invalidNumber (c :: text)).map Prod.snd := by
  rw [skipScalar, if_pos hc]
  all_goals
    rintro rfl
    cases hc.resolve_left (by decide)

theorem readScalar_number (hc : c = '-' ∨ c.isDigit = true) :
    readScalar (c :: text) =
      (readNumber (c :: text) >>= fun (number, rest) => pure (.number number, rest)) := by
  rw [readScalar, if_pos hc]
  all_goals
    rintro rfl
    cases hc.resolve_left (by decide)

theorem skipScalar_eq_ok : skipScalar text = .ok rest ↔ ∃ tree, ScalarText text tree rest := by
  constructor
  · intro h
    unfold skipScalar at h
    split at h
    · cases h
    · cases readWord_eq_ok.1 h
      exact ⟨_, .null⟩
    · cases readWord_eq_ok.1 h
      exact ⟨_, .isTrue⟩
    · cases readWord_eq_ok.1 h
      exact ⟨_, .isFalse⟩
    · obtain ⟨parts, hparts⟩ := skipString_eq_ok.1 h
      exact ⟨_, .string hparts⟩
    · split at h
      · obtain ⟨⟨spelled, text'⟩, hspelled, h⟩ := map_eq_ok.1 h
        cases h
        exact ⟨_, .number (scanNumber_eq_ok.1 hspelled)⟩
      · cases h
  · rintro ⟨tree, h⟩
    cases h with
    | null | isTrue | isFalse => rfl
    | string hparts => exact skipString_eq_ok.2 ⟨_, hparts⟩
    | number hnumber =>
      obtain ⟨c, others, rfl, hc⟩ := hnumber.head
      rw [skipScalar_number hc, scanNumber_eq_ok.2 hnumber]
      rfl

theorem readScalar_eq_ok (room : Nat) {value : Value} :
    readScalar text = .ok (value, rest) ↔
      ∃ tree, ScalarText text tree rest ∧ tree.value? room = some value := by
  constructor
  · intro h
    unfold readScalar at h
    split at h
    · cases h
    · obtain ⟨rest', hword, h⟩ := bind_eq_ok.1 h
      cases readWord_eq_ok.1 hword
      cases h
      exact ⟨_, .null, by simp [Tree.value?]⟩
    · obtain ⟨rest', hword, h⟩ := bind_eq_ok.1 h
      cases readWord_eq_ok.1 hword
      cases h
      exact ⟨_, .isTrue, by simp [Tree.value?]⟩
    · obtain ⟨rest', hword, h⟩ := bind_eq_ok.1 h
      cases readWord_eq_ok.1 hword
      cases h
      exact ⟨_, .isFalse, by simp [Tree.value?]⟩
    · obtain ⟨⟨string, rest'⟩, hstring, h⟩ := bind_eq_ok.1 h
      cases h
      obtain ⟨parts, hparts, htext⟩ := readString_eq_ok.1 hstring
      exact ⟨_, .string hparts, by simp [Tree.value?, htext]⟩
    · split at h
      · obtain ⟨⟨number, rest'⟩, hnumber, h⟩ := bind_eq_ok.1 h
        cases h
        obtain ⟨spelled, hspelled, hvalue⟩ := readNumber_eq_ok.1 hnumber
        exact ⟨_, .number hspelled, by simp [Tree.value?, hvalue]⟩
      · cases h
  · rintro ⟨tree, h, hvalue⟩
    cases h with
    | null | isTrue | isFalse =>
      simp only [Tree.value?, Option.some.injEq] at hvalue
      subst hvalue
      rfl
    | string hparts =>
      simp only [Tree.value?, Option.map_eq_some_iff] at hvalue
      obtain ⟨string, htext, rfl⟩ := hvalue
      exact bind_eq_ok.2 ⟨_, readString_eq_ok.2 ⟨_, hparts, htext⟩, rfl⟩
    | number hnumber =>
      simp only [Tree.value?, Option.map_eq_some_iff] at hvalue
      obtain ⟨number, hnumber', rfl⟩ := hvalue
      obtain ⟨c, others, rfl, hc⟩ := hnumber.head
      rw [readScalar_number hc]
      exact bind_eq_ok.2 ⟨_, readNumber_eq_ok.2 ⟨_, hnumber, hnumber'⟩, rfl⟩

-- ---------------------------------------------------------------------------
-- Items and members
-- ---------------------------------------------------------------------------

theorem separated_false_iff : Separated false text rest ↔ skipBlanks text = ',' :: rest := by
  simp [Separated, afterBlanks_cons_iff (c := ',') (by decide)]

theorem nextItem_false {isFirst : Bool} {text' : List Char} :
    nextItem isFirst text = .ok (false, text') ↔
      ∃ rest, AfterBlanks text (']' :: rest) ∧ text' = ']' :: rest := by
  simp only [afterBlanks_cons_iff (c := ']') (by decide)]
  constructor
  · intro h
    unfold nextItem at h
    split at h
    · cases h
    · rename_i rest hskip
      cases h
      exact ⟨rest, hskip, rfl⟩
    · split at h
      · cases h
      · split at h
        · split at h <;> cases h
        · cases h
  · rintro ⟨rest, hskip, rfl⟩
    simp [nextItem, hskip]

theorem nextItem_true {isFirst : Bool} {text' : List Char} :
    nextItem isFirst text = .ok (true, text') ↔
      ∃ text₁, Separated isFirst text text₁ ∧ skipBlanks text₁ = text' ∧
        ∃ c others, text' = c :: others ∧ c ≠ ']' := by
  constructor
  · intro h
    unfold nextItem at h
    split at h
    · cases h
    · cases h
    · rename_i c others hclose hskip
      split at h
      · rename_i hfirst
        subst hfirst
        cases h
        exact ⟨text, rfl, hskip, c, others, rfl, hclose⟩
      · rename_i hfirst
        rw [Bool.not_eq_true] at hfirst
        subst hfirst
        split at h
        · rename_i hcomma
          subst hcomma
          split at h
          · cases h
          · cases h
          · rename_i rest hnil hclose'
            cases h
            refine ⟨others, separated_false_iff.2 hskip, rfl, ?_⟩
            cases hothers : skipBlanks others with
            | nil => exact absurd hothers hnil
            | cons d others' =>
              exact ⟨d, others', rfl, fun hd => hclose' others' (hd ▸ hothers)⟩
        · cases h
  · rintro ⟨text₁, hcomma, hskip, c, others, rfl, hclose⟩
    cases isFirst with
    | true =>
      cases hcomma
      simp [nextItem, hskip]
    | false => simp [nextItem, separated_false_iff.1 hcomma, hskip, hclose]

theorem nextKey_false {isFirst : Bool} {text' : List Char} :
    nextKey isFirst text = .ok (false, text') ↔
      ∃ rest, AfterBlanks text ('\x7d' :: rest) ∧ text' = '\x7d' :: rest := by
  simp only [afterBlanks_cons_iff (c := '\x7d') (by decide)]
  constructor
  · intro h
    unfold nextKey at h
    split at h
    · cases h
    · rename_i rest hskip
      cases h
      exact ⟨rest, hskip, rfl⟩
    · split at h
      · split at h <;> cases h
      · split at h
        · split at h <;> cases h
        · cases h
  · rintro ⟨rest, hskip, rfl⟩
    simp [nextKey, hskip]

theorem nextKey_true {isFirst : Bool} {text' : List Char} :
    nextKey isFirst text = .ok (true, text') ↔
      ∃ text₁, Separated isFirst text text₁ ∧ AfterBlanks text₁ ('"' :: text') := by
  simp only [afterBlanks_cons_iff (c := '"') (by decide)]
  constructor
  · intro h
    unfold nextKey at h
    split at h
    · cases h
    · cases h
    · rename_i c others hclose hskip
      split at h
      · rename_i hfirst
        subst hfirst
        split at h
        · rename_i hquote
          subst hquote
          cases h
          exact ⟨text, rfl, hskip⟩
        · cases h
      · rename_i hfirst
        rw [Bool.not_eq_true] at hfirst
        subst hfirst
        split at h
        · rename_i hcomma
          subst hcomma
          split at h
          · cases h
          · rename_i rest hskip'
            cases h
            exact ⟨others, separated_false_iff.2 hskip, hskip'⟩
          · cases h
          · cases h
        · cases h
  · rintro ⟨text₁, hcomma, hskip⟩
    cases isFirst with
    | true =>
      cases hcomma
      simp [nextKey, hskip]
    | false => simp [nextKey, separated_false_iff.1 hcomma, hskip]

theorem labelText_iff {isFirst : Bool} {key : String} :
    (∃ text₁ text₂, nextKey isFirst text = .ok (true, text₁) ∧
        readString [] text₁ = .ok (key, text₂) ∧ readColon text₂ = .ok rest) ↔
      ∃ parts, LabelText isFirst text parts rest ∧ textOf? parts = some key := by
  simp only [nextKey_true, readString_eq_ok, readColon_eq_ok]
  constructor
  · rintro ⟨text₁, text₂, ⟨text₀, hcomma, hquote⟩, ⟨parts, hparts, htext⟩, hcolon⟩
    exact ⟨parts, ⟨text₀, text₁, text₂, hcomma, hquote, hparts, hcolon⟩, htext⟩
  · rintro ⟨parts, ⟨text₀, text₁, text₂, hcomma, hquote, hparts, hcolon⟩, htext⟩
    exact ⟨text₁, text₂, ⟨text₀, hcomma, hquote⟩, ⟨parts, hparts, htext⟩, hcolon⟩

end ContentTypes.Json
