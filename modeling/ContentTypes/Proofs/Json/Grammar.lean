import ContentTypes.Json.Reader

/-!
# The grammar of JSON

`TreeText` relates a text to the tree that it begins with and to the text behind this tree. A tree is
JSON as it is written: the keys of an object may repeat, a number may have any size and an escape need
not make up a character. `Tree.value?` is the value of a tree that keeps within the limits of the
reader.

As in `TreeText`, the last argument of the relations on texts is what follows.
-/

namespace ContentTypes.Json

inductive StringPart where
  | char (c : Char)
  | unit (code : Nat)
  deriving DecidableEq, Repr

inductive Tree where
  | null
  | boolean (value : Bool)
  | number (number : NumberText)
  | string (parts : List StringPart)
  | array (items : List Tree)
  | object (members : List (List StringPart × Tree))
  deriving Repr

-- ---------------------------------------------------------------------------
-- Texts
-- ---------------------------------------------------------------------------

def AfterBlanks (text rest : List Char) : Prop :=
  ∃ blanks, (∀ c ∈ blanks, isBlank c = true) ∧ text = blanks ++ rest

inductive StringText : List Char → List StringPart → List Char → Prop
  | close {rest : List Char} : StringText ('"' :: rest) [] rest
  | plain {c : Char} {text rest : List Char} {parts : List StringPart} (hquote : c ≠ '"')
    (hbackslash : c ≠ '\\') (hcontrol : ¬c < ' ') (hothers : StringText text parts rest) :
    StringText (c :: text) (.char c :: parts) rest
  | short {c d : Char} {text rest : List Char} {parts : List StringPart}
    (hescape : shortEscape? c = some d) (hothers : StringText text parts rest) :
    StringText ('\\' :: c :: text) (.char d :: parts) rest
  | unit {a b c d : Char} {code : Nat} {text rest : List Char} {parts : List StringPart}
    (hdigits : hexValue4? a b c d = some code) (hothers : StringText text parts rest) :
    StringText ('\\' :: 'u' :: a :: b :: c :: d :: text) (.unit code :: parts) rest

structure DigitsText (text digits rest : List Char) : Prop where
  split : text = digits ++ rest
  nonempty : digits ≠ []
  isDigit : ∀ c ∈ digits, c.isDigit = true
  stops : ∀ c ∈ rest.head?, c.isDigit = false

/-- Digits that do not begin with a zero, unless this is all. -/
structure WholeText (text digits rest : List Char) : Prop extends DigitsText text digits rest where
  zero : digits.head? = some '0' → digits = ['0']

inductive FractionText : List Char → Option (List Char) → List Char → Prop
  | none {text : List Char} (hpoint : text.head? ≠ some '.') : FractionText text none text
  | some {text digits rest : List Char} (hdigits : DigitsText text digits rest) :
    FractionText ('.' :: text) (some digits) rest

inductive ExponentText : List Char → Option (Bool × List Char) → List Char → Prop
  | none {text : List Char} (hsmall : text.head? ≠ some 'e') (hcapital : text.head? ≠ some 'E') :
    ExponentText text none text
  | unsigned {mark : Char} {text digits rest : List Char} (hmark : mark = 'e' ∨ mark = 'E')
    (hdigits : DigitsText text digits rest) :
    ExponentText (mark :: text) (some (false, digits)) rest
  | plus {mark : Char} {text digits rest : List Char} (hmark : mark = 'e' ∨ mark = 'E')
    (hdigits : DigitsText text digits rest) :
    ExponentText (mark :: '+' :: text) (some (false, digits)) rest
  | minus {mark : Char} {text digits rest : List Char} (hmark : mark = 'e' ∨ mark = 'E')
    (hdigits : DigitsText text digits rest) :
    ExponentText (mark :: '-' :: text) (some (true, digits)) rest

def SignText (text : List Char) (negative : Bool) (rest : List Char) : Prop :=
  if negative then text = '-' :: rest else text.head? ≠ some '-' ∧ rest = text

def NumberSpelled (text : List Char) (number : NumberText) (rest : List Char) : Prop :=
  ∃ text₁ text₂ text₃, SignText text number.negative text₁ ∧ WholeText text₁ number.whole text₂ ∧
    FractionText text₂ number.fraction? text₃ ∧ ExponentText text₃ number.exponent? rest

inductive ScalarText : List Char → Tree → List Char → Prop
  | null {rest : List Char} : ScalarText ('n' :: 'u' :: 'l' :: 'l' :: rest) .null rest
  | isTrue {rest : List Char} : ScalarText ('t' :: 'r' :: 'u' :: 'e' :: rest) (.boolean true) rest
  | isFalse {rest : List Char} :
    ScalarText ('f' :: 'a' :: 'l' :: 's' :: 'e' :: rest) (.boolean false) rest
  | string {text rest : List Char} {parts : List StringPart}
    (hparts : StringText text parts rest) : ScalarText ('"' :: text) (.string parts) rest
  | number {text rest : List Char} {number : NumberText}
    (hnumber : NumberSpelled text number rest) : ScalarText text (.number number) rest

/-- A comma stands before all items and members but the first. -/
def Separated (isFirst : Bool) (text rest : List Char) : Prop :=
  if isFirst then rest = text else AfterBlanks text (',' :: rest)

def LabelText (isFirst : Bool) (text : List Char) (key : List StringPart) (rest : List Char) : Prop :=
  ∃ text₁ text₂ text₃, Separated isFirst text text₁ ∧ AfterBlanks text₁ ('"' :: text₂) ∧
    StringText text₂ key text₃ ∧ AfterBlanks text₃ (':' :: rest)

mutual

inductive TreeText : List Char → Tree → List Char → Prop
  | scalar {text text₁ rest : List Char} {tree : Tree} (hblanks : AfterBlanks text text₁)
    (hscalar : ScalarText text₁ tree rest) : TreeText text tree rest
  | array {text text₁ rest : List Char} {items : List Tree} (hopen : AfterBlanks text ('[' :: text₁))
    (hitems : ItemsText true text₁ items rest) : TreeText text (.array items) rest
  | object {text text₁ rest : List Char} {members : List (List StringPart × Tree)}
    (hopen : AfterBlanks text ('{' :: text₁)) (hmembers : MembersText true text₁ members rest) :
    TreeText text (.object members) rest

inductive ItemsText : (isFirst : Bool) → List Char → List Tree → List Char → Prop
  | close {isFirst : Bool} {text rest : List Char} (hclose : AfterBlanks text (']' :: rest)) :
    ItemsText isFirst text [] rest
  | item {isFirst : Bool} {text text₁ text₂ rest : List Char} {tree : Tree} {trees : List Tree}
    (hcomma : Separated isFirst text text₁) (hitem : TreeText text₁ tree text₂)
    (hothers : ItemsText false text₂ trees rest) : ItemsText isFirst text (tree :: trees) rest

inductive MembersText : (isFirst : Bool) → List Char → List (List StringPart × Tree) → List Char → Prop
  | close {isFirst : Bool} {text rest : List Char} (hclose : AfterBlanks text ('}' :: rest)) :
    MembersText isFirst text [] rest
  | member {isFirst : Bool} {text text₁ text₂ rest : List Char} {key : List StringPart} {tree : Tree}
    {members : List (List StringPart × Tree)} (hlabel : LabelText isFirst text key text₁)
    (hitem : TreeText text₁ tree text₂) (hothers : MembersText false text₂ members rest) :
    MembersText isFirst text ((key, tree) :: members) rest

end

/-- Whether a text is JSON, with nothing but blanks behind it. -/
def IsJson (text : List Char) (tree : Tree) : Prop :=
  ∃ rest, TreeText text tree rest ∧ AfterBlanks rest []

-- ---------------------------------------------------------------------------
-- Plain strings
-- ---------------------------------------------------------------------------

theorem AfterBlanks.refl {text : List Char} : AfterBlanks text text :=
  ⟨[], by simp, rfl⟩

def IsPlain (c : Char) : Prop :=
  c ≠ '"' ∧ c ≠ '\\' ∧ ¬c < ' '

instance : DecidablePred IsPlain := fun _ => inferInstanceAs (Decidable (_ ∧ _))

instance (chars : List Char) : Decidable (∀ c ∈ chars, IsPlain c) :=
  List.decidableBAll _ chars

def plainParts (text : String) : List StringPart :=
  text.toList.map .char

theorem StringText.of_plain (chars : List Char) {rest : List Char} (h : ∀ c ∈ chars, IsPlain c) :
    StringText (chars ++ '"' :: rest) (chars.map .char) rest := by
  induction chars with
  | nil => exact .close
  | cons c chars ih =>
    obtain ⟨⟨hquote, hbackslash, hcontrol⟩, hchars⟩ := List.forall_mem_cons.1 h
    exact .plain hquote hbackslash hcontrol (ih hchars)

theorem LabelText.of_plain {isFirst : Bool} (key : String) {rest : List Char}
    (h : ∀ c ∈ key.toList, IsPlain c) :
    LabelText isFirst ((if isFirst then [] else [',']) ++ '"' :: (key.toList ++ '"' :: ':' :: rest))
      (plainParts key) rest := by
  refine ⟨'"' :: (key.toList ++ '"' :: ':' :: rest), _, _, ?_, .refl, .of_plain _ h, .refl⟩
  cases isFirst with
  | true => rfl
  | false => exact AfterBlanks.refl

-- ---------------------------------------------------------------------------
-- Values
-- ---------------------------------------------------------------------------

/-- The characters that the parts of a string make up. A leading surrogate makes up one with the
trailing one that has to follow; no other unit is a trailing surrogate. -/
def charsOf? : List StringPart → Option (List Char)
  | [] => some []
  | .char c :: parts => (charsOf? parts).map (c :: ·)
  | .unit code :: parts =>
    if isTrailingSurrogate code then none
    else if isLeadingSurrogate code then
      match parts with
      | .unit trailing :: parts =>
        if isTrailingSurrogate trailing then (charsOf? parts).map (ofSurrogates code trailing :: ·)
        else none
      | _ => none
    else (charsOf? parts).map (Char.ofNat code :: ·)

def textOf? (parts : List StringPart) : Option String :=
  (charsOf? parts).map String.ofList

def NumberText.number? (spelled : NumberText) : Option Number :=
  (spelled.value []).toOption

def decode? {α β : Type} (item : α → Option β) (members : List (List StringPart × α)) :
    Option (List (String × β)) :=
  members.mapM fun ((key, value) : List StringPart × α) => do pure (← textOf? key, ← item value)

namespace Tree

/-- The value of a tree in which at most `room` arrays and objects are nested. -/
def value? : (room : Nat) → Tree → Option Value
  | _, .null => some .null
  | _, .boolean value => some (.boolean value)
  | _, .number spelled => spelled.number?.map .number
  | _, .string parts => (textOf? parts).map .string
  | 0, .array _ => none
  | room + 1, .array items => (items.mapM (value? room)).map .array
  | 0, .object _ => none
  | room + 1, .object members =>
    (decode? (value? room) members).map fun members => .object (Assoc.ofList members)

end Tree

end ContentTypes.Json
