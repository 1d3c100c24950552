import ChangeFeed.Proofs.Json.Numerals
import ChangeFeed.Proofs.Json.Strings

/-!
# The grammar of JSON

The texts that are JSON by its standard, which has no words for numbers that are
not finite. What is written of a value after texts have been put in the place of such
numbers is a text of this grammar. It is printable ASCII, and so on one line.

**Results.**

* `exists_token`, `IsToken.isNumber`: the tokens are the numbers of the grammar.
* `isValue_write_strict`: strict values are written in the grammar.
* `isPrintable_write`: written values are printable ASCII.
-/

namespace ChangeFeed
namespace Json

open Number (ExponentSpelling Sign Spelling isDigit)

namespace Grammar

/-- At least one digit. -/
def IsDigits (cs : List Char) : Prop :=
  cs ≠ [] ∧ ∀ c ∈ cs, isDigit c = true

/-- A zero, or digits that start with another one. -/
def IsInt (cs : List Char) : Prop :=
  IsDigits cs ∧ (cs = ['0'] ∨ cs.head? ≠ some '0')

/-- A point and digits, if any. -/
def IsFraction (cs : List Char) : Prop :=
  cs = [] ∨ ∃ digits, IsDigits digits ∧ cs = '.' :: digits

/-- An exponent, if any. -/
def IsExponent (cs : List Char) : Prop :=
  cs = [] ∨
    ∃ mark sign digits,
      mark ∈ ['e', 'E'] ∧
      sign ∈ [[], ['+'], ['-']] ∧
      IsDigits digits ∧
      cs = mark :: (sign ++ digits)

/-- A number. -/
def IsNumber (cs : List Char) : Prop :=
  ∃ minus int fraction exponent,
    minus ∈ [[], ['-']] ∧
    IsInt int ∧
    IsFraction fraction ∧
    IsExponent exponent ∧
    cs = minus ++ (int ++ (fraction ++ exponent))

/-- What stands between the quotes of a string. -/
inductive IsChars : List Char → Prop
  | nil :
      IsChars []
  | unescaped
      {c : Char}
      {cs : List Char}
      (hcontrol : 0x20 ≤ c.toNat)
      (hquote : c ≠ Text.doubleQuote)
      (hbackslash : c ≠ Text.backslash)
      (hrest : IsChars cs) :
      IsChars (c :: cs)
  | escaped
      {e : Char}
      {cs : List Char}
      (h : e ∈ [Text.doubleQuote, Text.backslash, '/', 'b', 'f', 'n', 'r', 't'])
      (hrest : IsChars cs) :
      IsChars (Text.backslash :: e :: cs)
  | unit
      {h₃ h₂ h₁ h₀ : Char}
      {cs : List Char}
      (h : ∀ c ∈ [h₃, h₂, h₁, h₀], Number.isHexDigit c = true)
      (hrest : IsChars cs) :
      IsChars (Text.backslash :: 'u' :: h₃ :: h₂ :: h₁ :: h₀ :: cs)

/-- A string. -/
def IsString (cs : List Char) : Prop :=
  ∃ body, IsChars body ∧ cs = Text.doubleQuote :: (body ++ [Text.doubleQuote])

/-- Characters that may stand between tokens. -/
def IsBlank (cs : List Char) : Prop :=
  ∀ c ∈ cs, isSpace c = true

mutual

/-- A value. -/
inductive IsValue : List Char → Prop
  | null :
      IsValue ['n', 'u', 'l', 'l']
  | true :
      IsValue ['t', 'r', 'u', 'e']
  | false :
      IsValue ['f', 'a', 'l', 's', 'e']
  | number
      {cs : List Char}
      (h : IsNumber cs) :
      IsValue cs
  | string
      {cs : List Char}
      (h : IsString cs) :
      IsValue cs
  | emptyArray
      {blank : List Char}
      (h : IsBlank blank) :
      IsValue ('[' :: (blank ++ [']']))
  | array
      {cs : List Char}
      (h : IsItems cs) :
      IsValue ('[' :: (cs ++ [']']))
  | emptyObject
      {blank : List Char}
      (h : IsBlank blank) :
      IsValue ('\x7b' :: (blank ++ ['\x7d']))
  | object
      {cs : List Char}
      (h : IsMembers cs) :
      IsValue ('\x7b' :: (cs ++ ['\x7d']))

/-- A value between blanks. -/
inductive IsElement : List Char → Prop
  | mk
      {before cs after : List Char}
      (hbefore : IsBlank before)
      (h : IsValue cs)
      (hafter : IsBlank after) :
      IsElement (before ++ (cs ++ after))

/-- Values separated by commas. -/
inductive IsItems : List Char → Prop
  | one
      {cs : List Char}
      (h : IsElement cs) :
      IsItems cs
  | more
      {cs rest : List Char}
      (h : IsElement cs)
      (hrest : IsItems rest) :
      IsItems (cs ++ ',' :: rest)

/-- A name and a value. -/
inductive IsMember : List Char → Prop
  | mk
      {before name after cs : List Char}
      (hbefore : IsBlank before)
      (hname : IsString name)
      (hafter : IsBlank after)
      (h : IsElement cs) :
      IsMember (before ++ (name ++ (after ++ ':' :: cs)))

/-- Members separated by commas. -/
inductive IsMembers : List Char → Prop
  | one
      {cs : List Char}
      (h : IsMember cs) :
      IsMembers cs
  | more
      {cs rest : List Char}
      (h : IsMember cs)
      (hrest : IsMembers rest) :
      IsMembers (cs ++ ',' :: rest)

end

theorem isBlank_nil :
    IsBlank [] := by
  intro c hc
  contradiction

theorem isBlank_space :
    IsBlank [' '] := by
  intro c hc
  rw [List.mem_singleton.1 hc]
  rfl

/-- A value may have a blank before it. -/
theorem IsValue.isElement_append
    {blank cs : List Char}
    (h : IsValue cs)
    (hblank : IsBlank blank) :
    IsElement (blank ++ cs) := by
  simpa using IsElement.mk hblank h isBlank_nil

section Strings

variable {rest : List Char}

theorem mem_escapes_of_simpleEscape?
    {c e : Char}
    (h : Reader.simpleEscape? e = some c) :
    e ∈ [Text.doubleQuote, Text.backslash, '/', 'b', 'f', 'n', 'r', 't'] := by
  by_contra hmem
  simp only [List.mem_cons, List.not_mem_nil, or_false, not_or] at hmem
  simp [Reader.simpleEscape?, hmem] at h

theorem isChars_unitEscape
    (unit : UInt16)
    (hrest : IsChars rest) :
    IsChars (Writer.unitEscape unit ++ rest) := by
  obtain ⟨h₃, h₂, h₁, h₀, hhex, -, hdigits⟩ := Writer.exists_hex_four unit
  rw [Writer.unitEscape, hhex]
  refine .unit (fun c hc => ?_) hrest
  obtain ⟨value, hvalue, rfl⟩ := hdigits c hc
  exact Number.isHexDigit_digitChar value hvalue

theorem isChars_unitEscapes
    (units : List UInt16)
    (hrest : IsChars rest) :
    IsChars (units.flatMap Writer.unitEscape ++ rest) := by
  induction units with
  | nil => exact hrest
  | cons unit units ih =>
      rw [List.flatMap_cons, List.append_assoc]
      exact isChars_unitEscape unit ih

theorem isChars_escapeSymbol
    (symbol : Symbol)
    (hrest : IsChars rest) :
    IsChars (Writer.escapeSymbol symbol ++ rest) := by
  have hescaped := Writer.escaped_escapeSymbol symbol
  generalize Writer.escapeSymbol symbol = written at *
  cases hescaped with
  | letter h => exact .escaped (mem_escapes_of_simpleEscape? h) hrest
  | plain hlow hhigh hquote hbackslash => exact .unescaped hlow hquote hbackslash hrest
  | units => exact isChars_unitEscapes symbol.units hrest

theorem isString_string (s : Text) :
    IsString (Writer.string s) := by
  refine ⟨s.symbols.flatMap Writer.escapeSymbol, ?_, rfl⟩
  induction s.symbols with
  | nil => exact .nil
  | cons symbol symbols ih =>
      rw [List.flatMap_cons]
      exact isChars_escapeSymbol symbol ih

/-- A written name and a value with a space before it are a member. -/
theorem isMember_written
    (name : Text)
    {cs : List Char}
    (h : IsValue cs)
    (blank : List Char)
    (hblank : IsBlank blank) :
    IsMember (blank ++ (Writer.string name ++ ':' :: ' ' :: cs)) := by
  have helement : IsElement (' ' :: cs) := h.isElement_append isBlank_space
  simpa using IsMember.mk hblank (isString_string name) isBlank_nil helement

end Strings

end Grammar

open Grammar

section Tokens

variable {cs : List Char}
variable {s : Spelling}

theorem exists_fraction
    (h : IsFraction cs) :
    ∃ fraction : Option (List Char),
      fraction ≠ some [] ∧
        (∀ c ∈ fraction.getD [], isDigit c = true) ∧
        cs =
          match fraction with
          | none => []
          | some digits => '.' :: digits := by
  rcases h with rfl | ⟨digits, ⟨hne, hdigits⟩, rfl⟩
  · exact ⟨none, by simp, by simp, rfl⟩
  · exact ⟨some digits, by simpa using hne, hdigits, rfl⟩

theorem exists_exponent
    (h : IsExponent cs) :
    ∃ exponent : Option (ExponentSpelling .decimal),
      cs = (exponent.map ExponentSpelling.chars).getD [] := by
  rcases h with rfl | ⟨letter, signChars, digits, hletter, hsign, ⟨hne, hdigits⟩, rfl⟩
  · exact ⟨none, rfl⟩
  · obtain ⟨sign, rfl⟩ : ∃ sign : Sign, sign.chars = signChars := by
      simp only [List.mem_cons, List.not_mem_nil, or_false] at hsign
      rcases hsign with rfl | rfl | rfl
      · exact ⟨.absent, rfl⟩
      · exact ⟨.plus, rfl⟩
      · exact ⟨.minus, rfl⟩
    exact
      ⟨some
        { letter := letter
          sign := sign
          digits := digits
          letter_mem := hletter
          digits_ne_nil := hne
          all_isDigit := List.all_eq_true.2 hdigits },
        rfl⟩

/-- Every number of the grammar is a token. -/
theorem exists_token
    (h : IsNumber cs) :
    ∃ s : Spelling, IsToken s ∧ s.chars = cs := by
  obtain ⟨minus, whole, fractionChars, exponentChars, hminus, hint, hfraction, hexponent, rfl⟩ := h
  obtain ⟨⟨hne, hwhole⟩, hleading⟩ := hint
  obtain ⟨fraction, hpoint, hdigits, rfl⟩ := exists_fraction hfraction
  obtain ⟨exponent, rfl⟩ := exists_exponent hexponent
  obtain ⟨sign, hplus, rfl⟩ : ∃ sign : Sign, sign ≠ .plus ∧ sign.chars = minus := by
    simp only [List.mem_cons, List.not_mem_nil, or_false] at hminus
    rcases hminus with rfl | rfl
    · exact ⟨.absent, by decide, rfl⟩
    · exact ⟨.minus, by decide, rfl⟩
  refine
    ⟨{ form := .decimal
       sign := sign
       opening := []
       whole := whole
       fraction := fraction
       exponent := exponent
       suffix := []
       opening_mem := Number.LiteralForm.nil_mem_openings
       all_isDigit := ?_
       digits_ne_nil := by simp [hne]
       exponent_isSome := by simp
       suffix_mem := Number.nil_mem_suffixes },
      ⟨rfl, hplus, hne, hleading, hpoint, rfl⟩, ?_⟩
  · rw [List.all_append, Bool.and_eq_true]
    exact ⟨List.all_eq_true.2 hwhole, List.all_eq_true.2 hdigits⟩
  · cases fraction <;> cases exponent <;>
      simp [Spelling.chars, Spelling.bodyChars, Spelling.pointChars, Spelling.tailChars]

/-- A token is a number of the grammar. -/
theorem IsToken.isNumber
    (h : IsToken s) :
    IsNumber s.chars := by
  refine
    ⟨s.sign.chars, s.whole, s.pointChars, s.tailChars, ?_,
      ⟨⟨h.whole, h.isDigit_of_mem_whole⟩, h.leading⟩, ?_, ?_, ?_⟩
  · cases hsign : s.sign with
    | absent => exact List.mem_cons_self
    | plus => exact absurd hsign h.sign
    | minus => exact List.mem_cons_of_mem _ List.mem_cons_self
  · cases hfraction : s.fraction with
    | none =>
        left
        rw [Spelling.pointChars, hfraction]
    | some digits =>
        refine Or.inr ⟨digits, ⟨?_, h.isDigit_of_mem_fraction hfraction⟩, ?_⟩
        · rintro rfl
          exact h.fraction hfraction
        · rw [Spelling.pointChars, hfraction]
  · cases hexponent : s.exponent with
    | none =>
        left
        rw [Spelling.tailChars, hexponent, h.suffix]
    | some e =>
        have hletters : s.form.exponentLetters = ['e', 'E'] := by
          rw [h.form]
          rfl
        have hletter := hletters ▸ e.letter_mem
        refine
          Or.inr
            ⟨e.letter, e.sign.chars, e.digits, hletter, ?_, ⟨e.digits_ne_nil, e.isDigit_of_mem⟩, ?_⟩
        · cases e.sign <;> decide
        · rw [Spelling.tailChars, hexponent, h.suffix]
          exact List.append_nil _
  · rw [Spelling.chars, h.bodyChars]

end Tokens

mutual

/-- Strict values are written in the grammar. -/
theorem isValue_write_strict (v : Json) :
    IsValue (write (strict v)) := by
  match v with
  | .null => exact .null
  | .bool true => exact .true
  | .bool false => exact .false
  | .integer n =>
      obtain ⟨d, htoken, -, hchars, -⟩ := exists_token_integer n
      rw [strict, write, ← hchars]
      exact .number htoken.isNumber
      all_goals simp
  | .number .nan => exact .string (isString_string "NaN")
  | .number (.infinite true) => exact .string (isString_string "-Infinity")
  | .number (.infinite false) => exact .string (isString_string "Infinity")
  | .number (.finite negative m q h) =>
      obtain ⟨d, htoken, -, hchars, -⟩ := exists_token_text (x := .finite negative m q h) rfl
      have hnumber := htoken.isNumber
      rw [hchars] at hnumber
      exact .number hnumber
  | .text s => exact .string (isString_string s)
  | .array [] => exact .emptyArray isBlank_nil
  | .array (item :: others) =>
      obtain ⟨body, hbody, hitems⟩ := exists_items_writeItems (item :: others) (by simp)
      rw [strict, write, hbody]
      exact .array (hitems [] isBlank_nil)
  | .object [] => exact .emptyObject isBlank_nil
  | .object (member :: others) =>
      obtain ⟨body, hbody, hmembers⟩ := exists_members_writeMembers (member :: others) (by simp)
      rw [strict, write, hbody]
      exact .object (hmembers [] isBlank_nil)

/-- Items end with a bracket; a blank may stand before them. -/
theorem exists_items_writeItems
    (items : List Json)
    (hne : items ≠ []) :
    ∃ body,
      writeItems (strictItems items) = body ++ [']'] ∧
      ∀ blank, IsBlank blank → IsItems (blank ++ body) := by
  match items with
  | [item] =>
      have hvalue := isValue_write_strict item
      refine ⟨write (strict item), by simp [strictItems, writeItems], fun blank hblank => ?_⟩
      exact .one (hvalue.isElement_append hblank)
  | item :: second :: others =>
      have hvalue := isValue_write_strict item
      obtain ⟨body, hbody, hitems⟩ := exists_items_writeItems (second :: others) (by simp)
      refine ⟨write (strict item) ++ ',' :: ' ' :: body, ?_, fun blank hblank => ?_⟩
      · rw [strictItems] at hbody
        simp [strictItems, writeItems, hbody]
      · have hfirst := hvalue.isElement_append hblank
        simpa using IsItems.more hfirst (hitems [' '] isBlank_space)

/-- Members end with a brace; a blank may stand before them. -/
theorem exists_members_writeMembers
    (members : List (Text × Json))
    (hne : members ≠ []) :
    ∃ body,
      writeMembers (strictMembers members) = body ++ ['\x7d'] ∧
      ∀ blank, IsBlank blank → IsMembers (blank ++ body) := by
  match members with
  | [(name, v)] =>
      have hmember := isMember_written name (isValue_write_strict v)
      refine
        ⟨Writer.string name ++ ':' :: ' ' :: write (strict v),
          by simp [strictMembers, writeMembers], fun blank hblank => .one (hmember blank hblank)⟩
  | (name, v) :: second :: others =>
      have hmember := isMember_written name (isValue_write_strict v)
      obtain ⟨body, hbody, hmembers⟩ := exists_members_writeMembers (second :: others) (by simp)
      refine
        ⟨Writer.string name ++ ':' :: ' ' :: (write (strict v) ++ ',' :: ' ' :: body), ?_,
          fun blank hblank => ?_⟩
      · obtain ⟨other, w⟩ := second
        rw [strictMembers] at hbody
        simp [strictMembers, writeMembers, hbody]
      · simpa using IsMembers.more (hmember blank hblank) (hmembers [' '] isBlank_space)

end

/-- Characters that are printable ASCII. -/
def IsPrintable (cs : List Char) : Prop :=
  ∀ c ∈ cs, 0x20 ≤ c.toNat ∧ c.toNat < 0x7F

instance (cs : List Char) : Decidable (IsPrintable cs) :=
  List.decidableBAll _ cs

section Printable

theorem isPrintable_append_iff
    (cs others : List Char) :
    IsPrintable (cs ++ others) ↔ IsPrintable cs ∧ IsPrintable others :=
  List.forall_mem_append

theorem isPrintable_cons_iff
    (c : Char)
    (cs : List Char) :
    IsPrintable (c :: cs) ↔ (0x20 ≤ c.toNat ∧ c.toNat < 0x7F) ∧ IsPrintable cs :=
  List.forall_mem_cons

theorem isPrintable_nil :
    IsPrintable [] := by
  intro c hc
  contradiction

theorem isPrintable_digits
    {cs : List Char}
    (h : ∀ c ∈ cs, isDigit c = true) :
    IsPrintable cs := by
  intro c hc
  have hdigit := h c hc
  simp only [isDigit, Bool.and_eq_true, decide_eq_true_eq, Char.le_def, UInt32.le_iff_toNat_le]
    at hdigit
  change 48 ≤ c.toNat ∧ c.toNat ≤ 57 at hdigit
  omega

/-- A number is printable, its sign, point and exponent included. -/
theorem isPrintable_of_isNumber
    {cs : List Char}
    (h : IsNumber cs) :
    IsPrintable cs := by
  obtain ⟨minus, int, fraction, exponent, hminus, hint, hfraction, hexponent, rfl⟩ := h
  have hsigns : ∀ sign ∈ [[], ['+'], ['-']], IsPrintable sign := by decide
  have hmarks : IsPrintable ['e', 'E'] := by decide
  have hmember : minus ∈ [[], ['+'], ['-']] := by
    simp only [List.mem_cons, List.not_mem_nil, or_false] at hminus ⊢
    exact hminus.imp_right Or.inr
  simp only [isPrintable_append_iff]
  refine ⟨hsigns minus hmember, isPrintable_digits hint.1.2, ?_, ?_⟩
  · rcases hfraction with rfl | ⟨digits, hdigits, rfl⟩
    · exact isPrintable_nil
    · exact (isPrintable_cons_iff _ _).2 ⟨by decide, isPrintable_digits hdigits.2⟩
  · rcases hexponent with rfl | ⟨mark, sign, digits, hmark, hsign, hdigits, rfl⟩
    · exact isPrintable_nil
    · rw [isPrintable_cons_iff, isPrintable_append_iff]
      exact ⟨hmarks mark hmark, hsigns sign hsign, isPrintable_digits hdigits.2⟩

theorem isPrintable_unitEscape (unit : UInt16) :
    IsPrintable (Writer.unitEscape unit) := by
  obtain ⟨h₃, h₂, h₁, h₀, hhex, -, hdigits⟩ := Writer.exists_hex_four unit
  have hprintable : ∀ value < 16, 0x20 ≤ (Nat.digitChar value).toNat ∧
      (Nat.digitChar value).toNat < 0x7F := by
    decide
  rw [Writer.unitEscape, hhex, isPrintable_cons_iff, isPrintable_cons_iff]
  refine ⟨by decide, by decide, fun c hc => ?_⟩
  obtain ⟨value, hvalue, rfl⟩ := hdigits c hc
  exact hprintable value hvalue

theorem isPrintable_escapeSymbol (symbol : Symbol) :
    IsPrintable (Writer.escapeSymbol symbol) := by
  have hescaped := Writer.escaped_escapeSymbol symbol
  generalize Writer.escapeSymbol symbol = written at *
  cases hescaped with
  | letter h =>
      have hletter :
          IsPrintable [Text.doubleQuote, Text.backslash, '/', 'b', 'f', 'n', 'r', 't'] := by
        decide
      rw [isPrintable_cons_iff, isPrintable_cons_iff]
      exact ⟨by decide, hletter _ (mem_escapes_of_simpleEscape? h), isPrintable_nil⟩
  | plain hlow hhigh hquote hbackslash =>
      exact (isPrintable_cons_iff _ _).2 ⟨⟨hlow, hhigh⟩, isPrintable_nil⟩
  | units =>
      intro c hc
      obtain ⟨unit, -, hwritten⟩ := List.mem_flatMap.1 hc
      exact isPrintable_unitEscape unit c hwritten

theorem isPrintable_string (s : Text) :
    IsPrintable (Writer.string s) := by
  have hbody : IsPrintable (s.symbols.flatMap Writer.escapeSymbol) := by
    intro c hc
    obtain ⟨symbol, -, hwritten⟩ := List.mem_flatMap.1 hc
    exact isPrintable_escapeSymbol symbol c hwritten
  have hquote : 0x20 ≤ Text.doubleQuote.toNat ∧ Text.doubleQuote.toNat < 0x7F := by decide
  rw [Writer.string, isPrintable_cons_iff, isPrintable_append_iff, isPrintable_cons_iff]
  exact ⟨hquote, hbody, hquote, isPrintable_nil⟩

mutual

/-- Written values are printable ASCII. -/
theorem isPrintable_write (v : Json) :
    IsPrintable (write v) := by
  match v with
  | .null => decide
  | .bool true => decide
  | .bool false => decide
  | .integer n =>
      obtain ⟨d, htoken, -, hchars, -⟩ := exists_token_integer n
      rw [write, ← hchars]
      exact isPrintable_of_isNumber htoken.isNumber
  | .number .nan => decide
  | .number (.infinite true) => decide
  | .number (.infinite false) => decide
  | .number (.finite negative m q h) =>
      obtain ⟨d, htoken, -, hchars, -⟩ := exists_token_text (x := .finite negative m q h) rfl
      have hprintable := isPrintable_of_isNumber htoken.isNumber
      rw [hchars] at hprintable
      exact hprintable
  | .text s => exact isPrintable_string s
  | .array items =>
      rw [write, isPrintable_cons_iff]
      exact ⟨by decide, isPrintable_writeItems items⟩
  | .object members =>
      rw [write, isPrintable_cons_iff]
      exact ⟨by decide, isPrintable_writeMembers members⟩

theorem isPrintable_writeItems (items : List Json) :
    IsPrintable (writeItems items) := by
  match items with
  | [] => decide
  | [item] =>
      have hvalue := isPrintable_write item
      simpa [writeItems, isPrintable_append_iff, isPrintable_cons_iff, isPrintable_nil] using hvalue
  | item :: second :: others =>
      have hvalue := isPrintable_write item
      have hrest := isPrintable_writeItems (second :: others)
      simpa [writeItems, isPrintable_append_iff, isPrintable_cons_iff] using ⟨hvalue, hrest⟩

theorem isPrintable_writeMembers (members : List (Text × Json)) :
    IsPrintable (writeMembers members) := by
  match members with
  | [] => decide
  | [(name, v)] =>
      have hname := isPrintable_string name
      have hvalue := isPrintable_write v
      simpa [writeMembers, isPrintable_append_iff, isPrintable_cons_iff, isPrintable_nil]
        using ⟨hname, hvalue⟩
  | (name, v) :: second :: others =>
      have hname := isPrintable_string name
      have hvalue := isPrintable_write v
      have hrest := isPrintable_writeMembers (second :: others)
      simpa [writeMembers, isPrintable_append_iff, isPrintable_cons_iff]
        using ⟨hname, hvalue, hrest⟩

end

end Printable

end Json
end ChangeFeed
