import ChangeFeed.Text.LetterForms

/-!
# Letter case

Option words and operation codes are compared without regard to case: the whole
text is put in capitals or in small letters, character by character, and then
compared. Some characters become two or three. At the end of a word a capital
sigma has another small form than elsewhere; here it has the same everywhere,
as no text is compared with a word that has either.

**Results.**

* `form_of_ascii`: ASCII characters have the forms of the core library.
-/

namespace ChangeFeed
namespace Text

/-- How characters are put in one of the two cases. -/
structure CaseMapping where
  /-- The form of an ASCII character. -/
  ascii : Char → Char
  /-- The other characters whose form is more than one character. -/
  long : List (Nat × List Nat)
  /-- The other characters whose form is another character. -/
  runs : List CaseRun

namespace CaseMapping

/-- The form of a character, which is the character itself if it has no other. -/
def form (mapping : CaseMapping) (c : Char) : List Char :=
  if c.toNat < 0x80 then
    [mapping.ascii c]
  else
    match mapping.long.lookup c.toNat with
    | some codes => codes.map Char.ofNat
    | none =>
        match mapping.runs.find? (·.contains c) with
        | some run => [run.shifted c]
        | none => [c]

/-- The text in the forms of its characters. -/
def apply (mapping : CaseMapping) (text : String) : String :=
  String.ofList (text.toList.flatMap mapping.form)

theorem form_of_ascii
    (mapping : CaseMapping)
    (c : Char)
    (h : c.toNat < 0x80) :
    mapping.form c = [mapping.ascii c] :=
  if_pos h

end CaseMapping

/-- Putting characters in capitals. -/
def capitals : CaseMapping :=
  ⟨Char.toUpper, longCapitals, capitalRuns⟩

/-- Putting characters in small letters. -/
def smalls : CaseMapping :=
  ⟨Char.toLower, longSmalls, smallRuns⟩

/-- The text in capitals. -/
def upper (text : String) : String :=
  capitals.apply text

/-- The text in small letters. -/
def lower (text : String) : String :=
  smalls.apply text

end Text
end ChangeFeed
