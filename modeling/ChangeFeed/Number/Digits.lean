/-!
# Runs of digits

Digits of numeric texts, which are ASCII alone, and the numbers that runs of
them stand for. The readers of integers, of floating literals and of number
tokens share these.

**Results.**

* `ofDigits_append_singleton`: a further digit multiplies by the base and adds.
-/

namespace ChangeFeed
namespace Number

/-- A decimal digit. -/
def isDigit (c : Char) : Bool :=
  '0' ≤ c && c ≤ '9'

/-- A hexadecimal digit of either case. -/
def isHexDigit (c : Char) : Bool :=
  isDigit c || ('a' ≤ c && c ≤ 'f') || ('A' ≤ c && c ≤ 'F')

/-- The value of a hexadecimal digit. -/
def digitValue (c : Char) : Nat :=
  if isDigit c then c.toNat - '0'.toNat
  else if 'a' ≤ c then c.toNat - 'a'.toNat + 10
  else c.toNat - 'A'.toNat + 10

/-- The number that a run of digits stands for. -/
def ofDigits (base : Nat) (digits : List Char) : Nat :=
  digits.foldl (fun n c => n * base + digitValue c) 0

/-- The integer with this sign and magnitude. -/
def signedInt (negative : Bool) (n : Nat) : Int :=
  if negative then -(n : Int) else n

/-- Whether the text starts with a minus sign, and the text after its sign. -/
def takeSign : List Char → Bool × List Char
  | '+' :: rest => (false, rest)
  | '-' :: rest => (true, rest)
  | rest => (false, rest)

/-- An integer written with an optional sign, and the number of its digits. -/
structure SignedRun where
  value : Int
  length : Nat
  rest : List Char

/-- Reads an optional sign and at least one decimal digit from the front. -/
def signedRun? (text : List Char) : Option SignedRun :=
  let (negative, body) := takeSign text
  let digits := body.takeWhile isDigit
  if digits.isEmpty then
    none
  else
    some
      { value := signedInt negative (ofDigits 10 digits)
        length := digits.length
        rest := body.dropWhile isDigit }

@[simp] theorem ofDigits_nil (base : Nat) :
    ofDigits base [] = 0 := rfl

theorem ofDigits_append_singleton
    (base : Nat)
    (digits : List Char)
    (c : Char) :
    ofDigits base (digits ++ [c]) = ofDigits base digits * base + digitValue c := by
  simp [ofDigits]

end Number
end ChangeFeed
