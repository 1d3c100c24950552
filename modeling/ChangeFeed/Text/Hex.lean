/-!
# Hexadecimal numerals

Fixed-width lower-case hexadecimal numerals, as escapes are written with.
-/

namespace ChangeFeed
namespace Text

/-- The hexadecimal numeral of `n`, padded with zeros to `width` digits. -/
def hex (width n : Nat) : List Char :=
  let digits := Nat.toDigits 16 n
  List.replicate (width - digits.length) '0' ++ digits

end Text
end ChangeFeed
