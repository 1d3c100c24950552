import ChangeFeed.Text.Basic
import ChangeFeed.Text.Hex
import ChangeFeed.Text.Printable

/-!
# Quoted texts

A text in an error message stands between single quotes, or between double ones
if it holds a single quote and no double one. The quote in use, the backslash,
the characters that are not printable and lone halves of pairs are escaped.
-/

namespace ChangeFeed
namespace Text

/-- The character `'`. -/
def singleQuote : Char := '\x27'

/-- The character `"`. -/
def doubleQuote : Char := '\x22'

/-- The character `\`. -/
def backslash : Char := '\x5c'

/-- The quote that a text is put between. -/
def quoteFor (text : List Char) : Char :=
  if text.contains singleQuote && !text.contains doubleQuote then
    doubleQuote
  else
    singleQuote

/-- One character between the quotes. -/
def quotedChar (quote c : Char) : List Char :=
  if c = quote || c = backslash then [backslash, c]
  else if c = '\n' then [backslash, 'n']
  else if c = '\r' then [backslash, 'r']
  else if c = '\t' then [backslash, 't']
  else if isPrintable c then [c]
  else if c.toNat < 0x100 then backslash :: 'x' :: hex 2 c.toNat
  else if c.toNat < 0x10000 then backslash :: 'u' :: hex 4 c.toNat
  else backslash :: 'U' :: hex 8 c.toNat

/-- One symbol between the quotes. -/
def quotedSymbol (quote : Char) : Symbol → List Char
  | .char c => quotedChar quote c
  | .half unit => backslash :: 'u' :: hex 4 unit.toNat

/-- The characters of a text with its quotes. -/
def quotedChars (text : Text) : List Char :=
  let quote := quoteFor text.shown.toList
  quote :: (text.symbols.flatMap (quotedSymbol quote) ++ [quote])

/-- The text in quotes. -/
def quoted (text : Text) : String :=
  String.ofList (quotedChars text)

end Text
end ChangeFeed
