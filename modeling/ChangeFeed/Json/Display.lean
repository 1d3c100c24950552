import ChangeFeed.Json.Writer

/-!
# The text of a value

Images, tokens and positions may come as any JSON value and are kept as texts.
A text stands for itself; other values have the text given here, in which
texts inside arrays and objects are quoted and the words for null, true and
false have a capital.

**Results.**

* `display_text`: a text is its own text.
-/

namespace ChangeFeed
namespace Json

mutual

/-- The text of a value inside an array or object. -/
def displayNested : Json → List Char
  | .null => "None".toList
  | .bool b => if b then "True".toList else "False".toList
  | .integer n => Writer.integer n
  | .number x => x.text.toList
  | .text s => Text.quotedChars s
  | .array items => '[' :: displayItems items
  | .object members => '\x7b' :: displayMembers members

/-- The text of the items of an array, closing bracket included. -/
def displayItems : List Json → List Char
  | [] => [']']
  | [item] => displayNested item ++ [']']
  | item :: rest => displayNested item ++ ',' :: ' ' :: displayItems rest

/-- The text of the members of an object, closing brace included. -/
def displayMembers : List (Text × Json) → List Char
  | [] => ['\x7d']
  | [(name, v)] =>
      Text.quotedChars name ++ ':' :: ' ' :: (displayNested v ++ ['\x7d'])
  | (name, v) :: rest =>
      Text.quotedChars name ++
        ':' :: ' ' :: (displayNested v ++ ',' :: ' ' :: displayMembers rest)

end

/-- The text of a value. -/
def display : Json → Text
  | .text s => s
  | v => String.ofList (displayNested v)

@[simp] theorem display_text (s : Text) :
    display (.text s) = s := rfl

end Json
end ChangeFeed
