import ChangeFeed.Text.Ranges

/-!
# Blank characters

The characters that count as white space at the ends of a text: those of the
Unicode property `White_Space`, and the four information separators. Stripping
takes them off both ends.

**Results.**

* `stripChars_eq_nil`: nothing is left of a text of blanks.
-/

namespace ChangeFeed
namespace Text

/-- The code points of the blank characters. -/
def blanks : List (Nat × Nat) :=
  [(0x9, 0xD), (0x1C, 0x20), (0x85, 0x85), (0xA0, 0xA0), (0x1680, 0x1680), (0x2000, 0x200A),
    (0x2028, 0x2029), (0x202F, 0x202F), (0x205F, 0x205F), (0x3000, 0x3000)]

/-- Whether a character is blank. -/
def isBlank (c : Char) : Bool :=
  inRanges blanks c

/-- The text without the characters at its end that satisfy `p`. -/
def dropWhileEnd (p : Char → Bool) (text : List Char) : List Char :=
  (text.reverse.dropWhile p).reverse

/-- The characters of a text without the blanks at both ends. -/
def stripChars (text : List Char) : List Char :=
  dropWhileEnd isBlank (text.dropWhile isBlank)

/-- The text without the blanks at both ends. -/
def strip (text : String) : String :=
  String.ofList (stripChars text.toList)

theorem stripChars_eq_nil
    (text : List Char)
    (h : ∀ c ∈ text, isBlank c = true) :
    stripChars text = [] := by
  have h' : text.dropWhile isBlank = [] := by
    induction text with
    | nil => rfl
    | cons c rest ih =>
        rw [List.dropWhile_cons_of_pos (h c (List.mem_cons_self ..))]
        exact ih fun d hd => h d (List.mem_cons_of_mem c hd)
  simp [stripChars, dropWhileEnd, h']

end Text
end ChangeFeed
