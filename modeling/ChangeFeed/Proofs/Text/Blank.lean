import ChangeFeed.Text.Blank
import Mathlib.Data.List.TakeWhile

/-!
# Texts in blanks

What stripping leaves of a text. A text is what is left of it with blanks around that, and
a word without blanks is left of every text that is the word with blanks around it.

**Results.**

* `exists_append_stripChars`: what stripping takes off.
* `stripChars_eq_iff`: the texts of which a word is left.
-/

namespace ChangeFeed
namespace Text

section Strip

variable {text word : List Char}

/-- Stripping takes blanks off both ends. -/
theorem exists_append_stripChars (text : List Char) :
    ∃ before after,
      text = before ++ stripChars text ++ after ∧ ∀ c ∈ before ++ after, isBlank c = true := by
  refine
    ⟨text.takeWhile isBlank, ((text.dropWhile isBlank).reverse.takeWhile isBlank).reverse, ?_, ?_⟩
  · rw [List.append_assoc, stripChars, dropWhileEnd, ← List.reverse_append,
      List.takeWhile_append_dropWhile, List.reverse_reverse, List.takeWhile_append_dropWhile]
  · rw [List.forall_mem_append]
    exact
      ⟨fun c => List.mem_takeWhile_imp, fun c hc => List.mem_takeWhile_imp (List.mem_reverse.1 hc)⟩

theorem dropWhile_isBlank_eq_self
    (h : ∀ c ∈ text, isBlank c = false) :
    text.dropWhile isBlank = text := by
  cases text with
  | nil => rfl
  | cons c rest => exact List.dropWhile_cons_of_neg (by simp [h c List.mem_cons_self])

/-- A word without blanks is left of the texts that have it between blanks. -/
theorem stripChars_eq_iff
    (h : ∀ c ∈ word, isBlank c = false) :
    stripChars text = word ↔
      ∃ before after,
        text = before ++ word ++ after ∧ ∀ c ∈ before ++ after, isBlank c = true := by
  constructor
  · rintro rfl
    exact exists_append_stripChars text
  · rintro ⟨before, after, rfl, hblank⟩
    cases word with
    | nil =>
        rw [List.append_nil]
        exact stripChars_eq_nil _ hblank
    | cons c rest =>
        obtain ⟨hbefore, hafter⟩ := List.forall_mem_append.1 hblank
        have hc : ¬ isBlank c = true := by simp [h c List.mem_cons_self]
        rw [stripChars, List.append_assoc, List.dropWhile_append_of_pos hbefore, List.cons_append,
          List.dropWhile_cons_of_neg hc, ← List.cons_append, dropWhileEnd, List.reverse_append,
          List.dropWhile_append_of_pos fun d hd => hafter d (List.mem_reverse.1 hd),
          dropWhile_isBlank_eq_self fun d hd => h d (List.mem_reverse.1 hd), List.reverse_reverse]

end Strip

end Text
end ChangeFeed
