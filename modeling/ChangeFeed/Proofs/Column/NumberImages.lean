import ChangeFeed.Proofs.Column.Double
import ChangeFeed.Proofs.Column.Single
import ChangeFeed.Proofs.Json.Grammar
import ChangeFeed.Proofs.Json.Reading
import ChangeFeed.Proofs.Message.Images

/-!
# Images written as numbers

An image may be written as a number or as the same characters between quotes. The
number is loaded first, as an integer or as a double, and its own text is captured; of
the characters between quotes nothing is lost. For columns of integers and of doubles
this makes no difference: the text of an integer is an integer of the same value, and
the text of a double has that double as its nearest. An infinite double has a text that
is no literal, but then the characters themselves are refused as well. Only the sign
of the integer `-0` is lost, which no number shows.

**Results.**

* `exists_tokenImages`: what a number token is as an image, written in the two ways.
* `coerce_numberImages`: columns of integers and doubles do not tell them apart.
-/

namespace ChangeFeed

open Number (Double Floating Literal Spelling signed signedInt ofDigits isDigit)
open Number.Format (binary64)

namespace ImagePlace

/-- In a message with this value at a place, a text is captured there. -/
structure Captures
    (p : ImagePlace)
    (v : Json)
    (text : String) : Prop where
  decoded :
    Message.ofObject (p.message v) =
      (Message.ofObject (p.message .null)).map (·.put p.index p.side (.captured text))
  captured :
    ∀ {change table},
      Message.ofObject (p.message v) = .ok (.change change table) →
      ∃ column images,
        table.columns[p.index]? = some column ∧
          change.columns[p.index]? = some images ∧
          images.on p.side = .captured text

theorem captures_of_ofJson
    {v : Json}
    {text : String}
    (h : Image.ofJson v = .captured text)
    (p : ImagePlace) :
    p.Captures v text where
  decoded := h ▸ p.ofObject_message v
  captured hchange := h ▸ p.on_of_ofObject v hchange

end ImagePlace

/--
The characters of a number token are loaded as `v`, of which `raw` is captured; between
quotes they are captured as they are. This is so at every place in every message.
-/
structure TokenImages
    (token : List Char)
    (v : Json)
    (raw : String) : Prop where
  number : Json.ReadsAs token v
  text : Json.ReadsAs (Json.quoted token) (.text (String.ofList token))
  captured :
    ∀ p : ImagePlace, p.Captures v raw
  captured_text :
    ∀ p : ImagePlace, p.Captures (.text (String.ofList token)) (String.ofList token)

/-- The number that a value is. -/
def Value.toRat? : Value → Option Rat
  | .integer n => some n
  | .double x => x.toRat?
  | .single x => x.toRat?
  | _ => none

/-- Two values are the same number. -/
def SameNumber
    (v w : Value) : Prop :=
  ∃ r, v.toRat? = some r ∧ w.toRat? = some r

section Tokens

variable {s : Spelling}

theorem length_whole_le
    (h : Json.IsToken s)
    (hdigits : s.chars.countP isDigit ≤ Number.Integer.digitLimit) :
    s.whole.length ≤ Number.Integer.digitLimit := by
  have hwhole : s.whole.countP isDigit = s.whole.length :=
    List.countP_eq_length.2 h.isDigit_of_mem_whole
  rw [Spelling.chars, h.bodyChars, List.countP_append, List.countP_append, hwhole] at hdigits
  omega

theorem tokenImages_integral
    (h : Json.IsToken s)
    (hintegral : Json.IsIntegral s)
    (hlength : s.whole.length ≤ Number.Integer.digitLimit) :
    TokenImages s.chars
      (.integer (signedInt s.sign.negative (ofDigits 10 s.whole)))
      (String.ofList
        (Json.Writer.integer (signedInt s.sign.negative (ofDigits 10 s.whole)))) where
  number := Json.readsAs_integral h hintegral hlength
  text := Json.readsAs_quoted h
  captured := ImagePlace.captures_of_ofJson rfl
  captured_text := ImagePlace.captures_of_ofJson rfl

theorem tokenImages_fractional
    (h : Json.IsToken s)
    (hfractional : ¬ Json.IsIntegral s) :
    TokenImages s.chars (.number (s.literal.nearest .binary64))
      (s.literal.nearest .binary64).text where
  number := Json.readsAs_fractional h hfractional
  text := Json.readsAs_quoted h
  captured := ImagePlace.captures_of_ofJson
    (congrArg (Image.captured ∘ Text.whole) String.ofList_toList)
  captured_text := ImagePlace.captures_of_ofJson rfl

end Tokens

section Integers

variable {s : Spelling}

/-- A token without point and exponent stands for the number of its digits. -/
theorem magnitude_integral
    (h : Json.IsToken s)
    (hintegral : Json.IsIntegral s) :
    s.magnitude = ofDigits 10 s.whole := by
  obtain ⟨hfraction, hexponent⟩ := hintegral
  simp [Spelling.magnitude, Spelling.places, Spelling.power, hfraction, hexponent, h.form,
    Number.LiteralForm.base]

/-- A zero is not negative, whatever its sign. -/
theorem decide_signedInt_lt_zero
    (negative : Bool)
    (n : Nat) :
    decide (signedInt negative n < 0) = (negative && n != 0) := by
  cases negative with
  | false => simp [signedInt]
  | true =>
      cases n with
      | zero => rfl
      | succ n =>
          have hless : signedInt true (n + 1) < 0 := by
            simp only [signedInt, if_true]
            omega
          simp [hless]

/--
The integer that a token is loaded as has a text with the same digits but leading
zeros; of a zero the sign is lost.
-/
theorem exists_token_loaded
    (h : Json.IsToken s)
    (hlength : s.whole.length ≤ Number.Integer.digitLimit) :
    ∃ d : Spelling,
      Json.IsToken d ∧
        Json.IsIntegral d ∧
        d.chars = Json.Writer.integer (signedInt s.sign.negative (ofDigits 10 s.whole)) ∧
        d.whole.length ≤ Number.Integer.digitLimit ∧
        ofDigits 10 d.whole = ofDigits 10 s.whole ∧
        d.sign.negative = (s.sign.negative && ofDigits 10 s.whole != 0) := by
  obtain ⟨d, htoken, hintegral, hchars, hwhole, hsign⟩ :=
    Json.exists_token_integer (signedInt s.sign.negative (ofDigits 10 s.whole))
  rw [Json.Reader.natAbs_signedInt] at hwhole
  refine ⟨d, htoken, hintegral, hchars, ?_, ?_, ?_⟩
  · rw [hwhole]
    exact
      ((Nat.length_toDigits_le_iff (by decide) (List.length_pos_iff.2 h.whole)).2
        (Number.ofDigits_lt h.isDigit_of_mem_whole)).trans hlength
  · rw [hwhole, Number.ofDigits_toDigits_ten]
  · rw [hsign]
    exact decide_signedInt_lt_zero _ _

/-- The sign of a token is taken off, and then it starts with a digit. -/
theorem takeSign_token
    (h : Json.IsToken s) :
    Number.takeSign s.chars = (s.sign.negative, s.bodyChars) := by
  have hhead := Spelling.head?_digits h.isDigit_of_mem_whole h.whole
  rw [Spelling.chars, h.bodyChars]
  exact Spelling.takeSign_chars s.sign (hhead _ rfl) (hhead _ rfl)

theorem ofChars?_integral
    (h : Json.IsToken s)
    (hintegral : Json.IsIntegral s)
    (hlength : s.whole.length ≤ Number.Integer.digitLimit) :
    Number.Integer.ofChars? s.chars =
      some (signedInt s.sign.negative (ofDigits 10 s.whole)) := by
  obtain ⟨hfraction, hexponent⟩ := hintegral
  have hbody : s.bodyChars = s.whole := by
    simp [h.bodyChars, Spelling.pointChars, Spelling.tailChars, hfraction, hexponent, h.suffix]
  have hdigits : s.whole.all isDigit = true :=
    List.all_eq_true.2 h.isDigit_of_mem_whole
  rw [Number.Integer.ofChars?, takeSign_token h, hbody]
  simp [h.whole, hdigits, Nat.not_lt.2 hlength]

/-- A token with a point or an exponent is no integer. -/
theorem ofChars?_fractional
    (h : Json.IsToken s)
    (hfractional : ¬ Json.IsIntegral s) :
    Number.Integer.ofChars? s.chars = none := by
  have hother : ∃ c ∈ s.bodyChars, isDigit c = false := by
    simp only [h.bodyChars, List.mem_append]
    cases hfraction : s.fraction with
    | some digits =>
        refine ⟨'.', Or.inr (Or.inl ?_), rfl⟩
        rw [Spelling.pointChars, hfraction]
        exact List.mem_cons_self
    | none =>
        cases hexponent : s.exponent with
        | none => exact absurd ⟨hfraction, hexponent⟩ hfractional
        | some e =>
            refine ⟨e.letter, Or.inr (Or.inr ?_), ?_⟩
            · rw [Spelling.tailChars, hexponent]
              exact List.mem_cons_self
            · have hform (c : Char) : s.form.isDigit c = isDigit c := by
                rw [h.form]
                rfl
              exact (hform _).symm.trans
                (Spelling.exponentLetter_spec s.form e.letter e.letter_mem).1
  obtain ⟨c, hc, hdigit⟩ := hother
  have hall : s.bodyChars.all isDigit = false :=
    List.all_eq_false.2 ⟨c, hc, by simp [hdigit]⟩
  rw [Number.Integer.ofChars?, takeSign_token h]
  simp [hall]

end Integers

namespace Coercion

section Columns

variable {s : Spelling}
variable {raw raw' : String}
variable {typeClass : TypeClass}

theorem toOption_coerce
    (code : Int)
    (column : Json)
    (raw : Text) :
    (coerce false code column raw).toOption = read? (.ofCode code) raw := by
  rw [coerce, if_neg Bool.false_ne_true]
  cases read? (.ofCode code) raw <;> rfl

/-- Texts of one integer are read as the same in a class of integers. -/
theorem rel_integer
    (low high : Int)
    (h : Number.Integer.ofChars? raw.toList = Number.Integer.ofChars? raw'.toList) :
    Option.Rel SameNumber ((integer? low high raw).map .integer)
      ((integer? low high raw').map .integer) := by
  have hsame : integer? low high raw = integer? low high raw' := by
    rw [integer?, integer?, h]
  rw [hsame]
  cases integer? low high raw' with
  | none => exact .none
  | some n => exact .some ⟨n, rfl, rfl⟩

/-- What a double is rounded to is a number. -/
theorem rel_toPlaces? (x : Double) :
    Option.Rel SameNumber ((toPlaces? x).map .double) ((toPlaces? x).map .double) := by
  cases hfinite : x.isFinite with
  | false =>
      rw [toPlaces?_of_not_isFinite hfinite]
      exact .none
  | true =>
      obtain ⟨negative, m, q, h, rfl⟩ := Floating.exists_finite_of_isFinite hfinite
      obtain ⟨n, e, hnearest, hx⟩ := rounded_finite h
      rw [toPlaces?_of_isFinite hfinite, hx]
      exact .some ⟨_, rfl, rfl⟩

theorem toPlaces?_zero (negative : Bool) :
    toPlaces? (Floating.zero negative) = some (Floating.zero negative) := by
  cases negative <;> decide +kernel

theorem toRat?_zero (negative : Bool) :
    (Floating.zero negative : Double).toRat? = some 0 := by
  cases negative <;> simp [Floating.zero, Floating.toRat?, signed]

theorem double?_token (s : Spelling) :
    double? (String.ofList s.chars) = toPlaces? (s.literal.nearest .binary64) :=
  double?_eq (by rw [String.toList_ofList, s.stripChars_chars])

/-- A token without point and exponent and the integer it is loaded as. -/
theorem rel_read?_integral
    (h : Json.IsToken s)
    (hintegral : Json.IsIntegral s)
    (hlength : s.whole.length ≤ Number.Integer.digitLimit)
    (hclass : typeClass ∈ [TypeClass.int32, .int64, .double]) :
    Option.Rel SameNumber
      (read? typeClass
        (String.ofList
          (Json.Writer.integer (signedInt s.sign.negative (ofDigits 10 s.whole)))))
      (read? typeClass (String.ofList s.chars)) := by
  obtain ⟨d, htoken, hwhole, hchars, hshort, hvalue, hsign⟩ := exists_token_loaded h hlength
  rw [← hchars]
  have hinteger :
      Number.Integer.ofChars? (String.ofList d.chars).toList =
        Number.Integer.ofChars? (String.ofList s.chars).toList := by
    rw [String.toList_ofList, String.toList_ofList, ofChars?_integral htoken hwhole hshort,
      ofChars?_integral h hintegral hlength, hvalue, hsign]
    cases s.sign.negative <;> by_cases hzero : ofDigits 10 s.whole = 0 <;>
      simp [signedInt, hzero]
  simp only [List.mem_cons, List.not_mem_nil, or_false] at hclass
  rcases hclass with rfl | rfl | rfl
  · exact rel_integer _ _ hinteger
  · exact rel_integer _ _ hinteger
  · simp only [read?, Text.shown_whole, double?_token, Literal.nearest_double,
      Spelling.magnitude_literal, magnitude_integral h hintegral,
      magnitude_integral htoken hwhole, hvalue]
    by_cases hzero : ofDigits 10 s.whole = 0
    · -- The sign of a zero is lost, but both are the number zero.
      have hnearest (negative : Bool) :
          binary64.nearest negative ((0 : Nat) : Rat) = .zero negative := if_pos Nat.cast_zero
      rw [hzero, hnearest, hnearest, toPlaces?_zero, toPlaces?_zero]
      exact .some ⟨0, toRat?_zero _, toRat?_zero _⟩
    · have hsame : d.literal.negative = s.literal.negative := by
        refine hsign.trans ?_
        simp [hzero, Spelling.literal]
      rw [hsame]
      exact rel_toPlaces? _

/-- Every other token and the text of the double it is loaded as. -/
theorem rel_read?_fractional
    (h : Json.IsToken s)
    (hfractional : ¬ Json.IsIntegral s)
    (hclass : typeClass ∈ [TypeClass.int32, .int64, .double]) :
    Option.Rel SameNumber (read? typeClass (s.literal.nearest .binary64).text)
      (read? typeClass (String.ofList s.chars)) := by
  have hnone := ofChars?_fractional h hfractional
  obtain ⟨hinteger, hdouble⟩ :
      Number.Integer.ofChars? (s.literal.nearest .binary64).text.toList = none ∧
        double? (s.literal.nearest .binary64).text = double? (String.ofList s.chars) := by
    rw [double?_token]
    cases hx : s.literal.nearest .binary64 with
    | nan => exact ((isNearest_value_iff s _).2 hx.symm).elim
    | infinite negative => cases negative <;> decide
    | finite negative m q hm =>
        obtain ⟨d, htoken, hother, hchars, hnearest⟩ :=
          Json.exists_token_text (x := .finite negative m q hm) rfl
        have htext : (Floating.finite negative m q hm).text = String.ofList d.chars := by
          rw [hchars, String.ofList_toList]
        rw [htext, String.toList_ofList, ofChars?_fractional htoken hother, double?_token,
          hnearest]
        exact ⟨rfl, rfl⟩
  rw [← String.toList_ofList (l := s.chars), ← hinteger] at hnone
  simp only [List.mem_cons, List.not_mem_nil, or_false] at hclass
  rcases hclass with rfl | rfl | rfl
  · exact rel_integer _ _ hnone.symm
  · exact rel_integer _ _ hnone.symm
  · simp only [read?, Text.shown_whole, hdouble, double?_token]
    exact rel_toPlaces? _

end Columns

/--
An image written as a number and as the same characters between quotes: columns of
integers and doubles refuse both, or coerce both to the same number.
-/
theorem coerce_numberImages
    {token : List Char}
    (htoken : Json.Grammar.IsNumber token)
    (hdigits : token.countP isDigit ≤ 4300) :
    ∃ v raw,
      TokenImages token v raw ∧
        ∀ (code : Int) (column : Json),
          TypeClass.ofCode code ∈ [TypeClass.int32, .int64, .double] →
          Option.Rel SameNumber (coerce false code column raw).toOption
            (coerce false code column (String.ofList token)).toOption := by
  obtain ⟨s, h, rfl⟩ := Json.exists_token htoken
  simp only [toOption_coerce]
  by_cases hintegral : Json.IsIntegral s
  · have hlength := length_whole_le h hdigits
    exact
      ⟨_, _, tokenImages_integral h hintegral hlength,
        fun code column hclass => rel_read?_integral h hintegral hlength hclass⟩
  · exact
      ⟨_, _, tokenImages_fractional h hintegral,
        fun code column hclass => rel_read?_fractional h hintegral hclass⟩

/-- The largest double with a minus sign, in digits enough for it. -/
def leastDouble : Spelling where
  form := .decimal
  sign := .minus
  opening := []
  whole := ['1']
  fraction := some "7976931348623157".toList
  exponent :=
    some
      { letter := 'e'
        sign := .plus
        digits := "308".toList
        letter_mem := Number.LiteralForm.e_mem_exponentLetters }
  suffix := []
  opening_mem := Number.LiteralForm.nil_mem_openings
  suffix_mem := Number.nil_mem_suffixes

theorem isToken_leastDouble :
    Json.IsToken leastDouble :=
  ⟨rfl, by decide, by decide, by decide, by decide, rfl⟩

theorem coerce_numberImages_leastDouble :
    ∃ v raw,
      TokenImages "-1.7976931348623157e+308".toList v raw ∧
        Option.Rel SameNumber (coerce false 8 (.text "PRICE") raw).toOption
          (coerce false 8 (.text "PRICE") "-1.7976931348623157e+308").toOption := by
  obtain ⟨v, raw, himages, hsame⟩ :=
    coerce_numberImages isToken_leastDouble.isNumber (by decide)
  exact ⟨v, raw, himages, hsame 8 _ (by decide)⟩

end Coercion

end ChangeFeed
