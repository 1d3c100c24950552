import ChangeFeed.Proofs.Json.Numerals
import ChangeFeed.Proofs.Json.Readable
import ChangeFeed.Proofs.Json.Strings

/-!
# Written values read back

What is written of a value is read as the value: texts, integers, numbers that are
finite or not, arrays and objects with their members in order. All it takes is that
the value is readable and not nested too deeply.

**Results.**

* `value_write`: a written value is read from the front of a text.
* `readWithin_write`: a written value reads back.
* `readWithin_write_strict`: texts in place of the numbers that are not finite change
  nothing in this.
* `readsAs_quoted`: between quotes a number is read as a text.
-/

namespace ChangeFeed
namespace Json

open Number (Double Spelling isDigit ofDigits signedInt)

namespace Reader

section Scalar

variable {rest : List Char}

theorem value_integer
    (fuel depth : Nat)
    {n : Int}
    (hreadable : Readable (.integer n))
    (hrest : EndsNumber rest) :
    value (fuel + 1) depth (write (.integer n) ++ rest) = .ok (.integer n, rest) := by
  obtain ⟨d, htoken, hintegral, hchars, hwhole, hnegative⟩ := exists_token_integer n
  have hlength : d.whole.length ≤ Number.Integer.digitLimit := by
    rw [hwhole]
    exact hreadable
  have hsigned : signedInt d.sign.negative (ofDigits 10 d.whole) = n := by
    rw [hnegative, hwhole, Number.ofDigits_toDigits_ten, Number.signedInt_natAbs]
  rw [write, ← hchars, readsAs_integral htoken hintegral hlength fuel depth rest hrest, hsigned]

theorem value_number
    (fuel depth : Nat)
    (x : Double)
    (hrest : EndsNumber rest) :
    value (fuel + 1) depth (write (.number x) ++ rest) = .ok (.number x, rest) := by
  cases x with
  | nan => rfl
  | infinite negative => cases negative <;> rfl
  | finite negative m q h =>
      obtain ⟨d, htoken, hfractional, hchars, hnearest⟩ :=
        exists_token_text (x := .finite negative m q h) rfl
      have hwrite : write (.number (.finite negative m q h)) = d.chars := hchars.symm
      rw [hwrite, readsAs_fractional htoken hfractional fuel depth rest hrest, hnearest]

end Scalar

section Nested

variable {fuel depth : Nat}
variable {rest tail : List Char}

theorem skipSpace_cons
    {c : Char}
    (h : isSpace c = false)
    (cs : List Char) :
    skipSpace (c :: cs) = c :: cs := by
  simp [skipSpace, h]

theorem endsNumber_cons
    {c : Char}
    (h : isDigit c = false ∧ c ≠ '.' ∧ c ≠ 'e' ∧ c ≠ 'E') :
    EndsNumber (c :: rest) := by
  intro d hd
  cases hd
  exact h

/-- A token starts with a minus sign or a digit. -/
theorem exists_head_token
    {s : Spelling}
    (h : IsToken s) :
    ∃ c cs, s.chars = c :: cs ∧ isSpace c = false ∧ c ≠ ']' ∧ c ≠ byteOrderMark := by
  obtain ⟨c, cs, hbody, hdigit⟩ := h.exists_digit
  rw [Spelling.chars, hbody]
  cases hsign : s.sign with
  | plus => exact absurd hsign h.sign
  | minus => exact ⟨'-', _, rfl, rfl, by decide⟩
  | absent =>
      refine ⟨c, cs, rfl, ?_, (ne_digit hdigit rfl).symm, (ne_digit hdigit rfl).symm⟩
      have hspace : ' ' ≠ c := ne_digit hdigit rfl
      have htab : '\t' ≠ c := ne_digit hdigit rfl
      have hline : '\n' ≠ c := ne_digit hdigit rfl
      have hreturn : '\r' ≠ c := ne_digit hdigit rfl
      simp [isSpace, hspace.symm, htab.symm, hline.symm, hreturn.symm]

/-- No space, no closing bracket and no mark stands before a value. -/
theorem exists_head_write (v : Json) :
    ∃ c cs, write v = c :: cs ∧ isSpace c = false ∧ c ≠ ']' ∧ c ≠ byteOrderMark := by
  cases v with
  | null => exact ⟨'n', _, rfl, rfl, by decide⟩
  | bool b =>
      cases b with
      | true => exact ⟨'t', _, rfl, rfl, by decide⟩
      | false => exact ⟨'f', _, rfl, rfl, by decide⟩
  | integer n =>
      obtain ⟨d, htoken, -, hchars, -⟩ := exists_token_integer n
      rw [write, ← hchars]
      exact exists_head_token htoken
  | number x =>
      cases x with
      | nan => exact ⟨'N', _, rfl, rfl, by decide⟩
      | infinite negative =>
          cases negative with
          | true => exact ⟨'-', _, rfl, rfl, by decide⟩
          | false => exact ⟨'I', _, rfl, rfl, by decide⟩
      | finite negative m q h =>
          obtain ⟨d, htoken, -, hchars, -⟩ :=
            exists_token_text (x := .finite negative m q h) rfl
          have hwrite : write (.number (.finite negative m q h)) = d.chars := hchars.symm
          rw [hwrite]
          exact exists_head_token htoken
  | text s => exact ⟨Text.doubleQuote, _, rfl, rfl, by decide⟩
  | array items => exact ⟨'[', _, rfl, rfl, by decide⟩
  | object members => exact ⟨'\x7b', _, rfl, rfl, by decide⟩

theorem skipSpace_write (v : Json) :
    skipSpace (write v ++ rest) = write v ++ rest := by
  obtain ⟨c, cs, hwrite, hspace, -⟩ := exists_head_write v
  rw [hwrite]
  exact skipSpace_cons hspace _

theorem length_write_pos (v : Json) :
    0 < (write v).length := by
  obtain ⟨c, cs, hwrite, -⟩ := exists_head_write v
  rw [hwrite]
  exact Nat.succ_pos _

theorem value_text (s : Text) :
    value (fuel + 1) depth (write (.text s) ++ rest) = .ok (.text s, rest) := by
  have hstring := string_string s rest
  have hwrite :
      write (.text s) ++ rest =
        '\x22' :: (s.symbols.flatMap Writer.escapeSymbol ++ Text.doubleQuote :: rest) := by
    simp [write, Writer.string, Text.doubleQuote]
  rw [hwrite, value]
  simp only [hstring]

/-- Further items start like the first of them. -/
theorem exists_writeItems_cons
    (item : Json)
    (others : List Json) :
    ∃ more, writeItems (item :: others) = write item ++ more := by
  cases others with
  | nil => exact ⟨_, rfl⟩
  | cons second others => exact ⟨_, by rw [writeItems]; simp⟩

theorem skipSpace_writeItems
    (item : Json)
    (others : List Json) :
    skipSpace (writeItems (item :: others) ++ rest) = writeItems (item :: others) ++ rest := by
  obtain ⟨more, hmore⟩ := exists_writeItems_cons item others
  rw [hmore, List.append_assoc]
  exact skipSpace_write item

theorem value_array
    {item : Json}
    {others : List Json}
    (hitems :
      items fuel depth (writeItems (item :: others) ++ rest) = .ok (item :: others, rest)) :
    value (fuel + 1) (depth + 1) (write (.array (item :: others)) ++ rest) =
      .ok (.array (item :: others), rest) := by
  have hskip :
      skipSpace (writeItems (item :: others) ++ rest) = writeItems (item :: others) ++ rest :=
    skipSpace_writeItems item others
  obtain ⟨more, hmore⟩ := exists_writeItems_cons item others
  obtain ⟨c, cs, hwrite, -, hc, -⟩ := exists_head_write item
  rw [write, List.cons_append, value]
  simp only [hskip]
  split
  · next heq =>
      rw [hmore, hwrite] at heq
      cases heq
      contradiction
  · rw [hitems]

theorem items_last
    {item : Json}
    (hvalue : value fuel depth (write item ++ ']' :: rest) = .ok (item, ']' :: rest)) :
    items (fuel + 1) depth (writeItems [item] ++ rest) = .ok ([item], rest) := by
  have hwrite : writeItems [item] ++ rest = write item ++ ']' :: rest := by simp [writeItems]
  rw [hwrite, items, hvalue]
  rfl

theorem items_more
    {item second : Json}
    {others : List Json}
    (hvalue :
      value fuel depth (write item ++ ',' :: ' ' :: (writeItems (second :: others) ++ rest)) =
        .ok (item, ',' :: ' ' :: (writeItems (second :: others) ++ rest)))
    (hitems :
      items fuel depth (writeItems (second :: others) ++ rest) = .ok (second :: others, rest)) :
    items (fuel + 1) depth (writeItems (item :: second :: others) ++ rest) =
      .ok (item :: second :: others, rest) := by
  have hwrite :
      writeItems (item :: second :: others) ++ rest =
        write item ++ ',' :: ' ' :: (writeItems (second :: others) ++ rest) := by
    simp [writeItems]
  have hskip :
      skipSpace (' ' :: (writeItems (second :: others) ++ rest)) =
        writeItems (second :: others) ++ rest :=
    skipSpace_writeItems second others
  rw [hwrite, items, hvalue]
  simp only [skipSpace_cons (c := ',') rfl, hskip, hitems]

/-- Members start with the quote of a name. -/
theorem exists_writeMembers_cons
    (member : Text × Json)
    (others : List (Text × Json)) :
    ∃ more, writeMembers (member :: others) = Text.doubleQuote :: more := by
  obtain ⟨name, v⟩ := member
  cases others with
  | nil => exact ⟨_, rfl⟩
  | cons second others => exact ⟨_, rfl⟩

/-- The reader of members takes a name and goes on with the value. -/
theorem members_string
    (name : Text)
    (v : Json) :
    members (fuel + 1) depth (Writer.string name ++ ':' :: ' ' :: (write v ++ rest)) =
      match value fuel depth (write v ++ rest) with
      | .error fault => .error fault
      | .ok (v, after) =>
          match skipSpace after with
          | '\x7d' :: rest => .ok ([(name, v)], rest)
          | ',' :: rest =>
              match members fuel depth (skipSpace rest) with
              | .ok (pairs, after) => .ok ((name, v) :: pairs, after)
              | .error fault => .error fault
          | other => .error (.malformed .comma other.length) := by
  have hstring := string_string name (':' :: ' ' :: (write v ++ rest))
  have hskip : skipSpace (' ' :: (write v ++ rest)) = write v ++ rest := skipSpace_write v
  have hwrite :
      Writer.string name ++ ':' :: ' ' :: (write v ++ rest) =
        '\x22' ::
          (name.symbols.flatMap Writer.escapeSymbol ++
            Text.doubleQuote :: ':' :: ' ' :: (write v ++ rest)) := by
    simp [Writer.string, Text.doubleQuote]
  rw [hwrite, members]
  simp only [hstring, skipSpace_cons (c := ':') rfl]
  rewrite [hskip]
  rfl

theorem value_object
    {member : Text × Json}
    {others : List (Text × Json)}
    (hnodup : ((member :: others).map Prod.fst).Nodup)
    (hmembers :
      members fuel depth (writeMembers (member :: others) ++ rest) =
        .ok (member :: others, rest)) :
    value (fuel + 1) (depth + 1) (write (.object (member :: others)) ++ rest) =
      .ok (.object (member :: others), rest) := by
  obtain ⟨more, hmore⟩ := exists_writeMembers_cons member others
  have hskip :
      skipSpace (writeMembers (member :: others) ++ rest) =
        writeMembers (member :: others) ++ rest := by
    rw [hmore]
    rfl
  rw [write, List.cons_append, value]
  simp only [hskip]
  split
  · next heq =>
      rw [hmore] at heq
      cases heq
  · rw [hmembers, ← ofMembers_of_nodup hnodup]

theorem members_last
    {name : Text}
    {v : Json}
    (hvalue : value fuel depth (write v ++ '\x7d' :: rest) = .ok (v, '\x7d' :: rest)) :
    members (fuel + 1) depth (writeMembers [(name, v)] ++ rest) = .ok ([(name, v)], rest) := by
  have hwrite :
      writeMembers [(name, v)] ++ rest =
        Writer.string name ++ ':' :: ' ' :: (write v ++ '\x7d' :: rest) := by
    simp [writeMembers]
  rw [hwrite, members_string, hvalue]
  rfl

theorem members_more
    {name : Text}
    {v : Json}
    {second : Text × Json}
    {others : List (Text × Json)}
    (hvalue :
      value fuel depth (write v ++ ',' :: ' ' :: (writeMembers (second :: others) ++ rest)) =
        .ok (v, ',' :: ' ' :: (writeMembers (second :: others) ++ rest)))
    (hmembers :
      members fuel depth (writeMembers (second :: others) ++ rest) =
        .ok (second :: others, rest)) :
    members (fuel + 1) depth (writeMembers ((name, v) :: second :: others) ++ rest) =
      .ok ((name, v) :: second :: others, rest) := by
  have hwrite :
      writeMembers ((name, v) :: second :: others) ++ rest =
        Writer.string name ++
          ':' :: ' ' :: (write v ++ ',' :: ' ' :: (writeMembers (second :: others) ++ rest)) := by
    simp [writeMembers]
  have hskip :
      skipSpace (' ' :: (writeMembers (second :: others) ++ rest)) =
        writeMembers (second :: others) ++ rest := by
    obtain ⟨more, hmore⟩ := exists_writeMembers_cons second others
    rw [hmore]
    rfl
  rw [hwrite, members_string, hvalue]
  simp only [skipSpace_cons (c := ',') rfl, hskip, hmembers]

end Nested

mutual

/-- A written value is read from the front of a text. -/
theorem value_write
    (v : Json)
    (fuel depth : Nat)
    (rest : List Char)
    (hreadable : Readable v)
    (hdepth : v.depth ≤ depth)
    (hfuel : 2 * (write v).length ≤ fuel)
    (hrest : EndsNumber rest) :
    value fuel depth (write v ++ rest) = .ok (v, rest) := by
  obtain ⟨fuel, rfl⟩ : ∃ n, fuel = n + 1 := by
    have hpos := length_write_pos v
    exact ⟨fuel - 1, by omega⟩
  match v with
  | .null => rfl
  | .bool true => rfl
  | .bool false => rfl
  | .integer n => exact value_integer fuel depth hreadable hrest
  | .number x => exact value_number fuel depth x hrest
  | .text s => exact value_text s
  | .array [] =>
      rw [Json.depth] at hdepth
      obtain ⟨depth, rfl⟩ : ∃ n, depth = n + 1 := ⟨depth - 1, by omega⟩
      rfl
  | .array (item :: others) =>
      rw [Json.depth] at hdepth
      rw [Readable] at hreadable
      rw [write, List.length_cons] at hfuel
      obtain ⟨depth, rfl⟩ : ∃ n, depth = n + 1 := ⟨depth - 1, by omega⟩
      have hitems :=
        items_write item others fuel depth rest hreadable (by omega) (by omega)
      exact value_array hitems
  | .object [] =>
      rw [Json.depth] at hdepth
      obtain ⟨depth, rfl⟩ : ∃ n, depth = n + 1 := ⟨depth - 1, by omega⟩
      rfl
  | .object (member :: others) =>
      rw [Json.depth] at hdepth
      rw [Readable] at hreadable
      rw [write, List.length_cons] at hfuel
      obtain ⟨depth, rfl⟩ : ∃ n, depth = n + 1 := ⟨depth - 1, by omega⟩
      have hmembers :=
        members_write member others fuel depth rest hreadable.2 (by omega) (by omega)
      exact value_object hreadable.1 hmembers
termination_by fuel

theorem items_write
    (item : Json)
    (others : List Json)
    (fuel depth : Nat)
    (rest : List Char)
    (hreadable : ItemsReadable (item :: others))
    (hdepth : itemsDepth (item :: others) ≤ depth)
    (hfuel : 2 * (writeItems (item :: others)).length ≤ fuel + 1) :
    items fuel depth (writeItems (item :: others) ++ rest) = .ok (item :: others, rest) := by
  rw [itemsDepth] at hdepth
  rw [ItemsReadable] at hreadable
  have hpos := length_write_pos item
  match others with
  | [] =>
      simp only [writeItems, List.length_append, List.length_singleton] at hfuel
      obtain ⟨fuel, rfl⟩ : ∃ n, fuel = n + 1 := ⟨fuel - 1, by omega⟩
      have hvalue :=
        value_write item fuel depth (']' :: rest) hreadable.1 (by omega) (by omega)
          (endsNumber_cons (by decide))
      exact items_last hvalue
  | second :: others =>
      simp only [writeItems, List.length_append, List.length_cons] at hfuel
      obtain ⟨fuel, rfl⟩ : ∃ n, fuel = n + 1 := ⟨fuel - 1, by omega⟩
      have hvalue :=
        value_write item fuel depth
          (',' :: ' ' :: (writeItems (second :: others) ++ rest)) hreadable.1 (by omega)
          (by omega) (endsNumber_cons (by decide))
      have hitems :=
        items_write second others fuel depth rest hreadable.2 (by omega) (by omega)
      exact items_more hvalue hitems
termination_by fuel

theorem members_write
    (member : Text × Json)
    (others : List (Text × Json))
    (fuel depth : Nat)
    (rest : List Char)
    (hreadable : MembersReadable (member :: others))
    (hdepth : membersDepth (member :: others) ≤ depth)
    (hfuel : 2 * (writeMembers (member :: others)).length ≤ fuel + 1) :
    members fuel depth (writeMembers (member :: others) ++ rest) =
      .ok (member :: others, rest) := by
  obtain ⟨name, v⟩ := member
  rw [membersDepth] at hdepth
  rw [MembersReadable] at hreadable
  have hpos := length_write_pos v
  match others with
  | [] =>
      simp only [writeMembers, List.length_append, List.length_cons] at hfuel
      obtain ⟨fuel, rfl⟩ : ∃ n, fuel = n + 1 := ⟨fuel - 1, by omega⟩
      have hvalue :=
        value_write v fuel depth ('\x7d' :: rest) hreadable.1 (by omega) (by omega)
          (endsNumber_cons (by decide))
      exact members_last hvalue
  | second :: others =>
      simp only [writeMembers, List.length_append, List.length_cons] at hfuel
      obtain ⟨fuel, rfl⟩ : ∃ n, fuel = n + 1 := ⟨fuel - 1, by omega⟩
      have hvalue :=
        value_write v fuel depth
          (',' :: ' ' :: (writeMembers (second :: others) ++ rest)) hreadable.1 (by omega)
          (by omega) (endsNumber_cons (by decide))
      have hmembers :=
        members_write second others fuel depth rest hreadable.2 (by omega) (by omega)
      exact members_more hvalue hmembers
termination_by fuel

end

end Reader

/-- A written value reads back, within the depth that it has. -/
theorem readWithin_write
    {v : Json}
    {depth : Nat}
    (hreadable : Readable v)
    (hdepth : v.depth ≤ depth) :
    readWithin depth (write v) = .ok v := by
  have hend : EndsNumber [] := by
    intro c hc
    contradiction
  have hvalue :=
    Reader.value_write v (2 * (write v).length + 2) depth [] hreadable hdepth (by omega) hend
  have hskip : skipSpace (write v ++ []) = write v ++ [] := Reader.skipSpace_write v
  have hmark : (write v).head? ≠ some byteOrderMark := by
    obtain ⟨c, cs, hwrite, -, -, hc⟩ := Reader.exists_head_write v
    simpa [hwrite] using hc
  rw [List.append_nil] at hvalue hskip
  rw [readWithin, if_neg hmark, hskip, hvalue]
  rfl

/-- A strict value reads back, where the value that it was made of would. -/
theorem readWithin_write_strict
    {v : Json}
    {depth : Nat}
    (hreadable : Readable v)
    (hdepth : v.depth ≤ depth) :
    readWithin depth (write v.strict) = .ok v.strict :=
  readWithin_write (readable_strict v hreadable) ((depth_strict v).trans_le hdepth)

example :
    write (strict (.array [.number .nan, .text "\n😀", .bool true])) =
      "[\"NaN\", \"\\n\\ud83d\\ude00\", true]".toList := by
  cbv

/-- A text between quotes. -/
def quoted (cs : List Char) : List Char :=
  Text.doubleQuote :: (cs ++ [Text.doubleQuote])

section Quotes

variable {s : Spelling}

theorem escapeChar_of_isHexDigit
    {c : Char}
    (h : Number.isHexDigit c = true) :
    Writer.escapeChar c = [c] := by
  have hrange : 48 ≤ c.toNat ∧ c.toNat ≤ 102 ∧ c.toNat ≠ 92 := by
    simp only [Number.isHexDigit, isDigit, Bool.or_eq_true, Bool.and_eq_true, decide_eq_true_eq,
      Char.le_def, UInt32.le_iff_toNat_le] at h
    change
      ((48 ≤ c.toNat ∧ c.toNat ≤ 57) ∨ 97 ≤ c.toNat ∧ c.toNat ≤ 102) ∨
        65 ≤ c.toNat ∧ c.toNat ≤ 70 at h
    omega
  have hne (d : Char) (hd : d.toNat < 48 ∨ d.toNat = 92) : c ≠ d := by
    rintro rfl
    omega
  have hprintable : 0x20 ≤ c.toNat ∧ c.toNat < 0x7F := by omega
  simp [Writer.escapeChar, hne Text.doubleQuote (by decide), hne Text.backslash (by decide),
    hne '\n' (by decide), hne '\r' (by decide), hne '\t' (by decide), hne '\x08' (by decide),
    hne '\x0c' (by decide), hprintable]

/-- A character of a decimal literal is written in a text as it is. -/
theorem escapeChar_of_isLiteralChar
    {c : Char}
    (h : Spelling.IsLiteralChar .decimal c) :
    Writer.escapeChar c = [c] := by
  have hmarks : ∀ c ∈ ['.', '+', '-'], Writer.escapeChar c = [c] := by
    rw [← List.forall_iff_forall_mem]
    decide
  have hletters : ∀ c ∈ Number.LiteralForm.decimal.exponentLetters, Writer.escapeChar c = [c] := by
    rw [← List.forall_iff_forall_mem]
    decide
  rcases h with hdigit | hmark | hletter
  · exact escapeChar_of_isHexDigit hdigit
  · exact hmarks c hmark
  · exact hletters c hletter

/-- A token between quotes is a text. -/
theorem readsAs_quoted
    (h : IsToken s) :
    ReadsAs (quoted s.chars) (.text (String.ofList s.chars)) := by
  have hplain : ∀ c ∈ s.chars, Writer.escapeChar c = [c] := by
    intro c hc
    refine escapeChar_of_isLiteralChar ?_
    rw [← h.form]
    rcases List.mem_append.1 hc with hsign | hbody
    · exact Spelling.isLiteralChar_of_mem_sign hsign
    · refine (Spelling.isLiteralChar_of_mem_bodyChars hbody).resolve_left ?_
      rw [Spelling.opening_of_decimal h.form]
      exact List.not_mem_nil
  have hwrite : write (.text (String.ofList s.chars)) = quoted s.chars := by
    rw [write, Writer.string_whole, String.toList_ofList, List.flatMap_congr hplain,
      List.flatMap_singleton']
    rfl
  intro fuel depth rest _
  rw [← hwrite]
  exact Reader.value_text _

end Quotes

end Json
end ChangeFeed
