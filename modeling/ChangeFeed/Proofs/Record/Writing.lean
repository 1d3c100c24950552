import ChangeFeed.Proofs.Record.Fields
import ChangeFeed.Record.Line

/-!
# Records that cannot be written

A line of a record can fail to be written for two reasons only: an operation key
or a key name is nested too deeply, or a column with a captured text has a number
for its name that is not finite. That a block keeps the first of several names
with one identity makes no difference: such a number is alike to nothing else.

**Results.**

* `exists_memberName?_build_iff`: which blocks have a name that cannot be written.
* `exists_line_error_iff`: which lines cannot be written.
-/

namespace ChangeFeed

namespace Json

/-- A name that is a number and not finite. -/
def IsNonFinite (name : Json) : Prop :=
  ∃ x, name = .number x ∧ x.isFinite = false

/-- Of the names that can be looked up, the numbers that are not finite cannot be written. -/
theorem memberName?_eq_none_iff
    {name : Json}
    {id : Identity}
    (hid : name.identity? = some id) :
    name.memberName? = none ↔ name.IsNonFinite := by
  unfold IsNonFinite
  cases name with
  | array items => contradiction
  | object members => contradiction
  | _ => simp [memberName?]

/-- The identity of a finite double is that of its value. -/
theorem identityOfNumber_finite
    {x y : Number.Double}
    (hx : x.isFinite = true)
    (h : identityOfNumber x = .number y) :
    y.isFinite = true := by
  cases x with
  | finite negative m q hcanonical =>
      simp only [identityOfNumber, Number.Floating.toRat?] at h
      split at h
      · contradiction
      · cases h
        rfl
  | _ => contradiction

/-- Whether a name is a number that is not finite shows in its identity. -/
theorem isNonFinite_iff_identity?
    (name : Json) :
    name.IsNonFinite
      ↔
    ∃ x, name.identity? = some (.number x) ∧ x.isFinite = false := by
  unfold IsNonFinite
  cases name with
  | number x =>
      constructor
      · rintro ⟨y, hy, hfinite⟩
        cases hy
        cases x with
        | finite => contradiction
        | _ => exact ⟨_, rfl, rfl⟩
      · rintro ⟨y, hy, hfinite⟩
        refine ⟨x, rfl, ?_⟩
        cases hx : x.isFinite with
        | false => rfl
        | true =>
            rw [identityOfNumber_finite hx (Option.some.inj hy)] at hfinite
            contradiction
  | _ => simp [identity?]

end Json

namespace Block

theorem exists_members_error_iff
    (block : Block) :
    (∃ fault, members block = .error fault)
      ↔
    ∃ field ∈ block, field.1.memberName? = none := by
  induction block with
  | nil =>
      simp [members]
  | cons field rest ih =>
      obtain ⟨name, value⟩ := field
      simp only [members, List.exists_mem_cons_iff, ← ih]
      cases hname : name.memberName? with
      | none => simp
      | some member => cases hrest : members rest <;> simp [bind, Except.bind]

theorem exists_toJson_error_iff
    (block : Block) :
    (∃ fault, toJson (some block) = .error fault)
      ↔
    ∃ field ∈ block, field.1.memberName? = none := by
  rw [← exists_members_error_iff]
  cases h : members block <;> simp [toJson, h, bind, Except.bind]

/-- A name put into a block adds one that cannot be written just if it is one itself. -/
theorem exists_memberName?_insert_iff
    (block : Block)
    {name : Json}
    {id : Identity}
    (value : Value)
    (hid : name.identity? = some id) :
    (∃ field ∈ block.insert name value, field.1.memberName? = none)
      ↔
    (∃ field ∈ block, field.1.memberName? = none) ∨ name.IsNonFinite := by
  induction block with
  | nil =>
      simp [Block.insert, Json.memberName?_eq_none_iff hid]
  | cons field rest ih =>
      obtain ⟨key, old⟩ := field
      by_cases hkey : key.identity? = name.identity?
      · -- The key stays and stands for the name.
        have hkeyId : key.identity? = some id := hkey.trans hid
        have hsame : key.memberName? = none ↔ name.IsNonFinite := by
          rw [Json.memberName?_eq_none_iff hkeyId, Json.isNonFinite_iff_identity?, hkey,
            ← Json.isNonFinite_iff_identity?]
        simp only [Block.insert, hkey, if_true, List.exists_mem_cons_iff, hsame]
        constructor
        · rintro (hname | hrest)
          · exact Or.inr hname
          · exact Or.inl (Or.inr hrest)
        · rintro ((hname | hrest) | hname)
          · exact Or.inl hname
          · exact Or.inr hrest
          · exact Or.inl hname
      · simp only [Block.insert, hkey, if_false, List.exists_mem_cons_iff, ih, or_assoc]

theorem exists_memberName?_extend_iff
    {asText : Bool}
    {block extended : Block}
    {fields : List (Column × Text)}
    (h : extend asText block fields = .ok extended) :
    (∃ field ∈ extended, field.1.memberName? = none)
      ↔
    (∃ field ∈ block, field.1.memberName? = none) ∨
      ∃ field ∈ fields, field.1.name.IsNonFinite := by
  induction fields generalizing block with
  | nil =>
      cases h
      simp
  | cons field rest ih =>
      obtain ⟨column, raw⟩ := field
      simp only [extend] at h
      split at h
      · contradiction
      · next value hvalue =>
          split at h
          · contradiction
          · next id hid =>
              rw [ih h, exists_memberName?_insert_iff block value hid, List.exists_mem_cons_iff,
                or_assoc]

/-- The names of a block are those of the texts that it was built of. -/
theorem exists_memberName?_build_iff
    {asText : Bool}
    {columns : List Aligned}
    {side : Side}
    {keysOnly : Bool}
    {block : Block}
    (h : build asText columns side keysOnly = .ok block) :
    (∃ field ∈ block, field.1.memberName? = none)
      ↔
    ∃ field ∈ select columns side keysOnly, field.1.name.IsNonFinite := by
  rw [exists_memberName?_extend_iff h]
  simp

end Block

namespace Record

theorem exists_toJson_error_iff
    (record : Record) :
    (∃ fault, record.toJson = .error fault)
      ↔
    ∃ field ∈ record.block, field.1.memberName? = none := by
  rw [← Block.exists_toJson_error_iff]
  cases hside : record.side with
  | before =>
      have hbefore : record.on .before = some record.block := by simp [on, hside]
      have hafter : record.on .after = none := by simp [on, hside]
      unfold toJson
      rw [hbefore, hafter]
      cases Block.toJson (some record.block) <;> simp [Block.toJson, bind, Except.bind]
  | after =>
      have hbefore : record.on .before = none := by simp [on, hside]
      have hafter : record.on .after = some record.block := by simp [on, hside]
      unfold toJson
      rw [hbefore, hafter]
      cases Block.toJson (some record.block) <;> simp [Block.toJson, bind, Except.bind]

end Record

namespace Emitted

theorem exists_toJson_error_iff
    (built : Emitted) :
    (∃ fault, built.toJson = .error fault)
      ↔
    (∃ key, built.key = some key ∧ ∃ field ∈ key, field.1.memberName? = none) ∨
      ∃ field ∈ built.record.block, field.1.memberName? = none := by
  rw [← Record.exists_toJson_error_iff]
  unfold toJson
  cases built.key with
  | none =>
      cases built.record.toJson <;> simp [Block.toJson, bind, Except.bind]
  | some key =>
      have hkey := Block.exists_toJson_error_iff key
      simp only [Option.some.injEq, exists_eq_left', ← hkey]
      cases Block.toJson (some key) <;> cases built.record.toJson <;>
        simp [bind, Except.bind]

/-- A line is not written if it is nested too deeply or has a name that cannot be written. -/
theorem exists_line_error_iff
    (built : Emitted) :
    (∃ fault, built.line = .error fault)
      ↔
    nestingLimit < built.record.nesting + 2 ∨
      (∃ key, built.key = some key ∧ ∃ field ∈ key, field.1.memberName? = none) ∨
      ∃ field ∈ built.record.block, field.1.memberName? = none := by
  rw [← exists_toJson_error_iff]
  unfold line
  split
  · next hnesting =>
      have hlimit : ¬nestingLimit < built.record.nesting + 2 := by omega
      cases built.toJson <;> simp [bind, Except.bind, hlimit]
  · next hnesting =>
      have hlimit : nestingLimit < built.record.nesting + 2 := by omega
      simp [hlimit]

/-- Lines are written up to the first that is not. -/
theorem exists_lines_fault_iff
    (pairs : List Emitted) :
    (∃ fault, (lines pairs).2 = some fault)
      ↔
    ∃ built ∈ pairs, ∃ fault, built.line = .error fault := by
  induction pairs with
  | nil =>
      simp [lines]
  | cons built rest ih =>
      rw [List.exists_mem_cons_iff, ← ih, lines]
      cases built.line <;> simp

end Emitted
end ChangeFeed
