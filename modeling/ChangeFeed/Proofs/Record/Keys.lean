import ChangeFeed.Proofs.Record.Rows

/-!
# Key records

The block of the key columns of a side is read a second time from the same texts as
the block of all columns. Where names are distinct, it comes to the fields that the
block has under the names of the key columns, in the order of the table; so it can
be read whenever the block can.

**Results.**

* `isKeyName_of_mem_select`: of the columns that a block takes, names tell the key columns.
* `build_keys`: the block of the key columns, from the block of all columns.
* `isKeyPart_build`, `exists_buildKey`: what it holds, and that it is always built.
-/

namespace ChangeFeed

namespace Table

/-- Whether a name is that of a key column. -/
def isKeyName (table : Table) (name : Json) : Bool :=
  table.columns.any fun column => column.isKey && decide (column.name.identity? = name.identity?)

end Table

namespace Block

/-- The fields of a block under the names of key columns, in their order. -/
def keyPart (table : Table) (block : Block) : Block :=
  block.filter fun field => table.isKeyName field.1

/--
A key record is what a block has under the names of key columns, with the values
that it has there: in the order of the table, and nothing if no key column has a
captured text on the side.
-/
structure IsKeyPart
    (change : Change)
    (table : Table)
    (side : Side)
    (block key : Block) : Prop where
  eq_keyPart : key = block.keyPart table
  ordered : (key.map Prod.fst).Sublist table.keyNames
  eq_nil_iff :
    key = []
      ↔
    ∀ (i : Nat) (column : Column) (images : Images),
      table.columns[i]? = some column →
      change.columns[i]? = some images →
      column.isKey = true →
      (images.on side).captured? = none

end Block

section Keys

variable {asText : Bool}
variable {change : Change}
variable {table : Table}
variable {columns : List Aligned}
variable {side : Side}
variable {block key : Block}

/-- Among the columns that a block takes, those under the names of key columns are key columns. -/
theorem isKeyName_of_mem_select
    {field : Column × Text}
    (hnames : table.NamesDistinct)
    (halign : align change table = .ok columns)
    (hfield : field ∈ select columns side false) :
    table.isKeyName field.1.name = field.1.isKey := by
  obtain ⟨a, ha, -, -, hcolumn⟩ := mem_select_iff.1 hfield
  rw [Bool.eq_iff_iff, Table.isKeyName, List.any_eq_true, ← hcolumn, ← columns_align halign]
  constructor
  · rintro ⟨column, hmem, hkey⟩
    obtain ⟨b, hb, rfl⟩ := List.mem_map.1 hmem
    rw [Bool.and_eq_true, decide_eq_true_eq] at hkey
    rw [hnames.eq_of_identity halign ha hb hkey.2.symm]
    exact hkey.1
  · intro hkey
    exact ⟨a.column, List.mem_map_of_mem ha, by simp [hkey]⟩

/-- The block of the key columns is part of the block of all columns. -/
theorem build_keys
    (hnames : table.NamesDistinct)
    (halign : align change table = .ok columns)
    (hbuild : Block.build asText columns side false = .ok block) :
    Block.build asText columns side true = .ok (block.keyPart table) := by
  obtain ⟨key, hkey⟩ := Block.exists_build_keys _ _ _ block hbuild
  have hfields := forall₂_build hnames halign hbuild
  have hkeyFields := forall₂_build hnames halign hkey
  rw [select_true] at hkeyFields
  have hpart : List.Forall₂ (Block.IsReading asText)
      ((select columns side false).filter fun field => field.1.isKey) (block.keyPart table) := by
    have hmarked := (List.forall₂_and_left _ _).2 ⟨fun field hfield => hfield, hfields⟩
    refine (List.rel_filter ?_ hmarked).imp fun field placed h => h.2
    rintro field placed ⟨hfield, hname, -⟩
    simp only [hname, isKeyName_of_mem_select hnames halign hfield]
  -- What is read from a text is one field, so both lists are read from the same texts.
  have hunique : Relator.RightUnique (Block.IsReading asText) := by
    rintro field ⟨name, value⟩ ⟨other, value'⟩ ⟨hname, hvalue⟩ ⟨hother, hvalue'⟩
    rw [hvalue] at hvalue'
    exact Prod.ext (hname.trans hother.symm) (Except.ok.inj hvalue')
  rw [hkey, List.right_unique_forall₂' hunique hkeyFields hpart]

/-- The key columns that a key record takes are key columns of the table, in their order. -/
theorem select_keys_sublist
    (halign : align change table = .ok columns) :
    ((select columns side true).map Prod.fst).Sublist (table.columns.filter Column.isKey) := by
  have hsub := (select_sublist columns side true).filter Column.isKey
  rwa [columns_align halign, List.filter_eq_self.2 ?_] at hsub
  intro column hcolumn
  obtain ⟨field, hfield, rfl⟩ := List.mem_map.1 hcolumn
  obtain ⟨a, -, hkey, -, hsame⟩ := mem_select_iff.1 hfield
  simpa [hsame] using hkey

/-- A key record takes nothing just if no key column has a captured text on the side. -/
theorem select_keys_eq_nil_iff
    (halign : align change table = .ok columns) :
    select columns side true = []
      ↔
    ∀ (i : Nat) (column : Column) (images : Images),
      table.columns[i]? = some column →
      change.columns[i]? = some images →
      column.isKey = true →
      (images.on side).captured? = none := by
  rw [List.eq_nil_iff_forall_not_mem]
  constructor
  · intro hnone i column images hcolumn himages hkey
    have hmem : (⟨column, images⟩ : Aligned) ∈ columns := by
      rw [eq_zipWith_align halign]
      exact List.mem_of_getElem?
        (List.getElem?_zipWith_eq_some.2 ⟨column, images, hcolumn, himages, rfl⟩)
    refine Option.eq_none_iff_forall_ne_some.2 fun text htext => hnone (column, text) ?_
    exact mem_select_iff.2 ⟨_, hmem, by simp [hkey], htext, rfl⟩
  · intro hnone field hfield
    obtain ⟨i, images, hcolumn, himages, htext⟩ := exists_position_of_mem_select halign hfield
    obtain ⟨a, -, hkey, -, hsame⟩ := mem_select_iff.1 hfield
    have habsent := hnone i field.1 images hcolumn himages (by simpa [hsame] using hkey)
    rw [htext] at habsent
    contradiction

/-- The block of the key columns is the key part of the block of all columns. -/
theorem isKeyPart_build
    (hnames : table.NamesDistinct)
    (halign : align change table = .ok columns)
    (hbuild : Block.build asText columns side false = .ok block) :
    block.IsKeyPart change table side (block.keyPart table) := by
  have hfields := forall₂_build hnames halign (build_keys hnames halign hbuild)
  refine ⟨rfl, ?_, ?_⟩
  · rw [Block.map_fst_of_isReading hfields, Table.keyNames]
    simpa [Function.comp_def] using (select_keys_sublist halign).map Column.name
  · rw [← select_keys_eq_nil_iff halign, ← List.length_eq_zero_iff, ← List.length_eq_zero_iff,
      hfields.length_eq]

/-- Once the block of a side is built, so is the key record, as part of it. -/
theorem exists_buildKey
    (hnames : table.NamesDistinct)
    (halign : align change table = .ok columns)
    (hbuild : Block.build asText columns side false = .ok block) :
    ∃ key,
      Block.buildKey asText columns side = .ok key ∧
      block.IsKeyPart change table side (key.getD []) := by
  obtain ⟨key, hkey, hpart⟩ :=
    Block.build_keys_eq_ok_iff.1 (build_keys hnames halign hbuild)
  exact ⟨key, hkey, hpart ▸ isKeyPart_build hnames halign hbuild⟩

end Keys
end ChangeFeed
