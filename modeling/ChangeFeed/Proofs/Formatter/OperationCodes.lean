import ChangeFeed.Proofs.Formatter.Refusal
import ChangeFeed.Proofs.Message.Extraction
import ChangeFeed.Proofs.Text.Letters

/-!
# Operation codes

Which texts stand for a kind of change, and what becomes of the others. A code is a word
in letters of either case; two letters beyond ASCII pass for ASCII ones, the dotless `ı`
for an `I` and the long `ſ` for an `S`, so that some texts that are no code count as
inserts. The change of a message with any other text is of no known kind: it is fatal, and
nothing comes of it.

**Results.**

* `ofCode_eq_iff`: the texts that stand for a kind.
* `spells_iff_of_forall`: where no other letters pass for ASCII ones.
* `format_unknown_iff`: an aligned change is fatal as unknown just if it is of no known kind.
* `format_code`: what becomes of the change of a message, by its code.
-/

namespace ChangeFeed

open Text (HasCapital)

namespace ChangeKind

/-- A text spells a word in letters of either case, or with letters that pass for such. -/
def Spells (code word : String) : Prop :=
  List.Forall₂ HasCapital code.toList word.toList

section Codes

variable {code word : String}
variable {kind : ChangeKind}

/-- A text in capitals is a code just if it spells the code. -/
theorem upper_eq_iff_spells
    (h : (word, kind) ∈ codes) :
    Text.upper code = word ↔ Spells code word := by
  have hascii : ∀ entry ∈ codes, ∀ d ∈ entry.1.toList, d.toNat < 0x80 := by
    simp [codes]
  have hlong :
      ∀ entry ∈ codes, ∀ form ∈ Text.asciiLongCapitals, ¬ form <:+: entry.1.toList := by
    decide
  exact Text.upper_eq_iff (hascii _ h) (hlong _ h)

/-- The texts that stand for a kind are those that spell one of its codes. -/
theorem ofCode_eq_iff
    {code : Text}
    (hkind : kind ≠ .unknown) :
    ofCode code = kind ↔ ∃ word, (word, kind) ∈ codes ∧ Spells code.shown word := by
  constructor
  · intro h
    cases hlookup : codes.lookup (Text.upper code.shown) with
    | none =>
        rw [ofCode, hlookup] at h
        exact absurd h.symm hkind
    | some found =>
        rw [ofCode, hlookup, Option.getD_some] at h
        subst h
        obtain ⟨before, after, heq, -⟩ := List.lookup_eq_some_iff.1 hlookup
        have hmem : (Text.upper code.shown, found) ∈ codes := by simp [heq]
        exact ⟨_, hmem, (upper_eq_iff_spells hmem).1 rfl⟩
  · rintro ⟨word, hmem, hspells⟩
    have hlookup : ∀ entry ∈ codes, codes.lookup entry.1 = some entry.2 := by decide
    rw [ofCode, (upper_eq_iff_spells hmem).2 hspells, hlookup _ hmem, Option.getD_some]

/-- A text that spells no code stands for no known kind. -/
theorem ofCode_eq_unknown_iff
    {code : Text} :
    ofCode code = .unknown ↔ ∀ entry ∈ codes, ¬ Spells code.shown entry.1 := by
  have hknown : ∀ entry ∈ codes, entry.2 ≠ .unknown := by decide
  constructor
  · rintro h ⟨word, kind⟩ hmem hspells
    have hkind := (ofCode_eq_iff (hknown _ hmem)).2 ⟨word, hmem, hspells⟩
    exact hknown _ hmem (hkind.symm.trans h)
  · intro h
    by_contra hne
    obtain ⟨word, hmem, hspells⟩ := (ofCode_eq_iff hne).1 rfl
    exact h _ hmem hspells

/-- Where no other letters pass for ASCII ones, a word is spelled in letters of either case. -/
theorem spells_iff_of_forall
    (h : ∀ c ∈ code.toList, ∀ d ∈ word.toList, HasCapital c d → c.toUpper = d) :
    Spells code word ↔ code.map Char.toUpper = word := by
  rw [← String.toList_inj, String.toList_map, ← List.forall₂_eq_eq_eq, List.forall₂_map_left_iff,
    Spells]
  constructor
  · intro hspells
    obtain ⟨hlength, hcapital⟩ := List.forall₂_iff_zip.1 hspells
    refine List.forall₂_iff_zip.2 ⟨hlength, fun {c d} hpair => ?_⟩
    obtain ⟨hc, hd⟩ := List.of_mem_zip hpair
    exact h c hc d hd (hcapital hpair)
  · exact fun hupper => hupper.imp fun c d heq => Or.inl heq

/-- Without the dotless `ı` and the long `ſ`, a code is spelled in letters of either case. -/
theorem spells_iff_of_not_mem
    (hdotless : 'ı' ∉ code.toList)
    (hlong : 'ſ' ∉ code.toList) :
    Spells code word ↔ code.map Char.toUpper = word := by
  refine spells_iff_of_forall fun c hc d _ hcapital => ?_
  rcases hcapital with hupper | ⟨rfl, -⟩ | ⟨rfl, -⟩
  · exact hupper
  · exact absurd hc hdotless
  · exact absurd hc hlong

/-- Only the codes of an insert have an `I` or an `S`, for which other letters pass. -/
theorem upper_of_spells
    (h : (word, kind) ∈ codes)
    (hspells : Spells code word) :
    code.map Char.toUpper = word ∨ kind = .insert := by
  have hletters :
      ∀ entry ∈ codes, ('I' ∉ entry.1.toList ∧ 'S' ∉ entry.1.toList) ∨ entry.2 = .insert := by
    decide
  rcases hletters _ h with ⟨hI, hS⟩ | hinsert
  · refine Or.inl ((spells_iff_of_forall fun c _ d hd hcapital => ?_).1 hspells)
    rcases hcapital with hupper | ⟨-, rfl⟩ | ⟨-, rfl⟩
    · exact hupper
    · exact absurd hd hI
    · exact absurd hd hS
  · exact Or.inr hinsert

end Codes

end ChangeKind

/-- The change of a message with a text for its code is of the kind of that code. -/
theorem Change.kind_ofMessage
    {members : List (Text × Json)}
    {change : Change}
    {code : Text}
    (hchange : Change.ofMessage (.object members) = .ok change)
    (hcode : Json.find? members "op_type" = some (.text code)) :
    change.kind = .ofCode code := by
  have htaken := isTaken_ofMessage hchange
  have htext : textMember (.object members) "op_type" = .ok code := by
    simp [textMember, Json.optionalMember, hcode, bind, Except.bind]
  rw [htaken.kind, Except.ok.inj (htaken.code.symm.trans htext)]

namespace Formatter

section Code

variable {members : List (Text × Json)}
variable {code : Text}
variable {change : Change}
variable {table : Table}

/-- Where the schemas are there and the images fit, a change is unknown just if its kind is. -/
theorem format_unknown_iff
    (settings : Settings)
    (clock : Clock)
    {state : Formatter}
    (hprovided : state.cache.Provides table.name table)
    (hlength : change.columns.length = table.columns.length) :
    (format settings clock state change table).result =
        .error (.fatal Plan.unknownReason table.name .unknown)
      ↔
    change.kind = .unknown := by
  constructor
  · intro h
    rcases format_eq_error h with ⟨fault, hfault⟩ | halign | ⟨reason, -, hfatal⟩ |
      ⟨columns, -, emission, -, field, -, hfield⟩
    · contradiction
    · exact absurd hlength (align_eq_error_iff.1 halign).1
    · injection hfatal with _ _ hkind
      exact hkind.symm
    · rcases Block.failure?_cases _ hfield with ⟨cause, hcause⟩ | hcause <;> contradiction
  · intro hkind
    obtain ⟨build, hbuild⟩ := Schema.Cache.exists_request_eq_ok_iff.2 hprovided
    have hplan : Plan.ofKind change.kind settings.keyUpdates = .fatal Plan.unknownReason :=
      Plan.ofKind_eq_fatal_iff.2 (Or.inl ⟨hkind, rfl⟩)
    rw [(format_of_request_ok settings clock change hbuild).1,
      assemble_of_fatal (align_eq_ok_iff.2 ⟨hlength, rfl⟩) hplan, hkind]

/--
The change of a message is of a known kind just if its code spells one of that kind, and
without such a code it is fatal, where schemas of its table are kept or can be built. A code
spells what it is in ASCII capitals, except that one with a dotless `ı` or a long `ſ` may spell
a code of an insert too. Half of a pair spells nothing.
-/
theorem format_code
    (settings : Settings)
    (clock : Clock)
    (state : Formatter)
    (htable : Table.ofMessage (.object members) = .ok table)
    (hchange : Change.ofMessage (.object members) = .ok change)
    (hcode : Json.find? members "op_type" = some (.text code)) :
    (∀ kind, kind ≠ .unknown →
        (change.kind = kind ↔
          ∃ word, (word, kind) ∈ ChangeKind.codes ∧ ChangeKind.Spells code.shown word)) ∧
      (state.cache.Provides table.name table →
        ((format settings clock state change table).result =
            .error (.fatal Plan.unknownReason table.name .unknown) ↔
          ∀ entry ∈ ChangeKind.codes, ¬ ChangeKind.Spells code.shown entry.1)) ∧
      (∀ pairs,
        (format settings clock state change table).result = .ok pairs →
          ∃ entry ∈ ChangeKind.codes, ChangeKind.Spells code.shown entry.1) ∧
      ∀ entry ∈ ChangeKind.codes,
        ('ı' ∉ code.shown.toList → 'ſ' ∉ code.shown.toList →
          (ChangeKind.Spells code.shown entry.1 ↔ code.shown.map Char.toUpper = entry.1)) ∧
        (ChangeKind.Spells code.shown entry.1 →
          code.shown.map Char.toUpper = entry.1 ∨ entry.2 = .insert) := by
  have hkind := Change.kind_ofMessage hchange hcode
  have hlength := Change.length_columns_eq htable hchange
  refine ⟨fun kind hknown => ?_, fun hprovided => ?_, fun pairs hok => ?_, ?_⟩
  · rw [hkind, ChangeKind.ofCode_eq_iff hknown]
  · rw [← ChangeKind.ofCode_eq_unknown_iff, ← hkind]
    exact format_unknown_iff settings clock hprovided hlength
  · obtain ⟨-, -, -, -, hemits, -⟩ := format_eq_ok hok
    rw [ne_eq, Plan.emissions_ofKind_eq_nil_iff] at hemits
    by_contra hnone
    refine hemits (Or.inl ?_)
    rw [hkind, ChangeKind.ofCode_eq_unknown_iff]
    exact fun entry hentry hspells => hnone ⟨entry, hentry, hspells⟩
  · rintro ⟨word, kind⟩ hentry
    exact ⟨ChangeKind.spells_iff_of_not_mem, ChangeKind.upper_of_spells hentry⟩

end Code

end Formatter

/-- A message about a new item, with a code of any text. -/
def Item.coded (code : String) : List (Text × Json) :=
  [("table", .text "SHOP.ITEMS"), ("op_type", .text code),
    ("columns", .array
      [.object
        [("name", .text "ID"), ("type", .integer 4), ("key", .bool true), ("after", .text "3")]])]

/-- An insert is spelled with a dotless `ı` and a long `ſ`, and so it is emitted. -/
theorem Formatter.format_code_foreign :
    ∃ table change,
      Table.ofMessage (.object (Item.coded "ınſert")) = .ok table ∧
      Change.ofMessage (.object (Item.coded "ınſert")) = .ok change ∧
      Json.find? (Item.coded "ınſert") "op_type" = some (.text "ınſert") ∧
      "ınſert".map Char.toUpper ≠ "INSERT" ∧
      change.kind = .insert ∧
      ∃ pairs, (format {} Item.clock {} change table).result = .ok pairs := by
  have hspells : ChangeKind.Spells "ınſert" "INSERT" := by
    simp [ChangeKind.Spells, HasCapital]
  have hcapitals : "ınſert".map Char.toUpper ≠ "INSERT" := by
    rw [ne_eq, ← String.toList_inj, String.toList_map]
    decide
  have hkinds :=
    (format_code {} Item.clock {}
      (rfl : Table.ofMessage (.object (Item.coded "ınſert")) = .ok _) rfl rfl).1
  refine ⟨_, _, rfl, rfl, rfl, hcapitals, ?_, _, rfl⟩
  exact (hkinds .insert (by decide)).2 ⟨"INSERT", by decide, hspells⟩

end ChangeFeed
