import ChangeFeed.Proofs.Formatter.Course
import ChangeFeed.Proofs.Formatter.Prescription
import ChangeFeed.Proofs.Record.Unread

/-!
# Which failure a change has

Where the names in the description of a table are texts and there are stamps, a change
fails in four ways, of which the earlier ones come first: a name of a column is torn, so
that schemas cannot be built for it, and none are kept; the change has another number of
columns than the table; its kind is fatal; or a text that it shows cannot be read. Texts
on a side that is not shown do not count, nor do those of key columns once more.

**Results.**

* `refusal?_eq_some_iff`: a request is refused by the first torn name.
* `map_side_emissions`: the sides that a change shows, in the order of its records.
* `ofKind_eq_fatal_iff`: the kinds that are fatal.
* `Course.ending_eq_some_iff`: the failure that a course ends in.
* `format_refusal_iff`: the failures of changes.
-/

namespace ChangeFeed

open Session (failureOf?)

/-- The sides whose images a change shows under a policy, in the order of its records. -/
def shownSides : ChangeKind → KeyUpdatePolicy → List Side
  | .insert, _ => [.after]
  | .update, _ => [.after]
  | .delete, _ => [.before]
  | .keyUpdate, .abend => []
  | .keyUpdate, .update => [.after]
  | .keyUpdate, .deleteInsert => [.before, .after]
  | .unknown, _ => []

/-- A change of this kind is fatal under a policy. -/
def IsFatal
    (kind : ChangeKind)
    (policy : KeyUpdatePolicy) : Prop :=
  kind = .unknown ∨ kind = .keyUpdate ∧ policy = .abend

/-- The first name of a column that is torn, after columns with whole texts for names. -/
def Table.FirstTorn
    (table : Table)
    (torn : Text) : Prop :=
  ∃ before column after,
    table.columns = before ++ column :: after ∧
    column.name = .text torn ∧
    torn.string? = none ∧
    ∀ other ∈ before, ∃ name : String, other.name = .text name

/-- Why a change is refused, each reason only where those before it do not hold. -/
inductive Refusal
    (settings : Settings)
    (cache : Schema.Cache)
    (change : Change)
    (table : Table) :
    Failure → Prop
  | torn
      {id : Identity}
      {torn : Text}
      (hname : table.name.identity? = some id)
      (habsent : cache.lookup? id = none)
      (hfirst : table.FirstTorn torn) :
      Refusal settings cache change table (.fault (.unencodable torn))
  | misaligned
      (hprovided : cache.Provides table.name table)
      (hlength : change.columns.length ≠ table.columns.length) :
      Refusal settings cache change table
        (.misaligned table.name change.columns.length table.columns.length)
  | unknown
      (hprovided : cache.Provides table.name table)
      (hlength : change.columns.length = table.columns.length)
      (hkind : change.kind = .unknown) :
      Refusal settings cache change table (.fatal Plan.unknownReason table.name change.kind)
  | keyUpdate
      (hprovided : cache.Provides table.name table)
      (hlength : change.columns.length = table.columns.length)
      (hkind : change.kind = .keyUpdate)
      (hpolicy : settings.keyUpdates = .abend) :
      Refusal settings cache change table (.fatal Plan.keyUpdateReason table.name change.kind)
  | unread
      {cause : Coercion.Failure}
      (hprovided : cache.Provides table.name table)
      (hlength : change.columns.length = table.columns.length)
      (hkind : ¬ IsFatal change.kind settings.keyUpdates)
      (hmode : settings.asText = false)
      (hfirst :
        FirstUnreadOf table.columns change.columns
          (shownSides change.kind settings.keyUpdates) cause) :
      Refusal settings cache change table (.coercion cause)

/-- Of columns named by texts, a name is at fault just if it is torn. -/
theorem Column.nameFault?_of_text
    {column : Column}
    {name : Text}
    {fault : Fault}
    (hname : column.name = .text name) :
    column.nameFault? = some fault ↔ name.string? = none ∧ fault = .unencodable name := by
  unfold Column.nameFault?
  rw [hname]
  cases name with
  | whole s => simp
  | torn units h => simp [Text.string?, eq_comm]

/-- Of a table whose names are texts, the first torn name is at fault. -/
theorem Table.NamesAreTexts.nameFault?_eq_some_iff
    {table : Table}
    {fault : Fault}
    (hnames : table.NamesAreTexts) :
    table.nameFault? = some fault ↔
      ∃ torn, table.FirstTorn torn ∧ fault = .unencodable torn := by
  rw [Table.nameFault?, List.findSome?_eq_some_iff]
  constructor
  · rintro ⟨before, column, after, hcolumns, hfault, hbefore⟩
    obtain ⟨name, hname⟩ := hnames column (by rw [hcolumns]; simp)
    obtain ⟨htorn, rfl⟩ := (Column.nameFault?_of_text hname).1 hfault
    exact
      ⟨name, ⟨before, column, after, hcolumns, hname, htorn,
        fun other hother => Column.nameFault?_eq_none_iff.1 (hbefore other hother)⟩, rfl⟩
  · rintro ⟨torn, ⟨before, column, after, hcolumns, hname, htorn, hbefore⟩, rfl⟩
    exact
      ⟨before, column, after, hcolumns, (Column.nameFault?_of_text hname).2 ⟨htorn, rfl⟩,
        fun other hother => Column.nameFault?_eq_none_iff.2 (hbefore other hother)⟩

/-- A request for a table whose names are texts is refused by the first torn name. -/
theorem Schema.Cache.refusal?_eq_some_iff
    {cache : Schema.Cache}
    {table : Table}
    {id : Identity}
    {fault : Fault}
    (hname : table.name.identity? = some id)
    (hnames : table.NamesAreTexts) :
    cache.refusal? table.name table = some fault ↔
      cache.lookup? id = none ∧ ∃ torn, table.FirstTorn torn ∧ fault = .unencodable torn := by
  rw [← hnames.nameFault?_eq_some_iff]
  unfold refusal?
  cases hkept : cache.lookup? id <;> simp [hname, hkept]

namespace Plan

variable {kind : ChangeKind}
variable {policy : KeyUpdatePolicy}

theorem map_side_emissions
    (kind : ChangeKind)
    (policy : KeyUpdatePolicy) :
    (ofKind kind policy).emissions.map Emission.side = shownSides kind policy := by
  cases kind <;> cases policy <;> rfl

theorem ofKind_eq_fatal_iff
    {reason : String} :
    ofKind kind policy = .fatal reason ↔
      (kind = .unknown ∧ reason = unknownReason) ∨
        (kind = .keyUpdate ∧ policy = .abend ∧ reason = keyUpdateReason) := by
  cases kind <;> cases policy <;> simp [ofKind, eq_comm]

theorem emissions_ofKind_eq_nil_iff :
    (ofKind kind policy).emissions = [] ↔ IsFatal kind policy := by
  cases kind <;> cases policy <;> simp [ofKind, emissions, IsFatal]

end Plan

namespace Formatter

section Refusal

variable {settings : Settings}
variable {clock : Clock}
variable {state : Formatter}
variable {cache : Schema.Cache}
variable {change : Change}
variable {table : Table}
variable {name : Text}

/-- The texts that emissions take are those of their sides. -/
theorem textsOf_eq
    (columns : List Aligned)
    (emissions : List Emission) :
    textsOf columns emissions =
      (emissions.map Emission.side).flatMap fun side => select columns side false := by
  rw [textsOf, List.flatMap_map]

/-- With a torn name and nothing kept, no schemas are provided. -/
theorem not_provides_of_firstTorn
    (hnames : table.NamesAreTexts)
    {id : Identity}
    {torn : Text}
    (hid : table.name.identity? = some id)
    (habsent : cache.lookup? id = none)
    (hfirst : table.FirstTorn torn) :
    ¬ cache.Provides table.name table := by
  rw [← Schema.Cache.refusal?_eq_none_iff,
    (Schema.Cache.refusal?_eq_some_iff hid hnames).2 ⟨habsent, torn, hfirst, rfl⟩]
  simp

/-- What ends a run of the emissions of a plan is looked for on the sides that are shown. -/
theorem Building.ending_eq_some_iff
    (hnames : table.NamesAreTexts)
    {started : List Emission}
    {ending : Option Failure}
    {failure : Failure}
    (h :
      Building settings.asText (List.zipWith Aligned.mk table.columns change.columns)
        (Plan.ofKind change.kind settings.keyUpdates).emissions started ending) :
    ending = some failure ↔
      settings.asText = false ∧
        ∃ cause,
          failure = .coercion cause ∧
            FirstUnreadOf table.columns change.columns
              (shownSides change.kind settings.keyUpdates) cause := by
  rw [h.ending_eq, textsOf_eq, Plan.map_side_emissions, findSome?_sides_iff hnames]

/-- A course that ends in a failure is that of a change that is refused for it. -/
theorem Course.refusal
    (hname : table.name = .text name)
    (hnames : table.NamesAreTexts)
    {started : List Emission}
    {ending : Option Failure}
    {failure : Failure}
    (h : Course settings cache change table started ending)
    (hending : ending = some failure) :
    Refusal settings cache change table failure := by
  have hid : table.name.identity? = some (.text name) := by rw [hname, Json.identity?_text]
  cases h with
  | unprovided hrefusal =>
      cases hending
      obtain ⟨habsent, torn, hfirst, rfl⟩ :=
        (Schema.Cache.refusal?_eq_some_iff hid hnames).1 hrefusal
      exact .torn hid habsent hfirst
  | misaligned hprovided hlength =>
      cases hending
      exact .misaligned hprovided hlength
  | fatal hprovided hlength hplan =>
      cases hending
      rcases Plan.ofKind_eq_fatal_iff.1 hplan with ⟨hkind, rfl⟩ | ⟨hkind, hpolicy, rfl⟩
      · exact .unknown hprovided hlength hkind
      · exact .keyUpdate hprovided hlength hkind hpolicy
  | emitted hprovided hlength hemits hbuilding =>
      rw [ne_eq, Plan.emissions_ofKind_eq_nil_iff] at hemits
      obtain ⟨hmode, cause, rfl, hfirst⟩ := (hbuilding.ending_eq_some_iff hnames).1 hending
      exact .unread hprovided hlength hemits hmode hfirst

/-- The course of a change that is refused ends in the failure for which it is. -/
theorem Course.ending_eq_of_refusal
    (hname : table.name = .text name)
    (hnames : table.NamesAreTexts)
    {started : List Emission}
    {ending : Option Failure}
    {failure : Failure}
    (h : Course settings cache change table started ending)
    (hrefusal : Refusal settings cache change table failure) :
    ending = some failure := by
  have hid : table.name.identity? = some (.text name) := by rw [hname, Json.identity?_text]
  -- Each course leaves one reason, as each reason is given only where those before it are not.
  cases h with
  | unprovided hrefused =>
      obtain ⟨habsent, torn, hfirst, rfl⟩ :=
        (Schema.Cache.refusal?_eq_some_iff hid hnames).1 hrefused
      have hnot := not_provides_of_firstTorn hnames hid habsent hfirst
      rcases hrefusal with ⟨hfound, hother, hlater⟩ | ⟨hprovided, -⟩ | ⟨hprovided, -, -⟩ |
        ⟨hprovided, -, -, -⟩ | ⟨hprovided, -, -, -, -⟩
      · cases hid.symm.trans hfound
        have hsame :=
          hrefused.symm.trans
            ((Schema.Cache.refusal?_eq_some_iff hid hnames).2 ⟨habsent, _, hlater, rfl⟩)
        rw [Option.some.inj hsame]
      all_goals exact absurd hprovided hnot
  | misaligned hprovided hlength =>
      rcases hrefusal with ⟨hfound, habsent, hfirst⟩ | - | ⟨-, heq, -⟩ | ⟨-, heq, -, -⟩ |
        ⟨-, heq, -, -, -⟩
      · exact absurd hprovided (not_provides_of_firstTorn hnames hfound habsent hfirst)
      · rfl
      all_goals exact absurd heq hlength
  | fatal hprovided hlength hplan =>
      rcases hrefusal with ⟨hfound, habsent, hfirst⟩ | ⟨-, hne⟩ | ⟨-, -, hkind⟩ |
        ⟨-, -, hkind, hpolicy⟩ | ⟨-, -, hkind, -, -⟩
      · exact absurd hprovided (not_provides_of_firstTorn hnames hfound habsent hfirst)
      · exact absurd hlength hne
      · cases hplan.symm.trans (Plan.ofKind_eq_fatal_iff.2 (Or.inl ⟨hkind, rfl⟩))
        rfl
      · cases hplan.symm.trans (Plan.ofKind_eq_fatal_iff.2 (Or.inr ⟨hkind, hpolicy, rfl⟩))
        rfl
      · rw [← Plan.emissions_ofKind_eq_nil_iff, hplan] at hkind
        exact absurd rfl hkind
  | emitted hprovided hlength hemits hbuilding =>
      rw [ne_eq, Plan.emissions_ofKind_eq_nil_iff] at hemits
      rcases hrefusal with ⟨hfound, habsent, hfirst⟩ | ⟨-, hne⟩ | ⟨-, -, hkind⟩ |
        ⟨-, -, hkind, hpolicy⟩ | ⟨-, -, -, hmode, hfirst⟩
      · exact absurd hprovided (not_provides_of_firstTorn hnames hfound habsent hfirst)
      · exact absurd hlength hne
      · exact absurd (Or.inl hkind) hemits
      · exact absurd (Or.inr ⟨hkind, hpolicy⟩) hemits
      · exact (hbuilding.ending_eq_some_iff hnames).2 ⟨hmode, _, rfl, hfirst⟩

/-- The course of a change ends in the failure for which the change is refused. -/
theorem Course.ending_eq_some_iff
    (hname : table.name = .text name)
    (hnames : table.NamesAreTexts)
    {started : List Emission}
    {ending : Option Failure}
    {failure : Failure}
    (h : Course settings cache change table started ending) :
    ending = some failure ↔ Refusal settings cache change table failure :=
  ⟨h.refusal hname hnames, h.ending_eq_of_refusal hname hnames⟩

theorem exists_torn_iff
    (hname : table.name = .text name) :
    (∃ fault, Refusal settings cache change table (.fault fault)) ↔
      cache.lookup? (.text name) = none ∧ ∃ torn, table.FirstTorn torn := by
  have hid : table.name.identity? = some (.text name) := by rw [hname, Json.identity?_text]
  constructor
  · rintro ⟨fault, hrefusal⟩
    cases hrefusal with
    | torn hfound habsent hfirst =>
        cases hid.symm.trans hfound
        exact ⟨habsent, _, hfirst⟩
  · rintro ⟨habsent, torn, hfirst⟩
    exact ⟨_, .torn hid habsent hfirst⟩

theorem exists_misaligned_iff :
    (∃ described changed columns,
        Refusal settings cache change table (.misaligned described changed columns)) ↔
      cache.Provides table.name table ∧ change.columns.length ≠ table.columns.length := by
  constructor
  · rintro ⟨described, changed, columns, hrefusal⟩
    cases hrefusal with
    | misaligned hprovided hlength => exact ⟨hprovided, hlength⟩
  · rintro ⟨hprovided, hlength⟩
    exact ⟨_, _, _, .misaligned hprovided hlength⟩

theorem exists_fatal_iff :
    (∃ reason described kind,
        Refusal settings cache change table (.fatal reason described kind)) ↔
      cache.Provides table.name table ∧
        change.columns.length = table.columns.length ∧
        IsFatal change.kind settings.keyUpdates := by
  constructor
  · rintro ⟨reason, described, kind, hrefusal⟩
    cases hrefusal with
    | unknown hprovided hlength hkind => exact ⟨hprovided, hlength, Or.inl hkind⟩
    | keyUpdate hprovided hlength hkind hpolicy =>
        exact ⟨hprovided, hlength, Or.inr ⟨hkind, hpolicy⟩⟩
  · rintro ⟨hprovided, hlength, hkind | ⟨hkind, hpolicy⟩⟩
    · exact ⟨_, _, _, .unknown hprovided hlength hkind⟩
    · exact ⟨_, _, _, .keyUpdate hprovided hlength hkind hpolicy⟩

theorem exists_unread_iff :
    (∃ cause, Refusal settings cache change table (.coercion cause)) ↔
      cache.Provides table.name table ∧
        change.columns.length = table.columns.length ∧
        ¬ IsFatal change.kind settings.keyUpdates ∧
        settings.asText = false ∧
        ∃ side ∈ shownSides change.kind settings.keyUpdates,
          ∃ i cause, UnreadAt table.columns change.columns side i cause := by
  rw [← exists_firstUnreadOf_iff]
  constructor
  · rintro ⟨cause, hrefusal⟩
    cases hrefusal with
    | unread hprovided hlength hkind hmode hfirst =>
        exact ⟨hprovided, hlength, hkind, hmode, cause, hfirst⟩
  · rintro ⟨hprovided, hlength, hkind, hmode, cause, hfirst⟩
    exact ⟨cause, .unread hprovided hlength hkind hmode hfirst⟩

/--
A change of a table named by texts fails just if it is refused, and as it is refused. So it
fails by a torn name of a column where no schemas are kept; else by its number of columns
whatever its kind, else by its kind whatever its texts, and else by a text, if there is one
on a side that it shows that cannot be read. What is emitted always has an operation key.
-/
theorem format_refusal_iff
    (settings : Settings)
    (clock : Clock)
    (state : Formatter)
    (change : Change)
    (table : Table)
    (hname : table.name = .text name)
    (hnames : table.NamesAreTexts)
    (hgives :
      state.stamps.Gives clock (Plan.ofKind change.kind settings.keyUpdates).emissions.length) :
    (∀ failure,
        (format settings clock state change table).result = .error failure ↔
          Refusal settings state.cache change table failure) ∧
      ((∃ fault, (format settings clock state change table).result = .error (.fault fault)) ↔
        state.cache.lookup? (.text name) = none ∧ ∃ torn, table.FirstTorn torn) ∧
      ((∃ described changed columns,
          (format settings clock state change table).result =
            .error (.misaligned described changed columns)) ↔
        state.cache.Provides table.name table ∧
          change.columns.length ≠ table.columns.length) ∧
      ((∃ reason described kind,
          (format settings clock state change table).result =
            .error (.fatal reason described kind)) ↔
        state.cache.Provides table.name table ∧
          change.columns.length = table.columns.length ∧
          IsFatal change.kind settings.keyUpdates) ∧
      ((∃ cause,
          (format settings clock state change table).result = .error (.coercion cause)) ↔
        state.cache.Provides table.name table ∧
          change.columns.length = table.columns.length ∧
          ¬ IsFatal change.kind settings.keyUpdates ∧
          settings.asText = false ∧
          ∃ side ∈ shownSides change.kind settings.keyUpdates,
            ∃ i cause, UnreadAt table.columns change.columns side i cause) ∧
      (state.cache.Provides table.name table ↔
        ¬ (state.cache.lookup? (.text name) = none ∧ ∃ torn, table.FirstTorn torn)) ∧
      ∀ emission ∈ (Plan.ofKind change.kind settings.keyUpdates).emissions,
        settings.key? emission.kind = some (settings.keyOf emission) := by
  obtain ⟨started, hcourse, -⟩ := course_format hname hgives
  have hid : table.name.identity? = some (.text name) := by rw [hname, Json.identity?_text]
  have hrefusal (failure : Failure) :
      (format settings clock state change table).result = .error failure ↔
        Refusal settings state.cache change table failure := by
    rw [← Session.failureOf?_eq_some_iff]
    exact hcourse.ending_eq_some_iff hname hnames
  refine
    ⟨hrefusal, ?_, ?_, ?_, ?_, ?_, fun emission _ => settings.key?_kind emission⟩
  · simp only [hrefusal]
    exact exists_torn_iff hname
  · simp only [hrefusal]
    exact exists_misaligned_iff
  · simp only [hrefusal]
    exact exists_fatal_iff
  · simp only [hrefusal]
    exact exists_unread_iff
  · rw [← Schema.Cache.refusal?_eq_none_iff, Option.eq_none_iff_forall_ne_some]
    simp only [ne_eq, Schema.Cache.refusal?_eq_some_iff hid hnames]
    constructor
    · rintro h ⟨habsent, torn, hfirst⟩
      exact h _ ⟨habsent, torn, hfirst, rfl⟩
    · rintro h fault ⟨habsent, torn, hfirst, -⟩
      exact h ⟨habsent, torn, hfirst⟩

end Refusal

end Formatter

/-- Neither number of the item is one, and its name is captured before the change only. -/
def Item.unnumbered : Change :=
  { renumbered with
    columns := [⟨.captured "none", .captured "nil"⟩, ⟨.captured "lamp", .absent⟩] }

/--
Where both records of two cannot be built, it is the image before the change that is named.
With a torn name there are no records to build.
-/
theorem Formatter.format_refusal_iff_unnumbered :
    Item.table.NamesAreTexts ∧
      Item.tornTable.NamesAreTexts ∧
      Stamps.Gives Item.clock {} 2 ∧
      (format { keyUpdates := .deleteInsert } Item.clock {} Item.unnumbered Item.table).result =
        .error (.coercion ⟨"none", 4, .text "ID"⟩) ∧
      (format { keyUpdates := .deleteInsert } Item.clock {} Item.unnumbered
          Item.tornTable).result =
        .error (.fault (.unencodable Text.oneHalf)) := by
  have hgives : Stamps.Gives Item.clock {} 2 := ⟨⟨_, rfl⟩, ⟨_, rfl⟩, trivial⟩
  have hnames : Item.table.NamesAreTexts := Item.namesDistinct_table.namesAreTexts
  have htorn : Item.tornTable.NamesAreTexts := by
    simp [Table.NamesAreTexts, Item.tornTable]
  have hunread :
      UnreadAt Item.table.columns Item.unnumbered.columns .before 0 ⟨"none", 4, .text "ID"⟩ :=
    ⟨_, _, _, rfl, rfl, rfl, coerce_eq_error_iff_forall.1 rfl⟩
  refine
    ⟨hnames, htorn, hgives,
      ((format_refusal_iff _ _ _ Item.unnumbered Item.table rfl hnames hgives).1 _).2 ?_,
      ((format_refusal_iff _ _ _ Item.unnumbered Item.tornTable rfl htorn hgives).1 _).2 ?_⟩
  · exact
      .unread ⟨_, rfl, Or.inr Item.namesAreWhole_table⟩ rfl
        (by simp [IsFatal, Item.unnumbered, Item.renumbered]) rfl
        ⟨[], .before, [.after], rfl, ⟨0, hunread, by simp⟩, by simp⟩
  · exact .torn rfl rfl ⟨[⟨.text "ID", 4, true⟩], _, [_], rfl, rfl, by decide, by simp⟩

end ChangeFeed
