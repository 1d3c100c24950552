import ChangeFeed.Feed
import Mathlib.Data.List.Forall2

/-!
# What messages can be

The description of a table and the change of a row are taken from the same
member of a message, so they always have as many columns. An object that is no
message has a fault that makes it malformed, with one exception: a column whose
type is infinite, in a message that is otherwise read up to that column.

**Results.**

* `mapInOrder_eq_ok_iff`: all elements are decoded just if each of them is.
* `Change.isTaken_ofMessage`: what a change is taken from.
* `length_columns_ofObject`: the change of a message fits its table.
* `ofObject_escapes_iff`: the objects that are no messages, but not malformed.
-/

namespace ChangeFeed

section Bind

variable {ε α β : Type}

theorem bind_eq_ok_iff
    (first : Except ε α)
    (next : α → Except ε β)
    (b : β) :
    (first >>= next) = .ok b ↔ ∃ a, first = .ok a ∧ next a = .ok b := by
  cases first <;> simp [bind, Except.bind]

theorem bind_eq_error_iff
    (first : Except ε α)
    (next : α → Except ε β)
    (e : ε) :
    (first >>= next) = .error e
      ↔
    first = .error e ∨ ∃ a, first = .ok a ∧ next a = .error e := by
  cases first <;> simp [bind, Except.bind]

/-- Where all elements are decoded, each is decoded in its place. -/
theorem mapInOrder_eq_ok_iff
    {f : α → Except ε β}
    {as : List α}
    {bs : List β} :
    mapInOrder f as = .ok bs ↔ List.Forall₂ (fun a b => f a = .ok b) as bs := by
  induction as generalizing bs with
  | nil => simp [mapInOrder, eq_comm]
  | cons first rest ih =>
      rw [mapInOrder, List.forall₂_cons_left_iff]
      cases hfirst : f first with
      | error e => simp
      | ok b =>
          simp only [← ih, Except.ok.injEq]
          cases mapInOrder f rest <;> simp [eq_comm]

/-- Elements are decoded up to the first that fails, which is the failure of all. -/
theorem mapInOrder_eq_error_iff
    (f : α → Except ε β)
    (as : List α)
    (e : ε) :
    mapInOrder f as = .error e
      ↔
    ∃ before a after,
      as = before ++ a :: after ∧
      (∀ earlier ∈ before, ∃ b, f earlier = .ok b) ∧
      f a = .error e := by
  induction as with
  | nil =>
      simp [mapInOrder]
  | cons first rest ih =>
      simp only [mapInOrder]
      constructor
      · intro h
        cases hfirst : f first with
        | error other =>
            rw [hfirst] at h
            cases h
            exact ⟨[], first, rest, rfl, by simp, hfirst⟩
        | ok b =>
            rw [hfirst] at h
            simp only at h
            split at h
            · next other hrest =>
                cases h
                obtain ⟨before, a, after, rfl, hbefore, ha⟩ := ih.1 hrest
                refine ⟨first :: before, a, after, rfl, ?_, ha⟩
                exact List.forall_mem_cons.2 ⟨⟨b, hfirst⟩, hbefore⟩
            · contradiction
      · rintro ⟨before, a, after, heq, hbefore, ha⟩
        cases before with
        | nil =>
            cases heq
            rw [ha]
        | cons earlier before =>
            cases heq
            obtain ⟨⟨b, hfirst⟩, hbefore⟩ := List.forall_mem_cons.1 hbefore
            have hrest := ih.2 ⟨before, a, after, rfl, hbefore, ha⟩
            rw [hfirst]
            simp only [hrest]

end Bind

namespace Json

theorem isMalformed_of_member
    {v : Json}
    {name : String}
    {fault : Fault}
    (h : v.member name = .error fault) :
    fault.isMalformed = true := by
  unfold member at h
  split at h
  · split at h
    · contradiction
    · cases h
      rfl
  · cases h
    rfl

theorem member_object_eq_ok_iff
    (members : List (Text × Json))
    (name : String)
    (v : Json) :
    (Json.object members).member name = .ok v ↔ find? members name = some v := by
  cases hfind : find? members name <;> simp [member, hfind]

theorem isMalformed_of_optionalMember
    {v : Json}
    {name : String}
    {fault : Fault}
    (h : v.optionalMember name = .error fault) :
    fault.isMalformed = true := by
  unfold optionalMember at h
  split at h
  · contradiction
  · cases h
    rfl

theorem isMalformed_of_elements
    {v : Json}
    {fault : Fault}
    (h : v.elements = .error fault) :
    fault.isMalformed = true := by
  cases v <;> cases h <;> rfl

theorem isMalformed_of_membersIfAny
    {v : Json}
    {fault : Fault}
    (h : v.membersIfAny = .error fault) :
    fault.isMalformed = true := by
  unfold membersIfAny at h
  split at h
  · split at h
    · contradiction
    · cases h
      rfl
  · contradiction

/-- Only an infinite number is too large to be an integer. -/
theorem toInteger_escapes_iff
    (v : Json) :
    (∃ fault, v.toInteger = .error fault ∧ fault.isMalformed = false)
      ↔
    ∃ negative, v = .number (.infinite negative) := by
  cases v with
  | number x =>
      cases x <;>
        simp [toInteger, truncate, Number.Floating.truncate?, Fault.isMalformed]
  | text s =>
      simp only [toInteger]
      cases Number.Integer.read s.shown with
      | ok n => simp
      | error fault => cases fault <;> simp [Fault.isMalformed]
  | _ => simp [toInteger, Fault.isMalformed]

end Json

namespace Column

/-- A column with a name whose type is infinite. -/
def HasInfiniteType (v : Json) : Prop :=
  ∃ members name negative,
    v = .object members ∧
    Json.find? members "name" = some name ∧
    Json.find? members "type" = some (.number (.infinite negative))

theorem ofMessage_escapes_iff
    (v : Json) :
    (∃ fault, ofMessage v = .error fault ∧ fault.isMalformed = false)
      ↔
    HasInfiniteType v := by
  unfold HasInfiniteType
  cases v with
  | object members =>
      cases hname : Json.find? members "name" with
      | none =>
          simp [ofMessage, Json.member, bind, Except.bind, hname, Fault.isMalformed]
      | some name =>
          cases htype : Json.find? members "type" with
          | none =>
              simp [ofMessage, Json.member, Json.optionalMember, bind, Except.bind, hname, htype]
          | some code =>
              have hcode := Json.toInteger_escapes_iff code
              cases hinteger : code.toInteger with
              | ok n =>
                  rw [hinteger] at hcode
                  simpa [ofMessage, Json.member, Json.optionalMember, bind, Except.bind, hname,
                    htype, hinteger] using hcode
              | error fault =>
                  rw [hinteger] at hcode
                  simpa [ofMessage, Json.member, Json.optionalMember, bind, Except.bind, hname,
                    htype, hinteger] using hcode
  | _ =>
      simp [ofMessage, Json.member, bind, Except.bind, Fault.isMalformed]

end Column

theorem isMalformed_of_columnElements
    {message : Json}
    {fault : Fault}
    (h : columnElements message = .error fault) :
    fault.isMalformed = true := by
  rcases (bind_eq_error_iff _ _ _).1 h with hmember | ⟨columns, -, h⟩
  · exact Json.isMalformed_of_optionalMember hmember
  · cases columns with
    | none => contradiction
    | some columns => exact Json.isMalformed_of_elements h

/-- Only the items of an array can be objects. -/
theorem columnElements_object
    {members : List (Text × Json)}
    {elements : List Json}
    {column : List (Text × Json)}
    (h : columnElements (.object members) = .ok elements)
    (hmem : .object column ∈ elements) :
    Json.find? members "columns" = some (.array elements) := by
  obtain ⟨columns, hcolumns, h⟩ := (bind_eq_ok_iff _ _ _).1 h
  have hfind : columns = Json.find? members "columns" := (Except.ok.inj hcolumns).symm
  rw [← hfind]
  cases columns with
  | none =>
      cases h
      contradiction
  | some columns =>
      cases columns with
      | array items =>
          cases h
          rfl
      | text s =>
          cases h
          simp at hmem
      | object others =>
          cases h
          simp at hmem
      | _ => contradiction

namespace Table

/-- A table with a name, one of whose columns has an infinite type and all before it are read. -/
def HasInfiniteType (members : List (Text × Json)) : Prop :=
  (∃ name, Json.find? members "table" = some name) ∧
    ∃ before column after,
      Json.find? members "columns" = some (.array (before ++ column :: after)) ∧
      (∀ earlier ∈ before, ∃ read, Column.ofMessage earlier = .ok read) ∧
      Column.HasInfiniteType column

theorem ofMessage_escapes_iff
    (members : List (Text × Json)) :
    (∃ fault, ofMessage (.object members) = .error fault ∧ fault.isMalformed = false)
      ↔
    HasInfiniteType members := by
  constructor
  · rintro ⟨fault, h, hfault⟩
    rcases (bind_eq_error_iff _ _ _).1 h with hname | ⟨name, hname, h⟩
    · rw [Json.isMalformed_of_member hname] at hfault
      contradiction
    rcases (bind_eq_error_iff _ _ _).1 h with helements | ⟨elements, helements, h⟩
    · rw [isMalformed_of_columnElements helements] at hfault
      contradiction
    rcases (bind_eq_error_iff _ _ _).1 h with hcolumns | ⟨columns, -, h⟩
    · obtain ⟨before, column, after, rfl, hbefore, hcolumn⟩ :=
        (mapInOrder_eq_error_iff _ _ _).1 hcolumns
      have hinfinite := (Column.ofMessage_escapes_iff column).1 ⟨fault, hcolumn, hfault⟩
      refine ⟨?_, before, column, after, ?_, hbefore, hinfinite⟩
      · exact ⟨name, (Json.member_object_eq_ok_iff members "table" name).1 hname⟩
      · obtain ⟨fields, -, -, hfields, -⟩ := hinfinite
        subst hfields
        have hmem : Json.object fields ∈ before ++ Json.object fields :: after := by simp
        exact columnElements_object helements hmem
    · contradiction
  · rintro ⟨⟨name, hname⟩, before, column, after, hcolumns, hbefore, hinfinite⟩
    obtain ⟨fault, hcolumn, hfault⟩ := (Column.ofMessage_escapes_iff column).2 hinfinite
    refine ⟨fault, ?_, hfault⟩
    have helements :
        columnElements (.object members) = .ok (before ++ column :: after) := by
      simp [columnElements, Json.optionalMember, bind, Except.bind, hcolumns, Json.elements]
    have hdecoded :
        mapInOrder Column.ofMessage (before ++ column :: after) = .error fault :=
      (mapInOrder_eq_error_iff _ _ _).2 ⟨before, column, after, rfl, hbefore, hcolumn⟩
    simp [ofMessage, Json.member_object members "table" name hname, bind, Except.bind,
      helements, hdecoded]

end Table

namespace Images

theorem isMalformed_of_ofMessage
    {v : Json}
    {fault : Fault}
    (h : ofMessage v = .error fault) :
    fault.isMalformed = true := by
  unfold ofMessage at h
  split at h
  · contradiction
  · split at h
    · cases h
      rfl
    · contradiction
  · split at h
    · cases h
      rfl
    · contradiction
  · cases h
    rfl

end Images

namespace Change

theorem isMalformed_of_textMember
    {message : Json}
    {name : String}
    {fault : Fault}
    (h : textMember message name = .error fault) :
    fault.isMalformed = true := by
  rcases (bind_eq_error_iff _ _ _).1 h with hmember | ⟨v, -, h⟩
  · exact Json.isMalformed_of_optionalMember hmember
  · cases v <;> contradiction

theorem isMalformed_of_ofMessage
    {message : Json}
    {fault : Fault}
    (h : ofMessage message = .error fault) :
    fault.isMalformed = true := by
  rcases (bind_eq_error_iff _ _ _).1 h with hcode | ⟨code, -, h⟩
  · exact isMalformed_of_textMember hcode
  rcases (bind_eq_error_iff _ _ _).1 h with htable | ⟨table, -, h⟩
  · exact Json.isMalformed_of_member htable
  rcases (bind_eq_error_iff _ _ _).1 h with helements | ⟨elements, -, h⟩
  · exact isMalformed_of_columnElements helements
  rcases (bind_eq_error_iff _ _ _).1 h with hcolumns | ⟨columns, -, h⟩
  · obtain ⟨-, v, -, -, -, hv⟩ := (mapInOrder_eq_error_iff _ _ _).1 hcolumns
    exact Images.isMalformed_of_ofMessage hv
  rcases (bind_eq_error_iff _ _ _).1 h with htime | ⟨time, -, h⟩
  · exact isMalformed_of_textMember htime
  rcases (bind_eq_error_iff _ _ _).1 h with hposition | ⟨position, -, h⟩
  · exact isMalformed_of_textMember hposition
  rcases (bind_eq_error_iff _ _ _).1 h with htokens | ⟨tokens, -, h⟩
  · exact Json.isMalformed_of_optionalMember htokens
  rcases (bind_eq_error_iff _ _ _).1 h with hmembers | ⟨members, -, h⟩
  · exact Json.isMalformed_of_membersIfAny hmembers
  · contradiction

/-- What a change of a message is taken from, member by member. -/
structure IsTaken
    (message : Json)
    (change : Change) :
    Prop where
  kind : change.kind = .ofCode change.code
  code : textMember message "op_type" = .ok change.code
  table : message.member "table" = .ok change.table
  columns :
    ∃ elements,
      columnElements message = .ok elements ∧
      mapInOrder Images.ofMessage elements = .ok change.columns
  time : textMember message "op_ts" = .ok change.time
  position : textMember message "pos" = .ok change.position
  tokens :
    ∃ given members,
      message.optionalMember "tokens" = .ok given ∧
      (given.getD .null).membersIfAny = .ok members ∧
      change.tokens = members.map fun token => (token.1, token.2.display)

theorem isTaken_ofMessage
    {message : Json}
    {change : Change}
    (h : ofMessage message = .ok change) :
    IsTaken message change := by
  obtain ⟨code, hcode, h⟩ := (bind_eq_ok_iff _ _ _).1 h
  obtain ⟨table, htable, h⟩ := (bind_eq_ok_iff _ _ _).1 h
  obtain ⟨elements, helements, h⟩ := (bind_eq_ok_iff _ _ _).1 h
  obtain ⟨columns, hcolumns, h⟩ := (bind_eq_ok_iff _ _ _).1 h
  obtain ⟨time, htime, h⟩ := (bind_eq_ok_iff _ _ _).1 h
  obtain ⟨position, hposition, h⟩ := (bind_eq_ok_iff _ _ _).1 h
  obtain ⟨given, hgiven, h⟩ := (bind_eq_ok_iff _ _ _).1 h
  obtain ⟨members, hmembers, h⟩ := (bind_eq_ok_iff _ _ _).1 h
  cases h
  exact
    { kind := rfl
      code := hcode
      table := htable
      columns := ⟨elements, helements, hcolumns⟩
      time := htime
      position := hposition
      tokens := ⟨given, members, hgiven, hmembers, rfl⟩ }

/-- The images of a change are those of the elements under `columns`, in their order. -/
theorem forall₂_columns_ofMessage
    {message : Json}
    {change : Change}
    (h : ofMessage message = .ok change) :
    ∃ elements,
      columnElements message = .ok elements ∧
      List.Forall₂ (fun v images => Images.ofMessage v = .ok images) elements change.columns := by
  obtain ⟨elements, helements, hcolumns⟩ := (isTaken_ofMessage h).columns
  exact ⟨elements, helements, mapInOrder_eq_ok_iff.1 hcolumns⟩

end Change

/-- The columns of a table are those of the elements under `columns`, in their order. -/
theorem Table.forall₂_columns_ofMessage
    {message : Json}
    {table : Table}
    (h : ofMessage message = .ok table) :
    ∃ elements,
      columnElements message = .ok elements ∧
      List.Forall₂ (fun v column => Column.ofMessage v = .ok column) elements table.columns := by
  obtain ⟨name, -, h⟩ := (bind_eq_ok_iff _ _ _).1 h
  obtain ⟨elements, helements, h⟩ := (bind_eq_ok_iff _ _ _).1 h
  obtain ⟨columns, hcolumns, h⟩ := (bind_eq_ok_iff _ _ _).1 h
  cases h
  exact ⟨elements, helements, mapInOrder_eq_ok_iff.1 hcolumns⟩

/-- A change and a table that are read from one message have as many columns. -/
theorem Change.length_columns_eq
    {message : Json}
    {change : Change}
    {table : Table}
    (htable : Table.ofMessage message = .ok table)
    (hchange : ofMessage message = .ok change) :
    change.columns.length = table.columns.length := by
  obtain ⟨elements, helements, hdescribed⟩ := Table.forall₂_columns_ofMessage htable
  obtain ⟨others, hothers, hcaptured⟩ := forall₂_columns_ofMessage hchange
  rw [helements] at hothers
  cases hothers
  rw [← hcaptured.length_eq, ← hdescribed.length_eq]

namespace Message

theorem isMalformed_of_noticeOf
    {ddl : Json}
    {fault : Fault}
    (h : noticeOf ddl = .error fault) :
    fault.isMalformed = true := by
  rcases (bind_eq_error_iff _ _ _).1 h with htype | ⟨objectType, -, h⟩
  · exact Json.isMalformed_of_optionalMember htype
  rcases (bind_eq_error_iff _ _ _).1 h with hname | ⟨objectName, -, h⟩
  · exact Json.isMalformed_of_member hname
  rcases (bind_eq_error_iff _ _ _).1 h with htext | ⟨text, -, h⟩
  · exact Json.isMalformed_of_optionalMember htext
  · contradiction

section OfObject

variable {members : List (Text × Json)}
variable {change : Change}
variable {table : Table}

/-- A change and its table are taken from one object. -/
theorem ofMessage_of_ofObject
    (h : ofObject members = .ok (.change change table)) :
    Table.ofMessage (.object members) = .ok table ∧
      Change.ofMessage (.object members) = .ok change := by
  unfold ofObject at h
  split at h
  · obtain ⟨described, htable, h⟩ := (bind_eq_ok_iff _ _ _).1 h
    obtain ⟨captured, hchange, h⟩ := (bind_eq_ok_iff _ _ _).1 h
    cases h
    exact ⟨htable, hchange⟩
  · obtain ⟨notice, -, h⟩ := (bind_eq_ok_iff _ _ _).1 h
    cases h

/-- The change of a message and the table it describes have as many columns. -/
theorem length_columns_ofObject
    (h : ofObject members = .ok (.change change table)) :
    change.columns.length = table.columns.length := by
  obtain ⟨htable, hchange⟩ := ofMessage_of_ofObject h
  exact Change.length_columns_eq htable hchange

end OfObject

/-- An object that is no message is malformed, unless it describes a column of infinite type. -/
theorem ofObject_escapes_iff
    (members : List (Text × Json)) :
    (∃ fault, ofObject members = .error fault ∧ fault.isMalformed = false)
      ↔
    (Json.find? members "ddl").getD .null = .null ∧ Table.HasInfiniteType members := by
  rw [← Table.ofMessage_escapes_iff]
  unfold ofObject
  split
  · next hddl =>
      simp only [hddl, true_and]
      constructor
      · rintro ⟨fault, h, hfault⟩
        rcases (bind_eq_error_iff _ _ _).1 h with htable | ⟨table, -, h⟩
        · exact ⟨fault, htable, hfault⟩
        rcases (bind_eq_error_iff _ _ _).1 h with hchange | ⟨change, -, h⟩
        · rw [Change.isMalformed_of_ofMessage hchange] at hfault
          contradiction
        · contradiction
      · rintro ⟨fault, h, hfault⟩
        exact ⟨fault, by rw [h]; rfl, hfault⟩
  · next hddl =>
      constructor
      · rintro ⟨fault, h, hfault⟩
        rcases (bind_eq_error_iff _ _ _).1 h with hnotice | ⟨notice, -, h⟩
        · rw [isMalformed_of_noticeOf hnotice] at hfault
          contradiction
        · contradiction
      · rintro ⟨hnull, -⟩
        exact absurd hnull hddl

end Message

end ChangeFeed
