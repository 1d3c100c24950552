import ChangeFeed.Proofs.Session.Keys
import ChangeFeed.Proofs.Session.Stamped

/-!
# Formatting a change again

The schemas that a change was formatted with stay kept until a notice names its
table, whatever else is formatted or fails in between, also with other
descriptions of the table. So the same change with the same description succeeds
again later on, with the same records and key records. Only the stamps differ:
all of them come later than those given before.

**Results.**

* `exists_stateAfter_after`: messages take calls of the sequence of stamps.
* `StampedBetween.stampedBefore`: pairs stamped by later calls have later stamps.
* `format_again`: a change that was formatted is formatted again.
-/

namespace ChangeFeed

/-- The stamps of two pairs are those of instants, the first before the second. -/
def Emitted.StampedBefore
    (settings : Settings)
    (first second : Emitted) : Prop :=
  ∃ earlier later : Instant,
    first.record.stamp = earlier.render settings.isoStamps ∧
    second.record.stamp = later.render settings.isoStamps ∧
    earlier.isBefore later = true

/-- Pairs that are stamped by later calls have later stamps. -/
theorem StampedBetween.stampedBefore
    {settings : Settings}
    {clock : Clock}
    {n m l k : Nat}
    {pairs others : List Emitted}
    (hml : m ≤ l)
    (hpairs : StampedBetween settings clock n m pairs)
    (hothers : StampedBetween settings clock l k others) :
    ∀ first ∈ pairs, ∀ second ∈ others, first.StampedBefore settings second := by
  obtain ⟨calls, hcalls, -, hbounds⟩ := hpairs
  obtain ⟨calls', hcalls', -, hbounds'⟩ := hothers
  intro first hfirst second hsecond
  obtain ⟨i, hi, earlier, hearlier, hshown⟩ := exists_match_of_mem hcalls hfirst
  obtain ⟨j, hj, later, hlater, hshown'⟩ := exists_match_of_mem hcalls' hsecond
  have hlt : i < j := by
    have hbelow := (hbounds i hi).2
    have habove := (hbounds' j hj).1
    omega
  obtain ⟨found, hfound, hbefore⟩ := Stamps.exists_given_of_lt hlt hlater
  cases hearlier.symm.trans hfound
  exact ⟨earlier, later, hshown, hshown', hbefore⟩

namespace Formatter

section Kept

variable {settings : Settings}
variable {clock : Clock}
variable {id : Identity}
variable {schemas : Schema.Schemas}
variable {state : Formatter}

/-- With schemas kept for its table, a change is assembled with them. -/
theorem format_of_kept
    {table : Table}
    (clock : Clock)
    (change : Change)
    (hname : table.name.identity? = some id)
    (h : state.cache.schemas? id = some schemas) :
    (format settings clock state change table).result =
      (assemble settings clock state.stamps change table schemas.hasKey).1 := by
  obtain ⟨hresult, -, -⟩ := Schema.Cache.hasKey?_request state.cache hname
  rw [Schema.Cache.hasKey?_eq, h] at hresult
  exact (format_of_hasKey clock change hresult).1

/-- With the same schemas kept and with stamps left, a change comes to the same but for stamps. -/
theorem format_of_same_schemas
    {other : Formatter}
    {change : Change}
    {table : Table}
    {build : Schema.Build}
    {pairs : List Emitted}
    (hrequest : (state.cache.request table.name table).result = .ok build)
    (hok : (format settings clock state change table).result = .ok pairs)
    (hname : table.name.identity? = some id)
    (hkept : other.cache.schemas? id = some build.schemas)
    (hstamps : other.stamps.Gives clock pairs.length) :
    ∃ others,
      (format settings clock other change table).result = .ok others ∧
      others.map Emitted.unstamped = pairs.map Emitted.unstamped := by
  obtain ⟨found, columns, -, -, -, hemit⟩ := format_eq_ok hok
  rw [emitAll_length _ _ _ _ _ _ _ _ _ hemit] at hstamps
  rw [(format_of_request_ok settings clock change hrequest).1] at hok
  rw [format_of_kept clock change hname hkept]
  obtain ⟨n, hle, htakes⟩ :=
    exists_takes_assemble settings clock change table build.schemas.hasKey
  have hgives := htakes.lasts state.stamps (by rw [hok]; exact nofun)
  have halike := htakes.alike _ _ hgives (hstamps.of_le hle)
  rw [LooksAlike, hok] at halike
  exact (map_eq_ok_iff _ _ _).1 halike.symm

end Kept

end Formatter

namespace Session

open Formatter (respond)

variable {settings : Settings}
variable {clock : Clock}
variable {state : Formatter}

/-- Messages take calls of the sequence of stamps in order. -/
theorem exists_stateAfter_after
    {n : Nat}
    (messages : List Message)
    (h : state.stamps = Stamps.after clock n) :
    ∃ m,
      n ≤ m ∧
      (stateAfter (respond settings clock) state messages).stamps = Stamps.after clock m := by
  induction messages generalizing state n with
  | nil => exact ⟨n, Nat.le_refl n, h⟩
  | cons message rest ih =>
      obtain ⟨m, hle, hstamps, -⟩ := Formatter.respond_after message h
      obtain ⟨l, hle', hstamps'⟩ := ih hstamps
      exact ⟨l, Nat.le_trans hle hle', hstamps'⟩

/--
In any session, a change that was formatted is formatted again later on, whatever
happens in between, as long as no notice names its table and there are stamps left.
There are as many pairs, each the same as before but for the stamp of its record,
and all stamps come later than those of the first time.
-/
theorem format_again
    (settings : Settings)
    (clock : Clock)
    (before between : List Message)
    (change : Change)
    (table : Table)
    (pairs : List Emitted)
    (hfirst :
      (Formatter.format settings clock
        (stateAfter (respond settings clock) (.start settings) before) change table).result =
          .ok pairs)
    (hnotices :
      ∀ notice,
        .notice notice ∈ between → notice.objectName.identity? ≠ table.name.identity?)
    (hstamps :
      (stateAfter (respond settings clock) (.start settings)
        (before ++ .change change table :: between)).stamps.Gives clock pairs.length) :
    ∃ others,
      (Formatter.format settings clock
          (stateAfter (respond settings clock) (.start settings)
            (before ++ .change change table :: between))
          change table).result = .ok others ∧
      others.length = pairs.length ∧
      others.map Emitted.unstamped = pairs.map Emitted.unstamped ∧
      ∀ first ∈ pairs, ∀ second ∈ others, first.StampedBefore settings second := by
  have hsplit :
      stateAfter (respond settings clock) (.start settings)
          (before ++ .change change table :: between) =
        stateAfter (respond settings clock)
          (respond settings clock (stateAfter (respond settings clock) (.start settings) before)
            (.change change table)).2 between := by
    simp [stateAfter]
  rw [hsplit] at hstamps ⊢
  have hstart :
      ∃ n,
        0 ≤ n ∧
        (stateAfter (respond settings clock) (.start settings) before).stamps =
          Stamps.after clock n :=
    exists_stateAfter_after before rfl
  obtain ⟨n, -, hstart⟩ := hstart
  generalize stateAfter (respond settings clock) (.start settings) before = state at *
  obtain ⟨build, -, hrequest, -⟩ := Formatter.format_eq_ok hfirst
  obtain ⟨id, hname, hkept⟩ :=
    Formatter.schemas?_respond_of_request clock change hrequest
  have hdrops : ∀ message ∈ between, ¬message.Drops id := by
    intro message hmem
    cases message with
    | notice notice => exact fun hdrops => hnotices notice hmem (hdrops.trans hname.symm)
    | change change table => exact not_false
  obtain ⟨others, hothers, hsame⟩ :=
    Formatter.format_of_same_schemas hrequest hfirst hname
      (Formatter.schemas?_stateAfter_of_kept hkept hdrops) hstamps
  refine ⟨others, hothers, by simpa using congrArg List.length hsame, hsame, ?_⟩
  -- The calls of the second time come after all those of the first and of what is in between.
  obtain ⟨m, -, hmiddle, hpairs⟩ := Formatter.respond_after (.change change table) hstart
  obtain ⟨l, hml, hend⟩ := exists_stateAfter_after between hmiddle
  obtain ⟨k, -, -, hlater⟩ := Formatter.respond_after (.change change table) hend
  exact (hpairs pairs hfirst).stampedBefore hml (hlater others hothers)

end Session

namespace Item

/-- An item that cannot be read is described without a key, a notice is of parcels, one is sent. -/
def interlude : List Message :=
  [.change misread keyless, .notice ⟨.text "TABLE", .text "SHOP.PARCELS", .text ""⟩,
    .change Parcel.sent Parcel.table]

theorem objectName_interlude :
    ∀ notice,
      .notice notice ∈ interlude →
      notice.objectName.identity? ≠ priced.name.identity? := by
  intro notice hmem
  simp only [interlude, List.mem_cons, Message.notice.injEq, reduceCtorEq, false_or,
    List.not_mem_nil, or_false] at hmem
  rw [hmem]
  simp [priced]

end Item

/-- An item that arrived arrives once more, after one that could not be read and a parcel. -/
theorem Session.format_again_arrived :
    ∃ pairs others,
      pairs.length = 1 ∧
      (Formatter.format {} Item.clock {} Item.arrived Item.priced).result = .ok pairs ∧
      (Formatter.format {} Item.clock
          (stateAfter (Formatter.respond {} Item.clock) (.start {})
            (.change Item.arrived Item.priced :: Item.interlude))
          Item.arrived Item.priced).result = .ok others ∧
      others.map Emitted.unstamped = pairs.map Emitted.unstamped ∧
      ∀ first ∈ pairs, ∀ second ∈ others, first.StampedBefore {} second := by
  obtain ⟨pairs, hok, hlength⟩ :
      ∃ pairs,
        (Formatter.format {} Item.clock {} Item.arrived Item.priced).result = .ok pairs ∧
        pairs.length = 1 :=
    exists_ok_of_toOption (by decide +kernel)
  have hstamps :
      (stateAfter (Formatter.respond {} Item.clock) (.start {})
        ([] ++ .change Item.arrived Item.priced :: Item.interlude)).stamps.Gives Item.clock
        pairs.length := by
    rw [hlength, Stamps.gives_one_iff]
    exact Option.isSome_iff_exists.1 (by decide +kernel)
  obtain ⟨others, hothers, -, hsame, hbefore⟩ :=
    format_again {} Item.clock [] Item.interlude Item.arrived Item.priced pairs hok
      Item.objectName_interlude hstamps
  exact ⟨pairs, others, hlength, hok, hothers, hsame, hbefore⟩

end ChangeFeed
