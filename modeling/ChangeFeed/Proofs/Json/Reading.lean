import ChangeFeed.Proofs.Json.RoundTrip

/-!
# Values that were read

The reader refuses integers of too many digits and values nested too deeply, and
in an object that it reads no name comes twice. So there is nothing in the way of
what it reads: the value reads back once it is written.

**Results.**

* `mem_ofMembers`, `nodup_ofMembers`: what an object keeps of its members.
* `Reader.fits_value`: a value that was read can be read back.
* `read_write_of_read`: it is read back.
-/

namespace ChangeFeed
namespace Json

open Number (isDigit ofDigits)

/-- A value can be written and then read within a depth. -/
def Fits
    (depth : Nat)
    (v : Json) : Prop :=
  Readable v ∧ v.depth ≤ depth

section Members

variable {members : List (Text × Json)}

theorem mem_insert
    {name : Text}
    {v : Json}
    {member : Text × Json}
    (h : member ∈ insert members name v) :
    member.2 = v ∨ ∃ other ∈ members, other.2 = member.2 := by
  induction members with
  | nil =>
      rw [List.mem_singleton.1 h]
      exact Or.inl rfl
  | cons first rest ih =>
      obtain ⟨key, old⟩ := first
      unfold insert at h
      split at h
      · rcases List.mem_cons.1 h with rfl | hrest
        · exact Or.inl rfl
        · exact Or.inr ⟨member, List.mem_cons_of_mem _ hrest, rfl⟩
      · rcases List.mem_cons.1 h with rfl | hrest
        · exact Or.inr ⟨_, List.mem_cons_self .., rfl⟩
        · refine (ih hrest).imp_right ?_
          rintro ⟨other, hother, heq⟩
          exact ⟨other, List.mem_cons_of_mem _ hother, heq⟩

theorem nodup_insert
    (name : Text)
    (v : Json)
    (h : (members.map Prod.fst).Nodup) :
    ((insert members name v).map Prod.fst).Nodup := by
  by_cases hname : name ∈ members.map Prod.fst
  · rwa [keys_insert_of_mem members name v hname]
  · rw [keys_insert_of_not_mem members name v hname]
    exact List.Nodup.append h (List.nodup_singleton name) (by simpa using hname)

/-- The values of an object are values of its members. -/
theorem mem_ofMembers
    {member : Text × Json}
    (done : List (Text × Json))
    (h : member ∈ members.foldl (fun acc member => insert acc member.1 member.2) done) :
    (∃ other ∈ done, other.2 = member.2) ∨ ∃ other ∈ members, other.2 = member.2 := by
  induction members generalizing done with
  | nil =>
      exact Or.inl ⟨member, h, rfl⟩
  | cons first rest ih =>
      rcases ih _ h with ⟨other, hother, heq⟩ | ⟨other, hother, heq⟩
      · rcases mem_insert hother with hfirst | ⟨another, hanother, heq'⟩
        · exact Or.inr ⟨first, List.mem_cons_self .., hfirst.symm.trans heq⟩
        · exact Or.inl ⟨another, hanother, heq'.trans heq⟩
      · exact Or.inr ⟨other, List.mem_cons_of_mem _ hother, heq⟩

/-- No name comes twice in an object. -/
theorem nodup_ofMembers
    (done : List (Text × Json))
    (h : (done.map Prod.fst).Nodup) :
    ((members.foldl (fun acc member => insert acc member.1 member.2) done).map Prod.fst).Nodup := by
  induction members generalizing done with
  | nil => exact h
  | cons first rest ih => exact ih _ (nodup_insert first.1 first.2 h)

theorem readable_of_find?
    {name : Text}
    {v : Json}
    (hreadable : MembersReadable members)
    (h : find? members name = some v) :
    Readable v := by
  obtain ⟨before, after, rfl, -⟩ := List.lookup_eq_some_iff.1 h
  exact (membersReadable_iff _).1 hreadable (name, v) (by simp)

theorem fits_ofMembers
    {depth : Nat}
    (h : ∀ member ∈ members, Fits depth member.2) :
    Fits (depth + 1) (ofMembers members) := by
  have hfits :
      ∀ member ∈ members.foldl (fun acc member => insert acc member.1 member.2) [],
        Fits depth member.2 := by
    intro member hmember
    rcases mem_ofMembers [] hmember with ⟨other, hother, -⟩ | ⟨other, hother, heq⟩
    · contradiction
    · rw [← heq]
      exact h other hother
  refine ⟨⟨nodup_ofMembers [] List.nodup_nil, ?_⟩, Nat.succ_le_succ ?_⟩
  · exact (membersReadable_iff _).2 fun member hmember => (hfits member hmember).1
  · exact (membersDepth_le_iff _ _).2 fun member hmember => (hfits member hmember).2

end Members

namespace Reader

section Scalar

theorem isDigit_of_mem_wholeDigits
    {cs : List Char}
    {c : Char}
    (h : c ∈ wholeDigits cs) :
    isDigit c = true := by
  unfold wholeDigits at h
  split at h
  · rw [List.mem_singleton.1 h]
    rfl
  · exact List.all_eq_true.1 (List.all_takeWhile ..) c h

theorem natAbs_signedInt
    (negative : Bool)
    (n : Nat) :
    (Number.signedInt negative n).natAbs = n := by
  cases negative <;> simp [Number.signedInt]

/-- An integer has no more digits than it was read from. -/
theorem readable_number
    {negative : Bool}
    {cs after : List Char}
    {v : Json}
    (h : number negative cs = .ok (v, after)) :
    Readable v ∧ v.depth = 0 := by
  unfold number at h
  simp only at h
  split at h
  · contradiction
  · next hne =>
      split at h
      · cases h
        exact ⟨trivial, rfl⟩
      · split at h
        · cases h
          exact ⟨trivial, rfl⟩
        · split at h
          · contradiction
          · next hshort =>
              cases h
              have hdigits : ∀ c ∈ wholeDigits cs, isDigit c = true :=
                fun c hc => isDigit_of_mem_wholeDigits hc
              have hpos : 0 < (wholeDigits cs).length :=
                List.length_pos_iff.2 (by simpa using hne)
              have hlength :=
                (Nat.length_toDigits_le_iff (by decide) hpos).2 (Number.ofDigits_lt hdigits)
              refine ⟨?_, rfl⟩
              rw [Readable, natAbs_signedInt]
              exact hlength.trans (Nat.le_of_not_lt hshort)

theorem fits_scalar
    {depth : Nat}
    {cs after : List Char}
    {v : Json}
    (h : scalar cs = .ok (v, after)) :
    Fits depth v := by
  unfold scalar at h
  split at h
  · next word hword =>
      cases h
      have hmem := List.mem_of_find?_eq_some hword
      have hwords : ∀ word ∈ words, Readable word.2 ∧ word.2.depth = 0 := by
        simp [words, Readable, Json.depth]
      obtain ⟨hreadable, hdepth⟩ := hwords word hmem
      exact ⟨hreadable, hdepth.trans_le (Nat.zero_le _)⟩
  · have hnumber : Readable v ∧ v.depth = 0 := by
      split at h
      · exact readable_number h
      · exact readable_number h
    exact ⟨hnumber.1, hnumber.2.trans_le (Nat.zero_le _)⟩

end Scalar

mutual

/-- A value that was read can be read back. -/
theorem fits_value
    {fuel depth : Nat}
    {cs after : List Char}
    {v : Json}
    (h : value fuel depth cs = .ok (v, after)) :
    Fits depth v := by
  match fuel with
  | 0 => contradiction
  | fuel + 1 =>
      rw [value.eq_def] at h
      simp only at h
      split at h
      · split at h
        · cases h
          exact ⟨trivial, Nat.zero_le _⟩
        · contradiction
      · split at h
        · contradiction
        · split at h
          · cases h
            exact ⟨trivial, Nat.succ_le_succ (Nat.zero_le _)⟩
          · split at h
            · next hitems =>
                cases h
                obtain ⟨hreadable, hdepth⟩ := fits_items hitems
                exact ⟨hreadable, Nat.succ_le_succ hdepth⟩
            · contradiction
      · split at h
        · contradiction
        · split at h
          · cases h
            exact ⟨⟨List.nodup_nil, trivial⟩, Nat.succ_le_succ (Nat.zero_le _)⟩
          · split at h
            · next hmembers =>
                cases h
                exact fits_ofMembers (fits_members hmembers)
            · contradiction
      · exact fits_scalar h
termination_by fuel

theorem fits_items
    {fuel depth : Nat}
    {cs after : List Char}
    {values : List Json}
    (h : items fuel depth cs = .ok (values, after)) :
    ItemsReadable values ∧ itemsDepth values ≤ depth := by
  match fuel with
  | 0 => contradiction
  | fuel + 1 =>
      rw [items.eq_def] at h
      simp only at h
      split at h
      · contradiction
      · next hvalue =>
          obtain ⟨hreadable, hdepth⟩ := fits_value hvalue
          split at h
          · cases h
            exact ⟨⟨hreadable, trivial⟩, max_le hdepth (Nat.zero_le _)⟩
          · split at h
            · next hitems =>
                cases h
                obtain ⟨hrest, hrestDepth⟩ := fits_items hitems
                exact ⟨⟨hreadable, hrest⟩, max_le hdepth hrestDepth⟩
            · contradiction
          · contradiction
termination_by fuel

theorem fits_members
    {fuel depth : Nat}
    {cs after : List Char}
    {pairs : List (Text × Json)}
    (h : members fuel depth cs = .ok (pairs, after)) :
    ∀ member ∈ pairs, Fits depth member.2 := by
  match fuel with
  | 0 => contradiction
  | fuel + 1 =>
      rw [members.eq_def] at h
      simp only at h
      split at h
      · split at h
        · contradiction
        · split at h
          · split at h
            · contradiction
            · next hvalue =>
                have hfits := fits_value hvalue
                split at h
                · cases h
                  exact List.forall_mem_singleton.2 hfits
                · split at h
                  · next hmembers =>
                      cases h
                      exact List.forall_mem_cons.2 ⟨hfits, fits_members hmembers⟩
                  · contradiction
                · contradiction
          · contradiction
      · contradiction
termination_by fuel

end

end Reader

/-- A value that was read can be read back. -/
theorem fits_of_read
    {cs : List Char}
    {v : Json}
    (h : read cs = .ok v) :
    Fits nestingLimit v := by
  unfold read readWithin at h
  split at h
  · contradiction
  · split at h
    · contradiction
    · next hvalue =>
        split at h
        · cases h
          exact Reader.fits_value hvalue
        · contradiction

/-- A value that was read is read back from what is written of it. -/
theorem read_write_of_read
    {cs : List Char}
    {v : Json}
    (h : read cs = .ok v) :
    read (write v) = .ok v :=
  readWithin_write (fits_of_read h).1 (fits_of_read h).2

end Json
end ChangeFeed
