import ChangeFeed.Number.Shortest
import ChangeFeed.Proofs.Number.Nearest

/-!
# The shortest decimal reads back

The shortest decimal of a value is searched for by its number of digits. With as
many digits as are tried at last, the grid of decimals is finer than that of the
format, so the decimal next to the value is close enough to read back. The search
therefore always finds one, and all that it finds read back.

**Results.**

* `nearest_value_decimal`: the value nearest to the shortest decimal of a value is
  the value.
-/

namespace ChangeFeed
namespace Number
namespace Shortest

section ReadsBack

variable {f : Format}
variable {m : Nat}
variable {q : Int}

theorem nearer_eq_or_eq
    (x : Rat)
    (below above : Decimal) :
    nearer x below above = below ∨ nearer x below above = above := by
  simp only [nearer]
  split
  · exact Or.inl rfl
  · split
    · exact Or.inr rfl
    · split
      · exact Or.inl rfl
      · exact Or.inr rfl

theorem readsBack_of_ofLength?
    {x : Floating f}
    {v : Rat}
    {count : Nat}
    {d : Decimal}
    (h : ofLength? x v count = some d) :
    readsBack x d = true := by
  simp only [ofLength?] at h
  split at h
  · next hbelow habove =>
      cases h
      rcases nearer_eq_or_eq v _ _ with heq | heq
      · rw [heq]
        exact hbelow
      · rw [heq]
        exact habove
  · next hbelow _ =>
      cases h
      exact hbelow
  · next _ habove =>
      cases h
      exact habove
  · contradiction

/-- A decimal reads back if it is less than half a step of a fine grid away. -/
theorem readsBack_of_close
    (h : f.Canonical m q)
    {count : Nat}
    {step : Rat}
    {d : Decimal}
    (hcount : 2 ^ f.precision < 10 ^ count)
    (hstep : 0 < step)
    (hgrid : step * 10 ^ count ≤ m * 2 ^ q)
    (hclose : |d.value - m * 2 ^ q| ≤ step / 2) :
    readsBack (.finite false m q h) d = true := by
  have hfine : (2 : Rat) ^ f.precision < 10 ^ count := by exact_mod_cast hcount
  have hnear :
      |d.value - m * 2 ^ q| * 2 ^ (f.precision + 1) < m * 2 ^ q := by
    calc
      |d.value - m * 2 ^ q| * 2 ^ (f.precision + 1) ≤ step / 2 * 2 ^ (f.precision + 1) :=
        mul_le_mul_of_nonneg_right hclose (by positivity)
      _ = step * 2 ^ f.precision := by ring
      _ < step * 10 ^ count := mul_lt_mul_of_pos_left hfine hstep
      _ ≤ m * 2 ^ q := hgrid
  simp [readsBack, Format.nearest_of_close false h hnear]

/-- On a fine grid the decimal next to a value reads back. -/
theorem exists_ofLength?
    (h : f.Canonical m q)
    (hm : 0 < m)
    {count : Nat}
    (hcount : 2 ^ f.precision < 10 ^ count) :
    ∃ d, ofLength? (.finite false m q h) (m * 2 ^ q) count = some d := by
  have hv : (0 : Rat) < m * 2 ^ q :=
    mul_pos (by exact_mod_cast hm) (zpow_pos (by norm_num) q)
  obtain ⟨v, hveq⟩ : ∃ v : Rat, v = m * 2 ^ q := ⟨_, rfl⟩
  rw [← hveq] at hv ⊢
  obtain ⟨step, hstepeq⟩ : ∃ step : Rat, step = 10 ^ (decimalExponent v - count) := ⟨_, rfl⟩
  have hstep : 0 < step := hstepeq ▸ zpow_pos (by norm_num) _
  have hgrid : step * 10 ^ count ≤ v := by
    rw [hstepeq, ← zpow_natCast, ← zpow_add₀ (by norm_num), sub_add_cancel]
    exact (decimalExponent_spec hv).1
  obtain ⟨c, hceq⟩ : ∃ c : Nat, c = (v / step).floor.toNat := ⟨_, rfl⟩
  have hfloor : (c : Rat) = ⌊v / step⌋ := by
    have hnonneg : 0 ≤ (v / step).floor := Int.floor_nonneg.2 (div_pos hv hstep).le
    have hcast : (c : Int) = (v / step).floor := hceq ▸ Int.toNat_of_nonneg hnonneg
    exact_mod_cast congrArg (Int.cast : Int → Rat) hcast
  have hbelow : c * step ≤ v := by
    rw [hfloor, ← le_div_iff₀ hstep]
    exact Int.floor_le _
  have habove : v < (c + 1) * step := by
    rw [hfloor, ← div_lt_iff₀ hstep]
    exact Int.lt_floor_add_one _
  have hside :
      readsBack (.finite false m q h) ⟨c, decimalExponent v - count⟩ = true ∨
        readsBack (.finite false m q h) ⟨c + 1, decimalExponent v - count⟩ = true := by
    rw [hveq] at hgrid
    by_cases hhalf : v - c * step ≤ step / 2
    · refine Or.inl (readsBack_of_close h hcount hstep hgrid ?_)
      rw [Decimal.value, ← hstepeq, ← hveq, abs_sub_comm, abs_of_nonneg (by linarith)]
      exact hhalf
    · refine Or.inr (readsBack_of_close h hcount hstep hgrid ?_)
      have hcast : (((c + 1 : Nat)) : Rat) = c + 1 := Nat.cast_succ c
      rw [Decimal.value, ← hstepeq, ← hveq, hcast, abs_of_nonneg (by linarith)]
      linarith
  simp only [ofLength?, ← hstepeq, ← hceq]
  rcases hside with hreads | hreads
  · rw [hreads]
    split <;> simp_all
  · rw [hreads]
    split <;> simp_all

/-- The value nearest to the shortest decimal of a value is the value, whatever its sign. -/
theorem nearest_value_decimal
    (h : f.Canonical m q)
    (hm : 0 < m)
    (henough : 2 ^ f.precision < 10 ^ (f.enoughDigits - 1)) :
    f.nearest false (decimal (.finite false m q h) (m * 2 ^ q)).value = .finite false m q h := by
  obtain ⟨last, hlast⟩ := exists_ofLength? h hm henough
  have hpos : f.enoughDigits - 1 ∈ List.range f.enoughDigits := by
    rw [List.mem_range]
    unfold Format.enoughDigits
    omega
  have hfound :
      ((List.range f.enoughDigits).findSome?
        (ofLength? (.finite false m q h) (m * 2 ^ q))).isSome = true := by
    rw [List.findSome?_isSome_iff]
    exact ⟨_, hpos, by simp [hlast]⟩
  obtain ⟨d, hd⟩ := Option.isSome_iff_exists.1 hfound
  obtain ⟨count, -, hcount⟩ := List.exists_of_findSome?_eq_some hd
  have hreads := readsBack_of_ofLength? hcount
  rw [decimal, hd, Option.getD_some]
  simpa [readsBack] using hreads

end ReadsBack

end Shortest
end Number
end ChangeFeed
