import RobotConsole.Proofs.Binary.Order
import RobotConsole.Proofs.Binary.Rounding

/-!
Whole numbers as singles.  Below two to the power 24 they are exact, so the quotient of two of them
is their fraction rounded once.  The rounded fraction keeps the order, and a fraction of small
numbers that is strictly between zero and one stays so.
-/

namespace RobotConsole.Binary

open Format

theorem precision_single : 0 < Format.single.precision := by decide

theorem ofUnits_congr {f : Format} (negative : Bool) {a b c d : Nat}
    (h : f.nearestRank a b = f.nearestRank c d) :
    (ofUnits negative a b : Binary f) = ofUnits negative c d := by
  simp only [ofUnits, h]

/-- Numbers without a sign are in the order of their ranks. -/
theorem unsigned_lt_iff {f : Format} {r q : Nat} (hr : r ≤ f.infinity) (hq : q ≤ f.infinity) :
    (signed false r hr : Binary f) < signed false q hq ↔ r < q := by
  rw [lt_iff_key]
  simp [isNaN, key]

theorem unsigned_le_iff {f : Format} {r q : Nat} (hr : r ≤ f.infinity) (hq : q ≤ f.infinity) :
    (signed false r hr : Binary f) ≤ signed false q hq ↔ r ≤ q := by
  rw [le_iff_key]
  simp [isNaN, key]

theorem excess_steps {n : Nat} (hn : n < 2 ^ 24) :
    Format.single.excess (n * Format.single.one) ≤ Format.single.scale := by
  rcases Nat.eq_zero_or_pos n with rfl | hpos
  · decide
  · have hlog : (n * Format.single.one).log2 < 24 + Format.single.scale := by
      rw [Nat.log2_lt (Nat.mul_ne_zero (by omega) (by decide)), Nat.pow_add]
      exact Nat.mul_lt_mul_of_pos_right hn (Nat.two_pow_pos _)
    simp only [excess, Format.single] at hlog ⊢
    omega

/-- The rank of a whole number is below infinity and its magnitude is that number. -/
theorem rank_whole {n : Nat} (hn : n < 2 ^ 24) :
    Format.single.nearestRank (n * Format.single.one) 1 < Format.single.infinity ∧
      Format.single.units (Format.single.nearestRank (n * Format.single.one) 1) =
        n * Format.single.one := by
  have hmono : Format.single.freeRank (n * Format.single.one) 1 ≤
      Format.single.freeRank (2 ^ 24 * Format.single.one) 1 :=
    freeRank_mono precision_single (by decide) (by decide)
      (Nat.mul_le_mul_right _ (Nat.mul_le_mul_right _ (Nat.le_of_lt hn)))
  have htop : Format.single.freeRank (2 ^ 24 * Format.single.one) 1 < Format.single.infinity := by
    decide
  have hunits := units_freeRank precision_single
    ((Nat.pow_dvd_pow 2 (excess_steps hn)).trans (Nat.dvd_mul_left _ n))
  rw [nearestRank_eq, Nat.min_eq_left (by omega)]
  exact ⟨by omega, hunits⟩

/-- The quotient of whole numbers is their fraction rounded once. -/
theorem ofNat_div_ofNat {a b : Nat} (ha : a < 2 ^ 24) (hb : 0 < b) (hb' : b < 2 ^ 24) :
    (ofNat a / ofNat b : Single) = ofFraction false a b := by
  obtain ⟨harank, haunits⟩ := rank_whole ha
  obtain ⟨hbrank, hbunits⟩ := rank_whole hb'
  have hbpos : Format.single.nearestRank (b * Format.single.one) 1 ≠ 0 := by
    intro h
    rw [h] at hbunits
    have : 0 < b * Format.single.one := Nat.mul_pos hb (by decide)
    have hzero : Format.single.units 0 = 0 := by decide
    omega
  change div (signed false _ _) (signed false _ _) = _
  simp only [div, if_pos harank, if_pos hbrank, if_neg hbpos, haunits, hbunits]
  exact ofUnits_congr false (nearestRank_scale precision_single hb (by decide))

theorem ofFraction_lt_iff (a b c d : Nat) :
    (ofFraction false a b : Single) < ofFraction false c d ↔
      Format.single.nearestRank (a * Format.single.one) b <
        Format.single.nearestRank (c * Format.single.one) d :=
  unsigned_lt_iff _ _

theorem ofFraction_le_iff (a b c d : Nat) :
    (ofFraction false a b : Single) ≤ ofFraction false c d ↔
      Format.single.nearestRank (a * Format.single.one) b ≤
        Format.single.nearestRank (c * Format.single.one) d :=
  unsigned_le_iff _ _

theorem nearestRank_zero {b : Nat} (hb : 0 < b) :
    Format.single.nearestRank (0 * Format.single.one) b = 0 := by
  have h := nearestRank_units (f := .single) precision_single hb (Nat.zero_le _)
  rwa [units_of_lt (by decide), Nat.zero_mul, ← Nat.zero_mul Format.single.one] at h

theorem zero_le_ofFraction (a b : Nat) : (0 : Single) ≤ ofFraction false a b := by
  refine (ofFraction_le_iff 0 1 a b).2 ?_
  rw [nearestRank_zero (by decide)]
  exact Nat.zero_le _

/-- A fraction of small numbers rounds to zero only where it is zero. -/
theorem ofFraction_eq_zero_iff {a b : Nat} (hb : 0 < b) (hsmall : b ≤ 100) :
    (ofFraction false a b : Single) = zero false ↔ a = 0 := by
  constructor
  · intro h
    by_contra ha
    have hrank : Format.single.nearestRank (1 * Format.single.one) 100 ≤
        Format.single.nearestRank (a * Format.single.one) b := by
      apply nearestRank_mono precision_single (by decide) hb
      exact Nat.mul_le_mul (Nat.mul_le_mul_right _ (by omega)) hsmall
    have hpos : 0 < Format.single.nearestRank (1 * Format.single.one) 100 := by decide
    injection h
    omega
  · rintro rfl
    simp only [ofFraction, ofUnits, zero, nearestRank_zero hb]

theorem ofFraction_lt_one {a b : Nat} (h : a < b) (hsmall : b ≤ 100) :
    (ofFraction false a b : Single) < 1 := by
  refine (ofFraction_lt_iff a b 1 1).2 ?_
  have hrank : Format.single.nearestRank (a * Format.single.one) b ≤
      Format.single.nearestRank (99 * Format.single.one) 100 := by
    apply nearestRank_mono precision_single (by omega) (by decide)
    calc a * Format.single.one * 100 = a * 100 * Format.single.one := by ring
      _ ≤ 99 * b * Format.single.one := Nat.mul_le_mul_right _ (by omega)
      _ = 99 * Format.single.one * b := by ring
  have hone : Format.single.nearestRank (99 * Format.single.one) 100 <
      Format.single.nearestRank (1 * Format.single.one) 1 := by decide
  omega

end RobotConsole.Binary
