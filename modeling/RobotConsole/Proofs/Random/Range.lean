import RobotConsole.Proofs.Binary.Monotone
import RobotConsole.Proofs.Binary.Whole
import RobotConsole.Random.Draw

/-!
Drawn floats lie in their range.  A value of a range is its lower end and a fraction of its scale,
rounded twice; rounding keeps the order, so no fraction leads beyond the value of the top one, and
the scale is chosen such that this one is not beyond the upper end.
-/

namespace RobotConsole

namespace Binary

open Format

variable {f : Format} {a b c : Binary f}

/-- The steps of a number are rounded to its rank. -/
theorem nearestRank_steps (hp : 0 < f.precision) (a : Binary f) {den : Nat} (hden : 0 < den) :
    f.nearestRank (a.steps.natAbs * den) den = a.key.natAbs := by
  rcases a with _ | ⟨s, r, hr⟩
  · simp [steps, key, nearestRank_zero_left hp hden]
  · have hrank := nearestRank_units hp hden hr
    cases s <;> simp [steps, key, hrank]

/-- A sum with a zero is at the place of the other part. -/
theorem key_add_of_steps_eq_zero (hp : 0 < f.precision) (ha : a.isFinite = true)
    (hb : b.isFinite = true) (hzero : a.steps = 0) : (a + b).key = b.key := by
  obtain ⟨z, hsum⟩ := add_of_isFinite ha hb
  have hrank := nearestRank_steps hp b Nat.one_pos
  have hsign := zero_le_steps_iff hp (a := b)
  rw [Nat.mul_one] at hrank
  rw [hsum, hzero, Int.zero_add, key_ofSteps hp z _ Nat.one_pos, hrank]
  split <;> omega

theorem key_sub_nonneg (hp : 0 < f.precision) (ha : a.isFinite = true) (hb : b.isFinite = true)
    (h : b ≤ a) : 0 ≤ (a - b).key := by
  have hneg : (-b).isFinite = true := by rw [isFinite_neg]; exact hb
  obtain ⟨z, hsum⟩ := add_of_isFinite ha hneg
  have hsteps : 0 ≤ a.steps + (-b).steps := by
    have := (steps_le_iff hp).2 (le_iff_key.1 h).2.2
    rw [steps_neg]
    omega
  change 0 ≤ (a + -b).key
  rw [hsum, key_ofSteps hp z _ Nat.one_pos, if_neg (Int.not_lt.2 hsteps)]
  exact Int.natCast_nonneg _

/-- The product of numbers that are not negative is their exact product rounded once. -/
theorem key_mul (hp : 0 < f.precision) (ha : a.isFinite = true) (hb : b.isFinite = true)
    (ha0 : 0 ≤ a.key) (hb0 : 0 ≤ b.key) :
    (a * b).key = f.nearestRank (a.steps.natAbs * b.steps.natAbs) f.one := by
  have hone : 0 < f.one := Nat.two_pow_pos _
  change (mul a b).key = _
  rcases a with _ | ⟨s, r, hr⟩
  · cases ha
  · rcases b with _ | ⟨t, q, hq⟩
    · cases hb
    · simp only [isFinite, decide_eq_true_eq] at ha hb
      have hsteps : ∀ {s : Bool} {r : Nat} (hr : r ≤ f.infinity),
          (signed s r hr : Binary f).steps.natAbs = f.units r := by
        rintro (_ | _) r hr <;> simp [steps]
      rw [mul, if_pos ⟨ha, hb⟩, hsteps, hsteps]
      -- a negative sign means a zero
      have hzero : (s != t) = true → f.units r * f.units q = 0 := by
        intro hst
        rw [Nat.mul_eq_zero, units_eq_zero_iff hp, units_eq_zero_iff hp]
        cases s <;> cases t <;> simp [key] at ha0 hb0 hst ⊢ <;> omega
      cases hst : s != t with
      | false => simp [ofUnits, key]
      | true => simp [ofUnits, key, hzero hst, nearestRank_zero_left hp hone]

theorem mul_le_mul_of_nonneg (hp : 0 < f.precision) (ha : a.isFinite = true)
    (hb : b.isFinite = true) (hc : c.isFinite = true) (ha0 : 0 ≤ a.key) (hc0 : 0 ≤ c.key)
    (hab : a ≤ b) : a * c ≤ b * c := by
  have hone : 0 < f.one := Nat.two_pow_pos _
  have hkey := (le_iff_key.1 hab).2.2
  have hzero : 0 ≤ a.steps := (zero_le_steps_iff hp).2 ha0
  have hsteps : a.steps ≤ b.steps := (steps_le_iff hp).2 hkey
  have hnat : a.steps.natAbs ≤ b.steps.natAbs := by omega
  refine le_iff_key.2 ⟨isNaN_mul ha hc, isNaN_mul hb hc, ?_⟩
  rw [key_mul hp ha hc ha0 hc0, key_mul hp hb hc (Int.le_trans ha0 hkey) hc0]
  exact Int.ofNat_le.2 (nearestRank_mono hp hone hone
    (Nat.mul_le_mul_right _ (Nat.mul_le_mul_right _ hnat)))

theorem isFinite_of_le_one {a : Single} (ha0 : 0 ≤ a.key) (ha1 : a ≤ 1) : a.isFinite = true := by
  have hone : (1 : Single).key < Format.single.infinity := by decide +kernel
  have hpos : 0 < Format.single.infinity := by decide
  rw [le_iff_key] at ha1
  rw [isFinite_iff_key]
  exact ⟨ha1.1, by omega, by omega⟩

/-- The product of a fraction and a scale, neither negative, is not beyond the scale. -/
theorem mul_le_of_le_one {a b : Single} (hb : b.isFinite = true) (ha0 : 0 ≤ a.key)
    (hb0 : 0 ≤ b.key) (ha1 : a ≤ 1) : (a * b).isFinite = true ∧ 0 ≤ (a * b).key := by
  have hone : (1 : Single).steps.natAbs = Format.single.one := by decide +kernel
  have hfinite : (1 : Single).isFinite = true := by decide +kernel
  have ha := isFinite_of_le_one ha0 ha1
  have hle := mul_le_mul_of_nonneg precision_single ha hfinite hb ha0 hb0 ha1
  have hscale : ((1 : Single) * b).key = b.key := by
    rw [key_mul precision_single hfinite hb (by decide +kernel) hb0, hone, Nat.mul_comm,
      nearestRank_steps precision_single b (by decide)]
    omega
  have hnonneg : 0 ≤ (a * b).key := by
    rw [key_mul precision_single ha hb ha0 hb0]
    exact Int.natCast_nonneg _
  rw [isFinite_iff_key] at hb ⊢
  rw [le_iff_key, hscale] at hle
  exact ⟨⟨hle.1, by omega, by omega⟩, hnonneg⟩

end Binary

namespace FloatRange

open Binary Format

variable {r : FloatRange} {low high fraction : Single}

theorem topFraction_le_one : topFraction ≤ 1 := by decide +kernel

theorem zero_le_topFraction : 0 ≤ topFraction.key := by decide +kernel

/-- Where the top fraction is not beyond the upper end, no fraction leads out of the range. -/
theorem valueAt_within (hlow : r.low.isFinite = true) (hscale : r.scale.isFinite = true)
    (hscale0 : 0 ≤ r.scale.key) (htop : r.valueAt topFraction ≤ high) (h0 : 0 ≤ fraction.key)
    (h1 : fraction ≤ topFraction) : r.low ≤ r.valueAt fraction ∧ r.valueAt fraction ≤ high := by
  have hone := Binary.le_trans h1 topFraction_le_one
  obtain ⟨hfinite, hnonneg⟩ := mul_le_of_le_one hscale h0 hscale0 hone
  have hself := le_self (isNaN_of_isFinite hlow)
  constructor
  · -- the lower end is the sum of zero and itself
    have hzero : (zero false : Single) ≤ fraction * r.scale :=
      le_iff_key.2 ⟨rfl, isNaN_of_isFinite hfinite, hnonneg⟩
    have hle := add_le_add precision_single rfl hlow hfinite hlow hzero hself
    rw [le_iff_key, key_add_of_steps_eq_zero precision_single rfl hlow rfl] at hle
    exact le_iff_key.2 ⟨isNaN_of_isFinite hlow, hle.2.1, hle.2.2⟩
  · obtain ⟨htopFinite, -⟩ :=
      mul_le_of_le_one hscale zero_le_topFraction hscale0 topFraction_le_one
    have hmul : fraction * r.scale ≤ topFraction * r.scale :=
      mul_le_mul_of_nonneg precision_single (isFinite_of_le_one h0 hone)
        (isFinite_of_le_one zero_le_topFraction topFraction_le_one) hscale h0 hscale0 h1
    exact Binary.le_trans (add_le_add precision_single hfinite hlow htopFinite hlow hmul hself) htop

/-- The scale is lowered until the top fraction is not beyond the upper end, at the latest to
zero. -/
theorem fitting_spec {negative : Bool} {rank : Nat} (h : rank < Format.single.infinity)
    (hlow : low.isFinite = true) (hle : low ≤ high) (hsign : negative = true → rank = 0) :
    let r := fitting low high negative rank (Nat.le_of_lt h)
    r.low = low ∧ r.scale.isFinite = true ∧ 0 ≤ r.scale.key ∧ r.valueAt topFraction ≤ high := by
  induction rank with
  | zero =>
    have hzero : ∀ s : Bool, (zero s : Single).isFinite = true ∧ 0 ≤ (zero s : Single).key ∧
        (topFraction * zero s).isFinite = true ∧ (topFraction * zero s).steps = 0 := by
      decide +kernel
    obtain ⟨hfinite, hkey, hmul, hsteps⟩ := hzero negative
    refine ⟨rfl, hfinite, hkey, ?_⟩
    have hlowKey := key_add_of_steps_eq_zero precision_single hmul hlow hsteps
    have hnan := isNaN_add hmul (isNaN_of_isFinite hlow)
    exact le_iff_key.2 ⟨hnan, (le_iff_key.1 hle).2.1, hlowKey ▸ (le_iff_key.1 hle).2.2⟩
  | succ rank ih =>
    obtain rfl : negative = false := by
      cases negative with
      | false => rfl
      | true => exact absurd (hsign rfl) (Nat.succ_ne_zero rank)
    simp only [fitting]
    split
    · exact ih (Nat.lt_of_succ_lt h) (by simp)
    · next htop =>
      have hfinite : (signed false (rank + 1) (Nat.le_of_lt h) : Single).isFinite = true := by
        simpa [isFinite] using h
      have hkey : 0 ≤ (signed false (rank + 1) (Nat.le_of_lt h) : Single).key :=
        Int.natCast_nonneg (rank + 1)
      refine ⟨rfl, hfinite, hkey, ?_⟩
      obtain ⟨hmul, -⟩ := mul_le_of_le_one hfinite zero_le_topFraction hkey topFraction_le_one
      exact le_of_not_lt (le_iff_key.1 hle).2.1 (isNaN_add hmul (isNaN_of_isFinite hlow)) htop

/-- A quotient is negative only as a zero, where the parts are not negative. -/
theorem rank_of_div {a b : Single} {rank : Nat} {hrank : rank ≤ Format.single.infinity}
    (ha : 0 ≤ a.key) (hb : 0 < b.key) (hfinite : rank < Format.single.infinity)
    (h : a / b = signed true rank hrank) : rank = 0 := by
  change div a b = _ at h
  rcases a with _ | ⟨s, r, hr⟩
  · cases h
  · rcases b with _ | ⟨t, q, hq⟩
    · cases h
    · obtain rfl : t = false := by
        cases t with
        | false => rfl
        | true => simp only [key, if_true] at hb; omega
      have hr0 : s = true → r = 0 := by
        rintro rfl
        simp only [key, if_true] at ha
        omega
      have hq0 : q ≠ 0 := by
        rintro rfl
        exact absurd hb (by simp [key])
      have hunits : 0 < Format.single.units q :=
        Nat.pos_of_ne_zero ((units_eq_zero_iff precision_single).not.2 hq0)
      simp only [div, Bool.bne_false, if_neg hq0] at h
      split at h
      · split at h
        · injection h with hsign hquotient
          obtain rfl := hr0 hsign
          rw [← hquotient, units_zero, Nat.zero_mul]
          exact nearestRank_zero_left precision_single hunits
        · injection h with hsign hquotient
          exact hquotient.symm
      · split at h
        · injection h with hsign hquotient
          exact absurd hfinite (by omega)
        · cases h

/-- What a range between two ends has. -/
theorem between?_spec (h : between? low high = some r) :
    (low ≤ high ∧ low.isFinite = true ∧ high.isFinite = true) ∧ r.low = low ∧
      r.scale.isFinite = true ∧ 0 ≤ r.scale.key ∧ r.valueAt topFraction ≤ high := by
  rw [between?] at h
  split at h
  · next hends =>
    refine ⟨hends, ?_⟩
    split at h
    · cases h
    · next negative rank hrank hscale =>
      split at h
      · next hfinite =>
        cases h
        refine fitting_spec hfinite hends.2.1 hends.1 fun hnegative => ?_
        subst hnegative
        exact rank_of_div (key_sub_nonneg precision_single hends.2.2 hends.2.1 hends.1)
          (by decide +kernel) hfinite hscale
      · cases h
  · cases h

theorem within_of_between? (h : between? low high = some r) (h0 : 0 ≤ fraction.key)
    (h1 : fraction ≤ topFraction) : low ≤ r.valueAt fraction ∧ r.valueAt fraction ≤ high := by
  obtain ⟨⟨-, hlow, -⟩, rfl, hscale, hscale0, htop⟩ := between?_spec h
  exact valueAt_within hlow hscale hscale0 htop h0 h1

end FloatRange

/-- A drawn fraction is not negative and not beyond the top one. -/
theorem WordStream.fraction_within (s : WordStream) :
    0 ≤ s.fraction.1.key ∧ s.fraction.1 ≤ FloatRange.topFraction := by
  have hword : (s.next.1 >>> 9).toNat ≤ 2 ^ 23 - 1 := by
    have := s.next.1.toNat_lt
    rw [UInt32.toNat_shiftRight, Nat.shiftRight_eq_div_pow]
    have h : (9 : UInt32).toNat % 32 = 9 := rfl
    rw [h]
    omega
  refine ⟨?_, (Binary.ofFraction_le_iff _ _ _ _).2 ?_⟩
  · exact Int.natCast_nonneg _
  · exact Format.nearestRank_mono Binary.precision_single (by decide) (by decide)
      (Nat.mul_le_mul_right _ (Nat.mul_le_mul_right _ hword))

end RobotConsole
