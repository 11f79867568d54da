import Mathlib.Data.Nat.Log
import Mathlib.Tactic.Linarith
import Mathlib.Tactic.Ring
import RobotConsole.Binary.Arithmetic

/-!
Rounding to the nearest rank.  Rounding is monotone in the exact value, and a magnitude of the
format rounds to its own rank, so what lies between two magnitudes rounds to a rank between theirs.
-/

namespace RobotConsole

theorem roundHalfEven_le {num den m : Nat} (hden : 0 < den) (h : num ≤ m * den) :
    roundHalfEven num den ≤ m := by
  have hdiv := Nat.div_add_mod num den
  have hq : num / den ≤ m := Nat.div_le_of_le_mul (by linarith [Nat.mul_comm m den])
  unfold roundHalfEven
  rcases Nat.lt_or_eq_of_le hq with hlt | heq
  · grind
  · have hr : num % den = 0 := by
      rw [heq, Nat.mul_comm] at hdiv
      omega
    simp only [hr, heq]
    grind

theorem le_roundHalfEven {num den m : Nat} (hden : 0 < den) (h : m * den ≤ num) :
    m ≤ roundHalfEven num den := by
  have hq : m ≤ num / den := (Nat.le_div_iff_mul_le hden).2 h
  unfold roundHalfEven
  grind

theorem roundHalfEven_mul {den : Nat} (m : Nat) (hden : 0 < den) :
    roundHalfEven (m * den) den = m :=
  Nat.le_antisymm (roundHalfEven_le hden (Nat.le_refl _)) (le_roundHalfEven hden (Nat.le_refl _))

theorem div_le_div_of_cross {a b c d : Nat} (hb : 0 < b) (hd : 0 < d) (h : a * d ≤ c * b) :
    a / b ≤ c / d := by
  rw [Nat.le_div_iff_mul_le hd]
  apply Nat.le_of_mul_le_mul_right _ hb
  calc a / b * d * b = a / b * b * d := by ring
    _ ≤ a * d := Nat.mul_le_mul_right d (Nat.div_mul_le_self a b)
    _ ≤ c * b := h

theorem roundHalfEven_mono {a b c d : Nat} (hb : 0 < b) (hd : 0 < d) (h : a * d ≤ c * b) :
    roundHalfEven a b ≤ roundHalfEven c d := by
  have hq := div_le_div_of_cross hb hd h
  have ha := Nat.div_add_mod a b
  have hc := Nat.div_add_mod c d
  rcases Nat.lt_or_eq_of_le hq with hlt | heq
  · have hhigh : roundHalfEven a b ≤ a / b + 1 := by unfold roundHalfEven; grind
    have hlow : c / d ≤ roundHalfEven c d := by unfold roundHalfEven; grind
    omega
  · -- the whole parts agree, so the remainders are in the order of the values
    have hr : a % b * d ≤ c % d * b := by
      have hwhole : b * (a / b) * d = d * (c / d) * b := by rw [heq]; ring
      nlinarith
    have hover : b < 2 * (a % b) → d < 2 * (c % d) := by
      intro hlt
      by_contra hle
      have h1 : b * d < 2 * (a % b) * d := Nat.mul_lt_mul_of_pos_right hlt hd
      have h2 : 2 * (c % d) * b ≤ d * b := Nat.mul_le_mul_right b (by omega)
      nlinarith
    have hhalf : b ≤ 2 * (a % b) → d ≤ 2 * (c % d) := by
      intro hle
      by_contra hlt
      have h1 : b * d ≤ 2 * (a % b) * d := Nat.mul_le_mul_right d hle
      have h2 : 2 * (c % d) * b < d * b := Nat.mul_lt_mul_of_pos_right (by omega) hb
      nlinarith
    unfold roundHalfEven
    simp only [heq]
    grind

namespace Format

variable {f : Format}

/-- How many bits of a whole number are beyond the precision. -/
def excess (f : Format) (v : Nat) : Nat := Nat.log2 v + 1 - f.precision

/-- The nearest rank if there were no greatest one. -/
def freeRank (f : Format) (num den : Nat) : Nat :=
  f.excess (num / den) * f.binade + roundHalfEven num (den * 2 ^ f.excess (num / den))

theorem nearestRank_eq (num den : Nat) :
    f.nearestRank num den = min (f.freeRank num den) f.infinity := rfl

theorem two_mul_binade (hp : 0 < f.precision) : 2 * f.binade = 2 ^ f.precision := by
  rw [binade, ← Nat.pow_succ']
  congr 1
  omega

theorem lt_of_excess (hp : 0 < f.precision) (v : Nat) :
    v < 2 * f.binade * 2 ^ f.excess v := by
  rw [two_mul_binade hp, ← Nat.pow_add]
  refine Nat.lt_of_lt_of_le Nat.lt_log2_self (Nat.pow_le_pow_right (by decide) ?_)
  unfold excess
  omega

theorem le_of_excess (hp : 0 < f.precision) {v : Nat} (h : 0 < f.excess v) :
    f.binade * 2 ^ f.excess v ≤ v := by
  have hv : v ≠ 0 := by
    rintro rfl
    simp only [excess, Nat.log2_zero] at h
    omega
  rw [binade, ← Nat.pow_add]
  refine (Nat.pow_le_pow_right (by decide) ?_).trans (Nat.log2_self_le hv)
  unfold excess at h ⊢
  omega

theorem excess_mono {v w : Nat} (h : v ≤ w) : f.excess v ≤ f.excess w := by
  have hlog : v.log2 ≤ w.log2 := by
    rw [Nat.log2_eq_log_two, Nat.log2_eq_log_two]
    exact Nat.log_mono_right h
  unfold excess
  omega

theorem freeRank_le (hp : 0 < f.precision) (num : Nat) {den : Nat} (hden : 0 < den) :
    f.freeRank num den ≤ (f.excess (num / den) + 2) * f.binade := by
  have hlt := (Nat.div_lt_iff_lt_mul hden).1 (lt_of_excess (f := f) hp (num / den))
  have hround : roundHalfEven num (den * 2 ^ f.excess (num / den)) ≤ 2 * f.binade := by
    apply roundHalfEven_le (Nat.mul_pos hden (Nat.two_pow_pos _))
    calc num ≤ 2 * f.binade * 2 ^ f.excess (num / den) * den := Nat.le_of_lt hlt
      _ = 2 * f.binade * (den * 2 ^ f.excess (num / den)) := by ring
  rw [freeRank, Nat.add_mul]
  omega

theorem le_freeRank (hp : 0 < f.precision) {num den : Nat} (hden : 0 < den)
    (h : 0 < f.excess (num / den)) :
    (f.excess (num / den) + 1) * f.binade ≤ f.freeRank num den := by
  have hle := (Nat.le_div_iff_mul_le hden).1 (le_of_excess hp h)
  have hround : f.binade ≤ roundHalfEven num (den * 2 ^ f.excess (num / den)) := by
    apply le_roundHalfEven (Nat.mul_pos hden (Nat.two_pow_pos _))
    calc f.binade * (den * 2 ^ f.excess (num / den))
        = f.binade * 2 ^ f.excess (num / den) * den := by ring
      _ ≤ num := hle
  rw [freeRank, Nat.add_mul]
  omega

theorem freeRank_mono (hp : 0 < f.precision) {a b c d : Nat} (hb : 0 < b) (hd : 0 < d)
    (h : a * d ≤ c * b) : f.freeRank a b ≤ f.freeRank c d := by
  have hexcess := excess_mono (f := f) (div_le_div_of_cross hb hd h)
  rcases Nat.lt_or_eq_of_le hexcess with hlt | heq
  · calc f.freeRank a b ≤ (f.excess (a / b) + 2) * f.binade := freeRank_le hp a hb
      _ ≤ (f.excess (c / d) + 1) * f.binade := Nat.mul_le_mul_right _ (by omega)
      _ ≤ f.freeRank c d := le_freeRank hp hd (by omega)
  · rw [freeRank, freeRank, heq]
    apply Nat.add_le_add_left
    apply roundHalfEven_mono (Nat.mul_pos hb (Nat.two_pow_pos _))
      (Nat.mul_pos hd (Nat.two_pow_pos _))
    calc a * (d * 2 ^ f.excess (c / d)) = a * d * 2 ^ f.excess (c / d) := by ring
      _ ≤ c * b * 2 ^ f.excess (c / d) := Nat.mul_le_mul_right _ h
      _ = c * (b * 2 ^ f.excess (c / d)) := by ring

theorem nearestRank_mono (hp : 0 < f.precision) {a b c d : Nat} (hb : 0 < b) (hd : 0 < d)
    (h : a * d ≤ c * b) : f.nearestRank a b ≤ f.nearestRank c d := by
  rw [nearestRank_eq, nearestRank_eq]
  have := freeRank_mono hp hb hd h
  omega

/-- Only the value of a fraction matters. -/
theorem nearestRank_scale (hp : 0 < f.precision) {num den k : Nat} (hden : 0 < den) (hk : 0 < k) :
    f.nearestRank (num * k) (den * k) = f.nearestRank num den := by
  apply Nat.le_antisymm
  · exact nearestRank_mono hp (Nat.mul_pos hden hk) hden (by rw [Nat.mul_right_comm, Nat.mul_assoc])
  · exact nearestRank_mono hp hden (Nat.mul_pos hden hk) (by rw [Nat.mul_right_comm, Nat.mul_assoc])

theorem binade_pos : 0 < f.binade := Nat.two_pow_pos _

theorem units_of_lt {rank : Nat} (h : rank < f.binade) : f.units rank = rank := by
  rw [units, if_pos (Nat.div_eq_of_lt h)]

/-- The ranks of a binade beyond the lowest count whole multiples of its step. -/
theorem units_add (e : Nat) {m : Nat} (h : m < f.binade) :
    f.units ((e + 1) * f.binade + m) = (f.binade + m) * 2 ^ e := by
  have hdiv : ((e + 1) * f.binade + m) / f.binade = e + 1 := by
    rw [Nat.mul_comm, Nat.mul_add_div binade_pos, Nat.div_eq_of_lt h, Nat.add_zero]
  have hmod : ((e + 1) * f.binade + m) % f.binade = m := by
    rw [Nat.mul_comm, Nat.mul_add_mod, Nat.mod_eq_of_lt h]
  rw [units, hdiv, hmod, if_neg (by omega), Nat.add_sub_cancel]

theorem excess_of_lt (hp : 0 < f.precision) {v : Nat} (h : v < 2 * f.binade) :
    f.excess v = 0 := by
  rw [two_mul_binade hp] at h
  rcases Nat.eq_zero_or_pos v with rfl | hv
  · simp only [excess, Nat.log2_zero]
    omega
  · have := (Nat.log2_lt (by omega)).2 h
    unfold excess
    omega

theorem excess_mul (hp : 0 < f.precision) (e : Nat) {m : Nat} (h : m < f.binade) :
    f.excess ((f.binade + m) * 2 ^ e) = e := by
  have hlog : ((f.binade + m) * 2 ^ e).log2 = f.precision - 1 + e := by
    have hpos : 0 < f.binade := binade_pos
    rw [Nat.log2_eq_iff (by positivity)]
    constructor
    · rw [Nat.pow_add]
      exact Nat.mul_le_mul_right _ (Nat.le_add_right _ _)
    · rw [show f.precision - 1 + e + 1 = f.precision + e by omega, Nat.pow_add,
        ← two_mul_binade hp]
      exact Nat.mul_lt_mul_of_pos_right (by omega) (Nat.two_pow_pos _)
  rw [excess, hlog]
  omega

/-- Every magnitude of the format has its own rank. -/
theorem freeRank_units (hp : 0 < f.precision) (rank : Nat) {den : Nat} (hden : 0 < den) :
    f.freeRank (f.units rank * den) den = rank := by
  rw [freeRank, Nat.mul_div_cancel _ hden]
  by_cases hlow : rank < f.binade
  · rw [units_of_lt hlow, excess_of_lt hp (by omega), Nat.pow_zero, Nat.mul_one,
      roundHalfEven_mul _ hden, Nat.zero_mul, Nat.zero_add]
  · obtain ⟨e, m, hm, rfl⟩ : ∃ e m, m < f.binade ∧ rank = (e + 1) * f.binade + m := by
      have hdiv : 1 ≤ rank / f.binade := (Nat.one_le_div_iff binade_pos).2 (by omega)
      refine ⟨rank / f.binade - 1, rank % f.binade, Nat.mod_lt _ binade_pos, ?_⟩
      rw [Nat.sub_add_cancel hdiv, Nat.mul_comm]
      exact (Nat.div_add_mod _ _).symm
    rw [units_add e hm, excess_mul hp e hm, Nat.mul_assoc, Nat.mul_comm (2 ^ e) den,
      roundHalfEven_mul _ (Nat.mul_pos hden (Nat.two_pow_pos _))]
    ring

theorem nearestRank_units (hp : 0 < f.precision) {rank den : Nat} (hden : 0 < den)
    (h : rank ≤ f.infinity) : f.nearestRank (f.units rank * den) den = rank := by
  rw [nearestRank_eq, freeRank_units hp rank hden]
  omega

/-- A whole number of steps that fits the precision is a magnitude of the format. -/
theorem units_freeRank (hp : 0 < f.precision) {v : Nat} (h : 2 ^ f.excess v ∣ v) :
    f.units (f.freeRank v 1) = v := by
  obtain ⟨w, hw⟩ := h
  have hrank : f.freeRank v 1 = f.excess v * f.binade + w := by
    have hround := roundHalfEven_mul w (Nat.two_pow_pos (f.excess v))
    rw [Nat.mul_comm, ← hw] at hround
    rw [freeRank, Nat.div_one, Nat.one_mul, hround]
  have hhigh : w < 2 * f.binade := by
    have hlt := lt_of_excess (f := f) hp v
    apply Nat.lt_of_mul_lt_mul_right (a := 2 ^ f.excess v)
    rwa [Nat.mul_comm w, ← hw]
  rw [hrank]
  by_cases he : f.excess v = 0
  · rw [he, Nat.zero_mul, Nat.zero_add]
    rw [he, Nat.pow_zero, Nat.one_mul] at hw
    subst hw
    by_cases hlow : v < f.binade
    · exact units_of_lt hlow
    · obtain ⟨m, hm⟩ := Nat.exists_eq_add_of_le (Nat.le_of_not_lt hlow)
      have := units_add (f := f) 0 (m := m) (by omega)
      rw [hm]
      simpa using this
  · have hle := le_of_excess (f := f) hp (v := v) (by omega)
    have hlow : f.binade ≤ w := by
      apply Nat.le_of_mul_le_mul_right _ (Nat.two_pow_pos (f.excess v))
      rwa [Nat.mul_comm w, ← hw]
    obtain ⟨m, rfl⟩ := Nat.exists_eq_add_of_le hlow
    rw [← Nat.add_assoc, ← Nat.succ_mul, units_add _ (by omega), Nat.mul_comm, ← hw]

end Format
end RobotConsole
