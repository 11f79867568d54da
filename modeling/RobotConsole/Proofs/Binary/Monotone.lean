import RobotConsole.Proofs.Binary.Order
import RobotConsole.Proofs.Binary.Rounding

/-!
Sums and products keep the order.  The magnitudes of a format are in the order of their ranks, so
numbers are in the order of their smallest steps; an operation takes the exact result over such
steps, and rounding it is monotone.
-/

namespace RobotConsole

namespace Format

variable {f : Format}

theorem units_le_iff (hp : 0 < f.precision) {r q : Nat} : f.units r ≤ f.units q ↔ r ≤ q := by
  have hmono : ∀ {r q : Nat}, f.units r ≤ f.units q → r ≤ q := by
    intro r q h
    rw [← freeRank_units hp r Nat.one_pos, ← freeRank_units hp q Nat.one_pos]
    exact freeRank_mono hp Nat.one_pos Nat.one_pos (by simpa using h)
  refine ⟨hmono, fun h => ?_⟩
  by_contra hlt
  obtain rfl : r = q := Nat.le_antisymm h (hmono (Nat.le_of_not_le hlt))
  exact hlt (Nat.le_refl _)

theorem units_zero : f.units 0 = 0 := units_of_lt binade_pos

theorem units_eq_zero_iff (hp : 0 < f.precision) {r : Nat} : f.units r = 0 ↔ r = 0 := by
  constructor
  · intro h
    exact Nat.le_zero.1 ((units_le_iff hp).1 (by rw [h]; exact Nat.zero_le _))
  · rintro rfl
    exact units_zero

theorem nearestRank_zero_left (hp : 0 < f.precision) {den : Nat} (hden : 0 < den) :
    f.nearestRank 0 den = 0 := by
  have h := nearestRank_units hp hden (Nat.zero_le f.infinity)
  rwa [units_zero, Nat.zero_mul] at h

end Format

namespace Binary

open Format

variable {f : Format} {a b c d lo hi x : Binary f}

theorem steps_le_iff (hp : 0 < f.precision) : a.steps ≤ b.steps ↔ a.key ≤ b.key := by
  have hrank : ∀ x : Binary f, ∃ (s : Bool) (r : Nat),
      x.steps = (if s then -(f.units r : Int) else f.units r) ∧
      x.key = if s then -(r : Int) else r := by
    rintro (_ | ⟨s, r, hr⟩)
    · exact ⟨false, 0, by simp [steps, units_zero], rfl⟩
    · exact ⟨s, r, rfl, rfl⟩
  obtain ⟨s, r, has, hak⟩ := hrank a
  obtain ⟨t, q, hbs, hbk⟩ := hrank b
  have hrq := units_le_iff hp (r := r) (q := q)
  have hqr := units_le_iff hp (r := q) (q := r)
  have hr := units_eq_zero_iff hp (r := r)
  have hq := units_eq_zero_iff hp (r := q)
  rw [has, hbs, hak, hbk]
  cases s <;> cases t <;> simp only [Bool.false_eq_true, if_true, if_false] <;> omega

theorem zero_le_steps_iff (hp : 0 < f.precision) : 0 ≤ a.steps ↔ 0 ≤ a.key := by
  have h := steps_le_iff hp (a := (zero false : Binary f)) (b := a)
  have hsteps : (zero false : Binary f).steps = 0 := by simp [zero, steps, units_zero]
  have hkey : (zero false : Binary f).key = 0 := by simp [zero, key]
  rwa [hsteps, hkey] at h

theorem isNaN_ofSteps (z : Bool) (num : Int) (den : Nat) :
    (ofSteps z num den : Binary f).isNaN = false := by
  unfold ofSteps
  split <;> rfl

theorem key_ofSteps (hp : 0 < f.precision) (z : Bool) (num : Int) {den : Nat} (hden : 0 < den) :
    (ofSteps z num den : Binary f).key =
      if num < 0 then -(f.nearestRank num.natAbs den : Int) else f.nearestRank num.natAbs den := by
  unfold ofSteps
  split
  · next hzero =>
    subst hzero
    cases z <;> simp [zero, key, nearestRank_zero_left hp hden]
  · simp [ofUnits, key]

theorem ofSteps_mono (hp : 0 < f.precision) {y z : Bool} {m n : Int} (h : m ≤ n) {den : Nat}
    (hden : 0 < den) : (ofSteps y m den : Binary f) ≤ ofSteps z n den := by
  refine le_iff_key.2 ⟨isNaN_ofSteps .., isNaN_ofSteps .., ?_⟩
  have hle : m.natAbs ≤ n.natAbs → f.nearestRank m.natAbs den ≤ f.nearestRank n.natAbs den :=
    fun h => nearestRank_mono hp hden hden (Nat.mul_le_mul_right den h)
  have hge : n.natAbs ≤ m.natAbs → f.nearestRank n.natAbs den ≤ f.nearestRank m.natAbs den :=
    fun h => nearestRank_mono hp hden hden (Nat.mul_le_mul_right den h)
  rw [key_ofSteps hp y m hden, key_ofSteps hp z n hden]
  split <;> split <;> omega

theorem add_of_isFinite (ha : a.isFinite = true) (hb : b.isFinite = true) :
    ∃ z, a + b = ofSteps z (a.steps + b.steps) 1 := by
  change ∃ z, add a b = _
  cases a with
  | nan => cases ha
  | signed s r hr =>
    cases b with
    | nan => cases hb
    | signed t q hq => exact ⟨s && t, by rw [add, if_pos ha, if_pos hb]⟩

/-- Sums of finite numbers are in the order of their parts. -/
theorem add_le_add (hp : 0 < f.precision) (ha : a.isFinite = true) (hb : b.isFinite = true)
    (hc : c.isFinite = true) (hd : d.isFinite = true) (hac : a ≤ c) (hbd : b ≤ d) :
    a + b ≤ c + d := by
  obtain ⟨y, hsum⟩ := add_of_isFinite ha hb
  obtain ⟨z, hsum'⟩ := add_of_isFinite hc hd
  have h := (steps_le_iff hp).2 (le_iff_key.1 hac).2.2
  have h' := (steps_le_iff hp).2 (le_iff_key.1 hbd).2.2
  rw [hsum, hsum']
  exact ofSteps_mono hp (Int.add_le_add h h') Nat.one_pos

/-- A finite number added to any number gives a number. -/
theorem isNaN_add (ha : a.isFinite = true) (hb : b.isNaN = false) : (a + b).isNaN = false := by
  change (add a b).isNaN = false
  cases a with
  | nan => cases ha
  | signed s r hr =>
    cases b with
    | nan => cases hb
    | signed t q hq =>
      simp only [add, if_pos ha]
      split
      · exact isNaN_ofSteps ..
      · rfl

theorem isNaN_mul (ha : a.isFinite = true) (hb : b.isFinite = true) : (a * b).isNaN = false := by
  change (mul a b).isNaN = false
  cases a with
  | nan => cases ha
  | signed s r hr =>
    cases b with
    | nan => cases hb
    | signed t q hq =>
      simp only [isFinite, decide_eq_true_eq] at ha hb
      rw [mul, if_pos ⟨ha, hb⟩]
      rfl

theorem neg_le_neg_iff : -a ≤ -b ↔ b ≤ a := by
  simp only [le_iff_key, isNaN_neg, key_neg, Int.neg_le_neg_iff]
  exact ⟨fun ⟨ha, hb, h⟩ => ⟨hb, ha, h⟩, fun ⟨hb, ha, h⟩ => ⟨ha, hb, h⟩⟩

theorem le_trans (h : a ≤ b) (h' : b ≤ c) : a ≤ c := by
  rw [le_iff_key] at *
  exact ⟨h.1, h'.2.1, Int.le_trans h.2.2 h'.2.2⟩

theorem key_abs (a : Binary f) : a.abs.key = a.key.natAbs := by
  cases a with
  | nan => rfl
  | signed s r hr => cases s <;> simp [abs, key]

theorem isNaN_abs (a : Binary f) : a.abs.isNaN = a.isNaN := by cases a <;> rfl

theorem steps_neg (a : Binary f) : (-a).steps = -a.steps := by
  change (neg a).steps = -a.steps
  cases a with
  | nan => rfl
  | signed s r hr => cases s <;> simp [steps, neg]

theorem isFinite_neg (a : Binary f) : (-a).isFinite = a.isFinite := by cases a <;> rfl

/-- A number is between the opposite of a limit and the limit if its magnitude is at most that. -/
theorem abs_le_iff : x.abs ≤ hi ↔ -hi ≤ x ∧ x ≤ hi := by
  simp only [le_iff_key, isNaN_abs, isNaN_neg, key_abs, key_neg]
  constructor
  · rintro ⟨hx, hhi, hkey⟩
    exact ⟨⟨hhi, hx, by omega⟩, hx, hhi, by omega⟩
  · rintro ⟨⟨hhi, hx, hlow⟩, -, -, hhigh⟩
    exact ⟨hx, hhi, by omega⟩

theorem neg_neg (a : Binary f) : - -a = a := by
  rcases a with _ | ⟨_ | _, r, hr⟩ <;> rfl

theorem Within.neg (h : Within lo hi x) : Within (-hi) (-lo) (-x) where
  finite := by rw [isFinite_neg]; exact h.finite
  low := neg_le_neg_iff.2 h.high
  high := neg_le_neg_iff.2 h.low

/-- A sum lies between those of the lower and the upper ends. -/
theorem Within.add {lo' hi' y low high : Binary f} (hp : 0 < f.precision) (hx : Within lo hi x)
    (hy : Within lo' hi' y) (hends : lo.isFinite ∧ lo'.isFinite ∧ hi.isFinite ∧ hi'.isFinite)
    (hlow : low.isFinite = true ∧ low ≤ lo + lo')
    (hhigh : high.isFinite = true ∧ hi + hi' ≤ high) : Within low high (x + y) := by
  obtain ⟨hlo, hlo', hhi, hhi'⟩ := hends
  refine .of_le hlow.1 hhigh.1 ?_ ?_
  · exact le_trans hlow.2 (add_le_add hp hlo hlo' hx.finite hy.finite hx.low hy.low)
  · exact le_trans (add_le_add hp hx.finite hy.finite hhi hhi' hx.high hy.high) hhigh.2

end Binary
end RobotConsole
