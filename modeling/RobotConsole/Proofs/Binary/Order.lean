import RobotConsole.Binary.Arithmetic

/-!
The order of floats.  What is a number is ordered by its key, so that of two numbers one is at most
the other, and clamping a number leads to the nearest one between the limits.
-/

namespace RobotConsole.Binary

variable {f : Format} {a b lo hi : Binary f}

theorem le_iff_key : a ≤ b ↔ a.isNaN = false ∧ b.isNaN = false ∧ a.key ≤ b.key := by
  change atMost a b = true ↔ _
  simp [atMost, and_assoc]

theorem lt_iff_key : a < b ↔ a.isNaN = false ∧ b.isNaN = false ∧ a.key < b.key := by
  change less a b = true ↔ _
  simp [less, and_assoc]

theorem le_self (h : a.isNaN = false) : a ≤ a := le_iff_key.2 ⟨h, h, Int.le_refl _⟩

theorem le_of_not_lt (ha : a.isNaN = false) (hb : b.isNaN = false) (h : ¬ a < b) : b ≤ a := by
  rw [lt_iff_key] at h
  exact le_iff_key.2 ⟨hb, ha, Int.not_lt.1 fun hkey => h ⟨ha, hb, hkey⟩⟩

/-- What is a number lies below another or not, and what is none is apart. -/
theorem isNaN_or_lt_or_le (a : Binary f) (hb : b.isNaN = false) :
    a.isNaN = true ∨ a < b ∨ b ≤ a := by
  by_cases ha : a.isNaN = true
  · exact Or.inl ha
  · by_cases hlt : a < b
    · exact Or.inr (Or.inl hlt)
    · exact Or.inr (Or.inr (le_of_not_lt (eq_false_of_ne_true ha) hb hlt))

theorem not_le_of_lt (h : a < b) : ¬ b ≤ a := by
  rw [lt_iff_key] at h
  rw [le_iff_key]
  omega

theorem max_of_isNaN (ha : a.isNaN = true) (b : Binary f) : a.max b = b := by
  rw [max, if_pos ha]

theorem max_of_lt (h : a < b) : a.max b = b := by
  obtain ⟨ha, hb, -⟩ := lt_iff_key.1 h
  rw [max, ha, hb]
  simp only [Bool.false_eq_true, if_false, if_neg (not_le_of_lt h)]

theorem max_of_le (h : b ≤ a) : a.max b = a := by
  obtain ⟨hb, ha, -⟩ := le_iff_key.1 h
  rw [max, ha, hb]
  simp only [Bool.false_eq_true, if_false, if_pos h]

theorem isNaN_of_isFinite (h : a.isFinite = true) : a.isNaN = false := by
  cases a with
  | nan => cases h
  | signed => rfl

theorem isNaN_neg (x : Binary f) : (-x).isNaN = x.isNaN := by cases x <;> rfl

theorem key_neg (a : Binary f) : (-a).key = -a.key := by
  change (neg a).key = -a.key
  cases a with
  | nan => rfl
  | signed negative rank bounded => cases negative <;> simp [key, neg]

theorem key_zero : (0 : Single).key = 0 := by decide

theorem isNaN_zero : (0 : Single).isNaN = false := by decide

/-- A number is at least its opposite where it is not negative. -/
theorem neg_le_self_iff (m : Single) : -m ≤ m ↔ 0 ≤ m := by
  rw [le_iff_key, le_iff_key, isNaN_neg, key_neg, key_zero, isNaN_zero]
  constructor
  · rintro ⟨-, hnan, hkey⟩
    exact ⟨rfl, hnan, by omega⟩
  · rintro ⟨-, hnan, hkey⟩
    exact ⟨hnan, hnan, by omega⟩

theorem not_zero_le_iff (m : Single) : ¬ 0 ≤ m ↔ m.isNaN = true ∨ m < 0 := by
  rw [le_iff_key, lt_iff_key, key_zero, isNaN_zero]
  cases hnan : m.isNaN with
  | true => simp
  | false => simp

/-- Of the numbers between two limits, `y` is the nearest to `x`. -/
inductive Nearest (lo hi x : Binary f) : (y : Binary f) → Prop
  | within (hlo : lo ≤ x) (hhi : x ≤ hi) : Nearest lo hi x x
  | below (hlo : x < lo) : Nearest lo hi x lo
  | above (hhi : hi < x) : Nearest lo hi x hi

theorem exists_nearest {x : Binary f} (hx : x.isFinite = true) (h : lo ≤ hi) :
    ∃ y, Nearest lo hi x y := by
  have hnan := isNaN_of_isFinite hx
  obtain ⟨hlo, hhi, -⟩ := le_iff_key.1 h
  by_cases hbelow : x < lo
  · exact ⟨lo, .below hbelow⟩
  · by_cases habove : hi < x
    · exact ⟨hi, .above habove⟩
    · exact ⟨x, .within (le_of_not_lt hnan hlo hbelow) (le_of_not_lt hhi hnan habove)⟩

theorem clamp?_of_nearest {x y : Binary f} (h : lo ≤ hi) (hy : Nearest lo hi x y) :
    x.clamp? lo hi = some y := by
  rw [clamp?, if_pos h]
  cases hy with
  | within hlo hhi =>
    have hbelow : ¬ x < lo := fun hlt => not_le_of_lt hlt hlo
    have habove : ¬ hi < x := fun hlt => not_le_of_lt hlt hhi
    rw [if_neg hbelow, if_neg habove]
  | below hlo => rw [if_pos hlo]
  | above hhi =>
    have hbelow : ¬ x < lo := by
      rw [le_iff_key] at h
      rw [lt_iff_key] at hhi ⊢
      omega
    rw [if_neg hbelow, if_pos hhi]

theorem clamp?_of_not_le (x : Binary f) (h : ¬ lo ≤ hi) : x.clamp? lo hi = none := by
  rw [clamp?, if_neg h]

theorem isFinite_iff_key : a.isFinite = true ↔
    a.isNaN = false ∧ -(f.infinity : Int) < a.key ∧ a.key < f.infinity := by
  cases a with
  | nan => simp [isFinite, isNaN]
  | signed s r hr =>
    simp only [isFinite, isNaN, key, decide_eq_true_eq, true_and]
    split <;> omega

/-- What a number is clamped to lies between the limits. -/
theorem bounds_of_clamp? {x y : Binary f} (hx : x.isNaN = false) (h : x.clamp? lo hi = some y) :
    lo ≤ y ∧ y ≤ hi := by
  rw [clamp?] at h
  split at h
  · next hle =>
    obtain ⟨hlo, hhi, -⟩ := le_iff_key.1 hle
    cases h
    split
    · exact ⟨le_self hlo, hle⟩
    · next hlow =>
      split
      · exact ⟨hle, le_self hhi⟩
      · next hhigh => exact ⟨le_of_not_lt hx hlo hlow, le_of_not_lt hhi hx hhigh⟩
  · cases h

structure Within (lo hi x : Binary f) : Prop where
  finite : x.isFinite = true
  low : lo ≤ x
  high : x ≤ hi

/-- What lies between two finite numbers is finite. -/
theorem Within.of_le {x : Binary f} (hlo : lo.isFinite = true) (hhi : hi.isFinite = true)
    (hlow : lo ≤ x) (hhigh : x ≤ hi) : Within lo hi x := by
  refine ⟨?_, hlow, hhigh⟩
  rw [isFinite_iff_key] at *
  rw [le_iff_key] at hlow hhigh
  exact ⟨hlow.2.1, by omega, by omega⟩

theorem within_of_clamp? {x y : Binary f} (hlo : lo.isFinite = true) (hhi : hi.isFinite = true)
    (hx : x.isFinite = true) (h : x.clamp? lo hi = some y) : Within lo hi y := by
  obtain ⟨hlow, hhigh⟩ := bounds_of_clamp? (isNaN_of_isFinite hx) h
  exact .of_le hlo hhi hlow hhigh

end RobotConsole.Binary
