import RobotConsole.Proofs.Binary.Order
import RobotConsole.Proofs.Binary.Rounding
import RobotConsole.Proofs.Json.Fields

/-!
The floats that are read from a document.  Each stands in it as a number, wherever the fields of a
record are found.  What is read from a number is a number: its double is multiplied only while it
stays finite, and divided only by powers of ten that are neither zero nor infinite.
-/

namespace RobotConsole

namespace Binary

variable {f g : Format}

theorem isNaN_convert (x : Binary f) : (x.convert : Binary g).isNaN = x.isNaN := by
  cases x with
  | nan => rfl
  | signed s r h =>
    rw [convert]
    split <;> rfl

theorem isNaN_ofNat (n : Nat) : (ofNat n : Binary f).isNaN = false := rfl

theorem isNaN_div {x : Binary f} {r : Nat} {hr : r ≤ f.infinity} (hx : x.isNaN = false)
    (hzero : r ≠ 0) (hfinite : r < f.infinity) : (x / signed false r hr).isNaN = false := by
  cases x with
  | nan => cases hx
  | signed s q hq =>
    change (div (signed s q hq) (signed false r hr)).isNaN = false
    rw [div, if_pos hfinite, if_pos hfinite, if_neg hzero]
    split <;> rfl

end Binary

namespace Json

def powerRank (n : Nat) : Nat := Format.double.nearestRank (10 ^ n * Format.double.one) 1

theorem powerRank_mono {m n : Nat} (h : m ≤ n) : powerRank m ≤ powerRank n := by
  have hpow : 10 ^ m ≤ 10 ^ n := Nat.pow_le_pow_right (by decide) h
  apply Format.nearestRank_mono (by decide) (by decide) (by decide)
  exact Nat.mul_le_mul_right _ (Nat.mul_le_mul_right _ hpow)

theorem powerRank_zero : 0 < powerRank 0 := by decide +kernel

theorem powerRank_top : powerRank 308 < Format.double.infinity := by decide +kernel

theorem powerOfTen_eq {n : Nat} (h : n ≤ 308) :
    powerOfTen n = .signed false (powerRank n) (Nat.min_le_right _ _) := by
  have hscale : Format.double.scale = 1074 := by decide
  have hdigits : Decimal.digitCount 1 = 1 := by decide
  have hfraction : powerOfTen n = .ofFraction false (10 ^ n) 1 := by
    rw [powerOfTen, Binary.ofDecimal, if_neg Nat.one_ne_zero, hscale, hdigits, if_neg (by omega),
      if_neg (by omega), Int.toNat_natCast, Int.toNat_neg_natCast, Nat.one_mul, Nat.pow_zero]
  rw [hfraction]
  rfl

/-- The powers of ten that a double is divided by are positive and finite. -/
theorem isNaN_div_powerOfTen {x : Double} {n : Nat} (hx : x.isNaN = false) (h : n ≤ 308) :
    (x / powerOfTen n).isNaN = false := by
  have hzero : powerRank n ≠ 0 := (Nat.lt_of_lt_of_le powerRank_zero (powerRank_mono n.zero_le)).ne'
  have hfinite : powerRank n < Format.double.infinity :=
    Nat.lt_of_le_of_lt (powerRank_mono h) powerRank_top
  rw [powerOfTen_eq h]
  exact Binary.isNaN_div hx hzero hfinite

theorem isNaN_scaleDown {x : Double} (n : Nat) (hx : x.isNaN = false) :
    (scaleDown x n).isNaN = false := by
  induction x, n using scaleDown.induct with
  | case1 x n hle =>
    rw [scaleDown, if_pos hle]
    exact isNaN_div_powerOfTen hx hle
  | case2 n hgt =>
    rw [scaleDown, if_neg hgt, if_pos rfl]
    rfl
  | case3 x n hgt hzero ih =>
    rw [scaleDown, if_neg hgt, if_neg hzero]
    exact ih (isNaN_div_powerOfTen hx (Nat.le_refl _))

theorem isNaN_scaled? {negative : Bool} {n : Nat} {exponent : Int} {x : Double}
    (h : scaled? negative n exponent = some x) : x.isNaN = false := by
  have hsigned : ∀ y : Double, y.isNaN = false → (if negative then -y else y).isNaN = false := by
    intro y hy
    split
    · rw [Binary.isNaN_neg, hy]
    · exact hy
  simp only [scaled?] at h
  split at h
  · cases h
    exact hsigned _ (isNaN_scaleDown _ (Binary.isNaN_ofNat n))
  · split at h
    · cases h
      exact hsigned _ (Binary.isNaN_ofNat n)
    · split at h
      · cases h
      · split at h
        · next hfinite =>
          cases h
          exact hsigned _ (Binary.isNaN_of_isFinite hfinite)
        · cases h

/-- The double of a number is a number. -/
theorem isNaN_ofNumeral? {n : Numeral} {x : Double}
    (h : Number.ofNumeral? n = some (.float x)) : x.isNaN = false := by
  have hscaled : ∀ m exponent,
      (scaled? n.negative m exponent).map Number.float = some (.float x) → x.isNaN = false := by
    intro m exponent hmap
    obtain ⟨y, hy, hfloat⟩ := Option.map_eq_some_iff.1 hmap
    cases hfloat
    exact isNaN_scaled? hy
  simp only [Number.ofNumeral?] at h
  split at h
  · split at h
    · split_ifs at h
      · cases h
      · cases h
        rw [Binary.isNaN_neg, Binary.isNaN_ofNat]
      · cases h
    · exact hscaled _ _ h
  · split at h
    · exact hscaled _ _ h
    · split at h
      · exact hscaled _ _ h
      · split_ifs at h
        cases h
        rfl

theorem isNaN_single? {j : Json} {x : Single} (h : j.single? = some x) : x.isNaN = false := by
  cases j with
  | number n =>
    obtain ⟨value, hvalue, rfl⟩ := Option.map_eq_some_iff.1 h
    cases value with
    | integer m => rfl
    | float y => rw [Binary.isNaN_convert, isNaN_ofNumeral? hvalue]
  | _ => cases h

mutual

def numerals : Json → List Numeral
  | .number n => [n]
  | .list items => listNumerals items
  | .object members => membersNumerals members
  | _ => []

def listNumerals : List Json → List Numeral
  | [] => []
  | j :: rest => numerals j ++ listNumerals rest

def membersNumerals : List (List Char × Json) → List Numeral
  | [] => []
  | (_, j) :: rest => numerals j ++ membersNumerals rest

end

/-- A number of the document is read as this float. -/
def Holds (j : Json) (x : Single) : Prop := ∃ n ∈ j.numerals, (Json.number n).single? = some x

theorem mem_listNumerals {n : Numeral} {items : List Json} :
    n ∈ listNumerals items ↔ ∃ j ∈ items, n ∈ j.numerals := by
  induction items with
  | nil => simp [listNumerals]
  | cons j items ih => simp [listNumerals, ih]

theorem mem_membersNumerals {n : Numeral} {members : List (List Char × Json)} :
    n ∈ membersNumerals members ↔ ∃ m ∈ members, n ∈ m.2.numerals := by
  induction members with
  | nil => simp [membersNumerals]
  | cons m members ih => simp [membersNumerals, ih]

section Parts

variable {x : Single} {names : List String} {js : List Json} {field : Json}

theorem holds_of_single? {j : Json} (h : j.single? = some x) : j.Holds x := by
  cases j with
  | number n => exact ⟨n, List.mem_singleton.2 rfl, h⟩
  | _ => cases h

theorem holds_list {items : List Json} {j : Json} (hj : j ∈ items) (h : j.Holds x) :
    (Json.list items).Holds x := by
  obtain ⟨n, hn, hx⟩ := h
  exact ⟨n, mem_listNumerals.2 ⟨j, hj, hn⟩, hx⟩

theorem holds_cons {items : List Json} (j : Json) (h : (Json.list items).Holds x) :
    (Json.list (j :: items)).Holds x := by
  obtain ⟨n, hn, hx⟩ := h
  exact ⟨n, List.mem_append_right _ hn, hx⟩

theorem holds_object {members : List (List Char × Json)} {raw : List Char} {j : Json}
    (hj : (raw, j) ∈ members) (h : j.Holds x) : (Json.object members).Holds x := by
  obtain ⟨n, hn, hx⟩ := h
  exact ⟨n, mem_membersNumerals.2 ⟨(raw, j), hj, hn⟩, hx⟩

/-- Leaving out members adds no numbers. -/
theorem holds_of_subset {members members' : List (List Char × Json)} (hsub : members' ⊆ members)
    (h : (Json.object members').Holds x) : (Json.object members).Holds x := by
  obtain ⟨n, hn, hx⟩ := h
  obtain ⟨⟨raw, j⟩, hj, hn⟩ := mem_membersNumerals.1 hn
  exact holds_object (hsub hj) ⟨n, hn, hx⟩

/-- The fields of a record hold no floats but its own. -/
theorem holds_of_fields? {j : Json} (h : j.fields? names = some js) (hfield : field ∈ js)
    (hx : field.Holds x) : j.Holds x := by
  cases j with
  | object members =>
    obtain ⟨raw, hraw⟩ := exists_member_of_fields? h hfield
    exact holds_object hraw hx
  | list items =>
    obtain ⟨-, rfl⟩ := fields?_list_iff.1 h
    exact holds_list hfield hx
  | _ => cases h

end Parts

end Json
end RobotConsole
