import Mathlib.Data.List.Basic
import RobotConsole.Proofs.Binary.Rounding
import RobotConsole.Proofs.Json.Record

/-!
The numbers that are written.  Whatever digits are found for a float, its numeral is one that JSON
allows, and a natural number is read as it was written.
-/

namespace RobotConsole

theorem isDigits_toDigits (n : Nat) : IsDigits (Nat.toDigits 10 n) :=
  ⟨Nat.toDigits_ne_nil, fun _ hc => Nat.isDigit_of_mem_toDigits (by decide) (by decide) hc⟩

theorem isDigits_zero : IsDigits ['0'] := isDigits_toDigits 0

/-- No number but zero begins with a zero. -/
theorem head?_toDigits {n : Nat} (h : n ≠ 0) : (Nat.toDigits 10 n).head? ≠ some '0' := by
  induction n using Nat.strong_induction_on with
  | _ n ih =>
    rcases Nat.lt_or_ge n 10 with hlt | hge
    · rw [Nat.toDigits_of_lt_base hlt, List.head?_cons]
      intro hzero
      have hnat := congrArg Char.toNat (Option.some.inj hzero)
      rw [Nat.toNat_digitChar_of_lt_ten hlt] at hnat
      exact h (Nat.add_left_cancel hnat)
    · rw [Nat.toDigits_of_base_le (by decide) hge, List.head?_append]
      have hdiv := ih (n / 10) (by omega) (by omega)
      cases hhead : (Nat.toDigits 10 (n / 10)).head? with
      | none => exact absurd (List.head?_eq_none_iff.1 hhead) Nat.toDigits_ne_nil
      | some c =>
        rw [hhead] at hdiv
        exact hdiv

theorem eq_zero_of_head {n : Nat} (h : (Nat.toDigits 10 n).head? = some '0') : n = 0 := by
  by_contra hne
  exact head?_toDigits hne h

theorem IsDigits.append {ds es : List Char} (h : IsDigits ds) (h' : ∀ c ∈ es, c.isDigit = true) :
    IsDigits (ds ++ es) :=
  ⟨List.append_ne_nil_of_left_ne_nil h.1 es, List.forall_mem_append.2 ⟨h.2, h'⟩⟩

theorem isDigit_of_replicate {n : Nat} : ∀ c ∈ List.replicate n '0', c.isDigit = true := by
  intro c hc
  rw [List.eq_of_mem_replicate hc]
  rfl

namespace Decimal

/-- A decimal number that has no more digits than it needs where it is zero. -/
def ZeroPlain (d : Decimal) : Prop := d.digits = 0 → d.exponent ≤ 0

/-- The grid point below the value counts only where it is not below the interval. -/
theorem Interval.le_of_below {i : Interval} {n : Nat}
    (h : if i.closed then i.low ≤ n else i.low < n) : i.low ≤ n := by
  split at h
  · exact h
  · exact h.le

theorem Interval.gridPoint?_ne_zero (tie : Tie) {i : Interval} (h : 0 < i.low) :
    i.gridPoint? tie ≠ some 0 := by
  intro hzero
  rw [gridPoint?] at hzero
  by_cases hbelow : if i.closed then i.low ≤ i.value / i.den * i.den
      else i.low < i.value / i.den * i.den
  · have hlow := le_of_below hbelow
    rw [if_pos hbelow] at hzero
    split_ifs at hzero
    all_goals
      have hdigit := Option.some.inj hzero
      first
      | exact absurd hdigit (Nat.succ_ne_zero _)
      | rw [hdigit, Nat.zero_mul] at hlow
        omega
  · rw [if_neg hbelow] at hzero
    split_ifs at hzero
    all_goals
      exact absurd (Option.some.inj hzero) (Nat.succ_ne_zero _)

theorem Interval.zeroPlain_shortest (tie : Tie) {i : Interval} (h : 0 < i.low) (top : Int)
    (fuel : Nat) : (i.shortest tie top fuel).ZeroPlain := by
  induction fuel generalizing top with
  | zero => exact fun _ => le_rfl
  | succ fuel ih =>
    rw [shortest]
    split
    · next d heq =>
      rintro rfl
      have hlow : 0 < (i.scaled top).low := Nat.mul_pos h (Nat.pow_pos (by decide))
      exact absurd heq (gridPoint?_ne_zero tie hlow)
    · exact ih (top - 1)

theorem zeroPlain_go {d : Decimal} (fuel : Nat) (h : d.ZeroPlain) :
    (trimmed.go fuel d).ZeroPlain := by
  induction fuel generalizing d with
  | zero => exact h
  | succ fuel ih =>
    rw [trimmed.go]
    split
    · next hdigits =>
      refine ih fun hzero => ?_
      change d.digits / 10 = 0 at hzero
      omega
    · exact h

theorem zeroPlain_trimmed {d : Decimal} (h : d.ZeroPlain) : d.trimmed.ZeroPlain :=
  zeroPlain_go d.digits h

end Decimal

theorem Format.units_pos {f : Format} {rank : Nat} (h : 0 < rank) : 0 < f.units rank := by
  rw [units]
  split
  · exact h
  · exact Nat.mul_pos (Nat.add_pos_left binade_pos _) (Nat.two_pow_pos _)

theorem Format.zeroPlain_shortest (f : Format) (tie : Tie) {rank : Nat} (h : 0 < rank) :
    (f.shortest tie rank).ZeroPlain :=
  Decimal.zeroPlain_trimmed
    (Decimal.Interval.zeroPlain_shortest tie (Nat.add_pos_right _ (units_pos h)) _ _)

namespace NumberStyle

variable {d : Decimal}

/-- The first digits of a number have no zero before them. -/
theorem leading_take {n : Nat} (k : Nat) (h : (Nat.toDigits 10 n).head? = some '0' → k ≤ 1)
    (hzero : ((Nat.toDigits 10 n).take k).head? = some '0') : (Nat.toDigits 10 n).take k = ['0'] := by
  cases k with
  | zero => simp at hzero
  | succ k =>
    rw [List.head?_take, if_neg (Nat.succ_ne_zero k)] at hzero
    have hk : k = 0 := by
      have := h hzero
      omega
    obtain ⟨ds, hds⟩ := List.head?_eq_some_iff.1 hzero
    rw [hds, hk]
    rfl

theorem isJson_withExponent (negative : Bool) (d : Decimal) :
    (withExponent negative d).IsJson where
  whole := by
    refine ⟨?_, fun c hc => (isDigits_toDigits d.digits).2 c (List.mem_of_mem_take hc)⟩
    simp [withExponent]
  leading := leading_take 1 fun _ => le_rfl
  fraction := by
    intro ds hds
    simp only [withExponent] at hds
    split at hds
    · cases hds
    · next hlength =>
      cases hds
      have hpos := Nat.length_toDigits_pos (b := 10) (n := d.digits)
      refine ⟨fun hnil => ?_, fun c hc => (isDigits_toDigits d.digits).2 c (List.mem_of_mem_drop hc)⟩
      have := List.drop_eq_nil_iff.1 hnil
      omega
  exponent := by
    intro e he
    cases he
    exact isDigits_toDigits _

/-- The digits of a number with a point among them. -/
theorem isJson_split (negative : Bool) {n k : Nat} (hk : 0 < k)
    (hlength : k < (Nat.toDigits 10 n).length) :
    (⟨negative, (Nat.toDigits 10 n).take k, some ((Nat.toDigits 10 n).drop k), none⟩ :
      Numeral).IsJson where
  whole := by
    refine ⟨fun hnil => ?_, fun c hc => (isDigits_toDigits n).2 c (List.mem_of_mem_take hc)⟩
    rw [List.take_eq_nil_iff] at hnil
    rcases hnil with h | h
    · omega
    · exact Nat.toDigits_ne_nil h
  leading := leading_take k fun hhead => by
    rw [eq_zero_of_head hhead, Nat.toDigits_zero, List.length_singleton] at hlength
    omega
  fraction := by
    intro ds hds
    cases hds
    refine ⟨fun hnil => ?_, fun c hc => (isDigits_toDigits n).2 c (List.mem_of_mem_drop hc)⟩
    have := List.drop_eq_nil_iff.1 hnil
    omega
  exponent := fun _ he => by cases he

theorem isJson_full {s : NumberStyle} (hs : ∀ ds ∈ s.wholeFraction, IsDigits ds) (negative : Bool)
    (hd : d.ZeroPlain) : (s.full negative d).IsJson := by
  have hdigits := isDigits_toDigits d.digits
  unfold full
  dsimp only
  split_ifs with hwhole hpoint
  · refine ⟨hdigits.append isDigit_of_replicate, fun hhead => ?_, hs, fun _ he => by cases he⟩
    -- zero is written without further zeros
    have hzero : d.digits = 0 := by
      obtain ⟨c, ds, hcons⟩ := List.exists_cons_of_ne_nil hdigits.1
      refine eq_zero_of_head ?_
      rw [hcons] at hhead ⊢
      exact hhead
    have hexponent := hd hzero
    rw [hzero, show d.exponent.toNat = 0 by omega]
    rfl
  · exact isJson_split negative (by omega) (by omega)
  · refine ⟨isDigits_zero, fun _ => rfl, fun ds hds => ?_, fun _ he => by cases he⟩
    cases hds
    exact ⟨List.append_ne_nil_of_right_ne_nil _ hdigits.1,
      List.forall_mem_append.2 ⟨isDigit_of_replicate, hdigits.2⟩⟩

/-- A style that writes digits after its points writes numerals that JSON allows. -/
theorem isJson_numeral {s : NumberStyle} (hs : ∀ ds ∈ s.wholeFraction, IsDigits ds) (f : Format)
    (negative : Bool) (rank : Nat) : (s.numeral f negative rank).IsJson := by
  unfold numeral
  dsimp only
  split_ifs with hzero hfull hfull
  · exact isJson_full hs negative fun _ => le_rfl
  · exact isJson_withExponent negative _
  · exact isJson_full hs negative (f.zeroPlain_shortest s.tie (Nat.pos_of_ne_zero hzero))
  · exact isJson_withExponent negative _

end NumberStyle

namespace Json

theorem isPlain_ofSingle (x : Single) : (ofSingle x).IsPlain := by
  cases x with
  | nan => trivial
  | signed negative rank bounded =>
    rw [ofSingle]
    split
    · refine NumberStyle.isJson_numeral (fun ds hds => ?_) _ negative rank
      cases hds
      exact isDigits_zero
    · trivial

theorem isPlain_ofNat (n : Nat) : (ofNat n).IsPlain where
  whole := isDigits_toDigits n
  leading := fun hhead => by
    change Nat.toDigits 10 n = ['0']
    rw [eq_zero_of_head hhead]
    rfl
  fraction := fun _ h => by cases h
  exponent := fun _ h => by cases h

theorem depth_ofSingle (x : Single) : (ofSingle x).depth = 0 := by
  cases x with
  | nan => rfl
  | signed negative rank bounded =>
    rw [ofSingle]
    split <;> rfl

/-- Digits whose number fits are all taken. -/
theorem takeFitting_of_lt {ds : List Char} {n : Nat} (h : Nat.ofDigitChars 10 ds n < 2 ^ 64) :
    takeFitting n ds = (Nat.ofDigitChars 10 ds n, 0) := by
  induction ds generalizing n with
  | nil => rfl
  | cons c ds ih =>
    rw [Nat.ofDigitChars_cons] at h ⊢
    have hle : 10 * n + (c.toNat - '0'.toNat) ≤
        Nat.ofDigitChars 10 ds (10 * n + (c.toNat - '0'.toNat)) := by
      rw [Nat.ofDigitChars_eq_ofDigitChars_zero]
      exact Nat.le_add_right_of_le (Nat.le_mul_of_pos_left _ (Nat.pow_pos (by decide)))
    rw [takeFitting, if_pos (Nat.lt_of_le_of_lt hle h), ih h]

theorem ofNumeral?_toDigits {n : Nat} (h : n < 2 ^ 64) :
    Number.ofNumeral? ⟨false, Nat.toDigits 10 n, none, none⟩ = some (.integer n) := by
  have htake := takeFitting_of_lt (n := 0) (by rwa [Nat.ofDigitChars_ten_toDigits])
  rw [Nat.ofDigitChars_ten_toDigits] at htake
  rw [Number.ofNumeral?, htake]
  rfl

theorem sound_ofNat {n : Nat} (h : n < 2 ^ 64) : (ofNat n).sound = true := by
  rw [ofNat, sound, ofNumeral?_toDigits h]
  rfl

theorem nat?_ofNat {n bound : Nat} (h : n < bound) (hbound : bound ≤ 2 ^ 64) :
    (ofNat n).nat? bound = some n := by
  rw [ofNat, nat?, ofNumeral?_toDigits (Nat.lt_of_lt_of_le h hbound)]
  exact if_pos h

/-- The float is read as it was written. -/
def ReadsBack (x : Single) : Prop := (ofSingle x).single? = some x

instance (x : Single) : Decidable (ReadsBack x) := inferInstanceAs (Decidable (_ = _))

/-- What is not finite is written as something that no float is read from. -/
theorem ofSingle_of_not_isFinite {x : Single} (h : x.isFinite = false) : ofSingle x = .null := by
  cases x with
  | nan => rfl
  | signed negative rank bounded =>
    have hrank : ¬ rank < Format.single.infinity := by simpa [Binary.isFinite] using h
    rw [ofSingle, if_neg hrank]

theorem ReadsBack.isFinite {x : Single} (h : ReadsBack x) : x.isFinite = true := by
  by_contra hinfinite
  rw [ReadsBack, ofSingle_of_not_isFinite (eq_false_of_ne_true hinfinite)] at h
  cases h

theorem ReadsBack.sound {x : Single} (h : ReadsBack x) : (ofSingle x).sound = true := by
  rw [ReadsBack] at h
  cases hx : ofSingle x with
  | number n =>
    rw [hx, single?, Option.map_eq_some_iff] at h
    obtain ⟨value, hvalue, -⟩ := h
    rw [Json.sound, hvalue]
    rfl
  | null => rfl
  | _ => rw [hx] at h; cases h

/-- A float is read back if it is finite, as far as the digits of a finite one allow it. -/
theorem single?_ofSingle {x : Single} (h : x.isFinite = true → ReadsBack x) :
    (ofSingle x).single? = if x.isFinite then some x else none := by
  cases hfinite : x.isFinite with
  | true => exact h hfinite
  | false =>
    rw [ofSingle_of_not_isFinite hfinite]
    rfl

theorem sound_ofSingle {x : Single} (h : x.isFinite = true → ReadsBack x) :
    (ofSingle x).sound = true := by
  cases hfinite : x.isFinite with
  | true => exact (h hfinite).sound
  | false =>
    rw [ofSingle_of_not_isFinite hfinite]
    rfl

end Json
end RobotConsole
