import RobotConsole.Binary.Numeral
import RobotConsole.Proofs.Json.Number
import RobotConsole.Text.Blank
import RobotConsole.Text.Integer

/-!
Words and the whole numbers among them.  The words of a text are what stands between its blanks, and
a word is read as a whole number where it is a run of digits, after an optional plus, whose value is
within the limit.
-/

namespace RobotConsole.Text

theorem modifyHead_append_nil (parts : List (List Char)) :
    parts.modifyHead ([] ++ ·) = parts := by
  cases parts <;> rfl

theorem wordsFrom_eq (word cs : List Char) :
    wordsFrom word cs =
      ((cs.splitOnP isBlank).modifyHead (word ++ ·)).filter (· ≠ []) := by
  induction cs generalizing word with
  | nil =>
    rw [wordsFrom, List.splitOnP_nil]
    by_cases hword : word = [] <;> simp [hword]
  | cons c cs ih =>
    rw [wordsFrom, List.splitOnP_cons_eq_if_modifyHead]
    by_cases hc : isBlank c = true
    · have hrest := ih []
      rw [modifyHead_append_nil] at hrest
      by_cases hword : word = [] <;> simp [hc, hword, hrest]
    · simp only [hc, if_false, ih, List.modifyHead_modifyHead, Bool.false_eq_true]
      congr 2
      funext front
      simp

/-- The words of a text are the parts between its blanks that are not empty. -/
theorem words_eq (cs : List Char) : words cs = (cs.splitOnP isBlank).filter (· ≠ []) := by
  rw [words, wordsFrom_eq, modifyHead_append_nil]

def digitsAfter (n : Nat) (ds : List Char) : Nat :=
  ds.foldl (fun n c => 10 * n + (c.toNat - '0'.toNat)) n

theorem le_digitsAfter (n : Nat) (ds : List Char) : n ≤ digitsAfter n ds := by
  induction ds generalizing n with
  | nil => exact Nat.le_refl n
  | cons c ds ih =>
    have hmore := ih (10 * n + (c.toNat - '0'.toNat))
    rw [digitsAfter, List.foldl_cons, ← digitsAfter]
    omega

/-- No digit on the way is beyond the limit where the last is not. -/
theorem readDigits_eq_ok_iff {limit : Nat} {beyond : IntegerFault} {n m : Nat} {ds : List Char} :
    readDigits limit beyond n ds = .ok m ↔
      (∀ c ∈ ds, c.isDigit = true) ∧ digitsAfter n ds = m ∧ (ds ≠ [] → m ≤ limit) := by
  induction ds generalizing n with
  | nil => simp [readDigits, digitsAfter]
  | cons c ds ih =>
    have hmore := le_digitsAfter (10 * n + (c.toNat - '0'.toNat)) ds
    have hstep : digitsAfter n (c :: ds) = digitsAfter (10 * n + (c.toNat - '0'.toNat)) ds := rfl
    rw [readDigits, hstep]
    by_cases hc : c.isDigit = true
    · by_cases hlimit : limit < 10 * n + (c.toNat - '0'.toNat)
      · simp only [if_pos hc, if_pos hlimit]
        constructor
        · intro h
          cases h
        · rintro ⟨-, hvalue, hle⟩
          have := hle (List.cons_ne_nil _ _)
          omega
      · simp only [if_pos hc, if_neg hlimit, ih]
        constructor
        · rintro ⟨hdigits, hvalue, hle⟩
          refine ⟨List.forall_mem_cons.2 ⟨hc, hdigits⟩, hvalue, fun _ => ?_⟩
          by_cases hnil : ds = []
          · subst hnil
            simp only [digitsAfter, List.foldl_nil] at hvalue
            omega
          · exact hle hnil
        · rintro ⟨hdigits, hvalue, hle⟩
          exact ⟨(List.forall_mem_cons.1 hdigits).2, hvalue, fun _ => hle (List.cons_ne_nil _ _)⟩
    · rw [if_neg hc]
      constructor
      · intro h
        cases h
      · rintro ⟨hdigits, -⟩
        exact absurd (hdigits c (by simp)) hc

def IsNatural (limit : Nat) (w : List Char) (n : Nat) : Prop :=
  ∃ ds, IsDigits ds ∧ (w = ds ∨ w = '+' :: ds) ∧ natOfDigits ds = n ∧ n ≤ limit

theorem readDigits_zero_iff {limit n : Nat} {ds : List Char} (hne : ds ≠ []) :
    readDigits limit .tooLarge 0 ds = .ok n ↔
      IsDigits ds ∧ natOfDigits ds = n ∧ n ≤ limit := by
  rw [readDigits_eq_ok_iff]
  constructor
  · rintro ⟨hdigits, hvalue, hle⟩
    exact ⟨⟨hne, hdigits⟩, hvalue, hle hne⟩
  · rintro ⟨hdigits, hvalue, hle⟩
    exact ⟨hdigits.2, hvalue, fun _ => hle⟩

theorem not_isDigits_plus (cs : List Char) : ¬ IsDigits ('+' :: cs) := fun h =>
  absurd (h.2 '+' (by simp)) (by decide)

theorem readNatural_eq_ok_iff {limit n : Nat} {w : List Char} :
    readNatural limit w = .ok n ↔ IsNatural limit w n := by
  unfold IsNatural
  rw [readNatural.eq_def]
  split
  · constructor
    · intro h
      cases h
    · rintro ⟨ds, hds, hw | hw, -⟩
      · exact absurd hw.symm hds.1
      · cases hw
  · constructor
    · intro h
      cases h
    · rintro ⟨ds, hds, hw | hw, -⟩
      · exact absurd (hw ▸ hds) (not_isDigits_plus _)
      · exact absurd (List.cons.inj hw).2.symm hds.1
  · next cs hne =>
    rw [readDigits_zero_iff (fun h => hne (h ▸ rfl))]
    constructor
    · rintro ⟨hds, hvalue⟩
      exact ⟨cs, hds, Or.inr rfl, hvalue⟩
    · rintro ⟨ds, hds, hw | hw, hvalue⟩
      · exact absurd (hw ▸ hds) (not_isDigits_plus _)
      · rw [(List.cons.inj hw).2]
        exact ⟨hds, hvalue⟩
  · next hnil _ hplus =>
    rw [readDigits_zero_iff hnil]
    constructor
    · rintro ⟨hds, hvalue⟩
      exact ⟨w, hds, Or.inl rfl, hvalue⟩
    · rintro ⟨ds, hds, hw | hw, hvalue⟩
      · rw [hw]
        exact ⟨hds, hvalue⟩
      · exact absurd hw (hplus ds)

end RobotConsole.Text
