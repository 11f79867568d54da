import RobotConsole.Proofs.Status.Window

/-!
What becomes of a number, told from the newest number alone.  The tracker compares a saturating sum
and not a difference, so the two part where the newest number is the greatest there is: no number is
ignored after it, and even the same number starts the tracking anew.
-/

namespace RobotConsole.LossTracker

/-- The last number of a log that was not ignored. -/
def newest? (log : List (UInt64 × SequenceOutcome)) : Option UInt64 :=
  (log.filter fun o => o.2 ≠ .ignored).getLast?.map Prod.fst

theorem newest?_append_ignored (log : List (UInt64 × SequenceOutcome)) (n : UInt64) :
    newest? (log ++ [(n, .ignored)]) = newest? log := by
  simp [newest?]

theorem newest?_append_of_ne (log : List (UInt64 × SequenceOutcome)) (n : UInt64)
    {outcome : SequenceOutcome} (h : outcome ≠ .ignored) :
    newest? (log ++ [(n, outcome)]) = some n := by
  simp [newest?, h]

/-- The window ends in the newest number. -/
theorem getLast?_recent (numbers : List UInt64) :
    (run numbers).1.recent.getLast? = newest? (run numbers).2 := by
  induction numbers using List.reverseRecOn with
  | nil => rfl
  | append_singleton numbers n ih =>
    have hkeeps := keeps_run (numbers ++ [n])
    rw [run_append] at hkeeps ⊢
    by_cases h : ((run numbers).1.observe n).1 = .ignored
    · have hsame := (observe_ignored h).1
      simp only [step, h, hsame, newest?_append_ignored, ih]
    · have hlast := (observe_of_not_ignored h (run numbers).2).2
      rw [hkeeps.recent, getLast?_window]
      simp only [step, newest?_append_of_ne _ _ h]
      exact hlast

/-- The sum that is compared says that a number is a period behind, or that none is newer. -/
theorem saturatingAdd_le_iff (n newest : UInt64) :
    saturatingAdd n.toNat period ≤ newest.toNat ↔
      n ≤ newest ∧ (period ≤ newest.toNat - n.toNat ∨ newest.toNat = maxNumber) := by
  have hn := n.toNat_lt
  have hnewest := newest.toNat_lt
  rw [UInt64.le_iff_toNat_le]
  unfold saturatingAdd maxNumber period
  omega

theorem classify_eq_accepted_iff (newest? : Option UInt64) (n : UInt64) :
    classify newest? n = .accepted ↔ ∀ newest, newest? = some newest → newest < n := by
  cases newest? with
  | none => simp [classify]
  | some newest =>
    have hle := saturatingAdd_le_iff n newest
    simp only [classify, Option.some.injEq, forall_eq', ← UInt64.not_le]
    split_ifs with hreset hold
    · simp [(hle.1 hreset).1]
    · simp [hold]
    · simp [hold]

theorem classify_eq_reset_iff (newest? : Option UInt64) (n : UInt64) :
    classify newest? n = .reset ↔ ∃ newest, newest? = some newest ∧ n ≤ newest ∧
      (period ≤ newest.toNat - n.toNat ∨ newest.toNat = maxNumber) := by
  cases newest? with
  | none => simp [classify]
  | some newest =>
    simp only [classify, Option.some.injEq, exists_eq_left', ← saturatingAdd_le_iff]
    split_ifs with hreset hold
    · simp [hreset]
    · simp [hreset]
    · simp [hreset]

theorem classify_eq_ignored_iff (newest? : Option UInt64) (n : UInt64) :
    classify newest? n = .ignored ↔ ∃ newest, newest? = some newest ∧ n ≤ newest ∧
      newest.toNat - n.toNat < period ∧ newest.toNat ≠ maxNumber := by
  cases newest? with
  | none => simp [classify]
  | some newest =>
    have hle := saturatingAdd_le_iff n newest
    simp only [classify, Option.some.injEq, exists_eq_left']
    split_ifs with hreset hold
    · have hfar := (hle.1 hreset).2
      simp only [false_iff, not_and, not_not]
      intro _ hnear
      exact hfar.resolve_left (Nat.not_le.2 hnear)
    · rw [hle, not_and, not_or, Nat.not_le] at hreset
      simp only [true_iff]
      exact ⟨hold, hreset hold⟩
    · simp [hold]

theorem observe_fst (t : LossTracker) (n : UInt64) :
    (t.observe n).1 = classify t.recent.getLast? n := by
  unfold observe
  split <;> next h => exact h.symm

theorem recent_of_reset {t : LossTracker} {n : UInt64} (h : (t.observe n).1 = .reset) :
    (t.observe n).2.recent = [n] := by
  have hclass := (observe_fst t n).symm.trans h
  have htrim : trim n [n] = [n] := List.dropWhile_cons_of_neg (by simp [period])
  unfold observe
  rw [hclass]
  exact htrim

theorem lastValid_eq_false_iff (t : LossTracker) (n : UInt64) :
    (t.observe n).2.lastValid = false ↔ (t.observe n).1 = .ignored := by
  unfold observe
  split <;> simp [accept]

/-- What becomes of a number after a run, where the newest number is the last that was not ignored.
Below the greatest number it is ignored where it is old, and less than a period so; where the newest
is the greatest number, all others start anew. -/
theorem outcome_of_run (numbers : List UInt64) (n : UInt64) :
    (((run numbers).1.observe n).1 = .accepted ↔
      ∀ newest, newest? (run numbers).2 = some newest → newest < n) ∧
    (((run numbers).1.observe n).1 = .ignored ↔
      ∃ newest, newest? (run numbers).2 = some newest ∧ n ≤ newest ∧
        newest.toNat - n.toNat < 100 ∧ newest.toNat ≠ 2 ^ 64 - 1) ∧
    (((run numbers).1.observe n).1 = .reset ↔
      ∃ newest, newest? (run numbers).2 = some newest ∧ n ≤ newest ∧
        (100 ≤ newest.toNat - n.toNat ∨ newest.toNat = 2 ^ 64 - 1)) ∧
    (((run numbers).1.observe n).1 = .reset → ((run numbers).1.observe n).2.recent = [n]) ∧
    new.lastValid = false ∧
    (((run numbers).1.observe n).2.lastValid = false ↔
      ((run numbers).1.observe n).1 = .ignored) := by
  have houtcome := observe_fst (run numbers).1 n
  rw [getLast?_recent] at houtcome
  refine ⟨?_, ?_, ?_, recent_of_reset, rfl, lastValid_eq_false_iff _ n⟩
  · rw [houtcome]
    exact classify_eq_accepted_iff _ n
  · rw [houtcome]
    exact classify_eq_ignored_iff _ n
  · rw [houtcome]
    exact classify_eq_reset_iff _ n

/-- The greatest number is not ignored where it comes twice. -/
theorem greatest_number_resets :
    ¬ ∀ (numbers : List UInt64) (n newest : UInt64),
      newest? (run numbers).2 = some newest → n ≤ newest → newest.toNat - n.toNat < 100 →
        ((run numbers).1.observe n).1 = .ignored := by
  intro h
  have hignored := h [18446744073709551615] 18446744073709551615 18446744073709551615
    (by decide) (by decide) (by decide)
  have hreset : ((run [18446744073709551615]).1.observe 18446744073709551615).1 = .reset := by
    decide
  rw [hreset] at hignored
  cases hignored

end RobotConsole.LossTracker
