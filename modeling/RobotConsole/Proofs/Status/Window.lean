import Mathlib.Data.Finset.Card
import Mathlib.Data.List.Induction
import Mathlib.Order.Interval.Finset.Nat
import RobotConsole.Proofs.Binary.Whole
import RobotConsole.Status.LossTracker

/-!
Runs of a loss tracker.  An epoch is what was observed since the last reset, and the numbers of it
that were not ignored ascend.  The tracker keeps those of them that lie less than a period behind
the newest, so it never keeps more than the window can hold, and the loss rate is an exact quotient
of two counts.
-/

namespace RobotConsole.LossTracker

/-- The tracker after a number, and the log of what became of each number. -/
def step (x : LossTracker × List (UInt64 × SequenceOutcome)) (n : UInt64) :
    LossTracker × List (UInt64 × SequenceOutcome) :=
  ((x.1.observe n).2, x.2 ++ [(n, (x.1.observe n).1)])

def run (numbers : List UInt64) : LossTracker × List (UInt64 × SequenceOutcome) :=
  numbers.foldl step (new, [])

/-- What was observed since the last reset, which is part of it. -/
def epoch (log : List (UInt64 × SequenceOutcome)) : List (UInt64 × SequenceOutcome) :=
  log.foldl (fun e o => if o.2 = .reset then [o] else e ++ [o]) []

/-- The numbers of the epoch that were not ignored, in order. -/
def taken (log : List (UInt64 × SequenceOutcome)) : List UInt64 :=
  ((epoch log).filter fun o => o.2 ≠ .ignored).map Prod.fst

/-- The numbers less than a period behind the last. -/
def window (numbers : List UInt64) : List UInt64 :=
  match numbers.getLast? with
  | none => []
  | some n => numbers.filter fun m => n.toNat - m.toNat < period

theorem run_append (numbers : List UInt64) (n : UInt64) :
    run (numbers ++ [n]) = step (run numbers) n := by
  simp [run]

theorem epoch_append (log : List (UInt64 × SequenceOutcome)) (o : UInt64 × SequenceOutcome) :
    epoch (log ++ [o]) = if o.2 = .reset then [o] else epoch log ++ [o] := by
  simp [epoch]

theorem taken_append_accepted (log : List (UInt64 × SequenceOutcome)) (n : UInt64) :
    taken (log ++ [(n, .accepted)]) = taken log ++ [n] := by
  simp [taken, epoch_append]

theorem taken_append_ignored (log : List (UInt64 × SequenceOutcome)) (n : UInt64) :
    taken (log ++ [(n, .ignored)]) = taken log := by
  simp [taken, epoch_append]

theorem taken_append_reset (log : List (UInt64 × SequenceOutcome)) (n : UInt64) :
    taken (log ++ [(n, .reset)]) = [n] := by
  simp [taken, epoch_append]

theorem window_append (numbers : List UInt64) (n : UInt64) :
    window (numbers ++ [n]) =
      (numbers ++ [n]).filter fun m => n.toNat - m.toNat < period := by
  simp [window]

theorem getLast?_window (numbers : List UInt64) :
    (window numbers).getLast? = numbers.getLast? := by
  cases numbers using List.reverseRecOn with
  | nil => rfl
  | append_singleton numbers n =>
    rw [window_append, List.filter_append, List.filter_cons_of_pos (by simp [period])]
    simp

/-- In an ascending list what is dropped from the front is all that lies behind the window. -/
theorem trim_eq_filter {n : UInt64} {numbers : List UInt64} (hsorted : numbers.Pairwise (· < ·))
    (hle : ∀ m ∈ numbers, m ≤ n) :
    trim n numbers = numbers.filter fun m => n.toNat - m.toNat < period := by
  induction numbers with
  | nil => rfl
  | cons m rest ih =>
    rw [List.pairwise_cons] at hsorted
    by_cases hm : n.toNat - m.toNat < period
    · have hall : ∀ k ∈ m :: rest, n.toNat - k.toNat < period := by
        intro k hk
        rcases List.mem_cons.1 hk with rfl | hk
        · exact hm
        · have hlt := UInt64.lt_iff_toNat_lt.1 (hsorted.1 k hk)
          omega
      rw [trim, List.dropWhile_cons_of_neg (by simpa using hm),
        List.filter_eq_self.2 (by simpa using hall)]
    · rw [trim, List.dropWhile_cons_of_pos (by simpa using hm), ← trim,
        ih hsorted.2 (fun k hk => hle k (List.mem_cons_of_mem _ hk)),
        List.filter_cons_of_neg (by simpa using hm)]

/-- What holds of a tracker that took these numbers in its epoch. -/
structure Keeps (numbers : List UInt64) (t : LossTracker) : Prop where
  ascending : numbers.Pairwise (· < ·)
  recent : t.recent = window numbers

theorem Keeps.sublist {numbers : List UInt64} {t : LossTracker} (h : Keeps numbers t) :
    t.recent.Sublist numbers := by
  rw [h.recent, window]
  split
  · exact List.nil_sublist _
  · exact List.filter_sublist

theorem Keeps.mem_recent_iff {numbers : List UInt64} {t : LossTracker} {n : UInt64}
    (h : Keeps numbers t) (hlast : numbers.getLast? = some n) (m : UInt64) :
    m ∈ t.recent ↔ m ∈ numbers ∧ n.toNat - m.toNat < period := by
  simp [h.recent, window, hlast]

theorem le_of_newest {numbers : List UInt64} {newest : UInt64} (h : numbers.Pairwise (· < ·))
    (hnewest : numbers.getLast? = some newest) : ∀ m ∈ numbers, m ≤ newest := by
  obtain ⟨before, rfl⟩ := List.getLast?_eq_some_iff.1 hnewest
  intro m hm
  rcases List.mem_append.1 hm with hm | hm
  · exact UInt64.le_of_lt ((List.pairwise_append.1 h).2.2 m hm newest (by simp))
  · rw [List.mem_singleton.1 hm]
    exact UInt64.le_refl _

theorem ascending_append {numbers : List UInt64} {n : UInt64} (h : numbers.Pairwise (· < ·))
    (hlt : ∀ m ∈ numbers, m < n) : (numbers ++ [n]).Pairwise (· < ·) := by
  rw [List.pairwise_append]
  exact ⟨h, List.pairwise_singleton _ _, fun m hm k hk => by
    rw [List.mem_singleton.1 hk]
    exact hlt m hm⟩

/-- A later window ends further on, so nothing comes back into it. -/
theorem filter_window {numbers : List UInt64} {n : UInt64} (hlt : ∀ m ∈ numbers, m < n) :
    (window numbers).filter (fun m => n.toNat - m.toNat < period) =
      numbers.filter fun m => n.toNat - m.toNat < period := by
  cases numbers using List.reverseRecOn with
  | nil => rfl
  | append_singleton numbers newest =>
    have hnewest := UInt64.lt_iff_toNat_lt.1 (hlt newest (by simp))
    rw [window_append, List.filter_filter]
    apply List.filter_congr
    intro m _
    simp only [← Bool.decide_and, decide_eq_decide]
    omega

theorem keeps_accept {numbers : List UInt64} {t : LossTracker} {n : UInt64}
    (h : Keeps numbers t) (hlt : ∀ m ∈ numbers, m < n) :
    Keeps (numbers ++ [n]) (accept t.recent n) := by
  have hsub := h.sublist
  have hrecent : ∀ m ∈ t.recent, m < n := fun m hm => hlt m (hsub.subset hm)
  have hascending := ascending_append (h.ascending.sublist hsub) hrecent
  refine ⟨ascending_append h.ascending hlt, ?_⟩
  change trim n (t.recent ++ [n]) = _
  rw [trim_eq_filter hascending (le_of_newest hascending (by simp)), window_append,
    List.filter_append, List.filter_append, h.recent, filter_window hlt]

theorem keeps_new : Keeps [] new := ⟨List.Pairwise.nil, rfl⟩

theorem keeps_reset (n : UInt64) : Keeps [n] (accept [] n) := keeps_accept keeps_new (by simp)

/-- A number becomes part of the window, or leaves it alone. -/
theorem keeps_observe {log : List (UInt64 × SequenceOutcome)} {t : LossTracker}
    (h : Keeps (taken log) t) (n : UInt64) :
    Keeps (taken (log ++ [(n, (t.observe n).1)])) (t.observe n).2 := by
  have hnewest : t.recent.getLast? = (taken log).getLast? := by
    rw [h.recent, getLast?_window]
  unfold observe
  cases hclass : classify t.recent.getLast? n with
  | ignored =>
    rw [taken_append_ignored]
    exact ⟨h.ascending, h.recent⟩
  | reset =>
    rw [taken_append_reset]
    exact keeps_reset n
  | accepted =>
    rw [taken_append_accepted]
    refine keeps_accept h fun m hm => ?_
    rw [hnewest] at hclass
    cases hlast : (taken log).getLast? with
    | none => simp [List.getLast?_eq_none_iff.1 hlast] at hm
    | some newest =>
      have hle := le_of_newest h.ascending hlast m hm
      simp only [classify, hlast] at hclass
      have hlt : ¬ n ≤ newest := by
        intro hn
        simp only [hn, if_true] at hclass
        split at hclass <;> cases hclass
      exact UInt64.lt_of_le_of_lt hle (UInt64.not_le.1 hlt)

theorem keeps_run (numbers : List UInt64) : Keeps (taken (run numbers).2) (run numbers).1 := by
  induction numbers using List.reverseRecOn with
  | nil => exact keeps_new
  | append_singleton numbers n ih =>
    rw [run_append]
    exact keeps_observe ih n

/-- The window has room for no more numbers than there are between its ends. -/
theorem expected_eq (n : UInt64) : expected n = min (n.toNat + 1) period := by
  have hn := n.toNat_lt
  simp only [expected, saturatingAdd, maxNumber, period]
  omega

def places (n : UInt64) : Finset Nat := Finset.Ico (n.toNat + 1 - expected n) (n.toNat + 1)

theorem card_places (n : UInt64) : (places n).card = expected n := by
  rw [places, Nat.card_Ico, expected_eq]
  omega

theorem mem_places (n : UInt64) (k : Nat) :
    k ∈ places n ↔ k ≤ n.toNat ∧ n.toNat - k < expected n := by
  rw [places, Finset.mem_Ico, expected_eq]
  simp only [period]
  omega

def occupied (numbers : List UInt64) : Finset Nat := (numbers.map UInt64.toNat).toFinset

theorem card_occupied {numbers : List UInt64} (h : numbers.Pairwise (· < ·)) :
    (occupied numbers).card = numbers.length := by
  have hnodup : (numbers.map UInt64.toNat).Nodup := by
    rw [List.Nodup, List.pairwise_map]
    exact h.imp fun hlt => Nat.ne_of_lt (UInt64.lt_iff_toNat_lt.1 hlt)
  rw [occupied, List.toFinset_card_of_nodup hnodup, List.length_map]

theorem occupied_subset {numbers : List UInt64} {n : UInt64}
    (h : ∀ m ∈ numbers, m ≤ n ∧ n.toNat - m.toNat < period) : occupied numbers ⊆ places n := by
  intro k hk
  obtain ⟨m, hm, rfl⟩ := List.mem_map.1 (List.mem_toFinset.1 hk)
  obtain ⟨hle, hnear⟩ := h m hm
  have hle := UInt64.le_iff_toNat_le.1 hle
  rw [mem_places, expected_eq]
  omega

/-- A window is full exactly where every number that fits into it has come. -/
theorem length_eq_expected_iff {numbers : List UInt64} {n : UInt64}
    (hascending : numbers.Pairwise (· < ·))
    (h : ∀ m ∈ numbers, m ≤ n ∧ n.toNat - m.toNat < period) :
    numbers.length = expected n ↔
      ∀ m : UInt64, m ≤ n → n.toNat - m.toNat < expected n → m ∈ numbers := by
  rw [← card_occupied hascending, ← card_places]
  constructor
  · intro hcard m hm hnear
    have hall := Finset.eq_of_subset_of_card_le (occupied_subset h) (Nat.le_of_eq hcard.symm)
    have hmem : m.toNat ∈ occupied numbers := by
      rw [hall, mem_places, ← card_places]
      exact ⟨UInt64.le_iff_toNat_le.1 hm, hnear⟩
    obtain ⟨k, hk, hkm⟩ := List.mem_map.1 (List.mem_toFinset.1 hmem)
    rwa [← UInt64.toNat_inj.1 hkm]
  · intro hall
    refine congrArg Finset.card (Finset.Subset.antisymm (occupied_subset h) fun k hk => ?_)
    obtain ⟨hle, hnear⟩ := (mem_places n k).1 hk
    have hk : (UInt64.ofNat k).toNat = k :=
      UInt64.toNat_ofNat_of_lt' (Nat.lt_of_le_of_lt hle n.toNat_lt)
    have hmem := hall (.ofNat k) (UInt64.le_iff_toNat_le.2 (by omega)) (by rwa [hk, card_places])
    exact List.mem_toFinset.2 (List.mem_map.2 ⟨_, hmem, hk⟩)

/-- An observation that is not ignored ends the window, and the epoch, in its number. -/
theorem observe_of_not_ignored {t : LossTracker} {n : UInt64} (h : (t.observe n).1 ≠ .ignored)
    (log : List (UInt64 × SequenceOutcome)) :
    (∃ before, (t.observe n).2 = accept before n) ∧
      (taken (log ++ [(n, (t.observe n).1)])).getLast? = some n := by
  unfold observe at h ⊢
  cases hclass : classify t.recent.getLast? n with
  | accepted => exact ⟨⟨_, rfl⟩, by simp [taken_append_accepted]⟩
  | ignored => simp [hclass] at h
  | reset => exact ⟨⟨_, rfl⟩, by simp [taken_append_reset]⟩

theorem lossRate_accept (before : List UInt64) (n : UInt64) :
    (accept before n).lossRate =
      .ofNat (expected n - (accept before n).recent.length) / .ofNat (expected n) := rfl

theorem observe_ignored {t : LossTracker} {n : UInt64} (h : (t.observe n).1 = .ignored) :
    (t.observe n).2.recent = t.recent ∧ (t.observe n).2.lossRate = t.lossRate := by
  unfold observe at h ⊢
  cases hclass : classify t.recent.getLast? n with
  | ignored => exact ⟨rfl, rfl⟩
  | accepted => simp [hclass] at h
  | reset => simp [hclass] at h

/-- What a tracker holds after the number `n`, which it did not ignore, where `epoch` are the numbers
taken since the last reset.  All differences in it are those of greater and smaller numbers. -/
structure Estimates (epoch : List UInt64) (n : UInt64) (t : LossTracker) : Prop where
  le_newest : ∀ m ∈ epoch, m ≤ n
  ascending : t.recent.Pairwise (· < ·)
  newest : t.recent.getLast? = some n
  mem_iff : ∀ m, m ∈ t.recent ↔ m ∈ epoch ∧ n.toNat - m.toNat < period
  expected_eq : expected n = min (n.toNat + 1) period
  expected_pos : 0 < expected n
  retained_le : t.recent.length ≤ expected n
  lossRate_eq : t.lossRate = .ofNat (expected n - t.recent.length) / .ofNat (expected n)
  /-- The quotient is rounded once. -/
  lossRate_nearest : t.lossRate = .ofFraction false (expected n - t.recent.length) (expected n)
  zero_le : 0 ≤ t.lossRate
  lt_one : t.lossRate < 1
  eq_zero_iff : t.lossRate = 0 ↔ ∀ m ≤ n, n.toNat - m.toNat < expected n → m ∈ epoch

theorem estimates_of_keeps {epoch before : List UInt64} {n : UInt64}
    (h : Keeps epoch (accept before n)) (hlast : epoch.getLast? = some n) :
    Estimates epoch n (accept before n) := by
  have hmem := h.mem_recent_iff hlast
  have hle := le_of_newest h.ascending hlast
  have hascending := h.ascending.sublist h.sublist
  have hwithin : ∀ m ∈ (accept before n).recent, m ≤ n ∧ n.toNat - m.toNat < period :=
    fun m hm => ⟨hle m ((hmem m).1 hm).1, ((hmem m).1 hm).2⟩
  have hexpected := expected_eq n
  have hperiod : period = 100 := rfl
  have hretained : (accept before n).recent.length ≤ expected n := by
    rw [← card_occupied hascending, ← card_places]
    exact Finset.card_le_card (occupied_subset hwithin)
  have hnonempty : 0 < (accept before n).recent.length :=
    List.length_pos_of_mem ((hmem n).2 ⟨List.mem_of_getLast? hlast, by omega⟩)
  have hrate := lossRate_accept before n
  have hfraction := hrate.trans (Binary.ofNat_div_ofNat (by omega) (by omega) (by omega))
  refine ⟨hle, hascending, ?_, hmem, hexpected, by omega, hretained, hrate, hfraction, ?_, ?_, ?_⟩
  · rw [h.recent, getLast?_window, hlast]
  · rw [hfraction]
    exact Binary.zero_le_ofFraction _ _
  · rw [hfraction]
    exact Binary.ofFraction_lt_one (by omega) (by omega)
  · have hfull := length_eq_expected_iff hascending hwithin
    rw [hfraction, show (0 : Single) = .zero false by rfl,
      Binary.ofFraction_eq_zero_iff (by omega) (by omega)]
    constructor
    · intro hzero m hm hnear
      exact ((hmem m).1 (hfull.1 (by omega) m hm hnear)).1
    · intro hall
      have := hfull.2 fun m hm hnear => (hmem m).2 ⟨hall m hm hnear, by omega⟩
      omega

/-- After a number that is not ignored the tracker keeps exactly the numbers of the epoch less than
a period behind it, and the loss rate is the quotient of how many of the last numbers are missing
and how many there are.  A number that is ignored leaves both as they were. -/
theorem window_of_run (numbers : List UInt64) (n : UInt64) :
    (((run numbers).1.observe n).1 = .ignored →
      (run (numbers ++ [n])).1.recent = (run numbers).1.recent ∧
        (run (numbers ++ [n])).1.lossRate = (run numbers).1.lossRate) ∧
    (((run numbers).1.observe n).1 = .accepted → ∀ m ∈ (run numbers).1.recent, m ≤ n) ∧
    (((run numbers).1.observe n).1 ≠ .ignored →
      Estimates (taken (run (numbers ++ [n])).2) n (run (numbers ++ [n])).1) := by
  have hkeeps := keeps_run numbers
  have hafter := keeps_run (numbers ++ [n])
  rw [run_append] at hafter ⊢
  refine ⟨observe_ignored, fun haccepted m hm => ?_, fun h => ?_⟩
  · simp only [step, haccepted, taken_append_accepted] at hafter
    refine le_of_newest hafter.ascending (by simp) m ?_
    exact List.mem_append_left _ (hkeeps.sublist.subset hm)
  · obtain ⟨⟨before, haccept⟩, hlast⟩ := observe_of_not_ignored h (run numbers).2
    simp only [step, haccept] at hafter ⊢
    exact estimates_of_keeps hafter hlast

/-- The sender starts anew with 5; of the ten numbers up to 9 it keeps three, and drops an old one. -/
theorem window_of_run_restarted :
    ((run [500, 5, 7, 6]).1.observe 9).1 = .accepted ∧
      (run [500, 5, 7, 6, 9]).1.recent = [5, 7, 9] ∧
      (run [500, 5, 7, 6, 9]).1.lossRate = .ofFraction false 7 10 ∧
      (run [500, 5, 7, 6, 9]).1.lossRate < 1 ∧ (run [500, 5, 7, 6, 9]).1.lossRate ≠ 0 := by
  have h := (window_of_run [500, 5, 7, 6] 9).2.2 (by decide)
  refine ⟨by decide, by decide, h.lossRate_nearest, h.lt_one, fun hzero => ?_⟩
  exact absurd (h.eq_zero_iff.1 hzero 8 (by decide) (by decide)) (by decide)

end RobotConsole.LossTracker
