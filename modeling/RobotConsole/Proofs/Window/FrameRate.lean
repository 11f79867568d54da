import Mathlib.Algebra.BigOperators.Group.List.Basic
import Mathlib.Algebra.Ring.Nat
import Mathlib.Data.List.Induction
import RobotConsole.Proofs.Binary.Monotone
import RobotConsole.Proofs.Binary.Whole
import RobotConsole.Window.FrameRate

/-!
Reports of the frame rate.  There is one way to cut a run of frames into windows that each take a
second with their last frame and less before it; what is left over takes less than a second.  One
report comes with the last frame of each window, and it is told from the frames of that window alone.
-/

namespace RobotConsole

structure FrameTimes where
  frame : Duration
  update : Duration
  render : Duration

namespace RateCounter

def recordAll (c : RateCounter) : List FrameTimes → List (Option RateReport) × RateCounter
  | [] => ([], c)
  | t :: rest =>
    let (answer, c) := c.record t.frame t.update t.render
    let (answers, c) := recordAll c rest
    (answer :: answers, c)

def elapsedIn (w : List FrameTimes) : Duration := (w.map FrameTimes.frame).sum

def updateIn (w : List FrameTimes) : Duration := (w.map FrameTimes.update).sum

def renderIn (w : List FrameTimes) : Duration := (w.map FrameTimes.render).sum

/-- The counter that holds these frames. -/
def held (w : List FrameTimes) : RateCounter := ⟨elapsedIn w, w.length, updateIn w, renderIn w⟩

def report (w : List FrameTimes) : RateReport :=
  ⟨.ofNat w.length / (elapsedIn w).toSeconds, updateIn w / w.length, renderIn w / w.length⟩

/-- The times of a window can be added up, and its frames counted. -/
structure Countable (w : List FrameTimes) : Prop where
  frames : w.length < 2 ^ 32
  elapsed : elapsedIn w < Duration.limit
  update : updateIn w < Duration.limit
  render : renderIn w < Duration.limit

/-- With the last frame of a window, and with none before, a second has passed. -/
structure Closes (w : List FrameTimes) : Prop where
  full : Duration.ofSeconds 1 ≤ elapsedIn w
  first : ∀ n < w.length, elapsedIn (w.take n) < Duration.ofSeconds 1

/-- Frames cut into windows, and what is left over. -/
structure Windows (frames : List FrameTimes) (closed : List (List FrameTimes))
    (current : List FrameTimes) : Prop where
  all : closed.flatten ++ current = frames
  closes : ∀ w ∈ closed, Closes w
  pending : elapsedIn current < Duration.ofSeconds 1

/-- The answers to the frames of a window: its report to the last one, and none to the others. -/
def answers (w : List FrameTimes) : List (Option RateReport) :=
  List.replicate (w.length - 1) none ++ [some (report w)]

theorem elapsedIn_append (v w : List FrameTimes) :
    elapsedIn (v ++ w) = elapsedIn v + elapsedIn w := by
  rw [elapsedIn, List.map_append, List.sum_append]
  rfl

theorem held_append (w : List FrameTimes) (t : FrameTimes) :
    held (w ++ [t]) = ⟨elapsedIn w + t.frame, w.length + 1, updateIn w + t.update,
      renderIn w + t.render⟩ := by
  simp [held, elapsedIn, updateIn, renderIn]

theorem elapsedIn_mono {v w : List FrameTimes} (h : v <+: w) :
    elapsedIn v ≤ elapsedIn w := by
  obtain ⟨rest, rfl⟩ := h
  rw [elapsedIn_append]
  exact Nat.le_add_right _ _

/-- A frame is added to those held, and they are reported once they take a second. -/
theorem record_held {w : List FrameTimes} (t : FrameTimes) (h : (w ++ [t]).length < 2 ^ 32) :
    (held w).record t.frame t.update t.render =
      if elapsedIn (w ++ [t]) < Duration.ofSeconds 1 then (none, held (w ++ [t]))
      else (some (report (w ++ [t])), new) := by
  have hlength : (w ++ [t]).length = w.length + 1 := List.length_append
  have hcount : min ((held w).frames + 1) maxFrames = (w ++ [t]).length := by
    rw [hlength] at h ⊢
    exact Nat.min_eq_left (Nat.le_sub_one_of_lt h)
  have helapsed : (held w).elapsed + t.frame = elapsedIn (w ++ [t]) :=
    (congrArg RateCounter.elapsed (held_append w t)).symm
  have hupdate : (held w).update + t.update = updateIn (w ++ [t]) :=
    (congrArg RateCounter.update (held_append w t)).symm
  have hrender : (held w).render + t.render = renderIn (w ++ [t]) :=
    (congrArg RateCounter.render (held_append w t)).symm
  rw [record, hcount, helapsed, hupdate, hrender]
  rfl

theorem recordAll_append (c : RateCounter) (v w : List FrameTimes) :
    c.recordAll (v ++ w) =
      ((c.recordAll v).1 ++ ((c.recordAll v).2.recordAll w).1, ((c.recordAll v).2.recordAll w).2) := by
  induction v generalizing c with
  | nil => rfl
  | cons t v ih => simp only [List.cons_append, recordAll, ih]

/-- While less than a second has passed the frames are held and nothing is reported. -/
theorem recordAll_pending {w : List FrameTimes} (hw : w.length < 2 ^ 32)
    (h : elapsedIn w < Duration.ofSeconds 1) :
    new.recordAll w = (List.replicate w.length none, held w) := by
  induction w using List.reverseRecOn with
  | nil => rfl
  | append_singleton w t ih =>
    have hbefore : elapsedIn w < Duration.ofSeconds 1 :=
      Nat.lt_of_le_of_lt (elapsedIn_mono (List.prefix_append w [t])) h
    have hlength : (w ++ [t]).length = w.length + 1 := List.length_append
    have hstep := record_held t hw
    rw [if_pos h] at hstep
    rw [recordAll_append, ih (by omega) hbefore, recordAll, hstep, hlength, List.replicate_succ']
    rfl

/-- The last frame of a window is answered by its report, and the next window begins. -/
theorem recordAll_closed {w : List FrameTimes} (hw : w.length < 2 ^ 32) (h : Closes w) :
    new.recordAll w = (answers w, new) := by
  induction w using List.reverseRecOn with
  | nil => exact absurd h.full (by decide)
  | append_singleton w t _ =>
    have hlength : (w ++ [t]).length = w.length + 1 := List.length_append
    have hbefore := h.first w.length (by omega)
    rw [List.take_left] at hbefore
    have hstep := record_held t hw
    rw [if_neg (Nat.not_lt.2 h.full)] at hstep
    rw [recordAll_append, recordAll_pending (by omega) hbefore, recordAll, hstep, answers, hlength]
    rfl

theorem recordAll_windows {frames current : List FrameTimes} {closed : List (List FrameTimes)}
    (h : Windows frames closed current) (hcount : ∀ w ∈ current :: closed, w.length < 2 ^ 32) :
    new.recordAll frames =
      (closed.flatMap answers ++ List.replicate current.length none, held current) := by
  obtain ⟨rfl, hcloses, hpending⟩ := h
  obtain ⟨hcurrent, hclosed⟩ := List.forall_mem_cons.1 hcount
  clear hcount
  induction closed with
  | nil => exact recordAll_pending hcurrent hpending
  | cons w closed ih =>
    obtain ⟨hw, hrest⟩ := List.forall_mem_cons.1 hcloses
    obtain ⟨hwcount, hrestcount⟩ := List.forall_mem_cons.1 hclosed
    rw [List.flatten_cons, List.append_assoc, recordAll_append, recordAll_closed hwcount hw,
      ih hrest hrestcount, List.flatMap_cons, List.append_assoc]

/-- A frame goes on with the window that is open, or closes it. -/
theorem exists_windows (frames : List FrameTimes) : ∃ closed current,
    Windows frames closed current := by
  induction frames using List.reverseRecOn with
  | nil => exact ⟨[], [], rfl, fun w hw => absurd hw List.not_mem_nil, by decide⟩
  | append_singleton frames t ih =>
    obtain ⟨closed, current, hall, hcloses, hpending⟩ := ih
    by_cases hopen : elapsedIn (current ++ [t]) < Duration.ofSeconds 1
    · exact ⟨closed, current ++ [t], by rw [← List.append_assoc, hall], hcloses, hopen⟩
    · have hnew : Closes (current ++ [t]) := by
        refine ⟨Nat.le_of_not_lt hopen, fun n hn => ?_⟩
        rw [List.length_append, List.length_singleton] at hn
        rw [List.take_append_of_le_length (by omega)]
        exact Nat.lt_of_le_of_lt (elapsedIn_mono (List.take_prefix n current)) hpending
      refine ⟨closed ++ [current ++ [t]], [], ?_, fun w hw => ?_, by decide⟩
      · rw [List.flatten_append, List.flatten_singleton, List.append_nil, ← List.append_assoc, hall]
      · rcases List.mem_append.1 hw with hw | hw
        · exact hcloses w hw
        · rw [List.mem_singleton.1 hw]
          exact hnew

/-- A window does not close within another one. -/
theorem Closes.eq_of_prefix {v w : List FrameTimes} (hv : Closes v) (hw : Closes w) (h : v <+: w) :
    v = w := by
  by_contra hne
  have hlength : v.length < w.length :=
    Nat.lt_of_le_of_ne h.length_le fun hlength => hne (h.eq_of_length hlength)
  have hbefore := hw.first v.length hlength
  rw [← List.prefix_iff_eq_take.1 h] at hbefore
  exact Nat.not_lt.2 hv.full hbefore

/-- Nor does one close within the frames that are left over. -/
theorem Windows.closed_eq_nil {frames current : List FrameTimes} {closed : List (List FrameTimes)}
    (h : Windows frames closed current) (hframes : elapsedIn frames < Duration.ofSeconds 1) :
    closed = [] := by
  cases closed with
  | nil => rfl
  | cons w closed =>
    have hprefix : w <+: frames := ⟨closed.flatten ++ current, by
      rw [← h.all, List.flatten_cons, List.append_assoc]⟩
    have hw := (h.closes w List.mem_cons_self).full
    exact absurd (Nat.le_trans hw (elapsedIn_mono hprefix)) (Nat.not_le.2 hframes)

theorem Windows.unique {frames current current' : List FrameTimes}
    {closed closed' : List (List FrameTimes)} (h : Windows frames closed current)
    (h' : Windows frames closed' current') : closed = closed' ∧ current = current' := by
  induction closed generalizing frames closed' with
  | nil =>
    have hframes : current = frames := h.all
    obtain rfl := h'.closed_eq_nil (hframes ▸ h.pending)
    exact ⟨rfl, hframes.trans h'.all.symm⟩
  | cons w closed ih =>
    cases closed' with
    | nil =>
      have hframes : current' = frames := h'.all
      exact absurd (h.closed_eq_nil (hframes ▸ h'.pending)) (List.cons_ne_nil _ _)
    | cons w' closed' =>
      have hsplit : w ++ (closed.flatten ++ current) = frames := by
        rw [← h.all, List.flatten_cons, List.append_assoc]
      have hsplit' : w' ++ (closed'.flatten ++ current') = frames := by
        rw [← h'.all, List.flatten_cons, List.append_assoc]
      obtain ⟨hw, hclosed⟩ := List.forall_mem_cons.1 h.closes
      obtain ⟨hw', hclosed'⟩ := List.forall_mem_cons.1 h'.closes
      have hsame : w = w' := by
        rcases List.prefix_or_prefix_of_prefix ⟨_, hsplit⟩ ⟨_, hsplit'⟩ with hle | hle
        · exact hw.eq_of_prefix hw' hle
        · exact (hw'.eq_of_prefix hw hle).symm
      subst hsame
      have hrest := List.append_cancel_left (hsplit.trans hsplit'.symm)
      obtain ⟨rfl, rfl⟩ := ih ⟨hrest, hclosed, h.pending⟩ ⟨rfl, hclosed', h'.pending⟩
      exact ⟨rfl, rfl⟩

end RateCounter

namespace Binary

open Format

theorem ofNat_le_ofNat {m n : Nat} (h : m ≤ n) : (ofNat m : Single) ≤ ofNat n :=
  (ofFraction_le_iff m 1 n 1).2 (nearestRank_mono precision_single Nat.one_pos Nat.one_pos
    (Nat.mul_le_mul_right _ (Nat.mul_le_mul_right _ h)))

/-- The quotient of a whole number by one that is not smaller. -/
theorem ofNat_div_within {m n : Nat} (h : m ≤ n) (hn : 0 < n)
    (hfinite : (ofNat n : Single).isFinite = true) : Within 0 1 (ofNat m / ofNat n : Single) := by
  have hbound : Format.single.nearestRank (n * Format.single.one) 1 < Format.single.infinity :=
    of_decide_eq_true hfinite
  have hrank : Format.single.nearestRank (m * Format.single.one) 1 ≤
      Format.single.nearestRank (n * Format.single.one) 1 :=
    (unsigned_le_iff _ _).1 (ofNat_le_ofNat h)
  have hone : Format.single.nearestRank (1 * Format.single.one) 1 ≤
      Format.single.nearestRank (n * Format.single.one) 1 :=
    (unsigned_le_iff _ _).1 (ofNat_le_ofNat hn)
  have hpos : 0 < Format.single.nearestRank (1 * Format.single.one) 1 := by decide
  generalize hp : Format.single.nearestRank (m * Format.single.one) 1 = p at hrank
  generalize hq : Format.single.nearestRank (n * Format.single.one) 1 = q at hrank hone hbound
  have hunits : 0 < Format.single.units q := by
    have := units_eq_zero_iff precision_single (r := q)
    omega
  have hquotient : (ofNat m / ofNat n : Single) =
      ofUnits false (Format.single.units p * Format.single.one) (Format.single.units q) := by
    change div (signed false _ _) (signed false _ _) = _
    simp only [div, hp, hq, if_pos hbound, if_pos (Nat.lt_of_le_of_lt hrank hbound),
      if_neg (show q ≠ 0 by omega)]
    rfl
  rw [hquotient]
  refine .of_le rfl rfl (zero_le_ofFraction ..) ((unsigned_le_iff _ _).2 ?_)
  refine nearestRank_mono precision_single hunits Nat.one_pos ?_
  rw [Nat.mul_one, Nat.one_mul, Nat.mul_comm]
  exact Nat.mul_le_mul_left _ ((units_le_iff precision_single).2 hrank)

end Binary

/-- A second and more, in seconds, is a finite number that is not below one. -/
theorem Duration.toSeconds_within {d : Duration} (hone : Duration.ofSeconds 1 ≤ d)
    (hlimit : d < Duration.limit) :
    Binary.Within 1 (Binary.ofNat (2 ^ 64) + 1) d.toSeconds := by
  have hseconds : 1 ≤ d / 10 ^ 9 ∧ d / 10 ^ 9 ≤ 2 ^ 64 :=
    ⟨(Nat.le_div_iff_mul_le (by decide)).2 hone,
      Nat.le_of_lt ((Nat.div_lt_iff_lt_mul (by decide)).2 hlimit)⟩
  have hwhole : Binary.Within 1 (Binary.ofNat (2 ^ 64)) (Binary.ofNat (d / 10 ^ 9) : Single) :=
    .of_le (by decide +kernel) (by decide +kernel) (Binary.ofNat_le_ofNat hseconds.1)
      (Binary.ofNat_le_ofNat hseconds.2)
  have hrest := Binary.ofNat_div_within (m := d % 10 ^ 9) (n := 10 ^ 9)
    (Nat.le_of_lt (Nat.mod_lt _ (by decide))) (by decide) (by decide +kernel)
  exact hwhole.add Binary.precision_single hrest (by decide +kernel) (by decide +kernel)
    (by decide +kernel)

namespace RateCounter

/-- Every run of frames is cut into windows in one way.  Where their times can be added up and their
frames counted, each window is reported with its last frame, nothing else is reported, and the frames
that are left over are held for the next report.  No report divides by zero. -/
theorem reports_of_windows (frames : List FrameTimes) :
    (∃ closed current, Windows frames closed current ∧
      ∀ closed' current', Windows frames closed' current' → closed' = closed ∧ current' = current) ∧
    ∀ closed current, Windows frames closed current → (∀ w ∈ current :: closed, Countable w) →
      (new.recordAll frames).1 =
        closed.flatMap answers ++ List.replicate current.length none ∧
      (new.recordAll frames).2 = held current ∧
      ∀ w ∈ closed, 0 < w.length ∧ (1 : Single) ≤ (elapsedIn w).toSeconds ∧
        (elapsedIn w).toSeconds.isFinite = true := by
  constructor
  · obtain ⟨closed, current, h⟩ := exists_windows frames
    exact ⟨closed, current, h, fun closed' current' h' => h'.unique h⟩
  · intro closed current h hcount
    have hrun := recordAll_windows h fun w hw => (hcount w hw).frames
    refine ⟨congrArg Prod.fst hrun, congrArg Prod.snd hrun, fun w hw => ?_⟩
    have hcloses := h.closes w hw
    have hseconds := Duration.toSeconds_within hcloses.full
      (hcount w (List.mem_cons_of_mem _ hw)).elapsed
    refine ⟨List.length_pos_iff.2 ?_, hseconds.low, hseconds.finite⟩
    rintro rfl
    exact absurd hcloses.full (by decide)

def quarter : FrameTimes := ⟨.ofMillis 250, 2, 3⟩

def slow : FrameTimes := ⟨.ofMillis 2000, 7, 1⟩

/-- Four quarters of a second make a window, and so does one frame of two seconds. -/
theorem reports_of_two_windows :
    Windows [quarter, quarter, quarter, quarter, slow, quarter]
      [[quarter, quarter, quarter, quarter], [slow]] [quarter] ∧
    (new.recordAll [quarter, quarter, quarter, quarter, slow, quarter]).1 =
      [none, none, none, some ⟨4, 2, 3⟩, some ⟨0.5, 7, 1⟩, none] := by
  have hwindows : Windows [quarter, quarter, quarter, quarter, slow, quarter]
      [[quarter, quarter, quarter, quarter], [slow]] [quarter] := by
    refine ⟨rfl, ?_, by decide⟩
    simp only [List.forall_mem_cons]
    exact ⟨⟨by decide, by decide⟩, ⟨by decide, by decide⟩, nofun⟩
  have hcount : ∀ w ∈ [[quarter], [quarter, quarter, quarter, quarter], [slow]], Countable w := by
    simp only [List.forall_mem_cons]
    refine ⟨?_, ?_, ?_, nofun⟩ <;> exact ⟨by decide, by decide, by decide, by decide⟩
  have hreports := ((reports_of_windows _).2 _ _ hwindows hcount).1
  exact ⟨hwindows, hreports.trans (by decide +kernel)⟩

end RateCounter
end RobotConsole
