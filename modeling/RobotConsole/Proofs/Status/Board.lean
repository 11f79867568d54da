import RobotConsole.Proofs.Binary.Monotone
import RobotConsole.Proofs.Status.Window
import RobotConsole.Proofs.Table.Shape
import RobotConsole.Status.Board

/-!
A board over a sequence of statuses.  Its tracker follows the sequence numbers, and its entry is
what the last status brought that was not dropped.  What is dropped leaves the entry as it is, so
the table shows the same at every instant, and a robot that only repeats itself goes offline.
-/

namespace RobotConsole

def BoxTable.column (t : BoxTable) (header : String) : List String :=
  t.rows.filterMap fun row => (t.headers.zip row).lookup header

theorem StatusEntry.isFresh_iff (e : StatusEntry) (now : Instant) :
    e.isFresh now = true ↔ now - e.receivedAt < Duration.ofSeconds 1 := decide_eq_true_iff

theorem column_statsTable (latest : Option StatusEntry) (now : Instant) :
    (statsTable latest now).column "Status" =
      [if latest.any fun e => e.status.runningPrimitive && e.isFresh now then "ONLINE"
        else "OFFLINE"] := by
  cases latest <;> rfl

section Drawing

/-- The whole part of a number has at most thirty-nine digits. -/
theorem Binary.length_fixed_le {places : Nat} (h : 0 < places) (x : Single) :
    (x.fixed places).length ≤ 41 + places := by
  cases x with
  | nan =>
    simp only [fixed]
    exact Nat.le_trans (by decide : "NaN".length ≤ 41) (Nat.le_add_right _ _)
  | signed negative rank bounded =>
    have hsign : (Numeral.signChars negative).length ≤ 1 := by cases negative <;> decide
    rw [fixed, String.length_ofList, List.length_append]
    split
    · next hrank =>
      have hunits : Format.single.units rank ≤ 2 ^ 128 * Format.single.one :=
        Nat.le_trans ((Format.units_le_iff (by decide)).2 hrank.le) (by decide)
      have hone : 0 < Format.single.one := Nat.two_pow_pos _
      have hrounded := roundHalfEven_le hone <|
        calc Format.single.units rank * 10 ^ places
          _ ≤ 2 ^ 128 * Format.single.one * 10 ^ places := Nat.mul_le_mul_right _ hunits
          _ = 2 ^ 128 * 10 ^ places * Format.single.one := Nat.mul_right_comm _ _ _
      generalize roundHalfEven (Format.single.units rank * 10 ^ places) Format.single.one = n
        at hrounded ⊢
      have hwhole : (Nat.toDigits 10 (n / 10 ^ places)).length ≤ 39 := by
        rw [Nat.length_toDigits_le_iff (by decide) (by decide)]
        exact Nat.lt_of_le_of_lt (Nat.div_le_of_le_mul (Nat.mul_comm _ _ ▸ hrounded)) (by decide)
      have hpart : (Nat.toDigits 10 (n % 10 ^ places)).length ≤ places := by
        rw [Nat.length_toDigits_le_iff (by decide) h]
        exact Nat.mod_lt _ (Nat.pow_pos (by decide))
      simp only [List.length_append, List.length_cons, List.length_replicate]
      omega
    · simp only [List.length_cons, List.length_nil]
      omega

theorem length_toString_le {n k : Nat} (hk : 0 < k) (h : n < 10 ^ k) : (toString n).length ≤ k := by
  rwa [Nat.toString_eq_repr, Nat.repr, String.length_ofList,
    Nat.length_toDigits_le_iff (by decide) hk]

theorem rectangular_statsTable (latest : Option StatusEntry) (now : Instant) :
    (statsTable latest now).Rectangular := by
  cases latest <;> exact BoxTable.rectangular_ofRows (List.cons_ne_nil _ _) [_]

/-- All that statistics show is short, so they can always be drawn. -/
theorem isDrawable_statsTable (latest : Option StatusEntry) (now : Instant) :
    (statsTable latest now).isDrawable = true := by
  cases latest with
  | none =>
    have hempty : (statsTable none 0).isDrawable = true := by decide
    exact hempty
  | some e =>
    have hheaders : ∀ text ∈ (statsTable none 0).headers, text.length ≤ BoxTable.widthLimit := by
      decide
    have hid : (toString e.status.robotId.toNat).length ≤ 10 :=
      length_toString_le (by decide) (e.status.robotId.toNat_lt.trans (by decide))
    have hbattery := Binary.length_fixed_le (by decide : 0 < 2) e.status.batteryVoltage
    have hloss : (toString e.status.primitiveLoss.toNat).length ≤ 10 :=
      length_toString_le (by decide) (e.status.primitiveLoss.toNat_lt.trans (by decide))
    have hshare := Binary.length_fixed_le (by decide : 0 < 1) (e.lossRate * 100)
    have honline : (if e.status.runningPrimitive && e.isFresh now then "ONLINE"
        else "OFFLINE").length ≤ 7 := by
      split <;> decide
    have hlifetime : (toString e.status.timestamp.toNat).length ≤ 20 :=
      length_toString_le (by decide) (e.status.timestamp.toNat_lt.trans (by decide))
    have hlow : (if e.status.batteryVoltage < Battery.warningVoltage then "LOW"
        else "OK").length ≤ 3 := by
      split <;> decide
    rw [(rectangular_statsTable _ now).isDrawable_iff_forall_length, List.forall_mem_cons]
    refine ⟨hheaders, List.forall_mem_singleton.2 ?_⟩
    change ∀ text ∈ [_, _, _, _, _, _, _], String.length text ≤ 65535
    simp only [List.forall_mem_cons, List.not_mem_nil, false_implies, implies_true, and_true]
    omega

end Drawing

theorem LossTracker.newest_of_not_ignored {numbers : List UInt64} {n : UInt64}
    (h : ((run numbers).1.observe n).1 ≠ .ignored) :
    (run (numbers ++ [n])).1.recent.getLast? = some n := by
  rw [(keeps_run (numbers ++ [n])).recent, getLast?_window, run_append]
  exact (observe_of_not_ignored h (run numbers).2).2

namespace StatusBoard

def recordAll (calls : List (RobotStatus × Instant)) : StatusBoard :=
  calls.foldl (fun b call => b.record call.1 call.2) empty

def tracked (calls : List (RobotStatus × Instant)) : LossTracker :=
  (LossTracker.run (calls.map fun call => call.1.sequenceNumber)).1

/-- A status that is ignored after these calls, since it is late or comes again. -/
def Dropped (calls : List (RobotStatus × Instant)) (status : RobotStatus) : Prop :=
  ((tracked calls).observe status.sequenceNumber).1 = .ignored

/-- After these calls all of the later ones are ignored, each in its turn. -/
def AllDropped (calls : List (RobotStatus × Instant)) : List (RobotStatus × Instant) → Prop
  | [] => True
  | call :: later => Dropped calls call.1 ∧ AllDropped (calls ++ [call]) later

/-- The entry tells the tracker's newest number and its loss rate. -/
structure InStep (e : StatusEntry) (t : LossTracker) : Prop where
  newest : t.recent.getLast? = some e.status.sequenceNumber
  lossRate : e.lossRate = t.lossRate

/-- The entry is what the call after `before` brought, the last one that was not ignored. -/
structure Latest (calls before after : List (RobotStatus × Instant)) (e : StatusEntry) : Prop where
  split : calls = before ++ (e.status, e.receivedAt) :: after
  taken : ¬ Dropped before e.status
  dropped : AllDropped (before ++ [(e.status, e.receivedAt)]) after
  inStepThen : InStep e (tracked (before ++ [(e.status, e.receivedAt)]))
  inStepNow : InStep e (tracked calls)

theorem recordAll_append (calls : List (RobotStatus × Instant)) (call : RobotStatus × Instant) :
    recordAll (calls ++ [call]) = (recordAll calls).record call.1 call.2 := by
  simp [recordAll]

theorem tracked_append (calls : List (RobotStatus × Instant)) (call : RobotStatus × Instant) :
    tracked (calls ++ [call]) = ((tracked calls).observe call.1.sequenceNumber).2 := by
  rw [tracked, List.map_append, List.map_singleton, LossTracker.run_append]
  rfl

theorem record_of_ignored {b : StatusBoard} {status : RobotStatus} {t : Instant}
    (h : (b.tracker.observe status.sequenceNumber).1 = .ignored) :
    b.record status t = { b with tracker := (b.tracker.observe status.sequenceNumber).2 } := by
  rw [record]
  generalize b.tracker.observe status.sequenceNumber = o at h ⊢
  obtain ⟨outcome, tracker⟩ := o
  obtain rfl : outcome = .ignored := h
  rfl

theorem record_of_not_ignored {b : StatusBoard} {status : RobotStatus} {t : Instant}
    (h : (b.tracker.observe status.sequenceNumber).1 ≠ .ignored) :
    b.record status t =
      ⟨some ⟨status, t, (b.tracker.observe status.sequenceNumber).2.lossRate⟩,
        (b.tracker.observe status.sequenceNumber).2⟩ := by
  rw [record]
  generalize b.tracker.observe status.sequenceNumber = o at h ⊢
  obtain ⟨outcome, tracker⟩ := o
  cases outcome with
  | ignored => exact absurd rfl h
  | accepted | reset => rfl

theorem tracker_record (b : StatusBoard) (status : RobotStatus) (t : Instant) :
    (b.record status t).tracker = (b.tracker.observe status.sequenceNumber).2 := by
  by_cases h : (b.tracker.observe status.sequenceNumber).1 = .ignored
  · rw [record_of_ignored h]
  · rw [record_of_not_ignored h]

/-- The board tracks what a tracker on its own would. -/
theorem tracker_recordAll (calls : List (RobotStatus × Instant)) :
    (recordAll calls).tracker = tracked calls := by
  induction calls using List.reverseRecOn with
  | nil => rfl
  | append_singleton calls call ih =>
    rw [recordAll_append, tracker_record, ih, tracked_append]

theorem latest_of_dropped {calls : List (RobotStatus × Instant)} {call : RobotStatus × Instant}
    (h : Dropped calls call.1) :
    (recordAll (calls ++ [call])).latest = (recordAll calls).latest := by
  rw [Dropped, ← tracker_recordAll] at h
  rw [recordAll_append, record_of_ignored h]

theorem latest_of_taken {calls : List (RobotStatus × Instant)} {call : RobotStatus × Instant}
    (h : ¬ Dropped calls call.1) :
    (recordAll (calls ++ [call])).latest =
      some ⟨call.1, call.2, (tracked (calls ++ [call])).lossRate⟩ := by
  rw [Dropped, ← tracker_recordAll] at h
  rw [recordAll_append, record_of_not_ignored h, tracked_append, tracker_recordAll]

/-- Nothing is dropped at first. -/
theorem not_dropped_nil (status : RobotStatus) : ¬ Dropped [] status := by
  intro h
  cases h

theorem allDropped_append {calls later : List (RobotStatus × Instant)}
    {call : RobotStatus × Instant} :
    AllDropped calls (later ++ [call]) ↔
      AllDropped calls later ∧ Dropped (calls ++ later) call.1 := by
  induction later generalizing calls with
  | nil => simp [AllDropped]
  | cons c later ih => simp [AllDropped, ih, and_assoc]

theorem inStep_of_dropped {calls : List (RobotStatus × Instant)} {call : RobotStatus × Instant}
    {e : StatusEntry} (hdropped : Dropped calls call.1) (h : InStep e (tracked calls)) :
    InStep e (tracked (calls ++ [call])) := by
  obtain ⟨hrecent, hrate⟩ := LossTracker.observe_ignored hdropped
  rw [tracked_append]
  exact ⟨hrecent ▸ h.newest, hrate ▸ h.lossRate⟩

theorem inStep_of_taken {calls : List (RobotStatus × Instant)} {status : RobotStatus} {t : Instant}
    (h : ¬ Dropped calls status) :
    InStep ⟨status, t, (tracked (calls ++ [(status, t)])).lossRate⟩
      (tracked (calls ++ [(status, t)])) := by
  refine ⟨?_, rfl⟩
  rw [tracked, List.map_append, List.map_singleton]
  exact LossTracker.newest_of_not_ignored h

theorem latest_recordAll (calls : List (RobotStatus × Instant)) (hne : calls ≠ []) :
    ∃ e before after, (recordAll calls).latest = some e ∧ Latest calls before after e := by
  induction calls using List.reverseRecOn with
  | nil => exact absurd rfl hne
  | append_singleton calls call ih =>
    by_cases hdropped : Dropped calls call.1
    · have hcalls : calls ≠ [] := by
        rintro rfl
        exact not_dropped_nil _ hdropped
      obtain ⟨e, before, after, hlatest, h⟩ := ih hcalls
      refine ⟨e, before, after ++ [call], (latest_of_dropped hdropped).trans hlatest, ?_⟩
      refine ⟨?_, h.taken, allDropped_append.2 ⟨h.dropped, ?_⟩, h.inStepThen,
        inStep_of_dropped hdropped h.inStepNow⟩
      · rw [h.split, List.append_assoc, List.cons_append]
      · rwa [List.append_assoc, List.singleton_append, ← h.split]
    · exact ⟨_, calls, [], latest_of_taken hdropped, rfl, hdropped, trivial,
        inStep_of_taken hdropped, inStep_of_taken hdropped⟩

theorem latest_of_allDropped {calls later : List (RobotStatus × Instant)}
    (h : AllDropped calls later) :
    (recordAll (calls ++ later)).latest = (recordAll calls).latest := by
  induction later using List.reverseRecOn with
  | nil => rw [List.append_nil]
  | append_singleton later call ih =>
    obtain ⟨hlater, hcall⟩ := allDropped_append.1 h
    rw [← List.append_assoc, latest_of_dropped hcall, ih hlater]

/-- What a board shows after calls: nothing before the first one, else what the last call brought
that was not ignored.  The robot is online while that status is fresh and says that it is at work,
and nothing that is ignored afterwards changes the table. -/
theorem shows_recordAll (calls : List (RobotStatus × Instant)) :
    (recordAll calls).tracker = tracked calls ∧
    ((recordAll calls).latest = none ↔ calls = []) ∧
    (∀ e, (recordAll calls).latest = some e → ∃ before after, Latest calls before after e) ∧
    (∀ now, (statsTable (recordAll calls).latest now).column "Status" = ["ONLINE"] ↔
      ∃ e, (recordAll calls).latest = some e ∧ e.status.runningPrimitive = true ∧
        now - e.receivedAt < Duration.ofSeconds 1) ∧
    (∀ later, AllDropped calls later → ∀ now,
      statsTable (recordAll (calls ++ later)).latest now =
        statsTable (recordAll calls).latest now) := by
  refine ⟨tracker_recordAll calls, ⟨fun hnone => ?_, fun h => by rw [h]; rfl⟩, fun e he => ?_,
    fun now => ?_, fun later h now => by rw [latest_of_allDropped h]⟩
  · by_contra hne
    obtain ⟨e, -, -, he, -⟩ := latest_recordAll calls hne
    rw [hnone] at he
    cases he
  · have hne : calls ≠ [] := by
      rintro rfl
      cases he
    obtain ⟨e', before, after, he', h⟩ := latest_recordAll calls hne
    obtain rfl : e = e' := Option.some.inj (he.symm.trans he')
    exact ⟨before, after, h⟩
  · rw [column_statsTable]
    cases (recordAll calls).latest with
    | none => simp
    | some e => simp [StatusEntry.isFresh_iff]

end StatusBoard
end RobotConsole
