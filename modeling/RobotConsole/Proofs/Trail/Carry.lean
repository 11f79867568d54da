import Mathlib.Data.List.Induction
import RobotConsole.Trail.Cycle

/-!
The trails carried over to the next snapshot.  `reconcile` lists one trail for each robot of the
snapshot in its order, and a robot that had one trail before keeps it, whether the trails stay as
they are or go through the pool.
-/

namespace RobotConsole.TrailCycle

def trailIn (trails : List RobotTrail) (robot : UInt32) : Option RobotTrail :=
  trails.find? fun t => t.robot = robot

theorem trailIn_nil (robot : UInt32) : trailIn [] robot = none := rfl

theorem trailIn_cons (t : RobotTrail) (trails : List RobotTrail) (robot : UInt32) :
    trailIn (t :: trails) robot = if t.robot = robot then some t else trailIn trails robot := by
  by_cases h : t.robot = robot <;> simp [trailIn, h]

theorem trailIn_append (before after : List RobotTrail) (robot : UInt32) :
    trailIn (before ++ after) robot = (trailIn before robot).or (trailIn after robot) := by
  simp [trailIn, List.find?_append]

theorem trailIn_eq_none_iff (trails : List RobotTrail) (robot : UInt32) :
    trailIn trails robot = none ↔ robot ∉ trails.map RobotTrail.robot := by
  simp [trailIn]

theorem robot_of_trailIn {trails : List RobotTrail} {robot : UInt32} {t : RobotTrail}
    (h : trailIn trails robot = some t) : t.robot = robot := by
  simpa using List.find?_some h

/-- Taking other robots out does not matter. -/
theorem trailIn_filter {trails : List RobotTrail} {robot other : UInt32} (h : other ≠ robot) :
    trailIn (trails.filter fun t => t.robot ≠ other) robot = trailIn trails robot := by
  induction trails with
  | nil => rfl
  | cons t trails ih =>
    by_cases ht : t.robot = other
    · rw [List.filter_cons_of_neg (by simp [ht]), ih, trailIn_cons, if_neg (by rwa [ht])]
    · rw [List.filter_cons_of_pos (by simp [ht]), trailIn_cons, trailIn_cons, ih]

theorem trailIn_file (trails : List RobotTrail) (t : RobotTrail) (robot : UInt32) :
    trailIn (file trails t) robot = if t.robot = robot then some t else trailIn trails robot := by
  rw [file, trailIn_cons]
  by_cases h : t.robot = robot
  · rw [if_pos h, if_pos h]
  · rw [if_neg h, if_neg h, trailIn_filter h]

/-- Of several trails of a robot the pool holds the last. -/
theorem trailIn_pool (trails : List RobotTrail) (robot : UInt32) :
    trailIn (pool trails) robot = trailIn trails.reverse robot := by
  induction trails using List.reverseRecOn with
  | nil => rfl
  | append_singleton trails t ih =>
    rw [pool, List.foldl_append, List.foldl_cons, List.foldl_nil, ← pool, trailIn_file, ih,
      List.reverse_append, List.reverse_singleton, List.singleton_append, trailIn_cons]

theorem trailIn_reverse {trails : List RobotTrail} {robot : UInt32}
    (h : (trails.map RobotTrail.robot).count robot ≤ 1) :
    trailIn trails.reverse robot = trailIn trails robot := by
  induction trails with
  | nil => rfl
  | cons t trails ih =>
    rw [List.map_cons, List.count_cons] at h
    rw [List.reverse_cons, trailIn_append, trailIn_cons, trailIn_cons]
    by_cases ht : t.robot = robot
    · have hrest : trailIn trails.reverse robot = none := by
        rw [trailIn_eq_none_iff, List.map_reverse, List.mem_reverse, ← List.count_eq_zero]
        simp only [ht, beq_self_eq_true, if_true] at h
        omega
      rw [hrest, if_pos ht, if_pos ht, Option.none_or]
    · rw [if_neg ht, if_neg ht, trailIn_nil, Option.or_none]
      exact ih (by omega)

/-- The trail that a robot takes out of the pool is its own. -/
theorem robot_getD (n : Nat) (trails : List RobotTrail) (robot : UInt32) :
    ((trailIn trails robot).getD ⟨robot, .new n⟩).robot = robot := by
  cases h : trailIn trails robot with
  | none => rfl
  | some t => exact robot_of_trailIn h

theorem assign_cons (n : Nat) (trails : List RobotTrail) (r : RobotState)
    (robots : List RobotState) :
    assign n trails (r :: robots) =
      (trailIn trails r.id).getD ⟨r.id, .new n⟩ ::
        assign n (trails.filter fun t => t.robot ≠ r.id) robots := rfl

theorem robots_assign (n : Nat) (trails : List RobotTrail) (robots : List RobotState) :
    (assign n trails robots).map RobotTrail.robot = robots.map RobotState.id := by
  induction robots generalizing trails with
  | nil => rfl
  | cons r robots ih => rw [assign_cons, List.map_cons, List.map_cons, ih, robot_getD]

/-- Among assigned trails a robot has the one it finds in the pool, or a new one. -/
theorem trailIn_assign (n : Nat) (trails : List RobotTrail) (robots : List RobotState)
    (robot : UInt32) :
    trailIn (assign n trails robots) robot =
      if robot ∈ robots.map RobotState.id then
        some ((trailIn trails robot).getD ⟨robot, .new n⟩)
      else none := by
  induction robots generalizing trails with
  | nil => rfl
  | cons r robots ih =>
    rw [assign_cons, trailIn_cons, robot_getD, ih]
    by_cases h : r.id = robot
    · subst h
      simp
    · rw [if_neg h, trailIn_filter h, List.map_cons]
      simp [Ne.symm h]

theorem robots_reconcile (n : Nat) (trails : List RobotTrail) (robots : List RobotState) :
    (reconcile n trails robots).map RobotTrail.robot = robots.map RobotState.id := by
  unfold reconcile
  split
  · next h => simpa [aligned] using h
  · exact robots_assign _ _ _

/-- A robot with at most one trail keeps it, and one with none starts anew. -/
theorem trailIn_reconcile (n : Nat) {trails : List RobotTrail} (robots : List RobotState)
    {robot : UInt32} (h : (trails.map RobotTrail.robot).count robot ≤ 1) :
    trailIn (reconcile n trails robots) robot =
      if robot ∈ robots.map RobotState.id then
        some ((trailIn trails robot).getD ⟨robot, .new n⟩)
      else none := by
  by_cases ha : aligned trails robots
  · rw [reconcile, if_pos ha]
    have hrobots : trails.map RobotTrail.robot = robots.map RobotState.id := by
      simpa [aligned] using ha
    rw [← hrobots]
    cases ht : trailIn trails robot with
    | none => rw [if_neg ((trailIn_eq_none_iff trails robot).1 ht)]
    | some t =>
      have hmem : robot ∈ trails.map RobotTrail.robot := by
        by_contra hn
        simp [(trailIn_eq_none_iff trails robot).2 hn] at ht
      rw [if_pos hmem, Option.getD_some]
  · rw [reconcile, if_neg ha, trailIn_assign, trailIn_pool, trailIn_reverse h]

theorem robots_extend {trails : List RobotTrail} {robots : List RobotState}
    (h : trails.map RobotTrail.robot = robots.map RobotState.id) :
    (List.zipWith extend trails robots).map RobotTrail.robot = robots.map RobotState.id := by
  induction trails generalizing robots with
  | nil => simpa using h
  | cons t trails ih =>
    cases robots with
    | nil => simp at h
    | cons r robots =>
      rw [List.map_cons, List.map_cons, List.cons.injEq] at h
      rw [List.zipWith_cons_cons, List.map_cons, List.map_cons, ih h.2, ← h.1]
      rfl

/-- The trail of a robot grows by the position that is listed first for it. -/
theorem trailIn_extend {trails : List RobotTrail} {robots : List RobotState} {robot : UInt32}
    {t : RobotTrail} {r : RobotState} (h : trails.map RobotTrail.robot = robots.map RobotState.id)
    (ht : trailIn trails robot = some t) (hr : robots.find? (fun r => r.id = robot) = some r) :
    trailIn (List.zipWith extend trails robots) robot = some (extend t r) := by
  induction trails generalizing robots with
  | nil => simp [trailIn] at ht
  | cons u trails ih =>
    cases robots with
    | nil => simp at hr
    | cons q robots =>
      rw [List.map_cons, List.map_cons, List.cons.injEq] at h
      rw [List.zipWith_cons_cons, trailIn_cons, show (extend u q).robot = u.robot from rfl]
      rw [trailIn_cons] at ht
      by_cases hu : u.robot = robot
      · have hq : q.id = robot := by rw [← h.1, hu]
        rw [if_pos hu] at ht ⊢
        rw [List.find?_cons_of_pos (by simp [hq])] at hr
        rw [Option.some.inj ht, Option.some.inj hr]
      · have hq : q.id ≠ robot := by rwa [← h.1]
        rw [if_neg hu] at ht ⊢
        rw [List.find?_cons_of_neg (by simp [hq])] at hr
        exact ih h.2 ht hr

end RobotConsole.TrailCycle
