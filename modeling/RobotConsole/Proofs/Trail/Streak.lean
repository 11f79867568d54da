import Mathlib.Data.List.Forall2
import Mathlib.Data.List.Induction
import RobotConsole.Proofs.Trail.Carry
import RobotConsole.Proofs.Trail.History
import RobotConsole.Scene.Basic

/-!
The streak of a robot: of the snapshots applied so far the latest ones, with none between them left
out, that all list it.  `Follows` says what a cycle holds after these snapshots, and applying one
more keeps it: the histories are those of the last snapshot's robots, each graphic shows the history
in its place, and a robot that no snapshot lists twice has the last positions of its streak.
-/

namespace RobotConsole

namespace TeamSnapshot

def ids (s : TeamSnapshot) : List UInt32 := s.robots.map RobotState.id

def lists (s : TeamSnapshot) (robot : UInt32) : Bool := s.ids.contains robot

def place? (s : TeamSnapshot) (robot : UInt32) : Option Position :=
  (s.robots.find? fun r => r.id = robot).map RobotState.position

theorem lists_iff (s : TeamSnapshot) (robot : UInt32) : s.lists robot = true ↔ robot ∈ s.ids := by
  simp [lists]

theorem place?_eq_none_iff (s : TeamSnapshot) (robot : UInt32) :
    s.place? robot = none ↔ robot ∉ s.ids := by
  simp [place?, ids]

theorem mem_ids_of_place? (s : TeamSnapshot) {robot : UInt32} {p : Position}
    (h : s.place? robot = some p) : robot ∈ s.ids := by
  by_contra hn
  simp [(s.place?_eq_none_iff robot).2 hn] at h

end TeamSnapshot

/-- The robots of the last of these snapshots. -/
def roster (applied : List TeamSnapshot) : List UInt32 :=
  match applied.getLast? with
  | some s => s.ids
  | none => []

/-- The latest of these snapshots, with none between them left out, that all list a robot. -/
def streak (applied : List TeamSnapshot) (robot : UInt32) : List TeamSnapshot :=
  applied.rtakeWhile fun s => s.lists robot

def streakPositions (applied : List TeamSnapshot) (robot : UInt32) : List Position :=
  (streak applied robot).filterMap fun s => s.place? robot

theorem roster_append (applied : List TeamSnapshot) (s : TeamSnapshot) :
    roster (applied ++ [s]) = s.ids := by
  simp [roster]

theorem streak_append_of_listed {s : TeamSnapshot} {robot : UInt32} (applied : List TeamSnapshot)
    (h : robot ∈ s.ids) : streak (applied ++ [s]) robot = streak applied robot ++ [s] :=
  List.rtakeWhile_concat_pos _ _ _ ((s.lists_iff robot).2 h)

theorem streak_append_of_not_listed {s : TeamSnapshot} {robot : UInt32}
    (applied : List TeamSnapshot) (h : robot ∉ s.ids) : streak (applied ++ [s]) robot = [] :=
  List.rtakeWhile_concat_neg _ _ _ (mt (s.lists_iff robot).1 h)

theorem streakPositions_append_of_some {s : TeamSnapshot} {robot : UInt32} {p : Position}
    (applied : List TeamSnapshot) (h : s.place? robot = some p) :
    streakPositions (applied ++ [s]) robot = streakPositions applied robot ++ [p] := by
  rw [streakPositions, streak_append_of_listed applied (s.mem_ids_of_place? h)]
  simp only [List.filterMap_append, List.filterMap_cons, List.filterMap_nil, h]
  rfl

/-- Whoever is not on the roster has no streak. -/
theorem streakPositions_of_not_mem {applied : List TeamSnapshot} {robot : UInt32}
    (h : robot ∉ roster applied) : streakPositions applied robot = [] := by
  cases applied using List.reverseRecOn with
  | nil => rfl
  | append_singleton applied s =>
    rw [roster_append] at h
    rw [streakPositions, streak_append_of_not_listed applied h]
    rfl

theorem length_streakPositions (applied : List TeamSnapshot) (robot : UInt32) :
    (streakPositions applied robot).length = (streak applied robot).length := by
  rw [streakPositions, List.length_filterMap_eq_countP, List.countP_eq_length]
  intro s hs
  have hlists := List.mem_rtakeWhile_imp hs
  rw [s.lists_iff] at hlists
  cases h : s.place? robot with
  | none => exact absurd hlists ((s.place?_eq_none_iff robot).1 h)
  | some p => rfl

def Shows {γ : Type} [TrailGraphic γ] (graphic : γ) (points : List Position) : Prop :=
  ∃ before : γ, graphic = TrailGraphic.setPoints points before

namespace GraphicsSet

variable {γ ω σ : Type}

theorem length_take (supply : Supply σ γ) (n : Nat) (state : σ) :
    (take supply n state).1.length = n := by
  induction n generalizing state with
  | zero => rfl
  | succ n ih => simp [take, ih]

theorem size_resize (s : GraphicsSet γ ω) (target : Nat) (supply : Supply σ γ) (state : σ) :
    (s.resize target supply state).set.elements.length = target := by
  unfold resize
  split
  · next h => exact h.symm
  · split
    · next h =>
      simp only [List.length_append, length_take]
      unfold size at h ⊢
      omega
    · next h =>
      simp only [List.length_take]
      unfold size at h
      omega

end GraphicsSet

namespace TrailCycle

variable {γ ω σ : Type} [TrailGraphic γ]

theorem redraw_shows {graphics : List γ} {trails : List RobotTrail}
    (h : graphics.length = trails.length) :
    List.Forall₂ Shows (redraw graphics trails) (trails.map fun t => t.positions.items) := by
  induction trails generalizing graphics with
  | nil => simp [redraw]
  | cons t trails ih =>
    cases graphics with
    | nil => simp at h
    | cons g graphics =>
      simp only [redraw, List.zipWith_cons_cons, List.map_cons, List.forall₂_cons]
      exact ⟨⟨g, rfl⟩, ih (by simpa using h)⟩

/-- What holds of a cycle of length `n` to which these snapshots were applied. -/
structure Follows (n : Nat) (applied : List TeamSnapshot) (c : TrailCycle γ ω) : Prop where
  trailLength : c.trailLength = n
  slots : c.histories.map RobotTrail.robot = roster applied
  graphics : applied ≠ [] →
    List.Forall₂ Shows c.graphics.elements (c.histories.map fun t => t.positions.items)
  history : ∀ robot, (∀ s ∈ applied, s.ids.count robot ≤ 1) →
    c.history? robot = if robot ∈ roster applied then
      some ⟨robot, .holding n (streakPositions applied robot)⟩ else none

theorem follows_new (n : Nat) (graphics : GraphicsSet γ ω) :
    Follows (max n 1) [] (new n graphics) :=
  ⟨rfl, rfl, fun h => absurd rfl h, fun _ _ => rfl⟩

/-- The history of a robot after a snapshot that says where it is. -/
theorem history?_apply {n : Nat} (hn : 0 < n) {applied : List TeamSnapshot} {c : TrailCycle γ ω}
    (h : Follows n applied c) {s : TeamSnapshot} {robot : UInt32} {p : Position}
    (hone : ∀ s ∈ applied, s.ids.count robot ≤ 1) (hp : s.place? robot = some p) :
    trailIn (List.zipWith extend (reconcile c.trailLength c.histories s.robots) s.robots) robot =
      some ⟨robot, .holding n (streakPositions (applied ++ [s]) robot)⟩ := by
  have hcount : (c.histories.map RobotTrail.robot).count robot ≤ 1 := by
    rw [h.slots]
    cases applied using List.reverseRecOn with
    | nil => simp [roster]
    | append_singleton applied last =>
      rw [roster_append]
      exact hone last (by simp)
  have hlisted : robot ∈ s.robots.map RobotState.id := s.mem_ids_of_place? hp
  obtain ⟨r, hr, rfl⟩ := Option.map_eq_some_iff.1 hp
  have hbefore : trailIn (reconcile c.trailLength c.histories s.robots) robot =
      some ⟨robot, .holding n (streakPositions applied robot)⟩ := by
    rw [trailIn_reconcile _ _ hcount, if_pos hlisted,
      show trailIn c.histories robot = c.history? robot from rfl, h.history robot hone]
    by_cases hroster : robot ∈ roster applied
    · rw [if_pos hroster, Option.getD_some]
    · rw [if_neg hroster, Option.getD_none, streakPositions_of_not_mem hroster,
        History.new_eq_holding, h.trailLength, Nat.max_eq_left hn]
  rw [trailIn_extend (robots_reconcile _ _ _) hbefore hr, streakPositions_append_of_some _ hp]
  simp only [extend, History.push_holding hn]

theorem follows_apply {n : Nat} (hn : 0 < n) {applied : List TeamSnapshot} {c : TrailCycle γ ω}
    (h : Follows n applied c) (s : TeamSnapshot) (supply : Supply σ γ) (state : σ) :
    Follows n (applied ++ [s]) (c.apply s supply state).cycle := by
  have hslots := robots_extend (robots_reconcile c.trailLength c.histories s.robots)
  refine ⟨h.trailLength, ?_, fun _ => ?_, fun robot hone => ?_⟩
  · rw [roster_append]
    exact hslots
  · apply redraw_shows
    rw [GraphicsSet.size_resize, TeamSnapshot.size]
    simpa using (congrArg List.length hslots).symm
  · rw [roster_append]
    change trailIn (List.zipWith extend _ s.robots) robot = _
    cases hp : s.place? robot with
    | none =>
      have hout := (s.place?_eq_none_iff robot).1 hp
      rw [if_neg hout, trailIn_eq_none_iff, hslots]
      exact hout
    | some p =>
      rw [if_pos (s.mem_ids_of_place? hp)]
      exact history?_apply hn h (fun q hq => hone q (List.mem_append_left _ hq)) hp

end TrailCycle
end RobotConsole
