import RobotConsole.Proofs.Trail.Streak

/-!
Runs of a trail cycle.  A run is a list of ticks, each with the snapshot it finds, if any, and the
supply of new graphics it is given.  It breaks off where a trail is to be started that has more
positions than fit into memory; every other run ends in a cycle that follows the snapshots found.
-/

namespace RobotConsole

/-- What a tick finds, and where it takes new graphics from. -/
structure Tick (γ σ : Type) where
  found : Option TeamSnapshot
  supply : Supply σ γ

def Tick.applied {γ σ : Type} (ticks : List (Tick γ σ)) : List TeamSnapshot :=
  ticks.filterMap Tick.found

theorem Tick.applied_append {γ σ : Type} (ticks : List (Tick γ σ)) (t : Tick γ σ) :
    Tick.applied (ticks ++ [t]) = Tick.applied ticks ++ t.found.toList := by
  cases h : t.found <;> simp [Tick.applied, h]

namespace TrailCycle

variable {γ ω σ : Type}

/-- Trails of this length have room in memory. -/
theorem fits_iff (n : Nat) : History.fits (max n 1) positionOctets = true ↔ n < 2 ^ 60 := by
  rw [History.fits, Memory.fits, decide_eq_true_iff, positionOctets, Memory.limit]
  omega

theorem hasRoom_iff (c : TrailCycle γ ω) (s : TeamSnapshot) :
    c.hasRoom s = true ↔
      starts c.histories s.robots = false ∨
        History.fits c.trailLength positionOctets = true := by
  simp [hasRoom]

/-- Where there are no trails, a snapshot of any robot starts one. -/
theorem starts_nil (robots : List RobotState) : starts [] robots = false ↔ robots = [] := by
  cases robots with
  | nil => simp [starts, aligned]
  | cons r robots => simp [starts, aligned]

variable [TrailGraphic γ]

/-- The cycle and the state of the supply after a tick; `none` where a trail has no room. -/
def advance (x : TrailCycle γ ω × σ) (t : Tick γ σ) : Option (TrailCycle γ ω × σ) :=
  if t.found.all x.1.hasRoom then
    let ticked := x.1.tick t.found t.supply x.2
    some (ticked.cycle, ticked.state)
  else none

def run (c : TrailCycle γ ω) (state : σ) (ticks : List (Tick γ σ)) :
    Option (TrailCycle γ ω × σ) :=
  ticks.foldlM advance (c, state)

theorem run_append (c : TrailCycle γ ω) (state : σ) (ticks : List (Tick γ σ)) (t : Tick γ σ) :
    run c state (ticks ++ [t]) = (run c state ticks).bind fun x => advance x t := by
  simp [run, List.foldlM_append, Option.bind_eq_bind]

theorem advance_skip (x : TrailCycle γ ω × σ) {t : Tick γ σ} (h : t.found = none) :
    advance x t = some x := by
  simp [advance, tick, h]

theorem run_skip (c : TrailCycle γ ω) (state : σ) (ticks : List (Tick γ σ)) :
    run c state (ticks.filter fun t => t.found.isSome) = run c state ticks := by
  induction ticks using List.reverseRecOn with
  | nil => rfl
  | append_singleton ticks t ih =>
    rw [List.filter_append, run_append, ← ih]
    cases h : t.found with
    | none => simp [h, advance_skip]
    | some s =>
      rw [List.filter_cons_of_pos (by simp [h]), List.filter_nil, run_append]

theorem follows_run {n : Nat} {graphics : GraphicsSet γ ω} {state : σ} {ticks : List (Tick γ σ)}
    {x : TrailCycle γ ω × σ} (h : run (new n graphics) state ticks = some x) :
    Follows (max n 1) (Tick.applied ticks) x.1 := by
  induction ticks using List.reverseRecOn generalizing x with
  | nil =>
    cases h
    exact follows_new n graphics
  | append_singleton ticks t ih =>
    rw [run_append] at h
    obtain ⟨y, hy, hx⟩ := Option.bind_eq_some_iff.1 h
    have hfollows := ih hy
    rw [Tick.applied_append]
    cases hfound : t.found with
    | none =>
      rw [advance_skip y hfound] at hx
      cases hx
      simpa using hfollows
    | some s =>
      simp only [advance, hfound] at hx
      split at hx
      · cases hx
        exact follows_apply (by omega) hfollows s t.supply y.2
      · cases hx

/-- While no snapshot lists a robot there are no trails. -/
theorem histories_of_follows {n : Nat} {applied : List TeamSnapshot} {c : TrailCycle γ ω}
    (h : Follows n applied c) (hnone : ∀ s ∈ applied, s.robots = []) : c.histories = [] := by
  have hroster : roster applied = [] := by
    cases applied using List.reverseRecOn with
    | nil => rfl
    | append_singleton applied s => simp [roster_append, TeamSnapshot.ids, hnone s (by simp)]
  simpa [hroster] using h.slots

/-- After a run there is room for a snapshot unless it lists the first robots and their trails are
too long. -/
theorem hasRoom_of_follows {n : Nat} {applied : List TeamSnapshot} {c : TrailCycle γ ω}
    (h : Follows (max n 1) applied c) (hrun : 2 ^ 60 ≤ n → ∀ s ∈ applied, s.robots = [])
    (s : TeamSnapshot) : c.hasRoom s = true ↔ n < 2 ^ 60 ∨ s.robots = [] := by
  rw [hasRoom_iff, h.trailLength, fits_iff]
  by_cases hn : n < 2 ^ 60
  · simp only [hn, or_true, true_or]
  · rw [histories_of_follows h (hrun (by omega)), starts_nil]
    simp only [hn, or_false, false_or]

theorem run_isSome_iff (n : Nat) (graphics : GraphicsSet γ ω) (state : σ)
    (ticks : List (Tick γ σ)) :
    (run (new n graphics) state ticks).isSome ↔
      n < 2 ^ 60 ∨ ∀ s ∈ Tick.applied ticks, s.robots = [] := by
  induction ticks using List.reverseRecOn with
  | nil => simp [run, Tick.applied]
  | append_singleton ticks t ih =>
    rw [run_append, Tick.applied_append]
    cases hrun : run (new n graphics) state ticks with
    | none =>
      rw [hrun] at ih
      simp only [Option.isSome_none, Bool.false_eq_true, false_iff, not_or] at ih
      simp only [Option.bind_none, Option.isSome_none, Bool.false_eq_true, false_iff, not_or]
      exact ⟨ih.1, fun h => ih.2 fun s hs => h s (List.mem_append_left _ hs)⟩
    | some x =>
      rw [hrun] at ih
      have hbefore := ih.1 rfl
      cases hfound : t.found with
      | none => simpa [advance_skip x hfound] using hbefore
      | some s =>
        have hroom := hasRoom_of_follows (follows_run hrun)
          (fun hn => hbefore.resolve_left (by omega)) s
        have hadvance : (advance x t).isSome = x.1.hasRoom s := by
          simp only [advance, hfound, Option.all_some]
          split <;> simp [*]
        rw [Option.bind_some, hadvance, hroom]
        simp only [Option.toList_some, List.forall_mem_append, List.forall_mem_singleton]
        constructor
        · rintro (hn | hs)
          · exact Or.inl hn
          · exact hbefore.imp_right fun h => ⟨h, hs⟩
        · exact Or.imp_right And.right

/-- A run breaks off exactly where trails beyond memory are to be started.  After any other run the
cycle has a history and a graphic for each robot of the last snapshot, in its order, and a robot
that no snapshot lists twice has the last positions of its streak. -/
theorem run_follows_streaks (n : Nat) (graphics : GraphicsSet γ ω) (state : σ)
    (ticks : List (Tick γ σ)) :
    ((run (new n graphics) state ticks).isSome ↔
      n < 2 ^ 60 ∨ ∀ s ∈ Tick.applied ticks, s.robots = []) ∧
    run (new n graphics) state (ticks.filter fun t => t.found.isSome) =
      run (new n graphics) state ticks ∧
    ∀ x, run (new n graphics) state ticks = some x →
    ∀ s, (Tick.applied ticks).getLast? = some s →
      x.1.histories.length = s.size ∧ x.1.graphics.size = s.size ∧
      x.1.histories.map RobotTrail.robot = s.ids ∧
      List.Forall₂ Shows x.1.graphics.elements (x.1.histories.map fun t => t.positions.items) ∧
      ∀ robot,
        (robot ∉ s.ids → x.1.history? robot = none) ∧
        (robot ∈ s.ids → (∀ q ∈ Tick.applied ticks, q.ids.count robot ≤ 1) →
          x.1.history? robot = some
            { robot := robot
              positions :=
                { items := (streakPositions (Tick.applied ticks) robot).rtake
                    (min (max n 1) (streak (Tick.applied ticks) robot).length)
                  capacity := max n 1 } }) := by
  refine ⟨run_isSome_iff n graphics state ticks, run_skip _ state ticks, ?_⟩
  intro x hx s hs
  have hfollows := follows_run hx
  have hroster : roster (Tick.applied ticks) = s.ids := by simp [roster, hs]
  have hslots : x.1.histories.map RobotTrail.robot = s.ids := by rw [hfollows.slots, hroster]
  have hshows := hfollows.graphics (by rintro h; simp [h] at hs)
  have hlength : x.1.histories.length = s.size := by
    simpa [TeamSnapshot.ids, TeamSnapshot.size] using congrArg List.length hslots
  refine ⟨hlength, ?_, hslots, hshows, fun robot => ⟨fun hout => ?_, fun hin hone => ?_⟩⟩
  · rw [GraphicsSet.size, hshows.length_eq, List.length_map, hlength]
  · change trailIn x.1.histories robot = none
    rwa [trailIn_eq_none_iff, hslots]
  · rw [hfollows.history robot hone, hroster, if_pos hin, History.holding,
      ← length_streakPositions, History.rtake_min_length]

/-- Robot 7 changes its place and keeps its trail over a tick that finds nothing; robot 8 leaves, comes
back and starts a new one. -/
theorem run_follows_streaks_of_returning :
    let supply : Supply Unit TrailLine := fun _ => (.standard, ())
    let seen (id : UInt32) (x : Single) : RobotState := ⟨id, ⟨x, 0⟩⟩
    let ticks : List (Tick TrailLine Unit) :=
      [⟨some ⟨[seen 7 1, seen 8 2]⟩, supply⟩, ⟨none, supply⟩, ⟨some ⟨[seen 8 3, seen 7 4]⟩, supply⟩,
        ⟨some ⟨[seen 7 5]⟩, supply⟩, ⟨some ⟨[seen 7 6, seen 8 7]⟩, supply⟩]
    ∃ x, run (new 2 ⟨[], none⟩ : TrailCycle TrailLine Unit) () ticks = some x ∧
      x.1.history? 7 = some ⟨7, ⟨[⟨5, 0⟩, ⟨6, 0⟩], 2⟩⟩ ∧ x.1.history? 8 = some ⟨8, ⟨[⟨7, 0⟩], 2⟩⟩ := by
  intro supply seen ticks
  obtain ⟨hroom, -, hrun⟩ :=
    run_follows_streaks 2 (⟨[], none⟩ : GraphicsSet TrailLine Unit) () ticks
  obtain ⟨x, hx⟩ := Option.isSome_iff_exists.1 (hroom.2 (Or.inl (by decide)))
  obtain ⟨-, -, -, -, hhistory⟩ := hrun x hx ⟨[seen 7 6, seen 8 7]⟩ rfl
  refine ⟨x, hx, ?_, ?_⟩
  · exact (hhistory 7).2 (by decide) (by decide)
  · exact (hhistory 8).2 (by decide) (by decide)

/-- Trails that memory cannot hold: the first robot ends the run. -/
theorem run_breaks_off_beyond_memory :
    ¬ ∀ (n : Nat) (ticks : List (Tick TrailLine Unit)) (s : TeamSnapshot),
      (Tick.applied ticks).getLast? = some s →
      ∃ x, run (new n ⟨[], none⟩ : TrailCycle TrailLine Unit) () ticks = some x ∧
        x.1.histories.length = s.size := by
  intro h
  obtain ⟨x, hx, -⟩ :=
    h (2 ^ 60) [⟨some ⟨[⟨1, ⟨0, 0⟩⟩]⟩, fun _ => (.standard, ())⟩] ⟨[⟨1, ⟨0, 0⟩⟩]⟩ rfl
  have hnone := run_isSome_iff (2 ^ 60) (⟨[], none⟩ : GraphicsSet TrailLine Unit) ()
    [⟨some ⟨[⟨1, ⟨0, 0⟩⟩]⟩, fun _ => (.standard, ())⟩]
  rw [hx] at hnone
  simp [Tick.applied] at hnone

end TrailCycle
end RobotConsole
