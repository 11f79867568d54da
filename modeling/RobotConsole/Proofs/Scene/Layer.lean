import RobotConsole.Proofs.Snapshot.Calls
import RobotConsole.Proofs.Trail.Ends
import RobotConsole.Proofs.Trail.Run
import RobotConsole.Scene.TrailLayer

/-!
Runs of a trail layer over a buffer that others publish to.  Each refresh is one tick of the layer's
cycle, which finds the last snapshot published since the refresh before, so a run of the layer is a
run of the cycle.  The scene mirrors the snapshot that was applied last: a marker for each robot that
it lists, and a trail that ends there.
-/

namespace RobotConsole

/-- The scene has a marker at each place that a snapshot tells, and a trail that ends there. -/
structure Mirrors (s : TeamSnapshot) (scene : Scene) : Prop where
  markers : scene.robots = s.robots.map fun r => ⟨r.id, r.position⟩
  size : scene.trails.length = s.size
  ends : List.Forall₂ (fun (t : TrailLine) (m : Marker) =>
    t.points ≠ [] ∧ t.points.getLast? = some m.position) scene.trails scene.robots

namespace TrailLayer

inductive Call where
  | publish (snapshot : TeamSnapshot)
  | refresh

/-- The layer and its scene after a call; `none` where a trail has no room. -/
def advance (x : TrailLayer × Scene) : Call → Option (TrailLayer × Scene)
  | .publish s => some (x.1.publish s, x.2)
  | .refresh => if x.1.hasRoom then some (x.1.refresh x.2).2 else none

def run (x : TrailLayer × Scene) (calls : List Call) : Option (TrailLayer × Scene) :=
  calls.foldlM advance x

/-- What the refreshes found, and what was published since. -/
def note (x : List (Option TeamSnapshot) × List TeamSnapshot) :
    Call → List (Option TeamSnapshot) × List TeamSnapshot
  | .publish s => (x.1, x.2 ++ [s])
  | .refresh => (x.1 ++ [x.2.getLast?], [])

/-- What each refresh finds: the last snapshot published since the one before, if there is any. -/
def found (calls : List Call) : List (Option TeamSnapshot) := (calls.foldl note ([], [])).1

def unread (calls : List Call) : List TeamSnapshot := (calls.foldl note ([], [])).2

def applied (calls : List Call) : List TeamSnapshot := (found calls).filterMap id

/-- How many of these snapshots have another size than the one before; there is a size before the
first. -/
def changes (size : Nat) : List TeamSnapshot → Nat
  | [] => 0
  | s :: later => (if s.size = size then 0 else 1) + changes s.size later

def lastSize (applied : List TeamSnapshot) : Nat := (applied.getLast?.map TeamSnapshot.size).getD 0

def standardSupply : Supply Unit TrailLine := fun _ => (.standard, ())

def ticks (calls : List Call) : List (Tick TrailLine Unit) :=
  (found calls).map fun snapshot? => ⟨snapshot?, standardSupply⟩

section Records

variable (calls : List Call) (s : TeamSnapshot)

theorem run_append (x : TrailLayer × Scene) (call : Call) :
    run x (calls ++ [call]) = (run x calls).bind fun y => advance y call := by
  simp [run, List.foldlM_append, Option.bind_eq_bind]

theorem unread_publish : unread (calls ++ [.publish s]) = unread calls ++ [s] := by
  simp [unread, note]

theorem unread_refresh : unread (calls ++ [.refresh]) = [] := by simp [unread, note]

theorem found_publish : found (calls ++ [.publish s]) = found calls := by simp [found, note]

theorem found_refresh : found (calls ++ [.refresh]) = found calls ++ [(unread calls).getLast?] := by
  simp [found, unread, note]

theorem applied_publish : applied (calls ++ [.publish s]) = applied calls := by
  rw [applied, found_publish, applied]

theorem applied_refresh :
    applied (calls ++ [.refresh]) = applied calls ++ (unread calls).getLast?.toList := by
  rw [applied, found_refresh, List.filterMap_append, ← applied]
  cases (unread calls).getLast? <;> rfl

theorem ticks_publish : ticks (calls ++ [.publish s]) = ticks calls := by
  rw [ticks, found_publish, ticks]

theorem ticks_refresh :
    ticks (calls ++ [.refresh]) = ticks calls ++ [⟨(unread calls).getLast?, standardSupply⟩] := by
  rw [ticks, found_refresh, List.map_append, ← ticks, List.map_singleton]

theorem applied_ticks : Tick.applied (ticks calls) = applied calls := by
  rw [Tick.applied, ticks, applied, List.filterMap_map]
  rfl

theorem changes_append (size : Nat) (applied : List TeamSnapshot) :
    changes size (applied ++ [s]) = changes size applied +
      if s.size = (applied.getLast?.map TeamSnapshot.size).getD size then 0 else 1 := by
  induction applied generalizing size with
  | nil =>
    rw [List.nil_append, changes, changes, Nat.zero_add]
    rfl
  | cons first later ih =>
    rw [List.cons_append, changes, changes, ih, Nat.add_assoc]
    cases hlast : later.getLast? with
    | none => simp [List.getLast?_eq_none_iff.1 hlast]
    | some last =>
      have hcons : (first :: later).getLast? = some last := by
        rw [List.getLast?_cons, hlast]
        rfl
      rw [hcons]
      rfl

end Records

section Applying

variable {trails : List RobotTrail} {robots : List RobotState}

/-- No trail that has just been extended is empty, so no marker is left out. -/
theorem markers_of_ends (h : List.Forall₂
      (fun (t : RobotTrail) (r : RobotState) =>
        t.robot = r.id ∧ t.positions.newest? = some r.position) trails robots) :
    markers trails = robots.map fun r => ⟨r.id, r.position⟩ := by
  induction h with
  | nil => rfl
  | @cons t r trails robots hends _ ih =>
    obtain ⟨hid, hnewest⟩ := hends
    have hmarker : (t.positions.newest?.map fun p => (⟨t.robot, p⟩ : Marker)) =
        some ⟨r.id, r.position⟩ := by
      rw [hnewest, hid]
      rfl
    unfold markers at ih ⊢
    rw [List.filterMap_cons, hmarker, ih, List.map_cons]

theorem ends_of_shows {lines : List TrailLine}
    (hshows : List.Forall₂ Shows lines (trails.map fun t => t.positions.items))
    (hends : List.Forall₂ (fun (t : RobotTrail) (r : RobotState) =>
      t.robot = r.id ∧ t.positions.newest? = some r.position) trails robots) :
    List.Forall₂ (fun (t : TrailLine) (r : RobotState) =>
      t.points ≠ [] ∧ t.points.getLast? = some r.position) lines robots := by
  induction hends generalizing lines with
  | nil =>
    cases hshows
    exact List.Forall₂.nil
  | @cons t r trails robots hend _ ih =>
    cases hshows with
    | @cons line _ lines _ hline hlines =>
      obtain ⟨before, rfl⟩ := hline
      have hlast : t.positions.items.getLast? = some r.position := hend.2
      refine List.Forall₂.cons ⟨?_, hlast⟩ (ih hlines)
      rintro hnil
      change t.positions.items = [] at hnil
      rw [hnil] at hlast
      cases hlast

theorem mirrors_apply (c : TrailCycle TrailLine Unit) (s : TeamSnapshot) (scene : Scene) :
    Mirrors s { scene with
      trails := (c.apply s standardSupply ()).cycle.graphics.elements
      robots := markers (c.apply s standardSupply ()).cycle.histories } := by
  have hends := TrailCycle.ends_apply c s standardSupply ()
  have hmarkers := markers_of_ends hends
  refine ⟨hmarkers, TrailCycle.size_apply c s standardSupply (), ?_⟩
  simp only [hmarkers, List.forall₂_map_right_iff]
  exact ends_of_shows (TrailCycle.shows_apply c s standardSupply ()) hends

end Applying

section Refreshing

variable {l : TrailLayer} {scene : Scene}

theorem refresh_of_none (h : l.source.queue.getLast? = none) :
    l.refresh scene = (.skipped, l, scene) := by
  have hqueue := List.getLast?_eq_none_iff.1 h
  obtain ⟨name, ⟨queue, capacity, hcapacity⟩, cycle, graphicsChanges⟩ := l
  obtain rfl : queue = [] := hqueue
  rfl

theorem refresh_of_some {s : TeamSnapshot} (h : l.source.queue.getLast? = some s) :
    l.refresh scene = (.updated s.size,
      { l with
        source := { l.source with queue := [] }
        cycle := (l.cycle.apply s standardSupply ()).cycle
        graphicsChanges :=
          l.graphicsChanges + (l.cycle.apply s standardSupply ()).notified.length },
      { scene with
        trails := (l.cycle.apply s standardSupply ()).cycle.graphics.elements
        robots := markers (l.cycle.apply s standardSupply ()).cycle.histories }) := by
  rw [refresh, SnapshotBuffer.latest_eq, h]
  rfl

theorem hasRoom_eq (l : TrailLayer) : l.hasRoom = l.source.queue.getLast?.all l.cycle.hasRoom := by
  rw [hasRoom, SnapshotBuffer.latest_eq]

end Refreshing

/-- A layer over a buffer that nothing was published to, with the scene that it will keep up to
date. -/
def started (name : String) (capacity trailLength : Nat) (scene : Scene) : TrailLayer × Scene :=
  (new name (.empty capacity) trailLength, scene)

/-- Makes a buffer and a layer over it, and makes these calls; `none` where the buffer or a trail has
no room. -/
def runFromStart (name : String) (capacity trailLength : Nat) (scene : Scene) (calls : List Call) :
    Option (TrailLayer × Scene) := do
  let source ← SnapshotBuffer.new? capacity SnapshotBuffer.snapshotPlace
  run (new name source trailLength, scene) calls

/-- What holds of a layer and its scene after calls, where `n` is the length of its trails. -/
structure Keeps (n : Nat) (start : Scene) (calls : List Call) (x : TrailLayer × Scene) : Prop where
  room : x.1.source.queue.length ≤ x.1.source.capacity
  newest : x.1.source.queue.getLast? = (unread calls).getLast?
  cycle : TrailCycle.run (.new n ⟨[], some ()⟩) () (ticks calls) = some (x.1.cycle, ())
  observer : x.1.cycle.graphics.observer = some ()
  size : x.1.cycle.graphics.size = lastSize (applied calls)
  changes : x.1.graphicsChanges = changes 0 (applied calls)
  field : x.2.field = start.field
  lineColor : x.2.lineColor = start.lineColor

section Keeping

variable {n : Nat} {start : Scene} {calls : List Call} {x : TrailLayer × Scene}

theorem keeps_started (name : String) (capacity : Nat) :
    Keeps n start [] (started name capacity n start) :=
  ⟨Nat.zero_le _, rfl, rfl, rfl, rfl, rfl, rfl, rfl⟩

theorem keeps_publish (h : Keeps n start calls x) (s : TeamSnapshot) :
    Keeps n start (calls ++ [.publish s]) (x.1.publish s, x.2) where
  room := SnapshotBuffer.length_publish_le h.room s
  newest := by
    rw [unread_publish, List.getLast?_concat]
    exact SnapshotBuffer.getLast?_publish h.room s
  cycle := ticks_publish calls s ▸ h.cycle
  observer := h.observer
  size := applied_publish calls s ▸ h.size
  changes := applied_publish calls s ▸ h.changes
  field := h.field
  lineColor := h.lineColor

/-- A refresh is a tick of the cycle, and there is room for one where there is for the other. -/
theorem advance_refresh (h : Keeps n start calls x) :
    TrailCycle.run (.new n ⟨[], some ()⟩) () (ticks (calls ++ [.refresh])) =
      if x.1.hasRoom then some ((x.1.refresh x.2).2.1.cycle, ()) else none := by
  rw [ticks_refresh, TrailCycle.run_append, h.cycle, Option.bind_some, hasRoom_eq, h.newest]
  unfold TrailCycle.advance
  cases hnewest : (unread calls).getLast? with
  | none =>
    rw [refresh_of_none (h.newest.trans hnewest)]
    rfl
  | some s =>
    rw [refresh_of_some (h.newest.trans hnewest)]
    rfl

theorem keeps_refresh (h : Keeps n start calls x) (hroom : x.1.hasRoom = true) :
    Keeps n start (calls ++ [.refresh]) (x.1.refresh x.2).2 := by
  have hcycle := advance_refresh h
  rw [if_pos hroom] at hcycle
  cases hnewest : (unread calls).getLast? with
  | none =>
    have happlied : applied (calls ++ [.refresh]) = applied calls := by
      rw [applied_refresh, hnewest, Option.toList_none, List.append_nil]
    rw [refresh_of_none (h.newest.trans hnewest)] at hcycle ⊢
    refine ⟨h.room, ?_, hcycle, h.observer, ?_, ?_, h.field, h.lineColor⟩
    · rw [unread_refresh, h.newest, hnewest]
      rfl
    · rw [happlied, h.size]
    · rw [happlied, h.changes]
  | some s =>
    have happlied : applied (calls ++ [.refresh]) = applied calls ++ [s] := by
      rw [applied_refresh, hnewest, Option.toList_some]
    rw [refresh_of_some (h.newest.trans hnewest)] at hcycle ⊢
    refine ⟨Nat.zero_le _, ?_, hcycle, ?_, ?_, ?_, h.field, h.lineColor⟩
    · rw [unread_refresh]
    · rw [TrailCycle.observer_apply, h.observer]
    · rw [TrailCycle.size_apply, happlied, lastSize, List.getLast?_concat]
      rfl
    · -- the observer counts the snapshots that change the size
      have hcount : (x.1.cycle.apply s standardSupply ()).notified.length =
          if s.size = lastSize (applied calls) then 0 else 1 := by
        rw [TrailCycle.notified_apply, h.size, h.observer]
        split_ifs <;> rfl
      rw [happlied, changes_append, ← h.changes]
      exact congrArg (x.1.graphicsChanges + ·) hcount

theorem keeps_run {name : String} {capacity : Nat}
    (h : run (started name capacity n start) calls = some x) : Keeps n start calls x := by
  induction calls using List.reverseRecOn generalizing x with
  | nil =>
    cases h
    exact keeps_started name capacity
  | append_singleton calls call ih =>
    rw [run_append] at h
    obtain ⟨y, hy, hx⟩ := Option.bind_eq_some_iff.1 h
    have hkeeps := ih hy
    cases call with
    | publish s =>
      cases hx
      exact keeps_publish hkeeps s
    | refresh =>
      unfold advance at hx
      split_ifs at hx with hroom
      cases hx
      exact keeps_refresh hkeeps hroom

/-- A run of the layer breaks off where the run of its cycle does. -/
theorem run_isSome_eq (name : String) (capacity n : Nat) (start : Scene) (calls : List Call) :
    (run (started name capacity n start) calls).isSome =
      (TrailCycle.run (.new n (⟨[], some ()⟩ : GraphicsSet TrailLine Unit)) ()
        (ticks calls)).isSome := by
  induction calls using List.reverseRecOn with
  | nil => rfl
  | append_singleton calls call ih =>
    rw [run_append]
    cases hrun : run (started name capacity n start) calls with
    | none =>
      rw [hrun] at ih
      have hnone := Option.isSome_eq_false_iff.1 ih.symm
      cases call with
      | publish s => rw [ticks_publish, ← ih]; rfl
      | refresh =>
        rw [ticks_refresh, TrailCycle.run_append, Option.isNone_iff_eq_none.1 hnone]
        rfl
    | some x =>
      have hkeeps := keeps_run hrun
      cases call with
      | publish s => rw [ticks_publish, ← ih, hrun]; rfl
      | refresh =>
        rw [advance_refresh hkeeps, Option.bind_some, advance]
        split_ifs <;> rfl

end Keeping

theorem fits_snapshots_iff {capacity : Nat} :
    max capacity 1 * SnapshotBuffer.snapshotPlace ≤ Memory.limit ↔ capacity < 2 ^ 58 := by
  simp only [SnapshotBuffer.snapshotPlace, SnapshotBuffer.stampOctets, Memory.limit]
  omega

theorem runFromStart_eq_some_iff {name : String} {capacity n : Nat} {start : Scene}
    {calls : List Call} {x : TrailLayer × Scene} :
    runFromStart name capacity n start calls = some x ↔
      capacity < 2 ^ 58 ∧ run (started name capacity n start) calls = some x := by
  simp only [runFromStart, Option.bind_eq_bind, Option.bind_eq_some_iff,
    SnapshotBuffer.new?_eq_some_iff, fits_snapshots_iff, and_assoc, exists_and_left,
    exists_eq_left', started]

/-- A run has a result exactly if memory has room for all the places of the buffer and for the trails
that are started. -/
theorem isSome_runFromStart_iff (name : String) (capacity n : Nat) (start : Scene)
    (calls : List Call) :
    (runFromStart name capacity n start calls).isSome ↔
      capacity < 2 ^ 58 ∧ (n < 2 ^ 60 ∨ ∀ s ∈ applied calls, s.robots = []) := by
  rw [Option.isSome_iff_exists]
  simp only [runFromStart_eq_some_iff, exists_and_left]
  rw [← Option.isSome_iff_exists, run_isSome_eq, TrailCycle.run_isSome_iff, applied_ticks]

/-- A run breaks off exactly where the buffer is beyond memory, or trails beyond memory are to be
started.  After any other run the layer has counted how often the size of the applied snapshots
changed, and the field is as it was.  A refresh then does nothing if nothing was published since the
last one; else it applies the last snapshot published, and the scene mirrors it. -/
theorem refresh_after_run (name : String) (capacity n : Nat) (start : Scene) (calls : List Call) :
    ((runFromStart name capacity n start calls).isSome ↔
      capacity < 2 ^ 58 ∧ (n < 2 ^ 60 ∨ ∀ s ∈ applied calls, s.robots = [])) ∧
    ∀ x, runFromStart name capacity n start calls = some x →
      x.1.graphicsChanges = changes 0 (applied calls) ∧
      x.2.field = start.field ∧ x.2.lineColor = start.lineColor ∧
      (unread calls = [] → x.1.refresh x.2 = (.skipped, x)) ∧
      ∀ s, (unread calls).getLast? = some s →
        ∃ y, x.1.refresh x.2 = (.updated s.size, y) ∧
          (n < 2 ^ 60 ∨ s.robots = [] →
            runFromStart name capacity n start (calls ++ [.refresh]) = some y) ∧
          y.1.cycle = (x.1.cycle.apply s standardSupply ()).cycle ∧ Mirrors s y.2 ∧
          y.2.field = x.2.field ∧ y.2.lineColor = x.2.lineColor := by
  refine ⟨isSome_runFromStart_iff name capacity n start calls, ?_⟩
  intro x hx
  obtain ⟨hcapacity, hrun⟩ := runFromStart_eq_some_iff.1 hx
  have hkeeps := keeps_run hrun
  refine ⟨hkeeps.changes, hkeeps.field, hkeeps.lineColor, ?_, ?_⟩
  · intro hunread
    apply refresh_of_none
    rw [hkeeps.newest, hunread]
    rfl
  · intro s hs
    have hnewest := hkeeps.newest.trans hs
    refine ⟨_, refresh_of_some hnewest, ?_, rfl, mirrors_apply x.1.cycle s x.2, rfl, rfl⟩
    intro hroom
    obtain ⟨-, hbefore⟩ := (isSome_runFromStart_iff name capacity n start calls).1
      (Option.isSome_iff_exists.2 ⟨x, hx⟩)
    have hafter : (runFromStart name capacity n start (calls ++ [.refresh])).isSome := by
      rw [isSome_runFromStart_iff, applied_refresh, hs]
      simp only [Option.toList_some, List.forall_mem_append, List.forall_mem_singleton]
      exact ⟨hcapacity, or_and_left.2 ⟨hbefore, hroom⟩⟩
    obtain ⟨y, hy⟩ := Option.isSome_iff_exists.1 hafter
    obtain ⟨-, hnext⟩ := runFromStart_eq_some_iff.1 hy
    rw [hy, ← hnext, run_append, hrun, Option.bind_some, advance]
    rw [run_append, hrun, Option.bind_some, advance] at hnext
    split_ifs at hnext ⊢ with hfits
    rw [refresh_of_some hnewest]

/-- Trails that memory cannot hold: the refresh that applies the first robot breaks off. -/
theorem refresh_breaks_off_beyond_memory :
    ¬ ∀ (n : Nat) (calls : List Call) (s : TeamSnapshot),
      (unread calls).getLast? = some s →
      ∃ y, runFromStart "Trails" 5 n (.empty ⟨9, 6⟩ .black) (calls ++ [.refresh]) = some y ∧
        Mirrors s y.2 := by
  intro h
  obtain ⟨y, hy, -⟩ := h (2 ^ 60) [.publish ⟨[⟨1, ⟨0, 0⟩⟩]⟩] ⟨[⟨1, ⟨0, 0⟩⟩]⟩ rfl
  have hroom := (isSome_runFromStart_iff _ _ _ _ _).1 (Option.isSome_iff_exists.2 ⟨y, hy⟩)
  simp [applied, found, note] at hroom

end TrailLayer
end RobotConsole
