import Mathlib.Data.List.Nodup
import RobotConsole.Proofs.Trail.Run

/-!
Trails that stay as they are while the robots do, against trails that are always rebuilt by robot.
Where no robot is listed twice the two agree after every run.  Of several trails of one robot a
rebuilding keeps the last alone and starts the others anew, so that a roster with a robot listed
twice tells them apart, once trails have more than one position.
-/

namespace RobotConsole

namespace TrailCycle

structure Bounded (n : Nat) (t : RobotTrail) : Prop where
  capacity : t.positions.capacity = n
  length : t.positions.items.length ≤ n

theorem bounded_new {n : Nat} (hn : 1 ≤ n) (robot : UInt32) : Bounded n ⟨robot, .new n⟩ :=
  ⟨Nat.max_eq_left hn, Nat.zero_le n⟩

theorem length_extend {n : Nat} (hn : 1 ≤ n) {t : RobotTrail} (h : Bounded n t) (r : RobotState) :
    (extend t r).positions.items.length = min (t.positions.items.length + 1) n := by
  have hlength := h.length
  rw [← h.capacity] at hlength hn ⊢
  exact History.length_push hlength hn r.position

theorem bounded_extend {n : Nat} (hn : 1 ≤ n) {t : RobotTrail} (h : Bounded n t) (r : RobotState) :
    Bounded n (extend t r) := by
  refine ⟨h.capacity, ?_⟩
  rw [length_extend hn h]
  exact Nat.min_le_right _ _

theorem mem_extend {t : RobotTrail} {trails : List RobotTrail} {robots : List RobotState}
    (h : t ∈ List.zipWith extend trails robots) : ∃ u ∈ trails, ∃ r, t = extend u r := by
  rw [← List.map_uncurry_zip_eq_zipWith] at h
  obtain ⟨⟨u, r⟩, hzip, rfl⟩ := List.mem_map.1 h
  exact ⟨u, (List.of_mem_zip hzip).1, r, rfl⟩

/-- A trail of one position shows where its robot is, whatever it showed before. -/
theorem extend_of_bounded_one {t : RobotTrail} (h : Bounded 1 t) (r : RobotState) :
    extend t r = ⟨t.robot, ⟨[r.position], 1⟩⟩ := by
  obtain ⟨robot, items, capacity⟩ := t
  obtain ⟨hcapacity, hlength⟩ := h
  dsimp only at hcapacity hlength
  subst hcapacity
  match items, hlength with
  | [], _ => rfl
  | [_], _ => rfl

theorem mem_pool {t : RobotTrail} {trails : List RobotTrail} (h : t ∈ pool trails) :
    t ∈ trails := by
  induction trails using List.reverseRecOn with
  | nil => exact h
  | append_singleton trails u ih =>
    rw [pool, List.foldl_append, List.foldl_cons, List.foldl_nil, ← pool, file,
      List.mem_cons, List.mem_filter] at h
    rcases h with rfl | ⟨h, -⟩
    · exact List.mem_append_right _ (List.mem_singleton_self t)
    · exact List.mem_append_left _ (ih h)

/-- Every robot takes a trail out of the pool or starts a new one. -/
theorem mem_assign {n : Nat} {t : RobotTrail} {trails : List RobotTrail}
    {robots : List RobotState} (h : t ∈ assign n trails robots) :
    t ∈ trails ∨ ∃ robot, t = ⟨robot, .new n⟩ := by
  induction robots generalizing trails with
  | nil => cases h
  | cons r robots ih =>
    rw [assign_cons, List.mem_cons] at h
    rcases h with h | h
    · cases hfound : trailIn trails r.id with
      | none =>
        rw [hfound, Option.getD_none] at h
        exact Or.inr ⟨r.id, h⟩
      | some u =>
        rw [hfound, Option.getD_some] at h
        rw [h]
        exact Or.inl (List.mem_of_find?_eq_some hfound)
    · exact (ih h).imp_left fun h => List.mem_of_mem_filter h

/-- A robot that was listed before, or that has no trail, starts a new one. -/
theorem getElem?_assign_of_anew (n : Nat) (trails : List RobotTrail) {robots : List RobotState}
    {i : Nat} {r : RobotState} (h : robots[i]? = some r)
    (hanew : r.id ∈ (robots.take i).map RobotState.id ∨ trailIn trails r.id = none) :
    (assign n trails robots)[i]? = some ⟨r.id, .new n⟩ := by
  induction robots generalizing trails i with
  | nil => simp at h
  | cons q robots ih =>
    rw [assign_cons]
    cases i with
    | zero =>
      cases h
      have hnone := hanew.resolve_left (by simp)
      rw [List.getElem?_cons_zero, hnone, Option.getD_none]
    | succ i =>
      rw [List.getElem?_cons_succ] at h ⊢
      apply ih _ h
      by_cases hq : q.id = r.id
      · -- the trail was taken out of the pool for the robot in front
        right
        simp [trailIn, hq]
      · rw [List.take_succ_cons, List.map_cons, List.mem_cons] at hanew
        rw [trailIn_filter hq]
        exact hanew.imp_left fun h => h.resolve_left (Ne.symm hq)

theorem assign_of_nodup (n : Nat) (trails : List RobotTrail) {robots : List RobotState}
    (h : (robots.map RobotState.id).Nodup) :
    assign n trails robots =
      (robots.map RobotState.id).map fun robot => (trailIn trails robot).getD ⟨robot, .new n⟩ := by
  induction robots generalizing trails with
  | nil => rfl
  | cons r robots ih =>
    rw [List.map_cons, List.nodup_cons] at h
    rw [assign_cons, ih _ h.2, List.map_cons, List.map_cons, List.cons.injEq]
    refine ⟨rfl, List.map_congr_left fun robot hrobot => ?_⟩
    rw [trailIn_filter (ne_of_mem_of_not_mem hrobot h.1).symm]

theorem trailIn_of_mem {t : RobotTrail} {trails : List RobotTrail} (ht : t ∈ trails)
    (h : (trails.map RobotTrail.robot).Nodup) : trailIn trails t.robot = some t := by
  induction trails with
  | nil => cases ht
  | cons u trails ih =>
    rw [List.map_cons, List.nodup_cons] at h
    rw [trailIn_cons]
    rcases List.mem_cons.1 ht with rfl | ht
    · exact if_pos rfl
    · have hne : t.robot ≠ u.robot :=
        ne_of_mem_of_not_mem (List.mem_map_of_mem ht) h.1
      rw [if_neg hne.symm, ih ht h.2]

/-- The trails of a snapshot's robots, where all go through the pool. -/
def rebuild (n : Nat) (trails : List RobotTrail) (robots : List RobotState) : List RobotTrail :=
  assign n (pool trails) robots

/-- Trails of robots that are listed once each come out of the pool as they went in. -/
theorem rebuild_eq_self (n : Nat) {trails : List RobotTrail} {robots : List RobotState}
    (h : trails.map RobotTrail.robot = robots.map RobotState.id)
    (hone : (robots.map RobotState.id).Nodup) : rebuild n trails robots = trails := by
  rw [rebuild, assign_of_nodup n _ hone, ← h, List.map_map]
  rw [← h] at hone
  calc trails.map _ = trails.map id := List.map_congr_left fun t ht => by
        have hcount := List.nodup_iff_count_le_one.1 hone t.robot
        rw [Function.comp_apply, trailIn_pool, trailIn_reverse hcount, trailIn_of_mem ht hone]
        rfl
    _ = trails := List.map_id trails

theorem bounded_rebuild {n : Nat} (hn : 1 ≤ n) {trails : List RobotTrail}
    (h : ∀ t ∈ trails, Bounded n t) (robots : List RobotState) :
    ∀ t ∈ rebuild n trails robots, Bounded n t := by
  intro t ht
  rcases mem_assign ht with hpool | ⟨robot, rfl⟩
  · exact h t (mem_pool hpool)
  · exact bounded_new hn robot

/-- Where trails have one position it does not matter which ones they were. -/
theorem extend_all_of_bounded_one {trails : List RobotTrail} {robots : List RobotState}
    (h : ∀ t ∈ trails, Bounded 1 t)
    (hrobots : trails.map RobotTrail.robot = robots.map RobotState.id) :
    List.zipWith extend trails robots = robots.map fun r => ⟨r.id, ⟨[r.position], 1⟩⟩ := by
  induction trails generalizing robots with
  | nil =>
    have hnil : robots = [] := by simpa using hrobots.symm
    rw [hnil]
    rfl
  | cons t trails ih =>
    cases robots with
    | nil => simp at hrobots
    | cons r robots =>
      rw [List.map_cons, List.map_cons, List.cons.injEq] at hrobots
      rw [List.forall_mem_cons] at h
      rw [List.zipWith_cons_cons, List.map_cons, extend_of_bounded_one h.1, ih h.2 hrobots.2,
        hrobots.1]

/-- A robot in a list of robots that is listed before as well. -/
theorem exists_listed_before {robots : List RobotState}
    (h : ¬ (robots.map RobotState.id).Nodup) :
    ∃ (i : Nat) (r : RobotState), robots[i]? = some r ∧
      r.id ∈ (robots.take i).map RobotState.id := by
  rw [List.nodup_iff_getElem?_ne_getElem?] at h
  push Not at h
  obtain ⟨i, j, hij, hj, hsame⟩ := h
  rw [List.length_map] at hj
  refine ⟨j, robots[j], List.getElem?_eq_getElem hj, ?_⟩
  rw [List.getElem?_map, List.getElem?_map, List.getElem?_eq_getElem hj,
    List.getElem?_eq_getElem (hij.trans hj), Option.map_some, Option.map_some,
    Option.some.injEq] at hsame
  rw [← hsame]
  apply List.mem_map_of_mem
  rw [List.mem_take_iff_getElem]
  exact ⟨i, by omega, rfl⟩

/-- Trails of two positions or more show that one of them was started anew. -/
theorem extend_rebuild_ne {n : Nat} (hn : 2 ≤ n) {trails : List RobotTrail}
    {robots : List RobotState} (h : trails.map RobotTrail.robot = robots.map RobotState.id)
    (hbounded : ∀ t ∈ trails, Bounded n t) (hshown : ∀ t ∈ trails, t.positions.items ≠ [])
    (htwice : ¬ (robots.map RobotState.id).Nodup) :
    List.zipWith extend trails robots ≠ List.zipWith extend (rebuild n trails robots) robots := by
  intro hsame
  obtain ⟨i, r, hr, hbefore⟩ := exists_listed_before htwice
  have hanew : (rebuild n trails robots)[i]? = some ⟨r.id, .new n⟩ :=
    getElem?_assign_of_anew n _ hr (Or.inl hbefore)
  have hi : i < trails.length := by
    have hlength : trails.length = robots.length := by simpa using congrArg List.length h
    rw [hlength]
    exact (List.getElem?_eq_some_iff.1 hr).1
  have ht := List.getElem?_eq_getElem hi
  have hslot : extend trails[i] r = extend ⟨r.id, .new n⟩ r := by
    simpa [List.getElem?_zipWith, ht, hr, hanew] using congrArg (fun l => l[i]?) hsame
  have hmem := List.getElem_mem hi
  have hlengths := congrArg (fun t => t.positions.items.length) hslot
  have hn1 : 1 ≤ n := by omega
  rw [length_extend hn1 (hbounded _ hmem), length_extend hn1 (bounded_new hn1 r.id)] at hlengths
  have hpositive := List.length_pos_iff.2 (hshown _ hmem)
  have hempty : (⟨r.id, .new n⟩ : RobotTrail).positions.items.length = 0 := rfl
  omega

variable {γ ω σ : Type}

/-- What holds of the trails of a cycle of length `n` after every run: they are not longer, and each
shows a position. -/
structure Kept (n : Nat) (c : TrailCycle γ ω) : Prop where
  bounded : ∀ t ∈ c.histories, Bounded n t
  shown : ∀ t ∈ c.histories, t.positions.items ≠ []

theorem kept_new (n : Nat) (graphics : GraphicsSet γ ω) : Kept (max n 1) (new n graphics) :=
  ⟨List.forall_mem_nil _, List.forall_mem_nil _⟩

/-- A rebuilding starts a trail: for a robot without one, or for one that is listed again. -/
def rebuildStarts (trails : List RobotTrail) (robots : List RobotState) : Bool :=
  !(robots.map RobotState.id).Nodup || robots.any fun r => trails.all fun t => t.robot ≠ r.id

theorem starts_eq (trails : List RobotTrail) (robots : List RobotState) :
    starts trails robots = (!aligned trails robots && rebuildStarts trails robots) := rfl

/-- The histories that a snapshot leaves where all trails are rebuilt; `none` where one that starts
has no room. -/
def rebuiltHistories (c : TrailCycle γ ω) (s : TeamSnapshot) : Option (List RobotTrail) :=
  if !rebuildStarts c.histories s.robots || History.fits c.trailLength positionOctets then
    some (List.zipWith extend (rebuild c.trailLength c.histories s.robots) s.robots)
  else none

theorem rebuildStarts_of_nodup {trails : List RobotTrail} {robots : List RobotState}
    (h : trails.map RobotTrail.robot = robots.map RobotState.id)
    (hone : (robots.map RobotState.id).Nodup) : rebuildStarts trails robots = false := by
  simp only [rebuildStarts, hone, decide_true, Bool.not_true, Bool.false_or, List.any_eq_false]
  intro r hr hall
  have hmem : r.id ∈ trails.map RobotTrail.robot := h ▸ List.mem_map_of_mem hr
  obtain ⟨t, ht, hrobot⟩ := List.mem_map.1 hmem
  simpa [hrobot] using List.all_eq_true.1 hall t ht

/-- Robots that are listed once each keep the trails that a rebuilding leaves them. -/
theorem rebuiltHistories_of_nodup {c : TrailCycle γ ω} {s : TeamSnapshot}
    (h : c.histories.map RobotTrail.robot = s.ids) (hone : s.ids.Nodup) :
    rebuiltHistories c s = some (List.zipWith extend c.histories s.robots) := by
  rw [rebuiltHistories, rebuildStarts_of_nodup h hone, rebuild_eq_self _ h hone]
  rfl

/-- A cycle that has trails has room for more. -/
theorem rebuiltHistories_of_fits {c : TrailCycle γ ω} {s : TeamSnapshot}
    (h : History.fits c.trailLength positionOctets = true) :
    rebuiltHistories c s =
      some (List.zipWith extend (rebuild c.trailLength c.histories s.robots) s.robots) := by
  rw [rebuiltHistories, h, Bool.or_true, if_pos rfl]

variable [TrailGraphic γ]

theorem kept_apply {n : Nat} (hn : 1 ≤ n) {c : TrailCycle γ ω} (h : Kept n c)
    (hlength : c.trailLength = n) (s : TeamSnapshot) (supply : Supply σ γ) (state : σ) :
    Kept n (c.apply s supply state).cycle := by
  have hreconciled : ∀ t ∈ reconcile c.trailLength c.histories s.robots, Bounded n t := by
    rw [hlength]
    unfold reconcile
    split
    · exact h.bounded
    · exact bounded_rebuild hn h.bounded s.robots
  constructor
  · intro t ht
    obtain ⟨u, hu, r, rfl⟩ := mem_extend ht
    exact bounded_extend hn (hreconciled u hu) r
  · intro t ht
    obtain ⟨u, -, r, rfl⟩ := mem_extend ht
    simp [extend, History.push]

theorem kept_run {n : Nat} {graphics : GraphicsSet γ ω} {state : σ} {ticks : List (Tick γ σ)}
    {x : TrailCycle γ ω × σ} (h : run (new n graphics) state ticks = some x) :
    Kept (max n 1) x.1 := by
  induction ticks using List.reverseRecOn generalizing x with
  | nil =>
    cases h
    exact kept_new n graphics
  | append_singleton ticks t ih =>
    rw [run_append] at h
    obtain ⟨y, hy, hx⟩ := Option.bind_eq_some_iff.1 h
    cases hfound : t.found with
    | none =>
      rw [advance_skip y hfound] at hx
      cases hx
      exact ih hy
    | some s =>
      simp only [advance, hfound] at hx
      split at hx
      · cases hx
        exact kept_apply (by omega) (ih hy) (follows_run hy).trailLength s t.supply y.2
      · cases hx

/-- The histories that a snapshot leaves; `none` where a trail has no room. -/
def nextHistories (x : TrailCycle γ ω × σ) (s : TeamSnapshot) (supply : Supply σ γ) :
    Option (List RobotTrail) :=
  (advance x ⟨some s, supply⟩).map fun y => y.1.histories

theorem nextHistories_eq (x : TrailCycle γ ω × σ) (s : TeamSnapshot) (supply : Supply σ γ) :
    nextHistories x s supply =
      if x.1.hasRoom s then
        some (List.zipWith extend (reconcile x.1.trailLength x.1.histories s.robots) s.robots)
      else none := by
  simp only [nextHistories, advance, Option.all_some]
  split
  · rfl
  · rfl

/-- Robots that are not those of the snapshot before have their trails rebuilt. -/
theorem nextHistories_of_not_aligned {x : TrailCycle γ ω × σ} {s : TeamSnapshot}
    (h : aligned x.1.histories s.robots = false) (supply : Supply σ γ) :
    nextHistories x s supply = rebuiltHistories x.1 s := by
  rw [nextHistories_eq, hasRoom, starts_eq, reconcile, h]
  rfl

/-- The trails of the same robots as before stay as they are. -/
theorem nextHistories_of_aligned {x : TrailCycle γ ω × σ} {s : TeamSnapshot}
    (h : aligned x.1.histories s.robots = true) (supply : Supply σ γ) :
    nextHistories x s supply = some (List.zipWith extend x.1.histories s.robots) := by
  rw [nextHistories_eq, hasRoom, starts_eq, reconcile, h]
  rfl

/-- Trails that a run has led to have room. -/
theorem lt_of_histories {n : Nat} {graphics : GraphicsSet γ ω} {state : σ}
    {ticks : List (Tick γ σ)} {x : TrailCycle γ ω × σ}
    (hrun : run (new n graphics) state ticks = some x) (h : x.1.histories ≠ []) : n < 2 ^ 60 := by
  have hroom := (run_isSome_iff n graphics state ticks).1 (by rw [hrun]; rfl)
  exact hroom.resolve_right fun hnone => h (histories_of_follows (follows_run hrun) hnone)

/-- After every run the next snapshot leaves the histories that rebuilding all of them leaves, unless
it lists the robots of the one before in the same order, one of them twice, and trails have two
positions or more. -/
theorem nextHistories_eq_rebuilt_iff {n : Nat} {graphics : GraphicsSet γ ω} {state : σ}
    {ticks : List (Tick γ σ)} {x : TrailCycle γ ω × σ}
    (hrun : run (new n graphics) state ticks = some x) (s : TeamSnapshot) (supply : Supply σ γ) :
    nextHistories x s supply = rebuiltHistories x.1 s ↔
      ¬ (s.ids = roster (Tick.applied ticks) ∧ ¬ s.ids.Nodup ∧ 2 ≤ n) := by
  have hfollows := follows_run hrun
  have hkept := kept_run hrun
  by_cases hsame : x.1.histories.map RobotTrail.robot = s.ids
  · rw [nextHistories_of_aligned (decide_eq_true hsame), ← hfollows.slots, hsame]
    by_cases hone : s.ids.Nodup
    · simp [rebuiltHistories_of_nodup hsame hone, hone]
    · have hfits : n < 2 ^ 60 := lt_of_histories hrun fun hnil => hone (by simp [← hsame, hnil])
      rw [← fits_iff, ← hfollows.trailLength] at hfits
      rw [rebuiltHistories_of_fits hfits, hfollows.trailLength, Option.some.injEq]
      by_cases hn : 2 ≤ n
      · have hmax : max n 1 = n := by omega
        rw [hmax] at hkept ⊢
        simp [extend_rebuild_ne hn hsame hkept.bounded hkept.shown hone, hone, hn]
      · have hmax : max n 1 = 1 := by omega
        rw [hmax] at hkept ⊢
        rw [extend_all_of_bounded_one hkept.bounded hsame,
          extend_all_of_bounded_one (bounded_rebuild le_rfl hkept.bounded s.robots)
            (robots_assign _ _ _)]
        simp [hn]
  · have haligned : aligned x.1.histories s.robots = false := decide_eq_false hsame
    rw [nextHistories_of_not_aligned haligned]
    simp [← hfollows.slots, Ne.symm hsame]

/-- Robots 7 and 8 change places, and their trails are rebuilt; then they stay where they are. -/
theorem nextHistories_eq_rebuilt_of_swapped :
    let supply : Supply Unit TrailLine := fun _ => (.standard, ())
    let seen (id : UInt32) (x : Single) : RobotState := ⟨id, ⟨x, 0⟩⟩
    let ticks : List (Tick TrailLine Unit) :=
      [⟨some ⟨[seen 7 1, seen 8 2]⟩, supply⟩, ⟨some ⟨[seen 8 3, seen 7 4]⟩, supply⟩]
    ∃ x, run (new 2 ⟨[], none⟩ : TrailCycle TrailLine Unit) () ticks = some x ∧
      nextHistories x ⟨[seen 8 5, seen 7 6]⟩ supply =
        rebuiltHistories x.1 ⟨[seen 8 5, seen 7 6]⟩ := by
  intro supply seen ticks
  have hroom := run_isSome_iff 2 (⟨[], none⟩ : GraphicsSet TrailLine Unit) () ticks
  obtain ⟨x, hx⟩ := Option.isSome_iff_exists.1 (hroom.2 (Or.inl (by decide)))
  exact ⟨x, hx, (nextHistories_eq_rebuilt_iff hx _ supply).2 (by decide)⟩

/-- A robot that is listed twice keeps both its trails, of which a rebuilding leaves one. -/
theorem repeated_robot_not_rebuilt :
    ¬ ∀ (n : Nat) (ticks : List (Tick TrailLine Unit)) (x : TrailCycle TrailLine Unit × Unit)
      (s : TeamSnapshot) (supply : Supply Unit TrailLine),
      run (new n ⟨[], none⟩ : TrailCycle TrailLine Unit) () ticks = some x →
        nextHistories x s supply = rebuiltHistories x.1 s := by
  intro h
  let supply : Supply Unit TrailLine := fun _ => (.standard, ())
  let seen (x : Single) : RobotState := ⟨1, ⟨x, 0⟩⟩
  let ticks : List (Tick TrailLine Unit) := [⟨some ⟨[seen 0, seen 1]⟩, supply⟩]
  have hroom := run_isSome_iff 3 (⟨[], none⟩ : GraphicsSet TrailLine Unit) () ticks
  obtain ⟨x, hx⟩ := Option.isSome_iff_exists.1 (hroom.2 (Or.inl (by decide)))
  have hsame := h 3 ticks x ⟨[seen 2, seen 3]⟩ supply hx
  rw [nextHistories, rebuiltHistories] at hsame
  cases hx
  revert hsame
  decide +kernel

end TrailCycle
end RobotConsole
