import Mathlib.Data.List.Nodup
import RobotConsole.Proofs.Random.Range
import RobotConsole.Simulation.Team

/-!
Who is on the field.  A robot keeps its id when it takes a step, and only the last one is ever sent
to the bench, to which it comes back from there as the last one.  So the active robots and the one
on the bench are at any time the team that entered the field, in its order.
-/

namespace RobotConsole

variable {σ : Type} {n : Nature σ}

/-- Whether coordinates are drawn only where there is a range. -/
def Nature.Ranged (n : Nature σ) : Prop :=
  ∀ limit s v, n.coordinate limit s = some v → -limit ≤ limit

theorem Nature.ranged_standard : standard.Ranged := by
  intro limit s v h
  simp only [standard, Option.map_eq_some_iff] at h
  obtain ⟨r, hr, -⟩ := h
  exact (FloatRange.between?_spec hr).1.1

def teamIds (robots : Nat) : List UInt32 := (List.range robots).map Nat.toUInt32

theorem length_teamIds (robots : Nat) : (teamIds robots).length = robots := by
  rw [teamIds, List.length_map, List.length_range]

theorem teamIds_succ (robots : Nat) :
    teamIds (robots + 1) = teamIds robots ++ [robots.toUInt32] := by
  rw [teamIds, List.range_succ, List.map_append]
  rfl

theorem nodup_teamIds {robots : Nat} (h : robots ≤ 2 ^ 32) : (teamIds robots).Nodup := by
  refine List.nodup_range.map_on fun i hi j hj hij => ?_
  rw [List.mem_range] at hi hj
  have hmod := congrArg UInt32.toNat hij
  simp only [Nat.toUInt32_eq, UInt32.toNat_ofNat'] at hmod
  omega

namespace Walker

theorem exists_bounce {limit : Single} (h : -limit ≤ limit) (x : Single) :
    ∃ y beyond, bounce limit x = some (y, beyond) := by
  rw [bounce]
  split
  · rw [Binary.clamp?, if_pos h]
    exact ⟨_, _, rfl⟩
  · exact ⟨_, _, rfl⟩

theorem exists_advance {limits : Point Single} (hx : -limits.x ≤ limits.x)
    (hy : -limits.y ≤ limits.y) (turn : Single) (w : Walker) :
    ∃ w', w.advance n limits turn = some w' := by
  obtain ⟨x, beyondX, hboundX⟩ :=
    exists_bounce hx (w.position.x + n.cosine (w.heading + turn) * stepLength)
  obtain ⟨y, beyondY, hboundY⟩ :=
    exists_bounce hy (w.position.y + n.sine (w.heading + turn) * stepLength)
  rw [advance, hboundX, hboundY]
  exact ⟨_, rfl⟩

theorem id_advance {limits : Point Single} {turn : Single} {w w' : Walker}
    (h : w.advance n limits turn = some w') : w'.id = w.id := by
  simp only [advance] at h
  split at h
  · cases h
    rfl
  · cases h

end Walker

namespace Simulation

variable {robots : Nat} {limits : Point Single} {s s' : σ} {w : Walker} {ws ws' : List Walker}
  {m m' : Simulation σ} {t : TeamSnapshot}

theorem advanceAll_cons_eq_some_iff : advanceAll n limits (w :: ws) s = some (ws', s') ↔
    ∃ w' rest, w.advance n limits (n.turn s).1 = some w' ∧
      advanceAll n limits ws (n.turn s).2 = some (rest, s') ∧ ws' = w' :: rest := by
  rw [advanceAll]
  rcases n.turn s with ⟨turn, s₁⟩
  constructor
  · intro h
    dsimp only at h
    split at h
    · cases h
    · next w' hw =>
      simp only [Option.map_eq_some_iff] at h
      obtain ⟨⟨rest, s₂⟩, hrest, hcons⟩ := h
      cases hcons
      exact ⟨w', rest, hw, hrest, rfl⟩
  · rintro ⟨w', rest, hw, hrest, rfl⟩
    simp only [hw, hrest, Option.map_some]

theorem ids_advanceAll (h : advanceAll n limits ws s = some (ws', s')) :
    ws'.map Walker.id = ws.map Walker.id := by
  induction ws generalizing ws' s with
  | nil =>
    cases h
    rfl
  | cons w ws ih =>
    obtain ⟨w', rest, hw, hrest, rfl⟩ := advanceAll_cons_eq_some_iff.1 h
    rw [List.map_cons, List.map_cons, Walker.id_advance hw, ih hrest]

/-- The last robot takes its step from where it is. -/
theorem last_advanceAll (h : advanceAll n limits (ws ++ [w]) s = some (ws', s')) :
    ∃ turn w', w.advance n limits turn = some w' ∧ ws'.getLast? = some w' := by
  induction ws generalizing ws' s with
  | nil =>
    obtain ⟨w', rest, hw, hrest, rfl⟩ := advanceAll_cons_eq_some_iff.1 h
    cases hrest
    exact ⟨_, w', hw, rfl⟩
  | cons v ws ih =>
    obtain ⟨v', rest, -, hrest, rfl⟩ := advanceAll_cons_eq_some_iff.1 h
    obtain ⟨turn, w', hw, hlast⟩ := ih hrest
    refine ⟨turn, w', hw, ?_⟩
    rw [List.getLast?_cons, hlast]
    rfl

/-- If every robot can take its step and keeps a property, so does the team. -/
theorem exists_advanceAll {P : Walker → Prop}
    (hadvance : ∀ w s, P w → ∃ w', w.advance n limits (n.turn s).1 = some w' ∧ P w')
    (h : ∀ w ∈ ws, P w) (s : σ) :
    ∃ ws' s', advanceAll n limits ws s = some (ws', s') ∧ ∀ w ∈ ws', P w := by
  induction ws generalizing s with
  | nil => exact ⟨[], s, rfl, h⟩
  | cons w ws ih =>
    rw [List.forall_mem_cons] at h
    obtain ⟨w', hw, hw'⟩ := hadvance w s h.1
    obtain ⟨rest, s', hrest, hall⟩ := ih h.2 (n.turn s).2
    exact ⟨w' :: rest, s', advanceAll_cons_eq_some_iff.2 ⟨w', rest, hw, hrest, rfl⟩,
      List.forall_mem_cons.2 ⟨hw', hall⟩⟩

/-- The team that takes a step: with a robot sent off or brought back, or as it is. -/
def due (n : Nature σ) (m : Simulation σ) : Simulation σ :=
  if (n.substitutes m.state).1 then m.substitute else m

theorem due_cases (n : Nature σ) (m : Simulation σ) :
    due n m = m ∨
      (∃ w, m.bench = some w ∧ due n m = { m with active := m.active ++ [w], bench := none }) ∨
      ∃ front w, m.bench = none ∧ m.active = front ++ [w] ∧ front ≠ [] ∧
        due n m = { m with active := front, bench := some w } := by
  rw [due]
  split
  · rw [substitute]
    split
    · next w hbench => exact Or.inr (Or.inl ⟨w, hbench, rfl⟩)
    · next hbench =>
      split
      · next hlength =>
        obtain ⟨front, w, hactive⟩ : ∃ front w, m.active = front ++ [w] := by
          rcases List.eq_nil_or_concat' m.active with hnil | hconcat
          · rw [hnil] at hlength
            cases hlength
          · exact hconcat
        refine Or.inr (Or.inr ⟨front, w, hbench, hactive, ?_, ?_⟩)
        · rintro rfl
          rw [hactive] at hlength
          cases hlength
          contradiction
        · rw [hactive, List.dropLast_concat, List.getLast?_concat]
      · exact Or.inl rfl
  · exact Or.inl rfl

/-- What a step leaves is the team that took it, each robot moved. -/
theorem step_eq_some_iff : step n m = some (t, m') ↔
    ∃ ws s,
      advanceAll n (due n m).limits (due n m).active (n.substitutes m.state).2 = some (ws, s) ∧
      t = ⟨ws.map Walker.state⟩ ∧ m' = { due n m with state := s, active := ws } := by
  rw [step, due]
  rcases n.substitutes m.state with ⟨substitutes, s⟩
  simp only [Option.map_eq_some_iff, Prod.exists, Prod.mk.injEq]
  constructor
  · rintro ⟨ws, s', hall, rfl, rfl⟩
    exact ⟨ws, s', hall, rfl, rfl⟩
  · rintro ⟨ws, s', hall, rfl, rfl⟩
    exact ⟨ws, s', hall, rfl, rfl⟩

/-- What each step keeps and shows, a run does. -/
theorem run_of_step {P : Simulation σ → Prop} {Q : TeamSnapshot → Prop}
    (hstep : ∀ m, P m → ∃ t m', step n m = some (t, m') ∧ Q t ∧ P m') (h : P m) (steps : Nat) :
    ∃ ts m', run n steps m = some (ts, m') ∧ ts.length = steps ∧ (∀ t ∈ ts, Q t) ∧ P m' := by
  induction steps generalizing m with
  | zero => exact ⟨[], m, rfl, rfl, by simp, h⟩
  | succ steps ih =>
    obtain ⟨t, m₁, hfirst, ht, hm₁⟩ := hstep m h
    obtain ⟨ts, m', hrest, hlength, hts, hm'⟩ := ih hm₁
    refine ⟨t :: ts, m', ?_, ?_, ?_, hm'⟩
    · simp only [run, hfirst, hrest, Option.map_some]
    · rw [List.length_cons, hlength]
    · rw [List.forall_mem_cons]
      exact ⟨ht, hts⟩

/-- The active robots, and the one on the bench. -/
def everyone (m : Simulation σ) : List Walker := m.active ++ m.bench.toList

theorem everyone_due (n : Nature σ) (m : Simulation σ) : (due n m).everyone = m.everyone := by
  rcases due_cases n m with h | ⟨w, hbench, h⟩ | ⟨front, w, hbench, hactive, -, h⟩
  · rw [h]
  · rw [h]
    simp [everyone, hbench]
  · rw [h]
    simp [everyone, hbench, hactive]

theorem limits_due (n : Nature σ) (m : Simulation σ) : (due n m).limits = m.limits := by
  rcases due_cases n m with h | ⟨w, -, h⟩ | ⟨front, w, -, -, -, h⟩ <;> rw [h]

/-- A team of so many robots, at most one of them on the bench, on a field if there are any. -/
structure Fielded (robots : Nat) (m : Simulation σ) : Prop where
  ids : m.everyone.map Walker.id = teamIds robots
  benched : m.bench ≠ none → 2 ≤ robots
  ranged : 0 < robots → -m.limits.x ≤ m.limits.x ∧ -m.limits.y ≤ m.limits.y

namespace Fielded

/-- Robots are missing from the field only if one is on the bench, which is the last one. -/
theorem bench_cases (h : Fielded robots m) :
    (m.bench = none ∧ m.active.map Walker.id = teamIds robots) ∨
      ∃ w last, m.bench = some w ∧ robots = last + 1 ∧ 0 < last ∧ w.id = last.toUInt32 ∧
        m.active.map Walker.id = teamIds last := by
  have hids := h.ids
  rw [everyone, List.map_append] at hids
  cases hbench : m.bench with
  | none =>
    rw [hbench, Option.toList_none, List.map_nil, List.append_nil] at hids
    exact Or.inl ⟨rfl, hids⟩
  | some w =>
    have hrobots : 2 ≤ robots := h.benched (by rw [hbench]; exact Option.some_ne_none w)
    obtain ⟨last, rfl⟩ : ∃ last, robots = last + 1 := ⟨robots - 1, by omega⟩
    rw [hbench, teamIds_succ] at hids
    obtain ⟨hactive, hlast⟩ := List.append_inj' hids rfl
    exact Or.inr ⟨w, last, rfl, rfl, by omega, List.singleton_inj.1 hlast, hactive⟩

theorem due (h : Fielded robots m) : Fielded robots (due n m) where
  ids := by rw [everyone_due]; exact h.ids
  benched hbench := by
    rcases due_cases n m with hsame | ⟨w, -, hback⟩ | ⟨front, w, hnone, hactive, hfront, -⟩
    · exact h.benched (by rwa [hsame] at hbench)
    · rw [hback] at hbench
      exact absurd rfl hbench
    · have hlength := congrArg List.length h.ids
      have hpos := List.length_pos_of_ne_nil hfront
      rw [everyone, hactive, hnone, length_teamIds] at hlength
      simp at hlength
      omega
  ranged := by rw [limits_due]; exact h.ranged

/-- A team takes its step, and is the same team then. -/
theorem exists_step (h : Fielded robots m) :
    ∃ t m', step n m = some (t, m') ∧ Fielded robots m' ∧
      t.robots.map RobotState.id = m'.active.map Walker.id := by
  have hdue := h.due (n := n)
  have hlimits : ∀ w ∈ (Simulation.due n m).active,
      -(Simulation.due n m).limits.x ≤ (Simulation.due n m).limits.x ∧
        -(Simulation.due n m).limits.y ≤ (Simulation.due n m).limits.y := by
    intro w hw
    refine hdue.ranged ?_
    rw [← length_teamIds robots, ← hdue.ids, List.length_map]
    exact List.length_pos_of_mem (List.mem_append_left _ hw)
  obtain ⟨ws, s, hall, -⟩ := exists_advanceAll (n := n)
    (fun w s ⟨hx, hy⟩ => (Walker.exists_advance hx hy (n.turn s).1 w).imp fun _ hw => ⟨hw, hx, hy⟩)
    hlimits (n.substitutes m.state).2
  refine ⟨_, _, step_eq_some_iff.2 ⟨ws, s, hall, rfl, rfl⟩, ⟨?_, hdue.benched, hdue.ranged⟩, ?_⟩
  · rw [everyone, List.map_append, ids_advanceAll hall, ← List.map_append]
    exact hdue.ids
  · rw [List.map_map]
    rfl

end Fielded

theorem enter_eq_some_iff {id : UInt32} : enter n limits id s = some (w, s') ↔
    ∃ x sx y sy, n.coordinate limits.x s = some (x, sx) ∧ n.coordinate limits.y sx = some (y, sy) ∧
      w = ⟨id, ⟨x, y⟩, (n.heading sy).1⟩ ∧ s' = (n.heading sy).2 := by
  rw [enter]
  constructor
  · intro h
    split at h
    · cases h
    · next x sx hx =>
      split at h
      · cases h
      · next y sy hy =>
        cases h
        exact ⟨x, sx, y, sy, hx, hy, rfl, rfl⟩
  · rintro ⟨x, sx, y, sy, hx, hy, rfl, rfl⟩
    simp only [hx, hy]

theorem enterAll_cons_eq_some_iff {id : UInt32} {ids : List UInt32} :
    enterAll n limits (id :: ids) s = some (ws, s') ↔
      ∃ w s₁ rest, enter n limits id s = some (w, s₁) ∧
        enterAll n limits ids s₁ = some (rest, s') ∧ ws = w :: rest := by
  rw [enterAll]
  constructor
  · intro h
    split at h
    · cases h
    · next w s₁ hw =>
      simp only [Option.map_eq_some_iff] at h
      obtain ⟨⟨rest, s₂⟩, hrest, hcons⟩ := h
      cases hcons
      exact ⟨w, s₁, rest, hw, hrest, rfl⟩
  · rintro ⟨w, s₁, rest, hw, hrest, rfl⟩
    simp only [hw, hrest, Option.map_some]

theorem ids_enterAll {ids : List UInt32} (h : enterAll n limits ids s = some (ws, s')) :
    ws.map Walker.id = ids := by
  induction ids generalizing ws s with
  | nil =>
    cases h
    rfl
  | cons id ids ih =>
    obtain ⟨w, s₁, rest, hw, hrest, rfl⟩ := enterAll_cons_eq_some_iff.1 h
    obtain ⟨_, _, _, _, -, -, rfl, -⟩ := enter_eq_some_iff.1 hw
    rw [List.map_cons, ih hrest]

theorem forall_enterAll {P : Walker → Prop} {ids : List UInt32}
    (henter : ∀ id s w s', enter n limits id s = some (w, s') → P w)
    (h : enterAll n limits ids s = some (ws, s')) : ∀ w ∈ ws, P w := by
  induction ids generalizing ws s with
  | nil =>
    cases h
    simp
  | cons id ids ih =>
    obtain ⟨w, s₁, rest, hw, hrest, rfl⟩ := enterAll_cons_eq_some_iff.1 h
    exact List.forall_mem_cons.2 ⟨henter id s w s₁ hw, ih hrest⟩

/-- A team that could be made is on the field, and everyone entered it. -/
theorem new_eq_some (h : new n robots limits s = some m) :
    m.limits = limits ∧ m.bench = none ∧ ∃ s s',
      enterAll n limits (teamIds robots) s = some (m.active, s') := by
  rw [new] at h
  split at h
  · simp only [Option.map_eq_some_iff] at h
    obtain ⟨⟨ws, s'⟩, hall, rfl⟩ := h
    exact ⟨rfl, rfl, s, s', hall⟩
  · cases h

/-- How the bench and the active robots go together before and after a step. -/
inductive Turnover (n : Nature σ) (before after : Simulation σ) : Prop
  | same (bench : after.bench = before.bench)
      (active : after.active.map Walker.id = before.active.map Walker.id)
  | off (w : Walker) (empty : before.bench = none) (last : before.active.getLast? = some w)
      (bench : after.bench = some w)
  | back (w w' : Walker) (turn : Single) (bench : before.bench = some w)
      (empty : after.bench = none)
      (step : w.advance n after.limits turn = some w') (last : after.active.getLast? = some w')

theorem turnover_of_step (h : step n m = some (t, m')) : Turnover n m m' := by
  obtain ⟨ws, s, hall, -, rfl⟩ := step_eq_some_iff.1 h
  rcases due_cases n m with hdue | ⟨w, hbench, hdue⟩ | ⟨front, w, hbench, hactive, -, hdue⟩
  · rw [hdue] at hall ⊢
    exact .same rfl (ids_advanceAll hall)
  · rw [hdue] at hall ⊢
    obtain ⟨turn, w', hw, hlast⟩ := last_advanceAll hall
    exact .back w w' turn hbench rfl hw hlast
  · rw [hdue] at hall ⊢
    exact .off w hbench (by rw [hactive, List.getLast?_concat]) rfl

theorem fielded_new (hranged : n.Ranged) (h : new n robots limits s = some m) :
    Fielded robots m := by
  obtain ⟨rfl, hbench, s₀, s', hall⟩ := new_eq_some h
  have hids := ids_enterAll hall
  refine ⟨by rw [everyone, hbench, Option.toList_none, List.append_nil, hids],
    fun hne => absurd hbench hne, fun hpos => ?_⟩
  -- the first robot found a range for each coordinate
  obtain ⟨w, hw⟩ : ∃ w, w ∈ m.active := by
    refine List.exists_mem_of_length_pos ?_
    rwa [← List.length_map Walker.id, hids, length_teamIds]
  refine forall_enterAll (P := fun _ => _) (fun id s w s' hw => ?_) hall w hw
  obtain ⟨_, _, _, _, hx, hy, -, -⟩ := enter_eq_some_iff.1 hw
  exact ⟨hranged _ _ _ hx, hranged _ _ _ hy⟩

/-- Whether a snapshot lists the ids of a team in order, all of them or, of more than one, all but
the last. -/
def Lists (robots : Nat) (t : TeamSnapshot) : Prop :=
  ∃ size, t.robots.map RobotState.id = teamIds size ∧
    (size = robots ∨ size + 1 = robots ∧ 2 ≤ robots)

theorem Fielded.lists (h : Fielded robots m)
    (ht : t.robots.map RobotState.id = m.active.map Walker.id) : Lists robots t := by
  rcases h.bench_cases with ⟨-, hactive⟩ | ⟨w, last, -, hrobots, hlast, -, hactive⟩
  · exact ⟨robots, ht.trans hactive, Or.inl rfl⟩
  · exact ⟨last, ht.trans hactive, Or.inr ⟨hrobots.symm, by omega⟩⟩

theorem Lists.size (h : Lists robots t) : t.size = robots ∨ t.size + 1 = robots := by
  obtain ⟨size, hids, hsize⟩ := h
  have hlength : t.size = size := by
    rw [TeamSnapshot.size, ← List.length_map RobotState.id, hids, length_teamIds]
  omega

/-- Every snapshot lists the team but for a robot on the bench, which is the last one and waits
where it left; nobody is lost or there twice. -/
theorem team_of_run (hrobots : robots ≤ 2 ^ 32) (hranged : n.Ranged)
    (hnew : new n robots limits s = some m) (steps : Nat) :
    ∃ ts m', run n steps m = some (ts, m') ∧ ts.length = steps ∧ (∀ t ∈ ts, Lists robots t) ∧
      ts.IsChain (fun t t' => t.size ≤ t'.size + 1 ∧ t'.size ≤ t.size + 1) ∧
      m'.everyone.map Walker.id = teamIds robots ∧ (teamIds robots).Nodup ∧
      (∀ w, m'.bench = some w → w.id = (robots - 1).toUInt32) ∧
      ∃ t m'', step n m' = some (t, m'') ∧ Turnover n m' m'' := by
  have hstep : ∀ m : Simulation σ, Fielded robots m →
      ∃ t m', step n m = some (t, m') ∧ Lists robots t ∧ Fielded robots m' := by
    intro m hm
    obtain ⟨t, m', hmoved, hm', ht⟩ := hm.exists_step (n := n)
    exact ⟨t, m', hmoved, hm'.lists ht, hm'⟩
  obtain ⟨ts, m', hrun, hlength, hts, hm'⟩ := run_of_step hstep (fielded_new hranged hnew) steps
  refine ⟨ts, m', hrun, hlength, hts, ?_, hm'.ids, nodup_teamIds hrobots, ?_, ?_⟩
  · refine (List.pairwise_of_forall_mem_list fun t ht t' ht' => ?_).isChain
    have hsize := (hts t ht).size
    have hsize' := (hts t' ht').size
    omega
  · intro w hw
    rcases hm'.bench_cases with ⟨hnone, -⟩ | ⟨w', last, hbench, rfl, -, hid, -⟩
    · rw [hnone] at hw
      cases hw
    · rw [hbench] at hw
      cases hw
      exact hid
  · obtain ⟨t, m'', hmoved, -⟩ := hm'.exists_step (n := n)
    exact ⟨t, m'', hmoved, turnover_of_step hmoved⟩

/-- Two robots on a field of nine by six metres, of whom the second is sent off at once. -/
theorem team_of_run_of_two :
    ∃ m ts m', new Nature.standard 2 ⟨4.5, 3⟩ ⟨[], 0, List.replicate 9 0⟩ = some m ∧
      run Nature.standard 1 m = some (ts, m') ∧ ts.map TeamSnapshot.size = [1] ∧
      m'.everyone.map Walker.id = [0, 1] := by
  have hsizes : ((new Nature.standard 2 ⟨4.5, 3⟩ ⟨[], 0, List.replicate 9 0⟩).bind
      (run Nature.standard 1)).map (fun r => r.1.map TeamSnapshot.size) = some [1] := by
    decide +kernel
  cases hm : new Nature.standard 2 ⟨4.5, 3⟩ ⟨[], 0, List.replicate 9 0⟩ with
  | none =>
    rw [hm] at hsizes
    cases hsizes
  | some m =>
    obtain ⟨ts, m', hrun, -, -, -, hids, -⟩ :=
      team_of_run (by decide) Nature.ranged_standard hm 1
    rw [hm, Option.bind_some, hrun] at hsizes
    exact ⟨m, ts, m', rfl, hrun, Option.some.inj hsizes, hids⟩

end Simulation
end RobotConsole
