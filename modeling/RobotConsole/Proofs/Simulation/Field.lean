import RobotConsole.Proofs.Simulation.Roster

/-!
Where robots can be.  A comparison with an edge of the field says nothing about what is not a
number, so robots stay on the field only because their headings stay finite.  A heading of up to
`2 ^ 26` is too large for a turn or a bounce to lead beyond that: the sum is rounded back.
-/

namespace RobotConsole

open Binary

variable {σ : Type} {n : Nature σ}

/-- Circular functions between minus one and one, and draws within their ranges. -/
structure Nature.Lawful (n : Nature σ) : Prop where
  sine : ∀ angle, angle.isFinite = true → Within (-1) 1 (n.sine angle)
  cosine : ∀ angle, angle.isFinite = true → Within (-1) 1 (n.cosine angle)
  heading : ∀ s, Within 0 fullTurn (n.heading s).1
  turn : ∀ s, Within (-maxTurn) maxTurn (n.turn s).1
  coordinate : ∀ limit s x s', n.coordinate limit s = some (x, s') →
    limit.isFinite = true ∧ -limit ≤ x ∧ x ≤ limit

namespace Nature

theorem Lawful.ranged (hn : n.Lawful) : n.Ranged := by
  rintro limit s ⟨x, s'⟩ h
  obtain ⟨-, hlow, hhigh⟩ := hn.coordinate limit s x s' h
  exact le_trans hlow hhigh

theorem drawn_within {r : FloatRange} {low high : Single}
    (h : FloatRange.between? low high = some r) (s : WordStream) : low ≤ (drawn r s).1 ∧ (drawn r s).1 ≤ high :=
  FloatRange.within_of_between? h s.fraction_within.1 s.fraction_within.2

/-- The standard draws are lawful, whatever the circular functions. -/
theorem lawful_standard {sine cosine : Single → Single}
    (hsine : ∀ angle, angle.isFinite = true → Within (-1) 1 (sine angle))
    (hcosine : ∀ angle, angle.isFinite = true → Within (-1) 1 (cosine angle)) :
    ({ standard with sine := sine, cosine := cosine } : Nature WordStream).Lawful where
  sine := hsine
  cosine := hcosine
  heading s := by
    have htop : (⟨0, fullTurn⟩ : FloatRange).valueAt FloatRange.topFraction ≤ fullTurn := by
      decide +kernel
    obtain ⟨hlow, hhigh⟩ := FloatRange.valueAt_within (by decide) (by decide +kernel)
      (by decide +kernel) htop s.fraction_within.1 s.fraction_within.2
    exact .of_le (by decide) (by decide +kernel) hlow hhigh
  turn s := by
    obtain ⟨r, hr⟩ := Option.isSome_iff_exists.1
      (by decide +kernel : (FloatRange.between? (-maxTurn) maxTurn).isSome = true)
    have hturns : turns = r := by rw [turns, hr, Option.getD_some]
    obtain ⟨hlow, hhigh⟩ := drawn_within hr s
    rw [← hturns] at hlow hhigh
    exact .of_le (by decide +kernel) (by decide +kernel) hlow hhigh
  coordinate limit s x s' h := by
    simp only [standard, Option.map_eq_some_iff] at h
    obtain ⟨r, hr, hdrawn⟩ := h
    have hwithin := drawn_within hr s
    rw [hdrawn] at hwithin
    exact ⟨(FloatRange.between?_spec hr).1.2.2, hwithin⟩

/-- Zero in place of what is not between minus one and one. -/
def unitOrZero (x : Single) : Single := if -1 ≤ x ∧ x ≤ 1 then x else 0

theorem within_unitOrZero (x : Single) : Within (-1) 1 (unitOrZero x) := by
  rw [unitOrZero]
  split
  · next h => exact .of_le (by decide +kernel) (by decide +kernel) h.1 h.2
  · exact ⟨by decide +kernel, by decide +kernel, by decide +kernel⟩

/-- The standard draws, with circular functions whose results are checked. -/
def checked : Nature WordStream :=
  { standard with
    sine := fun angle => unitOrZero (Binary.sine angle)
    cosine := fun angle => unitOrZero (Binary.cosine angle) }

theorem lawful_checked : checked.Lawful :=
  lawful_standard (fun _ _ => within_unitOrZero _) fun _ _ => within_unitOrZero _

end Nature

namespace Walker

variable {limit x heading turn : Single} {limits : Point Single} {w : Walker}

def headingLimit : Single := 67108864

theorem heading_neg (h : Within (-headingLimit) headingLimit heading) :
    Within (-headingLimit) headingLimit (-heading) := by
  have hneg := h.neg
  rwa [Binary.neg_neg] at hneg

/-- A turn is too small for the limit of a heading. -/
theorem heading_turned (h : Within (-headingLimit) headingLimit heading)
    (hturn : Within (-Nature.maxTurn) Nature.maxTurn turn) :
    Within (-headingLimit) headingLimit (heading + turn) :=
  h.add precision_single hturn (by decide +kernel) (by decide +kernel) (by decide +kernel)

/-- So is the half turn of a bounce. -/
theorem heading_mirrored (h : Within (-headingLimit) headingLimit heading) :
    Within (-headingLimit) headingLimit (halfTurn - heading) := by
  have hhalf : Within halfTurn halfTurn halfTurn :=
    ⟨by decide +kernel, by decide +kernel, by decide +kernel⟩
  exact hhalf.add precision_single (heading_neg h) (by decide +kernel) (by decide +kernel)
    (by decide +kernel)

/-- A number is within the limit after a bounce. -/
theorem abs_le_of_bounce {y : Single} {beyond : Bool} (hlimit : limit.isNaN = false)
    (hx : x.isNaN = false) (h : bounce limit x = some (y, beyond)) : y.abs ≤ limit := by
  rw [bounce] at h
  split at h
  · simp only [Option.map_eq_some_iff] at h
    obtain ⟨clamped, hclamped, hy⟩ := h
    cases hy
    exact abs_le_iff.2 (bounds_of_clamp? hx hclamped)
  · next habs =>
    cases h
    exact le_of_not_lt hlimit (by rwa [isNaN_abs]) habs

def Contained (limit x : Single) : Prop := limit.isFinite = true ∧ x.abs ≤ limit

theorem Contained.isFinite (h : Contained limit x) : x.isFinite = true := by
  obtain ⟨hfinite, habs⟩ := h
  have hneg : (-limit).isFinite = true := by rw [isFinite_neg]; exact hfinite
  obtain ⟨hlow, hhigh⟩ := abs_le_iff.1 habs
  exact (Within.of_le hneg hfinite hlow hhigh).finite

/-- A step leads to a number, which a bounce keeps within the limit. -/
theorem Contained.bounce {sign : Single} (h : Contained limit x) (hsign : Within (-1) 1 sign) :
    ∃ y beyond, bounce limit (x + sign * stepLength) = some (y, beyond) ∧ Contained limit y := by
  have hmul : (sign * stepLength).isNaN = false := isNaN_mul hsign.finite (by decide +kernel)
  obtain ⟨hlow, hhigh⟩ := abs_le_iff.1 h.2
  obtain ⟨y, beyond, hy⟩ :=
    exists_bounce (Binary.le_trans hlow hhigh) (x + sign * stepLength)
  exact ⟨y, beyond, hy, h.1,
    abs_le_of_bounce (isNaN_of_isFinite h.1) (isNaN_add h.isFinite hmul) hy⟩

/-- A robot on the field whose heading has not grown too large. -/
structure Placed (limits : Point Single) (w : Walker) : Prop where
  x : Contained limits.x w.position.x
  y : Contained limits.y w.position.y
  heading : Within (-headingLimit) headingLimit w.heading

theorem Placed.advance (hn : n.Lawful) (h : Placed limits w) (s : σ) :
    ∃ w', w.advance n limits (n.turn s).1 = some w' ∧ Placed limits w' := by
  have hturned := heading_turned h.heading (hn.turn s)
  obtain ⟨x, beyondX, hx, hboundX⟩ := h.x.bounce (hn.cosine _ hturned.finite)
  obtain ⟨y, beyondY, hy, hboundY⟩ := h.y.bounce (hn.sine _ hturned.finite)
  rw [Walker.advance, hx, hy]
  refine ⟨_, rfl, hboundX, hboundY, ?_⟩
  have hmirrored : Within (-headingLimit) headingLimit
      (if beyondX then halfTurn - (w.heading + (n.turn s).1) else w.heading + (n.turn s).1) := by
    split
    · exact heading_mirrored hturned
    · exact hturned
  dsimp only
  split
  · exact heading_neg hmirrored
  · exact hmirrored

end Walker

namespace Simulation

variable {robots : Nat} {limits : Point Single} {s s' : σ} {w : Walker} {m : Simulation σ}

theorem placed_enter (hn : n.Lawful) {id : UInt32} (h : enter n limits id s = some (w, s')) :
    w.Placed limits := by
  obtain ⟨x, sx, y, sy, hx, hy, rfl, -⟩ := enter_eq_some_iff.1 h
  obtain ⟨hfiniteX, hboundsX⟩ := hn.coordinate _ _ _ _ hx
  obtain ⟨hfiniteY, hboundsY⟩ := hn.coordinate _ _ _ _ hy
  have hheading := hn.heading sy
  exact ⟨⟨hfiniteX, abs_le_iff.2 hboundsX⟩, ⟨hfiniteY, abs_le_iff.2 hboundsY⟩, hheading.finite,
    Binary.le_trans (by decide +kernel) hheading.low,
    Binary.le_trans hheading.high (by decide +kernel)⟩

structure OnField (limits : Point Single) (m : Simulation σ) : Prop where
  edges : m.limits = limits
  placed : ∀ w ∈ m.everyone, w.Placed limits

theorem onField_new (hn : n.Lawful) (h : new n robots limits s = some m) : OnField limits m := by
  obtain ⟨hedges, hbench, s₀, s', hall⟩ := new_eq_some h
  refine ⟨hedges, ?_⟩
  rw [everyone, hbench, Option.toList_none, List.append_nil]
  exact forall_enterAll (fun _ _ _ _ hw => placed_enter hn hw) hall

theorem OnField.exists_step (hn : n.Lawful) (h : OnField limits m) :
    ∃ t m', step n m = some (t, m') ∧
      (∀ r ∈ t.robots, Walker.Contained limits.x r.position.x ∧
        Walker.Contained limits.y r.position.y) ∧ OnField limits m' := by
  have hdue : ∀ w ∈ (due n m).everyone, w.Placed limits := by
    rw [everyone_due]
    exact h.placed
  obtain ⟨ws, s, hall, hws⟩ : ∃ ws s,
      advanceAll n limits (due n m).active (n.substitutes m.state).2 = some (ws, s) ∧
        ∀ w ∈ ws, w.Placed limits :=
    exists_advanceAll (fun w s hw => hw.advance hn s)
      (fun w hw => hdue w (List.mem_append_left _ hw)) _
  have hlimits : (due n m).limits = limits := by rw [limits_due, h.edges]
  rw [← hlimits] at hall
  refine ⟨_, _, step_eq_some_iff.2 ⟨ws, s, hall, rfl, rfl⟩, fun r hr => ?_, hlimits, fun w hw => ?_⟩
  · obtain ⟨w, hw, rfl⟩ := List.mem_map.1 hr
    exact ⟨(hws w hw).x, (hws w hw).y⟩
  · rcases List.mem_append.1 hw with hactive | hbench
    · exact hws w hactive
    · exact hdue w (List.mem_append_right _ hbench)

/-- No robot is ever beyond an edge of the field, and every heading stays finite. -/
theorem onField_of_run (hn : n.Lawful) (hnew : new n robots limits s = some m) (steps : Nat) :
    ∃ ts m', run n steps m = some (ts, m') ∧ ts.length = steps ∧
      (∀ t ∈ ts, ∀ r ∈ t.robots,
        (r.position.x.abs ≤ limits.x ∧ r.position.y.abs ≤ limits.y) ∧
        r.position.x.isFinite = true ∧ r.position.y.isFinite = true) ∧
      ∀ w ∈ m'.everyone, w.heading.isFinite = true := by
  obtain ⟨ts, m', hrun, hlength, hts, hm'⟩ :=
    run_of_step (fun m hm => OnField.exists_step hn hm) (onField_new hn hnew) steps
  refine ⟨ts, m', hrun, hlength, fun t ht r hr => ?_, fun w hw => (hm'.placed w hw).heading.finite⟩
  obtain ⟨hx, hy⟩ := hts t ht r hr
  exact ⟨⟨hx.2, hy.2⟩, hx.isFinite, hy.isFinite⟩

/-- Two robots on a field of two by one centimetres, of which every step leads to an edge. -/
theorem onField_of_run_of_two :
    ∃ m ts m', new Nature.checked 2 ⟨0.01, 0.005⟩ ⟨[], 0, List.replicate 6 0⟩ = some m ∧
      run Nature.checked 3 m = some (ts, m') ∧
      ∀ t ∈ ts, ∀ r ∈ t.robots, r.position.x.abs ≤ 0.01 ∧ r.position.y.abs ≤ 0.005 := by
  obtain ⟨m, hm⟩ := Option.isSome_iff_exists.1 (by decide +kernel :
    (new Nature.checked 2 ⟨0.01, 0.005⟩ ⟨[], 0, List.replicate 6 0⟩).isSome = true)
  obtain ⟨ts, m', hrun, -, hts, -⟩ := onField_of_run Nature.lawful_checked hm 3
  exact ⟨m, ts, m', hm, hrun, fun t ht r hr => (hts t ht r hr).1⟩

end Simulation
end RobotConsole
