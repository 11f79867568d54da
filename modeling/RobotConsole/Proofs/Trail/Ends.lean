import RobotConsole.Proofs.Trail.Streak

/-!
What a snapshot leaves at the ends of the trails.  Each robot that is listed has a slot of its own, also
where an id comes twice, and its trail ends where the snapshot says that it is.  The set of graphics
gets the size of the snapshot, and its observer is told where that is a new one.
-/

namespace RobotConsole

namespace GraphicsSet

variable {γ ω σ : Type}

theorem observer_resize (s : GraphicsSet γ ω) (target : Nat) (supply : Supply σ γ) (state : σ) :
    (s.resize target supply state).set.observer = s.observer := by
  unfold resize
  dsimp only
  split_ifs <;> rfl

theorem notified_append (set : GraphicsSet γ ω) (state : σ) (before after : List (ResizeEvent γ ω)) :
    Resized.notified ⟨set, state, before ++ after⟩ =
      Resized.notified ⟨set, state, before⟩ ++ Resized.notified ⟨set, state, after⟩ :=
  List.filterMap_append

theorem notified_notices (set : GraphicsSet γ ω) (state : σ) (observers : List ω) :
    Resized.notified ⟨set, state, observers.map .notified⟩ = observers := by
  unfold Resized.notified
  rw [List.filterMap_map]
  exact List.filterMap_some

theorem notified_built (set : GraphicsSet γ ω) (state : σ) (size : Nat) (new : List γ) :
    Resized.notified ⟨set, state, new.mapIdx fun i graphic => .built (size + i) graphic⟩ = [] := by
  unfold Resized.notified
  rw [List.filterMap_eq_nil_iff]
  intro event hevent
  obtain ⟨i, hi, rfl⟩ := List.mem_mapIdx.1 hevent
  rfl

/-- The observer is told once where the size changes, and else not. -/
theorem notified_resize (s : GraphicsSet γ ω) (target : Nat) (supply : Supply σ γ) (state : σ) :
    (s.resize target supply state).notified =
      if target = s.size then [] else s.observer.toList := by
  unfold resize
  dsimp only
  split_ifs with hsame hgrows
  · rfl
  · rw [notified_append, notified_built, notified_notices, List.nil_append]
  · exact notified_notices s state s.observer.toList

end GraphicsSet

namespace History

variable {α : Type}

theorem getLast?_push (h : History α) (item : α) : (h.push item).items.getLast? = some item := by
  rw [push, List.getLast?_concat]

end History

namespace TrailCycle

/-- Each trail ends where its robot is. -/
theorem ends_extend {trails : List RobotTrail} {robots : List RobotState}
    (h : trails.map RobotTrail.robot = robots.map RobotState.id) :
    List.Forall₂ (fun t r => t.robot = r.id ∧ t.positions.newest? = some r.position)
      (List.zipWith extend trails robots) robots := by
  induction trails generalizing robots with
  | nil =>
    have hnil : robots = [] := by simpa using h.symm
    rw [hnil]
    exact List.Forall₂.nil
  | cons t trails ih =>
    cases robots with
    | nil => simp at h
    | cons r robots =>
      rw [List.map_cons, List.map_cons, List.cons.injEq] at h
      exact List.Forall₂.cons ⟨h.1, History.getLast?_push _ _⟩ (ih h.2)

variable {γ ω σ : Type} [TrailGraphic γ]

theorem ends_apply (c : TrailCycle γ ω) (s : TeamSnapshot) (supply : Supply σ γ) (state : σ) :
    List.Forall₂ (fun t r => t.robot = r.id ∧ t.positions.newest? = some r.position)
      (c.apply s supply state).cycle.histories s.robots :=
  ends_extend (robots_reconcile _ _ _)

/-- After a snapshot each graphic shows the history in its place. -/
theorem shows_apply (c : TrailCycle γ ω) (s : TeamSnapshot) (supply : Supply σ γ) (state : σ) :
    List.Forall₂ Shows (c.apply s supply state).cycle.graphics.elements
      ((c.apply s supply state).cycle.histories.map fun t => t.positions.items) := by
  apply redraw_shows
  have hlength := (ends_apply c s supply state).length_eq
  rw [GraphicsSet.size_resize]
  exact hlength.symm

theorem size_apply (c : TrailCycle γ ω) (s : TeamSnapshot) (supply : Supply σ γ) (state : σ) :
    (c.apply s supply state).cycle.graphics.size = s.size := by
  have hshows := (shows_apply c s supply state).length_eq
  have hends := (ends_apply c s supply state).length_eq
  rw [List.length_map] at hshows
  exact hshows.trans hends

theorem observer_apply (c : TrailCycle γ ω) (s : TeamSnapshot) (supply : Supply σ γ) (state : σ) :
    (c.apply s supply state).cycle.graphics.observer = c.graphics.observer :=
  GraphicsSet.observer_resize _ _ _ _

theorem notified_apply (c : TrailCycle γ ω) (s : TeamSnapshot) (supply : Supply σ γ) (state : σ) :
    (c.apply s supply state).notified =
      if s.size = c.graphics.size then [] else c.graphics.observer.toList :=
  GraphicsSet.notified_resize _ _ _ _

end TrailCycle
end RobotConsole
