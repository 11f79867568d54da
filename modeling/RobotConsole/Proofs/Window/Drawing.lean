import Mathlib.Data.List.Forall2
import Mathlib.Data.List.Perm.Basic
import RobotConsole.Window.Drawing

/-!
What the drawing of a scene shows.  A trail is drawn as the lines between its neighbouring points, so
each line ends where the next one starts.  The two depths divide the trails: every trail is drawn in
one of the two passes, and its lines stand together.
-/

namespace RobotConsole

namespace Metrics

variable {α : Type} [Scalar α]

/-- Each point is paired with the one after it. -/
theorem segments_eq (m : Metrics α) (points : List (Point α)) :
    m.segments points =
      List.zipWith (fun p q => (m.toScreen p, m.toScreen q)) points points.tail := by
  induction points with
  | nil => rfl
  | cons p points ih =>
    cases points with
    | nil => rfl
    | cons q rest =>
      rw [segments, ih]
      rfl

end Metrics

/-- The lines of a trail: one for every two neighbouring points, between the images of the two. -/
structure Traces (m : Metrics Single) (t : TrailLine) (lines : List Shape) : Prop where
  count : lines.length = t.points.length - 1
  joins : ∀ j p q, t.points[j]? = some p → t.points[j + 1]? = some q →
    lines[j]? = some (.line (m.toScreen p) (m.toScreen q) Scene.trailThickness t.color)
  chained : ∀ j line next, lines[j]? = some line → lines[j + 1]? = some next →
    ∃ a b c, line = .line a b Scene.trailThickness t.color ∧
      next = .line b c Scene.trailThickness t.color

namespace Scene

theorem drawTrail_eq (m : Metrics Single) (t : TrailLine) :
    drawTrail m t = List.zipWith
      (fun p q => .line (m.toScreen p) (m.toScreen q) trailThickness t.color)
      t.points t.points.tail := by
  rw [drawTrail, Metrics.segments_eq, List.map_zipWith]

theorem traces_drawTrail (m : Metrics Single) (t : TrailLine) : Traces m t (drawTrail m t) := by
  have hget : ∀ j line, (drawTrail m t)[j]? = some line ↔
      ∃ p q, t.points[j]? = some p ∧ t.points[j + 1]? = some q ∧
        line = .line (m.toScreen p) (m.toScreen q) trailThickness t.color := by
    intro j line
    rw [drawTrail_eq, List.getElem?_zipWith_eq_some, ← List.drop_one]
    simp only [List.getElem?_drop, Nat.add_comm 1 j]
    constructor
    · rintro ⟨p, q, hp, hq, rfl⟩
      exact ⟨p, q, hp, hq, rfl⟩
    · rintro ⟨p, q, hp, hq, rfl⟩
      exact ⟨p, q, hp, hq, rfl⟩
  refine ⟨?_, ?_, ?_⟩
  · rw [drawTrail_eq, List.length_zipWith, List.length_tail]
    omega
  · intro j p q hp hq
    exact (hget j _).2 ⟨p, q, hp, hq, rfl⟩
  · intro j line next hline hnext
    obtain ⟨p, q, -, hq, rfl⟩ := (hget j line).1 hline
    obtain ⟨q', r, hq', -, rfl⟩ := (hget (j + 1) next).1 hnext
    -- the end of one line and the start of the next are the image of one point
    obtain rfl : q = q' := Option.some.inj (hq.symm.trans hq')
    exact ⟨_, _, _, rfl, rfl⟩

def trailsAt (s : Scene) (depth : Depth) : List TrailLine := s.trails.filter fun t => t.depth = depth

/-- No trail is in both passes or in none. -/
theorem trailsAt_perm (s : Scene) :
    (s.trailsAt .background ++ s.trailsAt .foreground).Perm s.trails := by
  have hfront : s.trailsAt .foreground = s.trails.filter fun t => !decide (t.depth = .background) := by
    unfold trailsAt
    apply List.filter_congr
    intro t _
    cases t.depth <;> rfl
  rw [hfront]
  exact List.filter_append_perm (fun t => decide (t.depth = .background)) s.trails

/-- The shapes of a scene under these metrics, in order: the outline of the field, the line across
its middle, the lines of the trails in the background, of those in the foreground, and for each robot
a disc and its outline.  `behind` and `front` hold the lines of each trail. -/
structure Depicts (s : Scene) (m : Metrics Single) (behind front : List (List Shape))
    (shapes : List Shape) : Prop where
  layers : shapes =
    [.rectangle
        { corner := m.toScreen ⟨s.field.min.x, s.field.max.y⟩
          width := s.field.length * m.scale
          height := s.field.width * m.scale }
        fieldLineThickness s.lineColor,
      .line (m.toScreen ⟨0, s.field.max.y⟩) (m.toScreen ⟨0, s.field.min.y⟩) fieldLineThickness
        s.lineColor] ++
      behind.flatten ++ front.flatten ++
      s.robots.flatMap fun r =>
        [.disc (m.toScreen r.position) ((markerRadius * m.scale).max 2) (.marker r.robot),
          .circle (m.toScreen r.position) ((markerRadius * m.scale).max 2) 1 .black]
  behind_traces : List.Forall₂ (Traces m) (s.trailsAt .background) behind
  front_traces : List.Forall₂ (Traces m) (s.trailsAt .foreground) front
  trails_once : (s.trailsAt .background ++ s.trailsAt .foreground).Perm s.trails

theorem depicts_draw (s : Scene) (width height : Single) :
    ∃ behind front, Depicts s (s.field.metrics width height) behind front (s.draw width height) := by
  have htraces : ∀ (m : Metrics Single) (trails : List TrailLine),
      List.Forall₂ (Traces m) trails (trails.map (drawTrail m)) := by
    intro m trails
    rw [List.forall₂_map_right_iff, List.forall₂_same]
    intro t _
    exact traces_drawTrail m t
  refine ⟨(s.trailsAt .background).map (drawTrail (s.field.metrics width height)),
    (s.trailsAt .foreground).map (drawTrail (s.field.metrics width height)), ?_,
    htraces _ _, htraces _ _, s.trailsAt_perm⟩
  rw [← List.flatMap_def, ← List.flatMap_def]
  rfl

end Scene
end RobotConsole
