import Mathlib.Algebra.Order.Field.Rat
import Mathlib.Analysis.Real.Sqrt
import Mathlib.Tactic.Linarith
import Mathlib.Tactic.NormNum
import Mathlib.Tactic.Ring
import RobotConsole.Window.Drawing

/-!
The image of a field in a window, without rounding.  Everything follows from which scales are at most
that of the metrics: those with which both sides of the field fit into the room between the margins.
So the image is as large as the margins allow, and it shrinks to a point where they leave no room.
-/

namespace RobotConsole

structure Field.Holds (f : Field Rat) (p : Point Rat) : Prop where
  left : f.min.x ≤ p.x
  right : p.x ≤ f.max.x
  lower : f.min.y ≤ p.y
  upper : p.y ≤ f.max.y

/-- A point of a window lies in a rectangle; in a window `y` grows downwards. -/
structure Rectangle.Holds (r : Rectangle Rat) (p : Point Rat) : Prop where
  left : r.corner.x ≤ p.x
  right : p.x ≤ r.corner.x + r.width
  upper : r.corner.y ≤ p.y
  lower : p.y ≤ r.corner.y + r.height

noncomputable def Point.distance (p q : Point Rat) : ℝ :=
  √(((q.x - p.x) ^ 2 + (q.y - p.y) ^ 2 : Rat) : ℝ)

namespace Metrics

/-- What lies between the margins of a window of this size. -/
structure Inside (width height : Rat) (p : Point Rat) : Prop where
  left : 24 ≤ p.x
  right : p.x ≤ width - 24
  upper : 24 ≤ p.y
  lower : p.y ≤ height - 24

/-- The image of the field reaches opposite margins, those at both sides or those at top and bottom. -/
def Touches (m : Metrics Rat) (f : Field Rat) (width height : Rat) : Prop :=
  ((m.toScreen f.min).x = 24 ∧ (m.toScreen f.max).x = width - 24) ∨
    ((m.toScreen f.max).y = 24 ∧ (m.toScreen f.min).y = height - 24)

/-- How a window of this size shows a field. -/
structure Fits (m : Metrics Rat) (f : Field Rat) (width height : Rat) : Prop where
  centred : m.toScreen ⟨0, 0⟩ = ⟨width / 2, height / 2⟩
  nonneg : 0 ≤ m.scale
  distances : ∀ p q, (m.toScreen p).distance (m.toScreen q) = m.scale * p.distance q
  /-- What is up in the world is up in the window, where `y` grows downwards. -/
  upright : ∀ p q, (m.toScreen q).x - (m.toScreen p).x = m.scale * (q.x - p.x) ∧
    (m.toScreen q).y - (m.toScreen p).y = -(m.scale * (q.y - p.y))
  /-- Where there is room, the whole field is shown, and as large as it can be. -/
  roomy : 48 ≤ width → 48 ≤ height →
    (∀ p, f.Holds p → Inside width height (m.toScreen p)) ∧ m.Touches f width height ∧
    ∀ scale, (∀ p, f.Holds p → Inside width height ({ m with scale := scale }.toScreen p)) →
      scale ≤ m.scale
  /-- Where there is none, all of it is one point. -/
  cramped : width < 48 ∨ height < 48 →
    m.scale = 0 ∧ ∀ p, m.toScreen p = ⟨width / 2, height / 2⟩
  outline : ∀ q, (m.outline f).Holds q ↔ ∃ p, f.Holds p ∧ m.toScreen p = q
  /-- The outline goes from the image of the upper left corner to that of the lower right one. -/
  corners : (m.outline f).corner = m.toScreen ⟨f.min.x, f.max.y⟩ ∧
    (⟨(m.outline f).corner.x + (m.outline f).width,
      (m.outline f).corner.y + (m.outline f).height⟩ : Point Rat) =
      m.toScreen ⟨f.max.x, f.min.y⟩

variable {f : Field Rat} {width height : Rat}

theorem min_eq (f : Field Rat) : f.min = ⟨-(f.length / 2), -(f.width / 2)⟩ := by
  have hmin : f.min = ⟨-f.length * (1 / 2), -f.width * (1 / 2)⟩ := rfl
  rw [hmin, Point.mk.injEq]
  constructor <;> ring

theorem max_eq (f : Field Rat) : f.max = ⟨f.length / 2, f.width / 2⟩ := by
  have hmax : f.max = ⟨f.length * (1 / 2), f.width * (1 / 2)⟩ := rfl
  rw [hmax, Point.mk.injEq]
  constructor <;> ring

theorem holds_iff {p : Point Rat} : f.Holds p ↔
    (-(f.length / 2) ≤ p.x ∧ p.x ≤ f.length / 2) ∧ -(f.width / 2) ≤ p.y ∧ p.y ≤ f.width / 2 := by
  constructor
  · rintro ⟨hleft, hright, hlower, hupper⟩
    rw [min_eq] at hleft hlower
    rw [max_eq] at hright hupper
    exact ⟨⟨hleft, hright⟩, hlower, hupper⟩
  · rintro ⟨⟨hleft, hright⟩, hlower, hupper⟩
    refine ⟨?_, ?_, ?_, ?_⟩ <;> simpa only [min_eq, max_eq]

theorem toScreen_eq (m : Metrics Rat) (p : Point Rat) :
    m.toScreen p = ⟨m.center.x + p.x * m.scale, m.center.y - p.y * m.scale⟩ := rfl

theorem outline_eq (m : Metrics Rat) (f : Field Rat) :
    m.outline f = ⟨m.toScreen ⟨f.min.x, f.max.y⟩, f.length * m.scale, f.width * m.scale⟩ := rfl

theorem center_metrics (f : Field Rat) (width height : Rat) :
    (f.metrics width height).center = ⟨width / 2, height / 2⟩ := by
  have hcenter : (f.metrics width height).center = ⟨width * (1 / 2), height * (1 / 2)⟩ := rfl
  rw [hcenter, Point.mk.injEq]
  constructor <;> ring

theorem room_eq (side : Rat) : Field.room side = max (side - 48) 0 := by
  have hmargins : (2 : Rat) * 24 = 48 := by norm_num
  rw [← hmargins, max_def]
  rfl

theorem room_nonneg (side : Rat) : 0 ≤ Field.room side := by
  rw [room_eq]
  exact le_max_right _ _

theorem scale_metrics (hlength : 0 < f.length) (hwidth : 0 < f.width) :
    (f.metrics width height).scale =
      min (Field.room width / f.length) (Field.room height / f.width) := by
  have hnonneg : 0 ≤ min (Field.room width / f.length) (Field.room height / f.width) :=
    le_min (div_nonneg (room_nonneg _) hlength.le) (div_nonneg (room_nonneg _) hwidth.le)
  rw [← max_eq_left hnonneg, max_def, min_def]
  rfl

/-- The scales up to that of the metrics are those with which the field fits into the room. -/
theorem le_scale_iff (hlength : 0 < f.length) (hwidth : 0 < f.width) {scale : Rat} :
    scale ≤ (f.metrics width height).scale ↔
      scale * f.length ≤ Field.room width ∧ scale * f.width ≤ Field.room height := by
  rw [scale_metrics hlength hwidth, le_min_iff, le_div_iff₀ hlength, le_div_iff₀ hwidth]

theorem scale_nonneg (hlength : 0 < f.length) (hwidth : 0 < f.width) :
    0 ≤ (f.metrics width height).scale := by
  rw [le_scale_iff hlength hwidth, zero_mul, zero_mul]
  exact ⟨room_nonneg _, room_nonneg _⟩

/-- Neither side takes up more than its room. -/
theorem sides_le_room (width height : Rat) (hlength : 0 < f.length) (hwidth : 0 < f.width) :
    (f.metrics width height).scale * f.length ≤ Field.room width ∧
      (f.metrics width height).scale * f.width ≤ Field.room height :=
  (le_scale_iff hlength hwidth).1 le_rfl

/-- One of the two sides takes up all its room. -/
theorem side_eq_room (width height : Rat) (hlength : 0 < f.length) (hwidth : 0 < f.width) :
    (f.metrics width height).scale * f.length = Field.room width ∨
      (f.metrics width height).scale * f.width = Field.room height := by
  rw [scale_metrics hlength hwidth]
  rcases min_choice (Field.room width / f.length) (Field.room height / f.width) with h | h
  · exact Or.inl (by rw [h, div_mul_cancel₀ _ hlength.ne'])
  · exact Or.inr (by rw [h, div_mul_cancel₀ _ hwidth.ne'])

theorem upright (m : Metrics Rat) (p q : Point Rat) :
    (m.toScreen q).x - (m.toScreen p).x = m.scale * (q.x - p.x) ∧
      (m.toScreen q).y - (m.toScreen p).y = -(m.scale * (q.y - p.y)) := by
  rw [toScreen_eq, toScreen_eq]
  constructor <;> ring

theorem distance_toScreen {m : Metrics Rat} (h : 0 ≤ m.scale) (p q : Point Rat) :
    (m.toScreen p).distance (m.toScreen q) = m.scale * p.distance q := by
  obtain ⟨hx, hy⟩ := m.upright p q
  have hsquares : (m.scale * (q.x - p.x)) ^ 2 + (-(m.scale * (q.y - p.y))) ^ 2 =
      m.scale ^ 2 * ((q.x - p.x) ^ 2 + (q.y - p.y) ^ 2) := by ring
  have hscale : (0 : ℝ) ≤ m.scale := Rat.cast_nonneg.2 h
  rw [Point.distance, hx, hy, hsquares, Rat.cast_mul, Rat.cast_pow, Real.sqrt_mul (sq_nonneg _),
    Real.sqrt_sq hscale, Point.distance]

/-- A point of the outline is the image of the point that is as far from the middle of the field,
measured in the scale. -/
theorem holds_outline_iff {m : Metrics Rat} (h : 0 ≤ m.scale) (hlength : 0 < f.length)
    (hwidth : 0 < f.width) (q : Point Rat) :
    (m.outline f).Holds q ↔ ∃ p, f.Holds p ∧ m.toScreen p = q := by
  constructor
  · rintro ⟨hleft, hright, hupper, hlower⟩
    simp only [outline_eq, toScreen_eq, min_eq, max_eq] at hleft hright hupper hlower
    rcases h.eq_or_lt with hzero | hpos
    · -- all of the outline is one point, the image of any
      refine ⟨⟨0, 0⟩, holds_iff.2 ⟨⟨by linarith, by linarith⟩, by linarith, by linarith⟩, ?_⟩
      rw [← hzero] at hleft hright hupper hlower
      rw [toScreen_eq, ← hzero]
      obtain ⟨x, y⟩ := q
      rw [Point.mk.injEq]
      simp only at hleft hright hupper hlower
      constructor <;> linarith
    · refine ⟨⟨(q.x - m.center.x) / m.scale, (m.center.y - q.y) / m.scale⟩, holds_iff.2 ?_, ?_⟩
      · simp only [le_div_iff₀ hpos, div_le_iff₀ hpos]
        refine ⟨⟨?_, ?_⟩, ?_, ?_⟩ <;> linarith
      · rw [toScreen_eq, div_mul_cancel₀ _ hpos.ne', div_mul_cancel₀ _ hpos.ne', add_sub_cancel,
          sub_sub_cancel]
  · rintro ⟨p, hp, rfl⟩
    obtain ⟨⟨hleft, hright⟩, hlower, hupper⟩ := holds_iff.1 hp
    have hleft := mul_le_mul_of_nonneg_right hleft h
    have hright := mul_le_mul_of_nonneg_right hright h
    have hlower := mul_le_mul_of_nonneg_right hlower h
    have hupper := mul_le_mul_of_nonneg_right hupper h
    refine ⟨?_, ?_, ?_, ?_⟩ <;> simp only [outline_eq, toScreen_eq, min_eq, max_eq] <;> linarith

theorem corners (m : Metrics Rat) (f : Field Rat) :
    (m.outline f).corner = m.toScreen ⟨f.min.x, f.max.y⟩ ∧
    (⟨(m.outline f).corner.x + (m.outline f).width,
      (m.outline f).corner.y + (m.outline f).height⟩ : Point Rat) =
      m.toScreen ⟨f.max.x, f.min.y⟩ := by
  refine ⟨rfl, ?_⟩
  rw [outline_eq, toScreen_eq, toScreen_eq, min_eq, max_eq, Point.mk.injEq]
  constructor <;> ring

theorem room_of_le {side : Rat} (h : 48 ≤ side) : Field.room side = side - 48 := by
  rw [room_eq, max_eq_left (sub_nonneg.2 h)]

theorem room_of_lt {side : Rat} (h : side < 48) : Field.room side = 0 := by
  rw [room_eq, max_eq_right (sub_nonpos.2 h.le)]

section Positive

variable (hlength : 0 < f.length) (hwidth : 0 < f.width)

include hlength hwidth

theorem inside_toScreen (hw : 48 ≤ width) (hh : 48 ≤ height) {p : Point Rat} (hp : f.Holds p) :
    Inside width height ((f.metrics width height).toScreen p) := by
  obtain ⟨hacross, hdown⟩ := sides_le_room width height hlength hwidth
  rw [room_of_le hw] at hacross
  rw [room_of_le hh] at hdown
  have hscale : 0 ≤ (f.metrics width height).scale := scale_nonneg hlength hwidth
  obtain ⟨⟨hleft, hright⟩, hlower, hupper⟩ := holds_iff.1 hp
  have hleft := mul_le_mul_of_nonneg_right hleft hscale
  have hright := mul_le_mul_of_nonneg_right hright hscale
  have hlower := mul_le_mul_of_nonneg_right hlower hscale
  have hupper := mul_le_mul_of_nonneg_right hupper hscale
  refine ⟨?_, ?_, ?_, ?_⟩ <;> simp only [toScreen_eq, center_metrics] <;> linarith

theorem touches_metrics (hw : 48 ≤ width) (hh : 48 ≤ height) :
    (f.metrics width height).Touches f width height := by
  rcases side_eq_room width height hlength hwidth with hacross | hdown
  · rw [room_of_le hw] at hacross
    refine Or.inl ⟨?_, ?_⟩ <;> simp only [toScreen_eq, center_metrics, min_eq, max_eq] <;> linarith
  · rw [room_of_le hh] at hdown
    refine Or.inr ⟨?_, ?_⟩ <;> simp only [toScreen_eq, center_metrics, min_eq, max_eq] <;> linarith

/-- With any scale that shows the whole field its upper right corner is within the margins. -/
theorem scale_le_of_inside (hw : 48 ≤ width) (hh : 48 ≤ height) {scale : Rat}
    (h : ∀ p, f.Holds p →
      Inside width height ({ f.metrics width height with scale := scale }.toScreen p)) :
    scale ≤ (f.metrics width height).scale := by
  have hcorner : f.Holds ⟨f.length / 2, f.width / 2⟩ :=
    holds_iff.2 ⟨⟨by linarith, le_rfl⟩, by linarith, le_rfl⟩
  obtain ⟨-, hright, hupper, -⟩ := h _ hcorner
  simp only [toScreen_eq, center_metrics] at hright hupper
  rw [le_scale_iff hlength hwidth, room_of_le hw, room_of_le hh]
  constructor <;> linarith

theorem scale_eq_zero (h : width < 48 ∨ height < 48) : (f.metrics width height).scale = 0 := by
  obtain ⟨hacross, hdown⟩ := sides_le_room width height hlength hwidth
  refine le_antisymm ?_ (scale_nonneg hlength hwidth)
  rcases h with h | h
  · rw [room_of_lt h] at hacross
    exact nonpos_of_mul_nonpos_left hacross hlength
  · rw [room_of_lt h] at hdown
    exact nonpos_of_mul_nonpos_left hdown hwidth

end Positive

/-- Every window shows every field in this way, and the outline is what is drawn of the field. -/
theorem fits_metrics (f : Field Rat) (width height : Rat) (hlength : 0 < f.length)
    (hwidth : 0 < f.width) :
    (f.metrics width height).Fits f width height ∧
    ∀ (s : Scene) (m : Metrics Single),
      .rectangle (m.outline s.field) Scene.fieldLineThickness s.lineColor ∈ s.drawField m := by
  have hscale : 0 ≤ (f.metrics width height).scale := scale_nonneg hlength hwidth
  refine ⟨⟨?_, hscale, distance_toScreen hscale, upright _, fun hw hh => ?_, fun h => ?_,
    holds_outline_iff hscale hlength hwidth, corners _ f⟩, fun s m => List.mem_cons_self⟩
  · rw [toScreen_eq, center_metrics, zero_mul, add_zero, sub_zero]
  · exact ⟨fun p => inside_toScreen hlength hwidth hw hh, touches_metrics hlength hwidth hw hh,
      fun scale => scale_le_of_inside hlength hwidth hw hh⟩
  · have hzero := scale_eq_zero hlength hwidth h
    refine ⟨hzero, fun p => ?_⟩
    rw [toScreen_eq, center_metrics, hzero, mul_zero, mul_zero, add_zero, sub_zero]

/-- A window that is taller than the field: the sides touch, and a metre is a hundred pixels. -/
theorem fits_metrics_of_tall : (0 : Rat) < 9 ∧ (0 : Rat) < 6 ∧
    (((⟨9, 6⟩ : Field Rat).metrics 948 1000).Fits ⟨9, 6⟩ 948 1000 ∧
      ∀ (s : Scene) (m : Metrics Single),
        .rectangle (m.outline s.field) Scene.fieldLineThickness s.lineColor ∈ s.drawField m) ∧
    ((⟨9, 6⟩ : Field Rat).metrics 948 1000).scale = 100 :=
  ⟨by decide, by decide, fits_metrics ⟨9, 6⟩ 948 1000 (by decide) (by decide), by decide +kernel⟩

end Metrics
end RobotConsole
