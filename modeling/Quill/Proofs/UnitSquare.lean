import Quill.Proofs.DoubleResults
import Quill.Proofs.FiniteTransforms
import Quill.Proofs.Repeats

/-!
# The unit square of an object

Clip units relative to an object put a map in front of the transform in force that is made out of
the bounds of the object: it scales by the second corner and moves by the first one.  So the corner
of the unit square at the origin goes to the first corner, but the square as a whole goes to the
bounds only if they begin at the origin.  Nothing is rounded where the transform in force is the
identity, and whole corners that are not far from the origin have an area.
-/

namespace Quill

open Number

/-- The point that a map takes a point to, without rounding. -/
def Transform.image (map : Transform) (u v : ℚ) : ℚ × ℚ :=
  (valueOf map.sx * u + valueOf map.ry * v + valueOf map.tx,
    valueOf map.rx * u + valueOf map.sy * v + valueOf map.ty)

/-- A map and the numbers that its coefficients stand for. -/
structure Transform.Stands (map : Transform) (sx rx ry sy tx ty : ℚ) : Prop where
  sx : Number.Stands map.sx sx
  rx : Number.Stands map.rx rx
  ry : Number.Stands map.ry ry
  sy : Number.Stands map.sy sy
  tx : Number.Stands map.tx tx
  ty : Number.Stands map.ty ty

/-- A rectangle and the numbers that its corners stand for. -/
structure Rectangle.Stands (rectangle : Rectangle) (x0 y0 x1 y1 : ℚ) : Prop where
  left : Number.Stands rectangle.x0 x0
  top : Number.Stands rectangle.y0 y0
  right : Number.Stands rectangle.x1 x1
  bottom : Number.Stands rectangle.y1 y1

section Maps

variable {current change map : Transform} {sx rx ry sy tx ty : ℚ}

theorem Transform.stands_identity (identity : map.isIdentity = true) :
    map.Stands 1 0 0 1 0 0 := by
  simp only [isIdentity, Bool.and_eq_true] at identity
  obtain ⟨⟨⟨⟨⟨sx, rx⟩, ry⟩, sy⟩, tx⟩, ty⟩ := identity
  exact ⟨stands_one.of_beq sx, stands_zero.of_beq rx, stands_zero.of_beq ry, stands_one.of_beq sy,
    stands_zero.of_beq tx, stands_zero.of_beq ty⟩

theorem Transform.Stands.image (stands : map.Stands sx rx ry sy tx ty) (u v : ℚ) :
    map.image u v = (sx * u + ry * v + tx, rx * u + sy * v + ty) := by
  rw [Transform.image, stands.sx.same, stands.rx.same, stands.ry.same, stands.sy.same,
    stands.tx.same, stands.ty.same]

theorem Transform.Stands.isFinite (stands : map.Stands sx rx ry sy tx ty) : map.IsFinite :=
  Transform.isFinite_iff.mpr ⟨stands.sx.finite, stands.rx.finite, stands.ry.finite,
    stands.sy.finite, stands.tx.finite, stands.ty.finite⟩

/-- What is put in front of the identity is not rounded. -/
theorem Transform.Stands.compose (identity : current.isIdentity = true)
    (stands : change.Stands sx rx ry sy tx ty) :
    (current.compose change).Stands sx rx ry sy tx ty := by
  have outer := Transform.stands_identity identity
  rw [Transform.compose]
  split
  · rename_i same
    have inner := Transform.stands_identity same
    rwa [stands.sx.unique inner.sx, stands.rx.unique inner.rx, stands.ry.unique inner.ry,
      stands.sy.unique inner.sy, stands.tx.unique inner.tx, stands.ty.unique inner.ty]
  · have x := (outer.ry.row stands.ty outer.sx stands.tx).2
    have y := (outer.rx.row stands.tx outer.sy stands.ty).1
    exact ⟨(outer.ry.row stands.rx outer.sx stands.sx).2,
      (outer.rx.row stands.sx outer.sy stands.rx).1,
      (outer.ry.row stands.sy outer.sx stands.ry).2,
      (outer.rx.row stands.ry outer.sy stands.sy).1,
      x.add outer.tx (add_zero tx) x.inRange x.kept,
      y.add outer.ty (add_zero ty) y.inRange y.kept⟩

end Maps

section Bounds

variable {rectangle : Rectangle} {x0 y0 x1 y1 : ℤ}

/-- Between whole corners that are not far from the origin there is an area. -/
theorem Rectangle.Stands.area_pos (stands : rectangle.Stands x0 y0 x1 y1)
    (small : ∀ coordinate ∈ [x0, y0, x1, y1], |coordinate| < 2 ^ 20) (wide : x0 < x1)
    (high : y0 < y1) : 0 < rectangle.area := by
  simp only [List.forall_mem_cons, abs_lt] at small
  obtain ⟨left, top, right, bottom, -⟩ := small
  have width : |x1 - x0| < 2 ^ 53 := abs_lt.mpr ⟨by omega, by omega⟩
  have height : |y1 - y0| < 2 ^ 53 := abs_lt.mpr ⟨by omega, by omega⟩
  have size : |(x1 - x0) * (y1 - y0)| < 2 ^ 53 := by
    have wider : |x1 - x0| < 2 ^ 21 := abs_lt.mpr ⟨by omega, by omega⟩
    have higher : |y1 - y0| < 2 ^ 21 := abs_lt.mpr ⟨by omega, by omega⟩
    rw [abs_mul]
    exact (mul_lt_mul'' wider higher (abs_nonneg _) (abs_nonneg _)).trans (by norm_num)
  have horizontal := stands.right.sub stands.left (Int.cast_sub x1 x0).symm (inRange_intCast width)
    (kept_intCast width)
  have vertical := stands.bottom.sub stands.top (Int.cast_sub y1 y0).symm (inRange_intCast height)
    (kept_intCast height)
  have area : Number.Stands rectangle.area ((x1 - x0) * (y1 - y0) : ℤ) :=
    horizontal.mul vertical (Int.cast_mul _ _).symm (inRange_intCast size) (kept_intCast size)
  have positive : 0 < (x1 - x0) * (y1 - y0) := mul_pos (by omega) (by omega)
  rw [lt_iff_valueOf isFinite_zero area.finite, valueOf_zero, area.same]
  exact_mod_cast positive

theorem Rectangle.Stands.unitMap {x0 y0 x1 y1 : ℚ} (stands : rectangle.Stands x0 y0 x1 y1) :
    rectangle.unitMap.Stands x1 0 0 y1 x0 y0 :=
  ⟨stands.right, stands_zero, stands_zero, stands.bottom, stands.left, stands.top⟩

end Bounds

section Units

variable {tools : Tools} {drawing : Drawing}

/-- Units relative to an object with an area, where there were other units. -/
theorem Drawing.transform_clipUnits (tools : Tools) (usable : drawing.poisoned = false)
    (unlimited : drawing.layout.limit = none)
    (other : drawing.context.clipUnits ≠ .objectBoundingBox)
    (area : 0 < drawing.context.bounds.area) :
    let served := drawing.call tools (.instruct (.setting (.clipUnits .objectBoundingBox)))
    served.2 = .done ∧ served.1.context.clipUnits = .objectBoundingBox ∧
      served.1.context.transform =
        drawing.context.transform.compose drawing.context.bounds.unitMap := by
  intro served
  have edits : (Setting.clipUnits .objectBoundingBox).edit? tools drawing =
      .ok (drawing.context.clipUnitsEdit .objectBoundingBox) := rfl
  have differs : (drawing.context.clipUnitsEdit .objectBoundingBox).differs = true :=
    bne_iff_ne.mpr other
  obtain ⟨buffer, ran⟩ := Edit.run_changing _ (.inr differs) usable unlimited
  have called : served = _ := (Setting.call_of_edit edits).trans ran
  rw [called]
  simp only [Drawing.context, ContextStack.current_modify, true_and]
  simp only [Context.clipUnitsEdit]
  rw [if_pos ⟨trivial, area⟩]
  exact ⟨rfl, rfl⟩

/-- Where the transform in force is the identity, units relative to an object scale by the corner of
the object that is farther along and move by the other one.  The corner of the unit square at the
origin goes to the first corner of the object, but the one across from it goes to the second corner
only if the first one is the origin.  The corners of the object are whole numbers in order, below
`2 ^ 20`, so that nothing is rounded. -/
theorem clip_units_scale_by_second_corner {x0 y0 x1 y1 : ℤ} (usable : drawing.poisoned = false)
    (unlimited : drawing.layout.limit = none)
    (identity : drawing.context.transform.isIdentity = true)
    (other : drawing.context.clipUnits ≠ .objectBoundingBox)
    (corners : drawing.context.bounds.Stands x0 y0 x1 y1)
    (small : ∀ coordinate ∈ [x0, y0, x1, y1], |coordinate| < 2 ^ 20) (wide : x0 < x1)
    (high : y0 < y1) :
    let served := drawing.call tools (.instruct (.setting (.clipUnits .objectBoundingBox)))
    let map := served.1.context.transform
    served.2 = .done ∧ map.IsFinite ∧ (∀ u v, map.image u v = (x0 + x1 * u, y0 + y1 * v)) ∧
      map.image 0 0 = ((x0 : ℚ), (y0 : ℚ)) ∧
      (map.image 1 1 = ((x1 : ℚ), (y1 : ℚ)) ↔ x0 = 0 ∧ y0 = 0) := by
  intro served map
  obtain ⟨done, -, composed⟩ := Drawing.transform_clipUnits tools usable unlimited other
    (corners.area_pos small wide high)
  have stands : map.Stands x1 0 0 y1 x0 y0 := by
    have stands := corners.unitMap.compose identity
    rwa [← composed] at stands
  have image (u v : ℚ) : map.image u v = (x0 + x1 * u, y0 + y1 * v) := by
    rw [stands.image]
    refine Prod.ext ?_ ?_
    · ring
    · ring
  refine ⟨done, stands.isFinite, image, ?_, ?_⟩
  · rw [image, mul_zero, mul_zero, add_zero, add_zero]
  · rw [image, mul_one, mul_one, Prod.mk_inj, add_eq_right, add_eq_right, Int.cast_eq_zero,
      Int.cast_eq_zero]

/-- Bounds at the origin are what the unit square goes to. -/
theorem clip_units_keep_corner_at_origin :
    let bounds : Call := .instruct (.setting (.bounds ⟨0, 0, 4, 5⟩))
    let units : Call := .instruct (.setting (.clipUnits .objectBoundingBox))
    let drawing := (Drawing.start {} ⟨64, 64, .empty⟩).calls {} [bounds]
    let served := drawing.call {} units
    served.2 = .done ∧ served.1.context.transform.image 0 0 = (0, 0) ∧
      served.1.context.transform.image 1 1 = (4, 5) := by
  intro bounds units drawing served
  have corners : drawing.context.bounds.Stands (0 : ℤ) (0 : ℤ) (4 : ℤ) (5 : ℤ) := by
    refine ⟨?_, ?_, ?_, ?_⟩ <;> exact ⟨by decide +kernel, by decide +kernel⟩
  have moved := @clip_units_scale_by_second_corner {} drawing 0 0 4 5 (by decide +kernel)
    (by decide +kernel) (by decide +kernel) (by decide +kernel) corners (by decide) (by decide)
    (by decide)
  obtain ⟨done, -, -, first, second⟩ := moved
  exact ⟨done, first, second.mpr ⟨rfl, rfl⟩⟩

/-- Bounds apart from the origin: the unit square has its second corner at the sum of both corners
of the bounds, beyond `(3, 3)`. -/
theorem clip_units_miss_second_corner :
    let bounds : Call := .instruct (.setting (.bounds ⟨1, 1, 3, 3⟩))
    let units : Call := .instruct (.setting (.clipUnits .objectBoundingBox))
    let drawing := (Drawing.start {} ⟨64, 64, .empty⟩).calls {} [bounds]
    let served := drawing.call {} units
    drawing.poisoned = false ∧ drawing.layout.limit = none ∧
      drawing.context.transform.isIdentity = true ∧
      drawing.context.clipUnits ≠ .objectBoundingBox ∧ served.2 = .done ∧
      served.1.context.transform.image 0 0 = (1, 1) ∧
      served.1.context.transform.image 1 1 = (4, 4) := by
  decide +kernel

end Units

end Quill
