import Quill.Json.Codec

/-!
# Affine transforms

A transform maps `(x, y)` to `(sx * x + ry * y + tx, rx * x + sy * y + ty)`, and its six
coefficients are listed as `sx rx ry sy tx ty`.  Coefficients are doubles, so a product depends
on the order in which it is evaluated, and that order is fixed here.
-/

namespace Quill

/-- The coefficients of an affine map. -/
structure Transform where
  sx : Float
  rx : Float
  ry : Float
  sy : Float
  tx : Float
  ty : Float

namespace Transform

def identity : Transform := ⟨1, 0, 0, 1, 0, 0⟩

/-- Whether every coefficient equals that of the identity. -/
def isIdentity (map : Transform) : Bool :=
  map.sx == 1 && map.rx == 0 && map.ry == 0 && map.sy == 1 && map.tx == 0 && map.ty == 0

/-- The product, which applies the second map first. -/
def mul (outer inner : Transform) : Transform where
  sx := outer.sx * inner.sx + outer.ry * inner.rx
  rx := outer.rx * inner.sx + outer.sy * inner.rx
  ry := outer.sx * inner.ry + outer.ry * inner.sy
  sy := outer.rx * inner.ry + outer.sy * inner.sy
  tx := outer.sx * inner.tx + outer.ry * inner.ty + outer.tx
  ty := outer.rx * inner.tx + outer.sy * inner.ty + outer.ty

/-- Put a change in front of the current map; an identity leaves it exactly as it is. -/
def compose (current change : Transform) : Transform :=
  if change.isIdentity then current else current.mul change

/-- Degrees, taken modulo a full turn, in radians. -/
def radians (degrees : Float) : Float :=
  Number.remainder degrees 360 * 0.017453292519943295

/-- Rotation by an angle in degrees. -/
def rotate (degrees : Float) : Transform :=
  let angle := radians degrees
  if angle == 0 then identity
  else ⟨angle.cos, angle.sin, -angle.sin, angle.cos, 0, 0⟩

def scale (x y : Float) : Transform := ⟨x, 0, 0, y, 0, 0⟩

/-- Skewing along the x axis by an angle in degrees. -/
def skewX (degrees : Float) : Transform := ⟨1, 0, (radians degrees).tan, 1, 0, 0⟩

/-- Skewing along the y axis by an angle in degrees. -/
def skewY (degrees : Float) : Transform := ⟨1, (radians degrees).tan, 0, 1, 0, 0⟩

def translate (x y : Float) : Transform := ⟨1, 0, 0, 1, x, y⟩

def coefficients (map : Transform) : List Float :=
  [map.sx, map.rx, map.ry, map.sy, map.tx, map.ty]

end Transform

structure Rectangle where
  x0 : Float
  y0 : Float
  x1 : Float
  y1 : Float

namespace Rectangle

def zero : Rectangle := ⟨0, 0, 0, 0⟩

/-- The area, negative if the corners are swapped along one axis. -/
def area (rectangle : Rectangle) : Float :=
  (rectangle.x1 - rectangle.x0) * (rectangle.y1 - rectangle.y0)

/-- The map that units relative to the rectangle are composed with: the second corner scales
and the first one translates. -/
def unitMap (rectangle : Rectangle) : Transform :=
  ⟨rectangle.x1, 0, 0, rectangle.y1, rectangle.x0, rectangle.y0⟩

end Rectangle

instance : Json.Codec Transform where
  encode map := Json.encode map.coefficients
  decode value :=
    match (Json.decode value : Option (List Float)) with
    | some [sx, rx, ry, sy, tx, ty] => some ⟨sx, rx, ry, sy, tx, ty⟩
    | _ => none

instance : Json.Codec Rectangle where
  encode rectangle :=
    .object [("x0", Json.encode rectangle.x0), ("y0", Json.encode rectangle.y0),
      ("x1", Json.encode rectangle.x1), ("y1", Json.encode rectangle.y1)]
  decode value := value.readRecord? do
    return {
      x0 := ← Json.FieldReader.required "x0"
      y0 := ← Json.FieldReader.required "y0"
      x1 := ← Json.FieldReader.required "x1"
      y1 := ← Json.FieldReader.required "y1" }

end Quill
