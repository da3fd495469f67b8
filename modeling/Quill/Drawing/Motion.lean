import Quill.Drawing.Plan

/-!
# Motions

A motion changes the coordinate system.  The instruction carries the motion's own parameters,
and the context in force keeps the product of all motions.  A motion that moves nothing is
dropped, because every instruction of this kind marks a point to return to.
-/

namespace Quill

/-- A change of the coordinate system; angles are in degrees. -/
inductive Motion where
  | affine (map : Transform)
  | rotate (degrees : Float)
  | scale (x y : Float)
  | skewX (degrees : Float)
  | skewY (degrees : Float)
  | translate (x y : Float)

namespace Motion

def map : Motion → Transform
  | .affine map => map
  | .rotate degrees => .rotate degrees
  | .scale x y => .scale x y
  | .skewX degrees => .skewX degrees
  | .skewY degrees => .skewY degrees
  | .translate x y => .translate x y

def text : Motion → String
  | .affine map => "affine " ++ " ".intercalate (map.coefficients.map Number.coefficient)
  | .rotate degrees => "rotate " ++ Number.coordinate degrees
  | .scale x y => "scale " ++ Number.coordinatePair x y
  | .skewX degrees => "skewX " ++ Number.coordinate degrees
  | .skewY degrees => "skewY " ++ Number.coordinate degrees
  | .translate x y => "translate " ++ Number.coordinatePair x y

def plan (motion : Motion) : Plan :=
  if motion.map.isIdentity then .keep
  else .line motion.text (.context (·.composeTransform motion.map))

end Motion

end Quill
