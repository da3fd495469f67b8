import Quill.Compositing
import Quill.Drawing.Plan

/-!
# Shapes

A shape is drawn with the attributes in force and changes none of them.  A list of points is
written point by point and wraps between points; every other shape is one line.
-/

namespace Quill

/-- A shape; angles are in degrees. -/
inductive Shape where
  | point (x y : Float)
  | line (sx sy ex ey : Float)
  | rectangle (x1 y1 x2 y2 : Float)
  | roundRectangle (x1 y1 x2 y2 rx ry : Float)
  | circle (ox oy px py : Float)
  | ellipse (ox oy rx ry start stop : Float)
  | arc (sx sy ex ey start stop : Float)
  | bezier (points : List (Float × Float))
  | polygon (points : List (Float × Float))
  | polyline (points : List (Float × Float))
  | caption (x y : Float) (text : String)
  | color (x y : Float) (method : Repaint)
  | matte (x y : Float) (method : Repaint)
  | viewbox (x1 y1 x2 y2 : Int)

namespace Shape

/-- An instruction of pairs of coordinates. -/
def pairLine (word : String) (pairs : List (Float × Float)) : List Piece :=
  let groups := pairs.map fun (x, y) => Number.coordinatePair x y
  [.plain (" ".intercalate (word :: groups) ++ "\n")]

/-- An instruction that wraps between points. -/
def pointList (word : String) (points : List (Float × Float)) : List Piece :=
  .plain word ::
    (points.map fun (x, y) => .wrapping (" " ++ Number.coordinatePair x y)) ++ [.plain "\n"]

def repaintLine (word : String) (x y : Float) (method : Repaint) : List Piece :=
  [.plain (word ++ " " ++ Number.coordinatePair x y ++ " " ++ method.token ++ "\n")]

def pieces : Shape → List Piece
  | .point x y => pairLine "point" [(x, y)]
  | .line sx sy ex ey => pairLine "line" [(sx, sy), (ex, ey)]
  | .rectangle x1 y1 x2 y2 => pairLine "rectangle" [(x1, y1), (x2, y2)]
  | .roundRectangle x1 y1 x2 y2 rx ry =>
    pairLine "roundrectangle" [(x1, y1), (x2, y2), (rx, ry)]
  | .circle ox oy px py => pairLine "circle" [(ox, oy), (px, py)]
  | .ellipse ox oy rx ry start stop => pairLine "ellipse" [(ox, oy), (rx, ry), (start, stop)]
  | .arc sx sy ex ey start stop => pairLine "arc" [(sx, sy), (ex, ey), (start, stop)]
  | .bezier points => pointList "bezier" points
  | .polygon points => pointList "polygon" points
  | .polyline points => pointList "polyline" points
  | .caption x y text =>
    [.plain ("text " ++ Number.coordinatePair x y ++ " " ++ Text.Quoted.literal text ++ "\n")]
  | .color x y method => repaintLine "color" x y method
  | .matte x y method => repaintLine "matte" x y method
  | .viewbox x1 y1 x2 y2 =>
    [.plain (" ".intercalate ("viewbox" :: [x1, y1, x2, y2].map toString) ++ "\n")]

def plan (shape : Shape) : Plan :=
  .write shape.pieces .nothing

end Shape

end Quill
