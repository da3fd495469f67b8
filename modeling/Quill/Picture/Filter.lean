/-!
# Row filters

Before a row of a picture is compressed, each of its bytes may be replaced by its difference
from a prediction, which is made from the bytes at the same place in the pixel to the left, in
the row above, and to the left in the row above.
-/

namespace Quill

/-- A way to predict a byte. -/
inductive Filter where
  | plain
  | fromLeft
  | fromAbove
  | fromMean
  | fromNearest
  deriving DecidableEq, Repr

namespace Filter

def number : Filter → UInt8
  | .plain => 0
  | .fromLeft => 1
  | .fromAbove => 2
  | .fromMean => 3
  | .fromNearest => 4

def ofNumber? (number : UInt8) : Option Filter :=
  [plain, fromLeft, fromAbove, fromMean, fromNearest].find? (·.number == number)

def distance (a b : Nat) : Nat :=
  (a - b) + (b - a)

/-- Of three neighbours, the one nearest to left + above - corner; left goes before above, and
above before the corner. -/
def nearestOf (left above corner : Nat) : Nat :=
  let toLeft := distance above corner
  let toAbove := distance left corner
  let toCorner := distance (left + above) (2 * corner)
  if toLeft ≤ toAbove ∧ toLeft ≤ toCorner then left
  else if toAbove ≤ toCorner then above
  else corner

/-- The prediction of a byte. -/
def predict (filter : Filter) (left above corner : UInt8) : UInt8 :=
  match filter with
  | .plain => 0
  | .fromLeft => left
  | .fromAbove => above
  | .fromMean => UInt8.ofNat ((left.toNat + above.toNat) / 2)
  | .fromNearest => UInt8.ofNat (nearestOf left.toNat above.toNat corner.toNat)

/-- The bytes of a row one pixel further right; nothing stands left of the first pixel. -/
def shifted (pixelSize : Nat) (row : List UInt8) : List UInt8 :=
  List.replicate pixelSize 0 ++ row

/-- The differences of a row from its predictions. -/
def apply (filter : Filter) (pixelSize : Nat) (above row : List UInt8) : List UInt8 :=
  (row.zip ((shifted pixelSize row).zip (above.zip (shifted pixelSize above)))).map
    fun (byte, left, above, corner) => byte - filter.predict left above corner

/-- The row with given differences. -/
def undo (filter : Filter) (pixelSize : Nat) (above row : List UInt8) : List UInt8 :=
  let add (done : Array UInt8) : UInt8 × UInt8 × UInt8 → Array UInt8
    | (byte, above, corner) =>
      let left := if done.size < pixelSize then 0 else done.getD (done.size - pixelSize) 0
      done.push (byte + filter.predict left above corner)
  ((row.zip (above.zip (shifted pixelSize above))).foldl add #[]).toList

/-- How far differences are from zero in all, in either direction. -/
def cost (differences : List UInt8) : Nat :=
  differences.foldl (fun total byte => total + min byte.toNat (256 - byte.toNat)) 0

/-- The filter with the least cost for a row.  They are tried from above, from the left, from
the mean and from the nearest; of equal ones the later goes first, but nothing is tried after one
that costs nothing. -/
def best (pixelSize : Nat) (above row : List UInt8) : Filter :=
  let price (filter : Filter) := cost (filter.apply pixelSize above row)
  let cheaper (best next : Filter) :=
    if price best ≠ 0 ∧ price next ≤ price best then next else best
  [fromLeft, fromMean, fromNearest].foldl cheaper fromAbove

/-- Rows with the numbers of their filters before them, each filtered at the least cost. -/
def applyBest (pixelSize : Nat) (above : List UInt8) : List (List UInt8) → List (List UInt8)
  | [] => []
  | row :: rest =>
    let filter := best pixelSize above row
    (filter.number :: filter.apply pixelSize above row) :: applyBest pixelSize row rest

end Filter

end Quill
