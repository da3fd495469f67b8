import Quill.Picture.Header

/-!
# Passes

A picture comes in one part or, interlaced, in seven.  The pixels of a part lie in a grid: they are
equally far apart in a row, and so are the rows.
-/

namespace Quill.Png

/-- A part of a picture: where its first pixel lies, and how far apart its pixels lie. -/
structure Pass where
  left : Nat
  top : Nat
  across : Nat
  down : Nat

/-- The parts in which a picture comes. -/
def passes (interlaced : Bool) : List Pass :=
  if interlaced then
    [⟨0, 0, 8, 8⟩, ⟨4, 0, 8, 8⟩, ⟨0, 4, 4, 8⟩, ⟨2, 0, 4, 4⟩, ⟨0, 2, 2, 4⟩, ⟨1, 0, 2, 2⟩,
      ⟨0, 1, 1, 2⟩]
  else [⟨0, 0, 1, 1⟩]

/-- How many places there are from the first one on, a step apart, before an end. -/
def placesBefore (first step finish : Nat) : Nat :=
  (finish - first + step - 1) / step

namespace Pass

/-- How many pixels and how many rows of a picture a part has. -/
def extent (pass : Pass) (header : Header) : Nat × Nat :=
  (placesBefore pass.left pass.across header.width, placesBefore pass.top pass.down header.height)

/-- How many bytes the rows of a part have, with the numbers of their filters. -/
def size (pass : Pass) (header : Header) : Nat :=
  let (width, height) := pass.extent header
  if width = 0 then 0 else height * (1 + header.rowSize width)

end Pass

/-- How many bytes the rows of a picture have, with the numbers of their filters. -/
def Header.dataSize (header : Header) : Nat :=
  (passes header.interlaced).foldl (fun total pass => total + pass.size header) 0

end Quill.Png
