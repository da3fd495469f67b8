import Quill.Failure

/-!
# Pictures

A picture that is put into a program is a block of pixels, each of one to four samples.  An
encoder turns it into the bytes of a file of a named type.
-/

namespace Quill

inductive Channels where
  | gray
  | grayAlpha
  | rgb
  | rgba
  deriving DecidableEq, Repr

def Channels.count : Channels → Nat
  | .gray => 1
  | .grayAlpha => 2
  | .rgb => 3
  | .rgba => 4

/-- A picture: its rows from the top, each from the left.  A sample is a byte, or two in a wide
picture, of which the first counts more. -/
structure Picture where
  channels : Channels
  wide : Bool := false
  width : Nat
  height : Nat
  bytes : List UInt8
  deriving DecidableEq, Repr

def Picture.pixelSize (picture : Picture) : Nat :=
  picture.channels.count * if picture.wide then 2 else 1

/-- The bytes of a picture file, and their type. -/
structure EncodedPicture where
  mime : String
  bytes : List UInt8
  deriving DecidableEq, Repr

end Quill
