import Quill.Json.Codec
import Quill.Number.Hexadecimal

/-!
# Colors

A color has four channels of eight bits, the alpha channel not multiplied into the others.
Black that is fully transparent stands for no paint at all.
-/

namespace Quill

structure Rgba where
  r : UInt8
  g : UInt8
  b : UInt8
  a : UInt8 := 255
  deriving DecidableEq, Repr

namespace Rgba

def noPaint : Rgba := ⟨0, 0, 0, 0⟩

def black : Rgba := ⟨0, 0, 0, 255⟩

/-- Whether the color is fully transparent; such a color takes no part in opacity. -/
def isTransparent (color : Rgba) : Bool :=
  color.a == 0

/-- Whether the color is no paint. -/
def isNone (color : Rgba) : Bool :=
  color == noPaint

def withAlpha (color : Rgba) (alpha : UInt8) : Rgba :=
  { color with a := alpha }

/-- Give a paint the opacity in force, unless it is fully transparent. -/
def couple (color : Rgba) (alpha : UInt8) : Rgba :=
  if color.isTransparent then color else color.withAlpha alpha

def digits (channel : UInt8) : List Char :=
  [Number.upperHexDigit (channel.toNat / 16), Number.upperHexDigit (channel.toNat % 16)]

/-- The characters of a color in instructions; an opaque color has no alpha digits. -/
def characters (color : Rgba) : List Char :=
  if color.isNone then ['n', 'o', 'n', 'e']
  else
    '#' :: digits color.r ++ digits color.g ++ digits color.b ++
      (if color.a = 255 then [] else digits color.a)

/-- The text of a color in instructions. -/
def text (color : Rgba) : String :=
  String.ofList color.characters

end Rgba

/-- The nearest alpha of an opacity, which is clamped to the range from 0 to 1; an undefined
opacity is transparent. -/
def alphaOfOpacity (opacity : Float) : UInt8 :=
  match Number.Reading.of opacity with
  | .undefined => 0
  | .infinite negative => if negative then 0 else 255
  | .finite _ =>
    let clamped := if opacity < 0 then 0 else if 1 < opacity then 1 else opacity
    match Number.Reading.of (clamped * 255) with
    | .finite scaled => UInt8.ofNat (Number.roundHalfUp scaled.numerator scaled.denominator)
    | _ => 0

def opacityOfAlpha (alpha : UInt8) : Float :=
  Number.ofInt alpha.toNat / 255

instance : Json.Codec Rgba where
  encode color :=
    .object [("r", Json.encode color.r), ("g", Json.encode color.g), ("b", Json.encode color.b),
      ("a", Json.encode color.a)]
  decode value := value.readRecord? do
    return {
      r := ← Json.FieldReader.required "r"
      g := ← Json.FieldReader.required "g"
      b := ← Json.FieldReader.required "b"
      a := ← Json.FieldReader.required "a" }

end Quill
