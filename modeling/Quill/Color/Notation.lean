import Quill.Color.Basic
import Quill.Number.Decimal
import Quill.Text.Blank

/-!
# Color notations

A color is named by a keyword, by hexadecimal digits behind `#`, or by its channels in
`rgb(…)` and `rgba(…)`.  White space around the name and the case of ASCII letters do not
matter.
-/

namespace Quill.Rgba

/-- The colors that have a name. -/
def keywords : List (String × Rgba) :=
  [("none", noPaint),
    ("transparent", noPaint),
    ("black", { r := 0, g := 0, b := 0 }),
    ("white", { r := 255, g := 255, b := 255 }),
    ("red", { r := 255, g := 0, b := 0 }),
    ("lime", { r := 0, g := 255, b := 0 }),
    ("green", { r := 0, g := 128, b := 0 }),
    ("blue", { r := 0, g := 0, b := 255 }),
    ("yellow", { r := 255, g := 255, b := 0 }),
    ("cyan", { r := 0, g := 255, b := 255 }),
    ("aqua", { r := 0, g := 255, b := 255 }),
    ("magenta", { r := 255, g := 0, b := 255 }),
    ("fuchsia", { r := 255, g := 0, b := 255 }),
    ("gray", { r := 128, g := 128, b := 128 }),
    ("grey", { r := 128, g := 128, b := 128 }),
    ("silver", { r := 192, g := 192, b := 192 }),
    ("maroon", { r := 128, g := 0, b := 0 }),
    ("olive", { r := 128, g := 128, b := 0 }),
    ("navy", { r := 0, g := 0, b := 128 }),
    ("purple", { r := 128, g := 0, b := 128 }),
    ("teal", { r := 0, g := 128, b := 128 }),
    ("orange", { r := 255, g := 165, b := 0 }),
    ("pink", { r := 255, g := 192, b := 203 }),
    ("brown", { r := 165, g := 42, b := 42 }),
    ("gold", { r := 255, g := 215, b := 0 }),
    ("indigo", { r := 75, g := 0, b := 130 }),
    ("violet", { r := 238, g := 130, b := 238 }),
    ("coral", { r := 255, g := 127, b := 80 }),
    ("salmon", { r := 250, g := 128, b := 114 }),
    ("khaki", { r := 240, g := 230, b := 140 }),
    ("beige", { r := 245, g := 245, b := 220 }),
    ("ivory", { r := 255, g := 255, b := 240 }),
    ("lightgray", { r := 211, g := 211, b := 211 }),
    ("darkgray", { r := 169, g := 169, b := 169 }),
    ("steelblue", { r := 70, g := 130, b := 180 }),
    ("skyblue", { r := 135, g := 206, b := 235 }),
    ("tomato", { r := 255, g := 99, b := 71 }),
    ("crimson", { r := 220, g := 20, b := 60 })]

def channelOfDigits (high low : Nat) : UInt8 :=
  UInt8.ofNat (high * 16 + low)

/-- Read hexadecimal digits, one or two for each channel; the alpha channel may be missing. -/
def ofHexadecimal? (characters : List Char) : Option Rgba := do
  let short (value : Nat) := channelOfDigits value value
  match ← characters.mapM Number.hexValue? with
  | [r, g, b] => return { r := short r, g := short g, b := short b }
  | [r, g, b, a] => return ⟨short r, short g, short b, short a⟩
  | [r, r', g, g', b, b'] =>
    return {
      r := channelOfDigits r r', g := channelOfDigits g g', b := channelOfDigits b b' }
  | [r, r', g, g', b, b', a, a'] =>
    return ⟨channelOfDigits r r', channelOfDigits g g', channelOfDigits b b',
      channelOfDigits a a'⟩
  | _ => none

/-- The nearest channel of a number, which is clamped to the range of channels; an undefined
number is zero. -/
def channelOfNumber (number : Float) : UInt8 :=
  match Number.Reading.of number with
  | .undefined => 0
  | .infinite negative => if negative then 0 else 255
  | .finite value =>
    if value.negative then 0
    else UInt8.ofNat (min 255 (Number.roundHalfUp value.numerator value.denominator))

def splitAtCommas : List Char → List (List Char)
  | [] => [[]]
  | character :: rest =>
    if character = ',' then [] :: splitAtCommas rest
    else
      match splitAtCommas rest with
      | [] => [[character]]
      | first :: others => (character :: first) :: others

/-- Read the arguments of a functional notation. -/
def ofArguments? (hasAlpha : Bool) (characters : List Char) : Option Rgba := do
  let numbers ← (splitAtCommas characters).mapM (Number.ofCharacters? <| Text.trim ·)
  match hasAlpha, numbers with
  | false, [r, g, b] =>
    return { r := channelOfNumber r, g := channelOfNumber g, b := channelOfNumber b }
  | true, [r, g, b, opacity] =>
    return ⟨channelOfNumber r, channelOfNumber g, channelOfNumber b, alphaOfOpacity opacity⟩
  | _, _ => none

/-- What stands between an opening and the closing bracket at the end. -/
def between? (opening characters : List Char) : Option (List Char) :=
  if opening.isPrefixOf characters then
    match (characters.drop opening.length).reverse with
    | ')' :: rest => some rest.reverse
    | _ => none
  else none

def ofName? (name : String) : Option Rgba :=
  match Text.trim name.toList with
  | '#' :: digits => ofHexadecimal? digits
  | characters =>
    let lower := characters.map Char.toLower
    match between? "rgba(".toList lower with
    | some arguments => ofArguments? true arguments
    | none =>
      match between? "rgb(".toList lower with
      | some arguments => ofArguments? false arguments
      | none => keywords.lookup (String.ofList lower)

end Quill.Rgba
