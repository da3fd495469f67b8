import Quill.Json.Codec

/-!
# Attribute values

The attributes of a drawing that take one of a few values.  Each value has a word in data
files and a spelling in instructions; a few have no spelling, and setting them writes nothing.
-/

namespace Quill

/-- How the inside of a path is found. -/
inductive FillRule where
  | evenOdd
  | nonZero
  deriving DecidableEq, Repr

instance : Json.Keyword FillRule where
  all := [.evenOdd, .nonZero]
  name
    | .evenOdd => "even_odd"
    | .nonZero => "non_zero"

def FillRule.token : FillRule → String
  | .evenOdd => "evenodd"
  | .nonZero => "nonzero"

/-- The coordinate system of what a clip path holds. -/
inductive ClipUnits where
  | userSpace
  | userSpaceOnUse
  | objectBoundingBox
  deriving DecidableEq, Repr

instance : Json.Keyword ClipUnits where
  all := [.userSpace, .userSpaceOnUse, .objectBoundingBox]
  name
    | .userSpace => "user_space"
    | .userSpaceOnUse => "user_space_on_use"
    | .objectBoundingBox => "object_bounding_box"

def ClipUnits.token : ClipUnits → String
  | .userSpace => "userSpace"
  | .userSpaceOnUse => "userSpaceOnUse"
  | .objectBoundingBox => "objectBoundingBox"

/-- The shape of open stroke ends. -/
inductive LineCap where
  | butt
  | round
  | square
  deriving DecidableEq, Repr

instance : Json.Keyword LineCap where
  all := [.butt, .round, .square]
  name
    | .butt => "butt"
    | .round => "round"
    | .square => "square"

def LineCap.token : LineCap → String
  | .butt => "butt"
  | .round => "round"
  | .square => "square"

/-- The shape of stroke corners. -/
inductive LineJoin where
  | miter
  | round
  | bevel
  deriving DecidableEq, Repr

instance : Json.Keyword LineJoin where
  all := [.miter, .round, .bevel]
  name
    | .miter => "miter"
    | .round => "round"
    | .bevel => "bevel"

def LineJoin.token : LineJoin → String
  | .miter => "miter"
  | .round => "round"
  | .bevel => "bevel"

/-- The slant of a font. -/
inductive FontStyle where
  | normal
  | italic
  | oblique
  | any
  deriving DecidableEq, Repr

instance : Json.Keyword FontStyle where
  all := [.normal, .italic, .oblique, .any]
  name
    | .normal => "normal"
    | .italic => "italic"
    | .oblique => "oblique"
    | .any => "any"

def FontStyle.token : FontStyle → String
  | .normal => "normal"
  | .italic => "italic"
  | .oblique => "oblique"
  | .any => "any"

/-- The width of a font. -/
inductive FontStretch where
  | normal
  | ultraCondensed
  | extraCondensed
  | condensed
  | semiCondensed
  | semiExpanded
  | expanded
  | extraExpanded
  | ultraExpanded
  | any
  deriving DecidableEq, Repr

instance : Json.Keyword FontStretch where
  all := [.normal, .ultraCondensed, .extraCondensed, .condensed, .semiCondensed, .semiExpanded,
    .expanded, .extraExpanded, .ultraExpanded, .any]
  name
    | .normal => "normal"
    | .ultraCondensed => "ultra_condensed"
    | .extraCondensed => "extra_condensed"
    | .condensed => "condensed"
    | .semiCondensed => "semi_condensed"
    | .semiExpanded => "semi_expanded"
    | .expanded => "expanded"
    | .extraExpanded => "extra_expanded"
    | .ultraExpanded => "ultra_expanded"
    | .any => "any"

def FontStretch.token : FontStretch → String
  | .normal => "normal"
  | .ultraCondensed => "ultra-condensed"
  | .extraCondensed => "extra-condensed"
  | .condensed => "condensed"
  | .semiCondensed => "semi-condensed"
  | .semiExpanded => "semi-expanded"
  | .expanded => "expanded"
  | .extraExpanded => "extra-expanded"
  | .ultraExpanded => "ultra-expanded"
  | .any => "any"

/-- A line drawn with text. -/
inductive Decoration where
  | plain
  | underline
  | overline
  | lineThrough
  deriving DecidableEq, Repr

instance : Json.Keyword Decoration where
  all := [.plain, .underline, .overline, .lineThrough]
  name
    | .plain => "none"
    | .underline => "underline"
    | .overline => "overline"
    | .lineThrough => "line_through"

def Decoration.token : Decoration → String
  | .plain => "none"
  | .underline => "underline"
  | .overline => "overline"
  | .lineThrough => "line-through"

/-- The anchor that text is placed at. -/
inductive Gravity where
  | undefined
  | northWest
  | north
  | northEast
  | west
  | center
  | east
  | southWest
  | south
  | southEast
  | fixed
  deriving DecidableEq, Repr

instance : Json.Keyword Gravity where
  all := [.undefined, .northWest, .north, .northEast, .west, .center, .east, .southWest, .south,
    .southEast, .fixed]
  name
    | .undefined => "undefined"
    | .northWest => "north_west"
    | .north => "north"
    | .northEast => "north_east"
    | .west => "west"
    | .center => "center"
    | .east => "east"
    | .southWest => "south_west"
    | .south => "south"
    | .southEast => "south_east"
    | .fixed => "static"

def Gravity.token? : Gravity → Option String
  | .undefined => none
  | .northWest => some "NorthWest"
  | .north => some "North"
  | .northEast => some "NorthEast"
  | .west => some "West"
  | .center => some "Center"
  | .east => some "East"
  | .southWest => some "SouthWest"
  | .south => some "South"
  | .southEast => some "SouthEast"
  | .fixed => none

inductive Alignment where
  | undefined
  | left
  | center
  | right
  deriving DecidableEq, Repr

instance : Json.Keyword Alignment where
  all := [.undefined, .left, .center, .right]
  name
    | .undefined => "undefined"
    | .left => "left"
    | .center => "center"
    | .right => "right"

def Alignment.token? : Alignment → Option String
  | .undefined => none
  | .left => some "left"
  | .center => some "center"
  | .right => some "right"

inductive Direction where
  | undefined
  | leftToRight
  | rightToLeft
  deriving DecidableEq, Repr

instance : Json.Keyword Direction where
  all := [.undefined, .leftToRight, .rightToLeft]
  name
    | .undefined => "undefined"
    | .leftToRight => "left_to_right"
    | .rightToLeft => "right_to_left"

def Direction.token? : Direction → Option String
  | .undefined => none
  | .leftToRight => some "left-to-right"
  | .rightToLeft => some "right-to-left"

end Quill
