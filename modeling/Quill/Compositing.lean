import Quill.Json.Codec

/-!
# Compositing and repainting

How a picture is combined with what lies under it, and how pixels are chosen that take on the
fill color.
-/

namespace Quill

/-- How a picture is combined with what lies under it. -/
inductive Compositing where
  | add
  | atop
  | bumpmap
  | clear
  | colorize
  | copy
  | copyBlue
  | copyGreen
  | copyOpacity
  | copyRed
  | darken
  | difference
  | displace
  | dissolve
  | hue
  | inside
  | lighten
  | luminize
  | minus
  | modulate
  | multiply
  | nothing
  | outside
  | over
  | overlay
  | plus
  | saturate
  | screen
  | subtract
  | threshold
  | xor
  deriving DecidableEq, Repr

instance : Json.Keyword Compositing where
  all := [.add, .atop, .bumpmap, .clear, .colorize, .copy, .copyBlue, .copyGreen, .copyOpacity,
    .copyRed, .darken, .difference, .displace, .dissolve, .hue, .inside, .lighten, .luminize,
    .minus, .modulate, .multiply, .nothing, .outside, .over, .overlay, .plus, .saturate, .screen,
    .subtract, .threshold, .xor]
  name
    | .add => "add"
    | .atop => "atop"
    | .bumpmap => "bumpmap"
    | .clear => "clear"
    | .colorize => "colorize"
    | .copy => "copy"
    | .copyBlue => "copy_blue"
    | .copyGreen => "copy_green"
    | .copyOpacity => "copy_opacity"
    | .copyRed => "copy_red"
    | .darken => "darken"
    | .difference => "difference"
    | .displace => "displace"
    | .dissolve => "dissolve"
    | .hue => "hue"
    | .inside => "in"
    | .lighten => "lighten"
    | .luminize => "luminize"
    | .minus => "minus"
    | .modulate => "modulate"
    | .multiply => "multiply"
    | .nothing => "no"
    | .outside => "out"
    | .over => "over"
    | .overlay => "overlay"
    | .plus => "plus"
    | .saturate => "saturate"
    | .screen => "screen"
    | .subtract => "subtract"
    | .threshold => "threshold"
    | .xor => "xor"

/-- The spelling of an operator.  One that has no spelling is written with a note instead of
being refused. -/
def Compositing.token : Compositing → String
  | .add => "add"
  | .atop => "atop"
  | .bumpmap => "bumpmap"
  | .clear => "clear"
  | .colorize => "colorize_not_supported"
  | .copy => "copy"
  | .copyBlue => "copyblue"
  | .copyGreen => "copygreen"
  | .copyOpacity => "copyopacity"
  | .copyRed => "copyred"
  | .darken => "darken_not_supported"
  | .difference => "difference"
  | .displace => "displace_not_supported"
  | .dissolve => "dissolve_not_supported"
  | .hue => "hue_not_supported"
  | .inside => "in"
  | .lighten => "lighten_not_supported"
  | .luminize => "luminize_not_supported"
  | .minus => "minus"
  | .modulate => "modulate_not_supported"
  | .multiply => "multiply"
  | .nothing => "no_not_supported"
  | .outside => "out"
  | .over => "over"
  | .overlay => "overlay_not_supported"
  | .plus => "plus"
  | .saturate => "saturate_not_supported"
  | .screen => "screen_not_supported"
  | .subtract => "subtract"
  | .threshold => "threshold"
  | .xor => "xor"

/-- Whether an operator has a spelling of its own. -/
def Compositing.isSupported : Compositing → Bool
  | .colorize | .darken | .displace | .dissolve | .hue | .lighten | .luminize | .modulate
  | .nothing | .overlay | .saturate | .screen => false
  | _ => true

/-- How the pixels that are repainted are chosen. -/
inductive Repaint where
  | point
  | replace
  | floodFill
  | fillToBorder
  | reset
  deriving DecidableEq, Repr

instance : Json.Keyword Repaint where
  all := [.point, .replace, .floodFill, .fillToBorder, .reset]
  name
    | .point => "point"
    | .replace => "replace"
    | .floodFill => "flood_fill"
    | .fillToBorder => "fill_to_border"
    | .reset => "reset"

def Repaint.token : Repaint → String
  | .point => "point"
  | .replace => "replace"
  | .floodFill => "floodfill"
  | .fillToBorder => "filltoborder"
  | .reset => "reset"

end Quill
