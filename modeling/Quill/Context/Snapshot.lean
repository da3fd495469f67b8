import Quill.Context.Basic

/-!
# Context snapshots

A context is written to a data file as one record, in which paint colors and patterns are
fields of their own, and is read back from it.  Only names and patterns may be left out.
-/

namespace Quill

open Json Json.FieldReader

def Context.fields (context : Context) : List (String × Value) :=
  [("fill", encode context.fill.color),
    ("fill_pattern", encode context.fill.pattern),
    ("fill_rule", encode context.fillRule),
    ("stroke", encode context.stroke.color),
    ("stroke_pattern", encode context.stroke.pattern),
    ("stroke_width", encode context.strokeWidth),
    ("dash_array", encode context.dashes),
    ("dash_offset", encode context.dashOffset),
    ("line_cap", encode context.lineCap),
    ("line_join", encode context.lineJoin),
    ("miter_limit", encode context.miterLimit),
    ("stroke_antialias", encode context.strokeAntialias),
    ("alpha", encode context.alpha),
    ("font", encode context.font),
    ("font_family", encode context.fontFamily),
    ("point_size", encode context.fontSize),
    ("font_style", encode context.fontStyle),
    ("font_weight", encode context.fontWeight),
    ("font_stretch", encode context.fontStretch),
    ("text_antialias", encode context.textAntialias),
    ("decoration", encode context.decoration),
    ("undercolor", encode context.undercolor),
    ("border_color", encode context.borderColor),
    ("encoding", encode context.encoding),
    ("gravity", encode context.gravity),
    ("text_alignment", encode context.alignment),
    ("direction", encode context.direction),
    ("kerning", encode context.kerning),
    ("interline_spacing", encode context.interline),
    ("interword_spacing", encode context.interword),
    ("affine", encode context.transform),
    ("clip_path", encode context.clipPath),
    ("clip_rule", encode context.clipRule),
    ("clip_units", encode context.clipUnits),
    ("bounds", encode context.bounds)]

def Context.reader : FieldReader Context := do
  let fill ← required "fill"
  let fillPattern ← nullable "fill_pattern"
  let fillRule ← required "fill_rule"
  let stroke ← required "stroke"
  let strokePattern ← nullable "stroke_pattern"
  return {
    fill := ⟨fill, fillPattern⟩
    fillRule := fillRule
    stroke := ⟨stroke, strokePattern⟩
    strokeWidth := ← required "stroke_width"
    dashes := ← required "dash_array"
    dashOffset := ← required "dash_offset"
    lineCap := ← required "line_cap"
    lineJoin := ← required "line_join"
    miterLimit := ← required "miter_limit"
    strokeAntialias := ← required "stroke_antialias"
    alpha := ← required "alpha"
    font := ← nullable "font"
    fontFamily := ← nullable "font_family"
    fontSize := ← required "point_size"
    fontStyle := ← required "font_style"
    fontWeight := ← required "font_weight"
    fontStretch := ← required "font_stretch"
    textAntialias := ← required "text_antialias"
    decoration := ← required "decoration"
    undercolor := ← required "undercolor"
    borderColor := ← required "border_color"
    encoding := ← nullable "encoding"
    gravity := ← required "gravity"
    alignment := ← required "text_alignment"
    direction := ← required "direction"
    kerning := ← required "kerning"
    interline := ← required "interline_spacing"
    interword := ← required "interword_spacing"
    transform := ← required "affine"
    clipPath := ← nullable "clip_path"
    clipRule := ← required "clip_rule"
    clipUnits := ← required "clip_units"
    bounds := ← required "bounds" }

instance : Codec Context where
  encode context := .object context.fields
  decode value := value.readRecord? Context.reader

end Quill
