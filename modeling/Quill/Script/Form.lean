import Quill.Json.Reader
import Quill.Json.Writer
import Quill.Script.Command

/-!
# The written form of commands

A command is written as a record whose field `op` names the kind of command, followed by its
arguments.  It may also be read from an array that starts with that name.  Lists of dashes, the
mode of a path command and the details of an arc may be left out.
-/

namespace Quill.Command

open Json Json.FieldReader

/-- The name of a kind of command, and its arguments in their order. -/
structure Form where
  name : String
  fields : List (String × Value) := []

def settingForm : Setting → Form
  | .paintName .fill name => ⟨"fill_color", [("color", encode name)]⟩
  | .paint .fill color => ⟨"fill_rgba", [("color", encode color)]⟩
  | .paintPattern .fill url => ⟨"fill_pattern_url", [("url", encode url)]⟩
  | .paintOpacity .fill opacity => ⟨"fill_opacity", [("opacity", encode opacity)]⟩
  | .fillRule rule => ⟨"fill_rule", [("rule", encode rule)]⟩
  | .opacity opacity => ⟨"opacity", [("opacity", encode opacity)]⟩
  | .paintName .stroke name => ⟨"stroke_color", [("color", encode name)]⟩
  | .paint .stroke color => ⟨"stroke_rgba", [("color", encode color)]⟩
  | .paintPattern .stroke url => ⟨"stroke_pattern_url", [("url", encode url)]⟩
  | .paintOpacity .stroke opacity => ⟨"stroke_opacity", [("opacity", encode opacity)]⟩
  | .measure .strokeWidth width => ⟨"stroke_width", [("width", encode width)]⟩
  | .dashes lengths => ⟨"stroke_dash_array", [("dashes", encode lengths)]⟩
  | .measure .dashOffset offset => ⟨"stroke_dash_offset", [("offset", encode offset)]⟩
  | .lineCap cap => ⟨"stroke_line_cap", [("cap", encode cap)]⟩
  | .lineJoin join => ⟨"stroke_line_join", [("join", encode join)]⟩
  | .miterLimit limit => ⟨"stroke_miter_limit", [("limit", encode limit)]⟩
  | .antialias .stroke enabled => ⟨"stroke_antialias", [("enabled", encode enabled)]⟩
  | .clipPath id => ⟨"clip_path", [("id", encode id)]⟩
  | .clipRule rule => ⟨"clip_rule", [("rule", encode rule)]⟩
  | .clipUnits units => ⟨"clip_units", [("units", encode units)]⟩
  | .bounds box =>
    ⟨"object_bounds", [("x1", encode box.x0), ("y1", encode box.y0), ("x2", encode box.x1),
      ("y2", encode box.y1)]⟩
  | .label .font name => ⟨"font", [("name", encode name)]⟩
  | .label .fontFamily family => ⟨"font_family", [("family", encode family)]⟩
  | .measure .fontSize size => ⟨"font_size", [("size", encode size)]⟩
  | .fontStyle style => ⟨"font_style", [("style", encode style)]⟩
  | .fontWeight weight => ⟨"font_weight", [("weight", encode weight)]⟩
  | .fontStretch stretch => ⟨"font_stretch", [("stretch", encode stretch)]⟩
  | .antialias .text enabled => ⟨"text_antialias", [("enabled", encode enabled)]⟩
  | .decoration decoration => ⟨"text_decoration", [("decoration", encode decoration)]⟩
  | .accentName .undercolor name => ⟨"text_under_color", [("color", encode name)]⟩
  | .accentName .border name => ⟨"border_color", [("color", encode name)]⟩
  | .label .encoding encoding => ⟨"text_encoding", [("encoding", encode encoding)]⟩
  | .gravity gravity => ⟨"gravity", [("gravity", encode gravity)]⟩
  | .alignment alignment => ⟨"text_alignment", [("alignment", encode alignment)]⟩
  | .direction direction => ⟨"text_direction", [("direction", encode direction)]⟩
  | .measure .kerning kerning => ⟨"text_kerning", [("kerning", encode kerning)]⟩
  | .measure .interline spacing => ⟨"text_interline_spacing", [("spacing", encode spacing)]⟩
  | .measure .interword spacing => ⟨"text_interword_spacing", [("spacing", encode spacing)]⟩

def motionForm : Motion → Form
  | .affine map => ⟨"affine", [("coeffs", encode map)]⟩
  | .rotate degrees => ⟨"rotate", [("degrees", encode degrees)]⟩
  | .scale x y => ⟨"scale", [("x", encode x), ("y", encode y)]⟩
  | .skewX degrees => ⟨"skew_x", [("degrees", encode degrees)]⟩
  | .skewY degrees => ⟨"skew_y", [("degrees", encode degrees)]⟩
  | .translate x y => ⟨"translate", [("x", encode x), ("y", encode y)]⟩

def shapeForm : Shape → Form
  | .point x y => ⟨"point", [("x", encode x), ("y", encode y)]⟩
  | .line sx sy ex ey =>
    ⟨"line", [("sx", encode sx), ("sy", encode sy), ("ex", encode ex), ("ey", encode ey)]⟩
  | .rectangle x1 y1 x2 y2 =>
    ⟨"rectangle",
      [("x1", encode x1), ("y1", encode y1), ("x2", encode x2), ("y2", encode y2)]⟩
  | .roundRectangle x1 y1 x2 y2 rx ry =>
    ⟨"round_rectangle",
      [("x1", encode x1), ("y1", encode y1), ("x2", encode x2), ("y2", encode y2),
        ("rx", encode rx), ("ry", encode ry)]⟩
  | .circle ox oy px py =>
    ⟨"circle", [("ox", encode ox), ("oy", encode oy), ("px", encode px), ("py", encode py)]⟩
  | .ellipse ox oy rx ry start stop =>
    ⟨"ellipse",
      [("ox", encode ox), ("oy", encode oy), ("rx", encode rx), ("ry", encode ry),
        ("start", encode start), ("end", encode stop)]⟩
  | .arc sx sy ex ey start stop =>
    ⟨"arc",
      [("sx", encode sx), ("sy", encode sy), ("ex", encode ex), ("ey", encode ey),
        ("start", encode start), ("end", encode stop)]⟩
  | .bezier points => ⟨"bezier", [("points", encode points)]⟩
  | .polygon points => ⟨"polygon", [("points", encode points)]⟩
  | .polyline points => ⟨"polyline", [("points", encode points)]⟩
  | .caption x y text =>
    ⟨"annotation", [("x", encode x), ("y", encode y), ("text", encode text)]⟩
  | .color x y method =>
    ⟨"color", [("x", encode x), ("y", encode y), ("method", encode method)]⟩
  | .matte x y method =>
    ⟨"matte", [("x", encode x), ("y", encode y), ("method", encode method)]⟩
  | .viewbox x1 y1 x2 y2 =>
    ⟨"viewbox",
      [("x1", encode x1), ("y1", encode y1), ("x2", encode x2), ("y2", encode y2)]⟩

/-- The form of a path command, apart from its mode. -/
def segmentForm : Path.Segment → Form
  | .move x y => ⟨"path_move_to", [("x", encode x), ("y", encode y)]⟩
  | .line x y => ⟨"path_line_to", [("x", encode x), ("y", encode y)]⟩
  | .horizontal x => ⟨"path_line_to_horizontal", [("x", encode x)]⟩
  | .vertical y => ⟨"path_line_to_vertical", [("y", encode y)]⟩
  | .curve x1 y1 x2 y2 x y =>
    ⟨"path_curve_to",
      [("x1", encode x1), ("y1", encode y1), ("x2", encode x2), ("y2", encode y2),
        ("x", encode x), ("y", encode y)]⟩
  | .quadratic x1 y1 x y =>
    ⟨"path_curve_to_quadratic_bezier",
      [("x1", encode x1), ("y1", encode y1), ("x", encode x), ("y", encode y)]⟩
  | .smoothQuadratic x y =>
    ⟨"path_curve_to_quadratic_bezier_smooth", [("x", encode x), ("y", encode y)]⟩
  | .smoothCurve x2 y2 x y =>
    ⟨"path_curve_to_smooth",
      [("x2", encode x2), ("y2", encode y2), ("x", encode x), ("y", encode y)]⟩
  | .arc rx ry rotation large sweep x y =>
    ⟨"path_elliptic_arc",
      [("rx", encode rx), ("ry", encode ry), ("rotation", encode rotation),
        ("large_arc", encode large), ("sweep", encode sweep), ("x", encode x),
        ("y", encode y)]⟩

def pathForm : Path.Step → Form
  | .start => ⟨"path_start", []⟩
  | .finish => ⟨"path_finish", []⟩
  | .close => ⟨"path_close", []⟩
  | .segment mode command =>
    let form := segmentForm command
    ⟨form.name, ("mode", encode mode) :: form.fields⟩

def bracketForm : Bracket → Form
  | .openScope => ⟨"push_graphic_context", []⟩
  | .closeScope => ⟨"pop_graphic_context", []⟩
  | .openPattern id x y width height =>
    ⟨"push_pattern",
      [("id", encode id), ("x", encode x), ("y", encode y), ("width", encode width),
        ("height", encode height)]⟩
  | .closePattern => ⟨"pop_pattern", []⟩
  | .openClipPath id => ⟨"push_clip_path", [("id", encode id)]⟩
  | .closeClipPath => ⟨"pop_clip_path", []⟩
  | .openDefs => ⟨"push_defs", []⟩
  | .closeDefs => ⟨"pop_defs", []⟩

def form : Command → Form
  | .instruct (.setting change) => settingForm change
  | .instruct (.motion move) => motionForm move
  | .instruct (.shape figure) => shapeForm figure
  | .instruct (.path step) => pathForm step
  | .instruct (.bracket edge) => bracketForm edge
  | .instruct (.comment text) => ⟨"comment", [("text", encode text)]⟩
  | .composite placement source =>
    ⟨"composite",
      [("operator", encode placement.operator), ("x", encode placement.x),
        ("y", encode placement.y), ("width", encode placement.width),
        ("height", encode placement.height), ("source", encode source)]⟩

/-- Read the mode of a path command, which is absolute if it is left out. -/
def takeMode : FieldReader Path.Mode :=
  defaulted "mode" .absolute

def settingReader? : String → Option (FieldReader Setting)
  | "fill_color" => some do return .paintName .fill (← required "color")
  | "fill_rgba" => some do return .paint .fill (← required "color")
  | "fill_pattern_url" => some do return .paintPattern .fill (← required "url")
  | "fill_opacity" => some do return .paintOpacity .fill (← required "opacity")
  | "fill_rule" => some do return .fillRule (← required "rule")
  | "opacity" => some do return .opacity (← required "opacity")
  | "stroke_color" => some do return .paintName .stroke (← required "color")
  | "stroke_rgba" => some do return .paint .stroke (← required "color")
  | "stroke_pattern_url" => some do return .paintPattern .stroke (← required "url")
  | "stroke_opacity" => some do return .paintOpacity .stroke (← required "opacity")
  | "stroke_width" => some do return .measure .strokeWidth (← required "width")
  | "stroke_dash_array" => some do return .dashes (← defaulted "dashes" [])
  | "stroke_dash_offset" => some do return .measure .dashOffset (← required "offset")
  | "stroke_line_cap" => some do return .lineCap (← required "cap")
  | "stroke_line_join" => some do return .lineJoin (← required "join")
  | "stroke_miter_limit" => some do return .miterLimit (← required "limit")
  | "stroke_antialias" => some do return .antialias .stroke (← required "enabled")
  | "clip_path" => some do return .clipPath (← required "id")
  | "clip_rule" => some do return .clipRule (← required "rule")
  | "clip_units" => some do return .clipUnits (← required "units")
  | "object_bounds" => some do
    return .bounds ⟨← required "x1", ← required "y1", ← required "x2", ← required "y2"⟩
  | "font" => some do return .label .font (← required "name")
  | "font_family" => some do return .label .fontFamily (← required "family")
  | "font_size" => some do return .measure .fontSize (← required "size")
  | "font_style" => some do return .fontStyle (← required "style")
  | "font_weight" => some do return .fontWeight (← required "weight")
  | "font_stretch" => some do return .fontStretch (← required "stretch")
  | "text_antialias" => some do return .antialias .text (← required "enabled")
  | "text_decoration" => some do return .decoration (← required "decoration")
  | "text_under_color" => some do return .accentName .undercolor (← required "color")
  | "border_color" => some do return .accentName .border (← required "color")
  | "text_encoding" => some do return .label .encoding (← required "encoding")
  | "gravity" => some do return .gravity (← required "gravity")
  | "text_alignment" => some do return .alignment (← required "alignment")
  | "text_direction" => some do return .direction (← required "direction")
  | "text_kerning" => some do return .measure .kerning (← required "kerning")
  | "text_interline_spacing" => some do return .measure .interline (← required "spacing")
  | "text_interword_spacing" => some do return .measure .interword (← required "spacing")
  | _ => none

def motionReader? : String → Option (FieldReader Motion)
  | "affine" => some do return .affine (← required "coeffs")
  | "rotate" => some do return .rotate (← required "degrees")
  | "scale" => some do return .scale (← required "x") (← required "y")
  | "skew_x" => some do return .skewX (← required "degrees")
  | "skew_y" => some do return .skewY (← required "degrees")
  | "translate" => some do return .translate (← required "x") (← required "y")
  | _ => none

def shapeReader? : String → Option (FieldReader Shape)
  | "point" => some do return .point (← required "x") (← required "y")
  | "line" => some do
    return .line (← required "sx") (← required "sy") (← required "ex") (← required "ey")
  | "rectangle" => some do
    return .rectangle (← required "x1") (← required "y1") (← required "x2") (← required "y2")
  | "round_rectangle" => some do
    return .roundRectangle (← required "x1") (← required "y1") (← required "x2")
      (← required "y2") (← required "rx") (← required "ry")
  | "circle" => some do
    return .circle (← required "ox") (← required "oy") (← required "px") (← required "py")
  | "ellipse" => some do
    return .ellipse (← required "ox") (← required "oy") (← required "rx") (← required "ry")
      (← required "start") (← required "end")
  | "arc" => some do
    return .arc (← required "sx") (← required "sy") (← required "ex") (← required "ey")
      (← required "start") (← required "end")
  | "bezier" => some do return .bezier (← required "points")
  | "polygon" => some do return .polygon (← required "points")
  | "polyline" => some do return .polyline (← required "points")
  | "annotation" => some do
    return .caption (← required "x") (← required "y") (← required "text")
  | "color" => some do return .color (← required "x") (← required "y") (← required "method")
  | "matte" => some do return .matte (← required "x") (← required "y") (← required "method")
  | "viewbox" => some do
    return .viewbox (← required "x1") (← required "y1") (← required "x2") (← required "y2")
  | _ => none

/-- Read the arguments of a path command behind its mode. -/
def segmentReader? : String → Option (FieldReader Path.Segment)
  | "path_move_to" => some do return .move (← required "x") (← required "y")
  | "path_line_to" => some do return .line (← required "x") (← required "y")
  | "path_line_to_horizontal" => some do return .horizontal (← required "x")
  | "path_line_to_vertical" => some do return .vertical (← required "y")
  | "path_curve_to" => some do
    return .curve (← required "x1") (← required "y1") (← required "x2") (← required "y2")
      (← required "x") (← required "y")
  | "path_curve_to_quadratic_bezier" => some do
    return .quadratic (← required "x1") (← required "y1") (← required "x") (← required "y")
  | "path_curve_to_quadratic_bezier_smooth" => some do
    return .smoothQuadratic (← required "x") (← required "y")
  | "path_curve_to_smooth" => some do
    return .smoothCurve (← required "x2") (← required "y2") (← required "x") (← required "y")
  | "path_elliptic_arc" => some do
    return .arc (← required "rx") (← required "ry") (← defaulted "rotation" 0)
      (← defaulted "large_arc" false) (← defaulted "sweep" false) (← required "x")
      (← required "y")
  | _ => none

def bracketReader? : String → Option (FieldReader Bracket)
  | "push_graphic_context" => some (return .openScope)
  | "pop_graphic_context" => some (return .closeScope)
  | "push_pattern" => some do
    return .openPattern (← required "id") (← required "x") (← required "y")
      (← required "width") (← required "height")
  | "pop_pattern" => some (return .closePattern)
  | "push_clip_path" => some do return .openClipPath (← required "id")
  | "pop_clip_path" => some (return .closeClipPath)
  | "push_defs" => some (return .openDefs)
  | "pop_defs" => some (return .closeDefs)
  | _ => none

def otherReader? : String → Option (FieldReader Command)
  | "comment" => some do return .instruct (.comment (← required "text"))
  | "path_start" => some (return path .start)
  | "path_finish" => some (return path .finish)
  | "path_close" => some (return path .close)
  | "composite" => some do
    let placement := {
      operator := ← required "operator"
      x := ← required "x"
      y := ← required "y"
      width := ← required "width"
      height := ← required "height" }
    return .composite placement (← required "source")
  | _ => none

/-- Read the arguments of a command of a given name. -/
def reader? (name : String) : Option (FieldReader Command) :=
  (settingReader? name).map (setting <$> ·) <|>
  (motionReader? name).map (motion <$> ·) <|>
  (shapeReader? name).map (shape <$> ·) <|>
  (segmentReader? name).map (fun reader => do return segment (← takeMode) (← reader)) <|>
  (bracketReader? name).map (bracket <$> ·) <|>
  otherReader? name

/-- In a command an empty object may stand behind a word where other data has `null`. -/
def argument : Value → Value
  | .object [(word, .object [])] => .object [(word, .null)]
  | value => value

/-- Everything in a command has to be readable, also fields that it does not have. -/
def ofValue? : Value → Option Command
  | .object fields =>
    match fields.filter (·.1 == "op") with
    | [(_, .string name)] =>
      if Value.soundFields fields then
        let arguments := (fields.filter (·.1 != "op")).map fun (field, value) =>
          (field, argument value)
        (reader? name).bind fun reader => FieldReader.run? reader (.named arguments)
      else none
    | _ => none
  | .array (.string name :: items) =>
    if Value.soundItems items then
      (reader? name).bind fun reader => FieldReader.run? reader (.listed (items.map argument))
    else none
  | _ => none

instance : Codec Command where
  encode command := .object (("op", encode command.form.name) :: command.form.fields)
  decode := ofValue?

end Quill.Command
