import Quill.Drawing.Plan

/-!
# Settings of attributes

A setting gives one attribute of the context in force a new value and writes it as one line.
Names are checked before anything is written: colors have to be known, and patterns and clip
paths have to be finished.
-/

namespace Quill

inductive Setting where
  | paintName (side : Side) (name : String)
  | paint (side : Side) (color : Rgba)
  | paintPattern (side : Side) (url : String)
  | paintOpacity (side : Side) (opacity : Float)
  | opacity (opacity : Float)
  | fillRule (rule : FillRule)
  | measure (measure : Measure) (value : Float)
  | dashes (lengths : List Float)
  | lineCap (cap : LineCap)
  | lineJoin (join : LineJoin)
  | miterLimit (limit : UInt32)
  | antialias (smoothing : Smoothing) (enabled : Bool)
  | clipPath (id : String)
  | clipRule (rule : FillRule)
  | clipUnits (units : ClipUnits)
  | bounds (rectangle : Rectangle)
  | label (label : Label) (text : String)
  | fontStyle (style : FontStyle)
  | fontWeight (weight : UInt32)
  | fontStretch (stretch : FontStretch)
  | decoration (decoration : Decoration)
  | accentName (accent : Accent) (name : String)
  | gravity (gravity : Gravity)
  | alignment (alignment : Alignment)
  | direction (direction : Direction)

/-- The difference from which on two lengths count as different. -/
def tolerance : Float := 1e-12

/-- Whether two lengths differ; an undefined length differs from none. -/
def lengthsDiffer (first second : Float) : Bool :=
  tolerance ≤ (first - second).abs

def dashesDiffer (first second : List Float) : Bool :=
  first.length != second.length || (first.zip second).any fun (a, b) => lengthsDiffer a b

def dashText (lengths : List Float) : String :=
  if lengths.isEmpty then "none" else ",".intercalate (lengths.map Number.coordinate)

def quotedColor (color : Rgba) : String :=
  "'" ++ color.text ++ "'"

namespace Drawing

/-- Set a paint to a color, which takes on the general opacity. -/
def paintPlan (drawing : Drawing) (side : Side) (color : Rgba) : Plan :=
  let coupled := color.couple drawing.context.alpha
  let held := drawing.context.paint side
  drawing.update (held.color != coupled || held.pattern.isSome)
    (side.word ++ " " ++ quotedColor coupled) (·.setPaint side ⟨coupled, none⟩)

/-- Set a paint to a pattern.  The color below it takes on the general opacity. -/
def patternPlan (drawing : Drawing) (side : Side) (id : String) : Plan :=
  let held := drawing.context.paint side
  let color := held.color.couple drawing.context.alpha
  drawing.update (held.pattern != some id) (side.word ++ " url(#" ++ id ++ ")")
    (·.setPaint side ⟨color, some id⟩)

def paintOpacityPlan (drawing : Drawing) (side : Side) (opacity : Float) : Plan :=
  let alpha := alphaOfOpacity opacity
  let held := drawing.context.paint side
  drawing.update (held.color.a != alpha)
    (side.word ++ "-opacity " ++ Number.coordinate opacity)
    (·.setPaint side { held with color := held.color.withAlpha alpha })

def measurePlan (drawing : Drawing) (measure : Measure) (value : Float) : Plan :=
  drawing.update (lengthsDiffer (drawing.context.measure measure) value)
    (measure.word ++ " " ++ Number.coordinate value) (·.setMeasure measure value)

def labelPlan (drawing : Drawing) (label : Label) (text : String) : Plan :=
  drawing.update (drawing.context.label label != some text)
    (label.word ++ " " ++ Text.Quoted.literal text) (·.setLabel label text)

def accentPlan (drawing : Drawing) (accent : Accent) (color : Rgba) : Plan :=
  drawing.update (drawing.context.accent accent != color)
    (accent.word ++ " " ++ quotedColor color) (·.setAccent accent color)

/-- Clip to a finished clip path. -/
def clipPathPlan (drawing : Drawing) (id : String) : Plan :=
  if drawing.clipPaths.contains id then
    drawing.update (drawing.context.clipPath != some id) ("clip-path url(#" ++ id ++ ")")
      ({ · with clipPath := some id })
  else
    .refuse (.undefinedReference id)

/-- Set the clip units.  Units relative to an object also put the map of its bounds in front
of the transform, if the bounds have an area. -/
def clipUnitsPlan (drawing : Drawing) (units : ClipUnits) : Plan :=
  let bounds := drawing.context.bounds
  drawing.update (drawing.context.clipUnits != units) ("clip-units " ++ units.token)
    fun context =>
      let changed := { context with clipUnits := units }
      if units = .objectBoundingBox ∧ 0 < bounds.area then
        changed.composeTransform bounds.unitMap
      else changed

end Drawing

def Setting.plan (tools : Tools) (drawing : Drawing) : Setting → Plan
  | .paintName side name =>
    .checked (Drawing.resolveColor tools name) fun color => drawing.paintPlan side color
  | .paint side color => drawing.paintPlan side color
  | .paintPattern side url =>
    .checked (drawing.patternReference url) fun id => drawing.patternPlan side id
  | .paintOpacity side value => drawing.paintOpacityPlan side value
  | .opacity value =>
    let alpha := alphaOfOpacity value
    drawing.update (drawing.context.alpha != alpha) ("opacity " ++ Number.coordinate value)
      ({ · with alpha := alpha })
  | .fillRule rule =>
    drawing.update (drawing.context.fillRule != rule) ("fill-rule " ++ rule.token)
      ({ · with fillRule := rule })
  | .measure index value => drawing.measurePlan index value
  | .dashes lengths =>
    drawing.update (dashesDiffer drawing.context.dashes lengths)
      ("stroke-dasharray " ++ dashText lengths) ({ · with dashes := lengths })
  | .lineCap cap =>
    drawing.update (drawing.context.lineCap != cap) ("stroke-linecap " ++ cap.token)
      ({ · with lineCap := cap })
  | .lineJoin join =>
    drawing.update (drawing.context.lineJoin != join) ("stroke-linejoin " ++ join.token)
      ({ · with lineJoin := join })
  | .miterLimit limit =>
    drawing.update (drawing.context.miterLimit != limit)
      ("stroke-miterlimit " ++ toString limit.toNat) ({ · with miterLimit := limit })
  | .antialias smoothing enabled =>
    drawing.update (drawing.context.antialias smoothing != enabled)
      (smoothing.word ++ " " ++ Path.flag enabled) (·.setAntialias smoothing enabled)
  | .clipPath id =>
    .checked (Drawing.require "clip_path" id) fun id => drawing.clipPathPlan id
  | .clipRule rule =>
    drawing.update (drawing.context.clipRule != rule) ("clip-rule " ++ rule.token)
      ({ · with clipRule := rule })
  | .clipUnits units => drawing.clipUnitsPlan units
  | .bounds rectangle => .adjust ({ · with bounds := rectangle })
  | .label index text =>
    .checked (Drawing.require index.argument text) fun text => drawing.labelPlan index text
  | .fontStyle style =>
    drawing.update (drawing.context.fontStyle != style) ("font-style " ++ style.token)
      ({ · with fontStyle := style })
  | .fontWeight weight =>
    drawing.update (drawing.context.fontWeight != weight)
      ("font-weight " ++ toString weight.toNat) ({ · with fontWeight := weight })
  | .fontStretch stretch =>
    drawing.update (drawing.context.fontStretch != stretch) ("font-stretch " ++ stretch.token)
      ({ · with fontStretch := stretch })
  | .decoration mark =>
    drawing.update (drawing.context.decoration != mark) ("decorate " ++ mark.token)
      ({ · with decoration := mark })
  | .accentName accent name =>
    .checked (Drawing.resolveColor tools name) fun color => drawing.accentPlan accent color
  | .gravity anchor =>
    drawing.updateSpelled (drawing.context.gravity != anchor) "gravity" anchor.token?
      ({ · with gravity := anchor })
  | .alignment side =>
    drawing.updateSpelled (drawing.context.alignment != side) "text-align"
      side.token? ({ · with alignment := side })
  | .direction run =>
    drawing.updateSpelled (drawing.context.direction != run) "direction"
      run.token? ({ · with direction := run })

end Quill
