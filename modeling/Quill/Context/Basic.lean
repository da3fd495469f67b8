import Quill.Color.Basic
import Quill.Context.Attribute
import Quill.Transform

/-!
# Drawing contexts

A context holds every attribute that later instructions inherit.  Attributes that are set in
the same way are grouped: the two paints, the lengths, the quoted names, the accent colors and
the antialiasing flags are each reached through an index.
-/

namespace Quill

/-- A paint: a color, whose alpha is the opacity, and the pattern drawn in its place. -/
structure Paint where
  color : Rgba
  pattern : Option String := none
  deriving DecidableEq, Repr

/-- The two paints of a shape. -/
inductive Side where
  | fill
  | stroke
  deriving DecidableEq, Repr

def Side.word : Side → String
  | .fill => "fill"
  | .stroke => "stroke"

/-- The attributes that are lengths. -/
inductive Measure where
  | strokeWidth
  | dashOffset
  | fontSize
  | kerning
  | interline
  | interword
  deriving DecidableEq, Repr

def Measure.word : Measure → String
  | .strokeWidth => "stroke-width"
  | .dashOffset => "stroke-dashoffset"
  | .fontSize => "font-size"
  | .kerning => "kerning"
  | .interline => "interline-spacing"
  | .interword => "interword-spacing"

/-- The attributes that are quoted names. -/
inductive Label where
  | font
  | fontFamily
  | encoding
  deriving DecidableEq, Repr

def Label.word : Label → String
  | .font => "font"
  | .fontFamily => "font-family"
  | .encoding => "encoding"

/-- What a missing name is called in messages. -/
def Label.argument : Label → String
  | .font => "font"
  | .fontFamily => "font_family"
  | .encoding => "encoding"

/-- The colors that are neither fill nor stroke. -/
inductive Accent where
  | undercolor
  | border
  deriving DecidableEq, Repr

def Accent.word : Accent → String
  | .undercolor => "text-undercolor"
  | .border => "border-color"

/-- What antialiasing applies to. -/
inductive Smoothing where
  | stroke
  | text
  deriving DecidableEq, Repr

def Smoothing.word : Smoothing → String
  | .stroke => "stroke-antialias"
  | .text => "text-antialias"

/-- Every attribute that instructions inherit.  `alpha` is the general opacity, which paints
take on when they are set. -/
structure Context where
  fill : Paint := ⟨.black, none⟩
  fillRule : FillRule := .evenOdd
  stroke : Paint := ⟨.noPaint, none⟩
  strokeWidth : Float := 1
  dashes : List Float := []
  dashOffset : Float := 0
  lineCap : LineCap := .butt
  lineJoin : LineJoin := .miter
  miterLimit : UInt32 := 10
  strokeAntialias : Bool := true
  alpha : UInt8 := 255
  font : Option String := none
  fontFamily : Option String := none
  fontSize : Float := 12
  fontStyle : FontStyle := .normal
  fontWeight : UInt32 := 400
  fontStretch : FontStretch := .normal
  textAntialias : Bool := true
  decoration : Decoration := .plain
  undercolor : Rgba := .noPaint
  borderColor : Rgba := .noPaint
  encoding : Option String := none
  gravity : Gravity := .undefined
  alignment : Alignment := .undefined
  direction : Direction := .undefined
  kerning : Float := 0
  interline : Float := 0
  interword : Float := 0
  transform : Transform := .identity
  clipPath : Option String := none
  clipRule : FillRule := .evenOdd
  clipUnits : ClipUnits := .userSpaceOnUse
  bounds : Rectangle := .zero

namespace Context

def paint (context : Context) : Side → Paint
  | .fill => context.fill
  | .stroke => context.stroke

def setPaint (context : Context) (side : Side) (paint : Paint) : Context :=
  match side with
  | .fill => { context with fill := paint }
  | .stroke => { context with stroke := paint }

def measure (context : Context) : Measure → Float
  | .strokeWidth => context.strokeWidth
  | .dashOffset => context.dashOffset
  | .fontSize => context.fontSize
  | .kerning => context.kerning
  | .interline => context.interline
  | .interword => context.interword

def setMeasure (context : Context) (measure : Measure) (value : Float) : Context :=
  match measure with
  | .strokeWidth => { context with strokeWidth := value }
  | .dashOffset => { context with dashOffset := value }
  | .fontSize => { context with fontSize := value }
  | .kerning => { context with kerning := value }
  | .interline => { context with interline := value }
  | .interword => { context with interword := value }

def label (context : Context) : Label → Option String
  | .font => context.font
  | .fontFamily => context.fontFamily
  | .encoding => context.encoding

def setLabel (context : Context) (label : Label) (text : String) : Context :=
  match label with
  | .font => { context with font := some text }
  | .fontFamily => { context with fontFamily := some text }
  | .encoding => { context with encoding := some text }

def accent (context : Context) : Accent → Rgba
  | .undercolor => context.undercolor
  | .border => context.borderColor

def setAccent (context : Context) (accent : Accent) (color : Rgba) : Context :=
  match accent with
  | .undercolor => { context with undercolor := color }
  | .border => { context with borderColor := color }

def antialias (context : Context) : Smoothing → Bool
  | .stroke => context.strokeAntialias
  | .text => context.textAntialias

def setAntialias (context : Context) (smoothing : Smoothing) (enabled : Bool) : Context :=
  match smoothing with
  | .stroke => { context with strokeAntialias := enabled }
  | .text => { context with textAntialias := enabled }

/-- Put a change in front of the transform. -/
def composeTransform (context : Context) (change : Transform) : Context :=
  { context with transform := context.transform.compose change }

/-- The general opacity, from 0 to 1. -/
def opacity (context : Context) : Float :=
  opacityOfAlpha context.alpha

/-- The opacity of one of the paints, from 0 to 1. -/
def paintOpacity (context : Context) (side : Side) : Float :=
  opacityOfAlpha (context.paint side).color.a

end Context

end Quill
