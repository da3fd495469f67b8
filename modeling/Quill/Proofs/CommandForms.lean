import Quill.Proofs.AttributeCodecs
import Quill.Proofs.PathDrawing
import Quill.Script.Form

/-!
# Commands that are read back from their form

The name of a form finds the reader of the same kind of command, and that reader takes the form's
fields in the order in which they are written.  Both are shown kind by kind; what a list of
commands needs beyond that is that its numbers can be written.
-/

namespace Quill

open Json Command

section Numbers

def Setting.numbers : Setting → List Float
  | .paintOpacity _ value | .opacity value | .measure _ value => [value]
  | .dashes lengths => lengths
  | .bounds rectangle => rectangle.numbers
  | _ => []

def Motion.numbers : Motion → List Float
  | .affine map => map.coefficients
  | .rotate degrees | .skewX degrees | .skewY degrees => [degrees]
  | .scale x y | .translate x y => [x, y]

def Shape.numbers : Shape → List Float
  | .point x y | .caption x y _ | .color x y _ | .matte x y _ => [x, y]
  | .line sx sy ex ey => [sx, sy, ex, ey]
  | .rectangle x1 y1 x2 y2 => [x1, y1, x2, y2]
  | .roundRectangle x1 y1 x2 y2 rx ry => [x1, y1, x2, y2, rx, ry]
  | .circle ox oy px py => [ox, oy, px, py]
  | .ellipse ox oy rx ry start stop => [ox, oy, rx, ry, start, stop]
  | .arc sx sy ex ey start stop => [sx, sy, ex, ey, start, stop]
  | .bezier points | .polygon points | .polyline points =>
    points.flatMap fun point => [point.1, point.2]
  | .viewbox .. => []

def Shape.integers : Shape → List ℤ
  | .viewbox x1 y1 x2 y2 => [x1, y1, x2, y2]
  | _ => []

def Path.Step.numbers : Path.Step → List Float
  | .segment _ command => command.numbers
  | _ => []

def Bracket.numbers : Bracket → List Float
  | .openPattern _ x y width height => [x, y, width, height]
  | _ => []

def Command.numbers : Command → List Float
  | .instruct (.setting change) => change.numbers
  | .instruct (.motion move) => move.numbers
  | .instruct (.shape figure) => figure.numbers
  | .instruct (.path step) => step.numbers
  | .instruct (.bracket edge) => edge.numbers
  | .instruct (.comment _) => []
  | .composite placement _ => [placement.x, placement.y, placement.width, placement.height]

def Command.integers : Command → List ℤ
  | .instruct (.shape figure) => figure.integers
  | _ => []

end Numbers

variable {room : ℕ}

/-- The reader that a form's name finds takes the form's fields. -/
def Command.Form.Gives {α : Type} (form : Form) (reader? : String → Option (FieldReader α))
    (room : ℕ) (x : α) : Prop :=
  ∃ reader, reader? form.name = some reader ∧ ∀ all, Reads room all form.fields reader x

theorem settingForm_gives {change : Setting}
    (finite : ∀ number ∈ change.numbers, Number.isFinite number) :
    (settingForm change).Gives settingReader? (room + 1) change := by
  cases change with
  | paintName side name =>
      cases side <;> exact ⟨_, rfl, fun _ => .required (codes_string _) .done⟩
  | paint side color =>
      cases side <;> exact ⟨_, rfl, fun _ => .required (Rgba.codes _) .done⟩
  | paintPattern side url =>
      cases side <;> exact ⟨_, rfl, fun _ => .required (codes_string _) .done⟩
  | paintOpacity side value =>
      have single := List.forall_mem_singleton.mp finite
      cases side <;> exact ⟨_, rfl, fun _ => .required (codes_double single) .done⟩
  | opacity value =>
      have single := List.forall_mem_singleton.mp finite
      exact ⟨_, rfl, fun _ => .required (codes_double single) .done⟩
  | fillRule rule => exact ⟨_, rfl, fun _ => .required (codes_keyword _) .done⟩
  | measure measure value =>
      have single := List.forall_mem_singleton.mp finite
      cases measure <;> exact ⟨_, rfl, fun _ => .required (codes_double single) .done⟩
  | dashes lengths =>
      exact ⟨_, rfl, fun _ => .defaulted
        (codes_list fun number member => codes_double (finite number member)) .done⟩
  | lineCap cap => exact ⟨_, rfl, fun _ => .required (codes_keyword _) .done⟩
  | lineJoin join => exact ⟨_, rfl, fun _ => .required (codes_keyword _) .done⟩
  | miterLimit limit => exact ⟨_, rfl, fun _ => .required (codes_word _) .done⟩
  | antialias smoothing enabled =>
      cases smoothing <;> exact ⟨_, rfl, fun _ => .required (codes_boolean _) .done⟩
  | clipPath id => exact ⟨_, rfl, fun _ => .required (codes_string _) .done⟩
  | clipRule rule => exact ⟨_, rfl, fun _ => .required (codes_keyword _) .done⟩
  | clipUnits units => exact ⟨_, rfl, fun _ => .required (codes_keyword _) .done⟩
  | bounds rectangle =>
      simp only [Setting.numbers, Rectangle.numbers, List.forall_mem_cons] at finite
      obtain ⟨x0, y0, x1, y1, -⟩ := finite
      exact ⟨_, rfl, fun _ => .required (codes_double x0) <| .required (codes_double y0) <|
        .required (codes_double x1) <| .required (codes_double y1) .done⟩
  | label label text =>
      cases label <;> exact ⟨_, rfl, fun _ => .required (codes_string _) .done⟩
  | fontStyle style => exact ⟨_, rfl, fun _ => .required (codes_keyword _) .done⟩
  | fontWeight weight => exact ⟨_, rfl, fun _ => .required (codes_word _) .done⟩
  | fontStretch stretch => exact ⟨_, rfl, fun _ => .required (codes_keyword _) .done⟩
  | decoration decoration => exact ⟨_, rfl, fun _ => .required (codes_keyword _) .done⟩
  | accentName accent name =>
      cases accent <;> exact ⟨_, rfl, fun _ => .required (codes_string _) .done⟩
  | gravity gravity => exact ⟨_, rfl, fun _ => .required (codes_keyword _) .done⟩
  | alignment alignment => exact ⟨_, rfl, fun _ => .required (codes_keyword _) .done⟩
  | direction direction => exact ⟨_, rfl, fun _ => .required (codes_keyword _) .done⟩

theorem motionForm_gives {move : Motion}
    (finite : ∀ number ∈ move.numbers, Number.isFinite number) :
    (motionForm move).Gives motionReader? (room + 1) move := by
  cases move with
  | affine map => exact ⟨_, rfl, fun _ => .required (Transform.codes finite) .done⟩
  | rotate degrees | skewX degrees | skewY degrees =>
      have single := List.forall_mem_singleton.mp finite
      exact ⟨_, rfl, fun _ => .required (codes_double single) .done⟩
  | scale x y | translate x y =>
      simp only [Motion.numbers, List.forall_mem_cons] at finite
      obtain ⟨x, y, -⟩ := finite
      exact ⟨_, rfl, fun _ => .required (codes_double x) <| .required (codes_double y) .done⟩

/-- Points are read back in their order. -/
theorem codes_points {points : List (Float × Float)}
    (finite : ∀ number ∈ points.flatMap fun point => [point.1, point.2],
      Number.isFinite number) : Codes (room + 2) points := by
  refine codes_list fun point member => ?_
  have inside (number : Float) (coordinate : number ∈ [point.1, point.2]) :
      Number.isFinite number :=
    finite number (List.mem_flatMap.mpr ⟨point, member, coordinate⟩)
  exact codes_pair (codes_double (inside _ List.mem_cons_self))
    (codes_double (inside _ (List.mem_cons_of_mem _ List.mem_cons_self)))

theorem shapeForm_gives {figure : Shape}
    (finite : ∀ number ∈ figure.numbers, Number.isFinite number)
    (fit : ∀ number ∈ figure.integers, -2 ^ 63 ≤ number ∧ number < 2 ^ 63) :
    (shapeForm figure).Gives shapeReader? (room + 2) figure := by
  cases figure with
  | point x y =>
      simp only [Shape.numbers, List.forall_mem_cons] at finite
      obtain ⟨x, y, -⟩ := finite
      exact ⟨_, rfl, fun _ => .required (codes_double x) <| .required (codes_double y) .done⟩
  | line | rectangle | circle =>
      simp only [Shape.numbers, List.forall_mem_cons] at finite
      obtain ⟨first, second, third, fourth, -⟩ := finite
      exact ⟨_, rfl, fun _ => .required (codes_double first) <| .required (codes_double second) <|
        .required (codes_double third) <| .required (codes_double fourth) .done⟩
  | roundRectangle | ellipse | arc =>
      simp only [Shape.numbers, List.forall_mem_cons] at finite
      obtain ⟨first, second, third, fourth, fifth, sixth, -⟩ := finite
      exact ⟨_, rfl, fun _ => .required (codes_double first) <| .required (codes_double second) <|
        .required (codes_double third) <| .required (codes_double fourth) <|
        .required (codes_double fifth) <| .required (codes_double sixth) .done⟩
  | bezier points | polygon points | polyline points =>
      exact ⟨_, rfl, fun _ => .required (codes_points finite) .done⟩
  | caption x y text =>
      simp only [Shape.numbers, List.forall_mem_cons] at finite
      obtain ⟨x, y, -⟩ := finite
      exact ⟨_, rfl, fun _ => .required (codes_double x) <| .required (codes_double y) <|
        .required (codes_string _) .done⟩
  | color x y method | matte x y method =>
      simp only [Shape.numbers, List.forall_mem_cons] at finite
      obtain ⟨x, y, -⟩ := finite
      exact ⟨_, rfl, fun _ => .required (codes_double x) <| .required (codes_double y) <|
        .required (codes_keyword _) .done⟩
  | viewbox x1 y1 x2 y2 =>
      simp only [Shape.integers, List.forall_mem_cons] at fit
      obtain ⟨first, second, third, fourth, -⟩ := fit
      exact ⟨_, rfl, fun _ => .required (codes_integer first.1 first.2) <|
        .required (codes_integer second.1 second.2) <|
        .required (codes_integer third.1 third.2) <|
        .required (codes_integer fourth.1 fourth.2) .done⟩

theorem segmentForm_gives {command : Path.Segment}
    (finite : ∀ number ∈ command.numbers, Number.isFinite number) :
    (segmentForm command).Gives segmentReader? room command := by
  cases command with
  | move | line | smoothQuadratic =>
      simp only [Path.Segment.numbers, List.forall_mem_cons] at finite
      obtain ⟨x, y, -⟩ := finite
      exact ⟨_, rfl, fun _ => .required (codes_double x) <| .required (codes_double y) .done⟩
  | horizontal | vertical =>
      have single := List.forall_mem_singleton.mp finite
      exact ⟨_, rfl, fun _ => .required (codes_double single) .done⟩
  | curve =>
      simp only [Path.Segment.numbers, List.forall_mem_cons] at finite
      obtain ⟨x1, y1, x2, y2, x, y, -⟩ := finite
      exact ⟨_, rfl, fun _ => .required (codes_double x1) <| .required (codes_double y1) <|
        .required (codes_double x2) <| .required (codes_double y2) <|
        .required (codes_double x) <| .required (codes_double y) .done⟩
  | quadratic | smoothCurve =>
      simp only [Path.Segment.numbers, List.forall_mem_cons] at finite
      obtain ⟨first, second, x, y, -⟩ := finite
      exact ⟨_, rfl, fun _ => .required (codes_double first) <| .required (codes_double second) <|
        .required (codes_double x) <| .required (codes_double y) .done⟩
  | arc =>
      simp only [Path.Segment.numbers, List.forall_mem_cons] at finite
      obtain ⟨rx, ry, rotation, x, y, -⟩ := finite
      exact ⟨_, rfl, fun _ => .required (codes_double rx) <| .required (codes_double ry) <|
        .defaulted (codes_double rotation) <| .defaulted (codes_boolean _) <|
        .defaulted (codes_boolean _) <| .required (codes_double x) <|
        .required (codes_double y) .done⟩

theorem bracketForm_gives {edge : Bracket}
    (finite : ∀ number ∈ edge.numbers, Number.isFinite number) :
    (bracketForm edge).Gives bracketReader? room edge := by
  cases edge with
  | openScope | closeScope | closePattern | closeClipPath | openDefs | closeDefs =>
      exact ⟨_, rfl, fun _ => .done⟩
  | openPattern id x y width height =>
      simp only [Bracket.numbers, List.forall_mem_cons] at finite
      obtain ⟨x, y, width, height, -⟩ := finite
      exact ⟨_, rfl, fun _ => .required (codes_string _) <| .required (codes_double x) <|
        .required (codes_double y) <| .required (codes_double width) <|
        .required (codes_double height) .done⟩
  | openClipPath id => exact ⟨_, rfl, fun _ => .required (codes_string _) .done⟩

end Quill
