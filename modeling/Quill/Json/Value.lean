/-!
# Data values

The values of the data format that scripts, settings and context snapshots are written in.
Whole numbers that fit a machine word are kept apart from other numbers, because a field that
counts something refuses `1.0`.  A literal can be well formed and still mean nothing, such as
a number beyond every double or half of a surrogate pair, text can hold stray bytes, and
containers can be nested too deep; none of it does harm in a field that nobody reads, so such
a value is kept as `unreadable` and refused where it is used.
-/

namespace Quill.Json

/-- A data value.  Objects keep their fields in the order of the text, repeated ones too. -/
inductive Value where
  | null
  | boolean (value : Bool)
  | integer (value : Int)
  | real (value : Float)
  | string (value : String)
  | array (items : List Value)
  | object (fields : List (String × Value))
  | unreadable
  deriving Inhabited

namespace Value

mutual

/-- Whether nothing inside the value is unreadable. -/
def sound : Value → Bool
  | .unreadable => false
  | .array items => soundItems items
  | .object fields => soundFields fields
  | _ => true

def soundItems : List Value → Bool
  | [] => true
  | item :: rest => sound item && soundItems rest

def soundFields : List (String × Value) → Bool
  | [] => true
  | (_, value) :: rest => sound value && soundFields rest

end

end Value

/-- Whole numbers in this range are integers; all others are read as doubles. -/
def fitsWord (number : Int) : Bool :=
  -0x8000000000000000 ≤ number && number < 0x10000000000000000

end Quill.Json
