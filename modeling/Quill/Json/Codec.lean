import Quill.Json.Value
import Quill.Number.Nearest

/-!
# Typed data

A type that is kept in data files says how its values are written and which data it accepts.
A record is accepted as an object, whose unknown fields are ignored and whose known fields may
not be repeated, or as an array of its fields in their order.
-/

namespace Quill.Json

/-- A type with a form as data. -/
class Codec (α : Type) where
  encode : α → Value
  decode : Value → Option α

export Codec (encode decode)

instance : Codec Bool where
  encode := .boolean
  decode
    | .boolean value => some value
    | _ => none

instance : Codec String where
  encode := .string
  decode
    | .string value => some value
    | _ => none

/-- Whole numbers are taken for doubles too. -/
instance : Codec Float where
  encode := .real
  decode
    | .real value => some value
    | .integer value => some (Number.ofInt value)
    | _ => none

/-- The whole number of an integer in a range. -/
def wholeWithin? (low high : Int) : Value → Option Int
  | .integer value => if low ≤ value ∧ value < high then some value else none
  | _ => none

/-- Counts and sizes. -/
instance : Codec Nat where
  encode value := .integer value
  decode value := (wholeWithin? 0 0x10000000000000000 value).map Int.toNat

instance : Codec UInt8 where
  encode value := .integer value.toNat
  decode value := (wholeWithin? 0 0x100 value).map (UInt8.ofNat ·.toNat)

instance : Codec UInt32 where
  encode value := .integer value.toNat
  decode value := (wholeWithin? 0 0x100000000 value).map (UInt32.ofNat ·.toNat)

/-- Signed words. -/
instance : Codec Int where
  encode value := .integer value
  decode := wholeWithin? (-0x8000000000000000) 0x8000000000000000

/-- What may be absent is written as `null` then. -/
instance [Codec α] : Codec (Option α) where
  encode
    | some value => encode value
    | none => .null
  decode
    | .null => some none
    | value => (decode value).map some

instance [Codec α] : Codec (List α) where
  encode values := .array (values.map encode)
  decode
    | .array items => items.mapM decode
    | _ => none

instance [Codec α] [Codec β] : Codec (α × β) where
  encode pair := .array [encode pair.1, encode pair.2]
  decode
    | .array [first, second] => do return (← decode first, ← decode second)
    | _ => none

/-- A type whose values are written as single words. -/
class Keyword (α : Type) where
  all : List α
  name : α → String

def Keyword.find? (α : Type) [Keyword α] (word : String) : Option α :=
  (Keyword.all : List α).find? (Keyword.name · == word)

/-- A word may also stand as the only key of an object, with `null` behind it. -/
instance (priority := low) [Keyword α] : Codec α where
  encode value := .string (Keyword.name value)
  decode
    | .string word => Keyword.find? α word
    | .object [(word, .null)] => Keyword.find? α word
    | _ => none

/-- The data of a record's fields, by name or in their order. -/
inductive Record where
  | named (fields : List (String × Value))
  | listed (items : List Value)

def Value.record? : Value → Option Record
  | .object fields => some (.named fields)
  | .array items => some (.listed items)
  | _ => none

/-- Fields are read one after the other in their order. -/
abbrev FieldReader := StateT Record Option

namespace FieldReader

/-- The data of the next field, which may be missing.  A repeated name is refused. -/
def next (name : String) : FieldReader (Option Value) := fun record =>
  match record with
  | .named fields =>
    match fields.filter (·.1 == name) with
    | [] => some (none, record)
    | [(_, value)] => some (some value, record)
    | _ => none
  | .listed [] => some (none, record)
  | .listed (item :: rest) => some (some item, .listed rest)

/-- Read a field that has to be there. -/
def required [Codec α] (name : String) : FieldReader α := do
  let value ← next name
  liftM (value.bind decode)

/-- Read a field that has a value of its own if it is missing. -/
def defaulted [Codec α] (name : String) (default : α) : FieldReader α := do
  match ← next name with
  | none => return default
  | some value => liftM (decode value : Option α)

/-- Read a field that an object may leave out; in an array it keeps its place. -/
def nullable [Codec α] (name : String) : FieldReader (Option α) := do
  match ← next name, ← get with
  | none, .named _ => return none
  | none, .listed _ => liftM (none : Option (Option α))
  | some value, _ => liftM (decode value : Option (Option α))

/-- Read all fields of a record; nothing may be left of an array. -/
def run? (reader : FieldReader α) (record : Record) : Option α :=
  match StateT.run reader record with
  | some (value, .named _) => some value
  | some (value, .listed []) => some value
  | _ => none

end FieldReader

def Value.readRecord? (value : Value) (reader : FieldReader α) : Option α :=
  value.record?.bind reader.run?

end Quill.Json
