import Quill.Json.Value
import Quill.Number.Hexadecimal
import Quill.Number.Shortest

/-!
# Writing data

A value is written without spaces, or over several lines with two spaces for each level.
Strings escape quotes, backslashes and control characters, and doubles are written with their
shortest digits; what is not finite becomes `null`.
-/

namespace Quill.Json

def escapeCharacter (character : Char) : List Char :=
  if character = '"' then ['\\', '"']
  else if character = '\\' then ['\\', '\\']
  else if character = '\x08' then ['\\', 'b']
  else if character = '\x0c' then ['\\', 'f']
  else if character = '\n' then ['\\', 'n']
  else if character = '\r' then ['\\', 'r']
  else if character = '\t' then ['\\', 't']
  else if character.toNat < 0x20 then
    ['\\', 'u', '0', '0', Number.lowerHexDigit (character.toNat / 16),
      Number.lowerHexDigit (character.toNat % 16)]
  else [character]

def writeString (text : String) : List Char :=
  '"' :: text.toList.flatMap escapeCharacter ++ ['"']

def writeInteger (number : Int) : List Char :=
  (if number < 0 then ['-'] else []) ++ Number.decimalDigits number.natAbs

def writeReal (value : Float) : List Char :=
  match Number.Reading.of value with
  | .finite binary => binary.plain
  | _ => ['n', 'u', 'l', 'l']

namespace Value

mutual

/-- The characters of a value, without spaces. -/
def characters : Value → List Char
  | .null | .unreadable => ['n', 'u', 'l', 'l']
  | .boolean true => ['t', 'r', 'u', 'e']
  | .boolean false => ['f', 'a', 'l', 's', 'e']
  | .integer number => writeInteger number
  | .real value => writeReal value
  | .string text => writeString text
  | .array [] => ['[', ']']
  | .array (first :: rest) => '[' :: characters first ++ furtherItems rest ++ [']']
  | .object [] => ['{', '}']
  | .object ((key, value) :: rest) =>
    '{' :: writeString key ++ ':' :: characters value ++ furtherFields rest ++ ['}']

def furtherItems : List Value → List Char
  | [] => []
  | item :: rest => ',' :: characters item ++ furtherItems rest

def furtherFields : List (String × Value) → List Char
  | [] => []
  | (key, value) :: rest =>
    ',' :: writeString key ++ ':' :: characters value ++ furtherFields rest

end

/-- The text of a value, without spaces. -/
def text (value : Value) : String :=
  String.ofList value.characters

/-- A new line at a level of nesting. -/
def lineBreak (level : Nat) : List Char :=
  '\n' :: List.replicate (2 * level) ' '

mutual

/-- The characters of a value over several lines, at a level of nesting. -/
def spread (level : Nat) : Value → List Char
  | .array (first :: rest) =>
    '[' :: lineBreak (level + 1) ++ spread (level + 1) first ++
      spreadItems (level + 1) rest ++ lineBreak level ++ [']']
  | .object ((key, value) :: rest) =>
    '{' :: lineBreak (level + 1) ++ writeString key ++ ':' :: ' ' ::
      spread (level + 1) value ++ spreadFields (level + 1) rest ++ lineBreak level ++ ['}']
  | value => characters value

/-- Items behind the first, each on a line of its own. -/
def spreadItems (level : Nat) : List Value → List Char
  | [] => []
  | item :: rest => ',' :: lineBreak level ++ spread level item ++ spreadItems level rest

/-- Fields behind the first, each on a line of its own. -/
def spreadFields (level : Nat) : List (String × Value) → List Char
  | [] => []
  | (key, value) :: rest =>
    ',' :: lineBreak level ++ writeString key ++ ':' :: ' ' ::
      spread level value ++ spreadFields level rest

end

/-- The text of a value over several lines. -/
def spreadText (value : Value) : String :=
  String.ofList (value.spread 0)

end Value

end Quill.Json
