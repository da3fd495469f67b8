import Quill.Json.Number
import Quill.Number.Hexadecimal
import Quill.Text.Utf8

/-!
# Reading data

Text is read one character at a time by a machine whose state is the stack of containers that
are open, what may come next, and the literal that is being collected.  The text is accepted
if no character is refused and the machine ends behind one whole value.
-/

namespace Quill.Json

/-- How deep containers may be nested.  One that lies deeper is unreadable. -/
def depthLimit : Nat := 127

/-- A character of a string literal, written as itself or as a code unit in hexadecimal, or a
byte that is no part of a character. -/
inductive TextPart where
  | plain (character : Char)
  | unit (code : Nat)
  | malformed
  deriving DecidableEq, Repr

/-- Join the parts of a string literal.  Two units of a surrogate pair stand for one
character, and a surrogate without its partner for none. -/
def joinParts : List TextPart → Option (List Char)
  | [] => some []
  | .malformed :: _ => none
  | .plain character :: rest => (joinParts rest).map (character :: ·)
  | .unit high :: .unit low :: rest =>
    if 0xD800 ≤ high ∧ high < 0xDC00 ∧ 0xDC00 ≤ low ∧ low < 0xE000 then
      (joinParts rest).map
        (Char.ofNat (0x10000 + (high - 0xD800) * 0x400 + (low - 0xDC00)) :: ·)
    else if 0xD800 ≤ high ∧ high < 0xE000 then none
    else (joinParts (.unit low :: rest)).map (Char.ofNat high :: ·)
  | .unit code :: rest =>
    if 0xD800 ≤ code ∧ code < 0xE000 then none
    else (joinParts rest).map (Char.ofNat code :: ·)

/-- The character that a letter behind a backslash stands for. -/
def escaped? : Char → Option Char
  | '"' => some '"'
  | '\\' => some '\\'
  | '/' => some '/'
  | 'b' => some '\x08'
  | 'f' => some '\x0c'
  | 'n' => some '\n'
  | 'r' => some '\r'
  | 't' => some '\t'
  | _ => none

/-- Whether a character may stand in a word, which is a number or a named constant. -/
def inWord (character : Char) : Bool :=
  character.isAlphanum || character == '-' || character == '+' || character == '.'

/-- Whether a character may stand between literals. -/
def isSpace (character : Char) : Bool :=
  character == ' ' || character == '\t' || character == '\n' || character == '\r'

def wordValue? (word : List Char) : Option Value :=
  if word = ['n', 'u', 'l', 'l'] then some .null
  else if word = ['t', 'r', 'u', 'e'] then some (.boolean true)
  else if word = ['f', 'a', 'l', 's', 'e'] then some (.boolean false)
  else (Literal.ofCharacters? word).map Literal.value

/-- A container that is open, with what it holds so far, latest first.  An object knows the
key whose value comes next, and whether all of its keys could be read. -/
inductive Frame where
  | items (held : List Value)
  | fields (held : List (String × Value)) (readable : Bool) (key : String)

/-- What may come next. -/
inductive Place where
  | value
  | valueOrEnd
  | key
  | keyOrEnd
  | colon
  | behindValue
  | done (value : Value)

/-- The literal that is being collected, latest part first. -/
inductive Lexeme where
  | idle
  | word (characters : List Char)
  | text (parts : List TextPart)
  | escape (parts : List TextPart)
  | unit (parts : List TextPart) (digits : List Nat)

structure Machine where
  frames : List Frame := []
  place : Place := .value
  lexeme : Lexeme := .idle

namespace Machine

/-- Take a finished value into the innermost open container. -/
def supply (machine : Machine) (value : Value) : Option Machine :=
  match machine.place with
  | .value | .valueOrEnd =>
    match machine.frames with
    | [] => some ⟨[], .done value, .idle⟩
    | .items held :: outer => some ⟨.items (value :: held) :: outer, .behindValue, .idle⟩
    | .fields held readable key :: outer =>
      some ⟨.fields ((key, value) :: held) readable key :: outer, .behindValue, .idle⟩
  | _ => none

/-- Take a finished key into the innermost open object. -/
def supplyKey (machine : Machine) (key : Option String) : Option Machine :=
  match machine.frames with
  | .fields held readable _ :: outer =>
    some ⟨.fields held (readable && key.isSome) (key.getD "") :: outer, .colon, .idle⟩
  | _ => none

def endWord (machine : Machine) (characters : List Char) : Option Machine :=
  (wordValue? characters.reverse).bind machine.supply

/-- End a string literal, which is a key or a value. -/
def endText (machine : Machine) (parts : List TextPart) : Option Machine :=
  let text := (joinParts parts.reverse).map String.ofList
  match machine.place with
  | .key | .keyOrEnd => machine.supplyKey text
  | _ => machine.supply ((text.map Value.string).getD .unreadable)

/-- Open a container where a value may come. -/
def enter (machine : Machine) (frame : Frame) (place : Place) : Option Machine :=
  match machine.place with
  | .value | .valueOrEnd => some ⟨frame :: machine.frames, place, .idle⟩
  | _ => none

/-- Take a container that was closed into the one around it. -/
def leave (outer : List Frame) (container : Value) : Option Machine :=
  supply ⟨outer, .value, .idle⟩ (if outer.length < depthLimit then container else .unreadable)

def leaveArray (machine : Machine) : Option Machine :=
  match machine.place, machine.frames with
  | .valueOrEnd, .items held :: outer | .behindValue, .items held :: outer =>
    leave outer (.array held.reverse)
  | _, _ => none

def leaveObject (machine : Machine) : Option Machine :=
  match machine.place, machine.frames with
  | .keyOrEnd, .fields held readable _ :: outer
  | .behindValue, .fields held readable _ :: outer =>
    leave outer (if readable then .object held.reverse else .unreadable)
  | _, _ => none

def comma (machine : Machine) : Option Machine :=
  match machine.place, machine.frames with
  | .behindValue, .items _ :: _ => some { machine with place := .value }
  | .behindValue, .fields _ _ _ :: _ => some { machine with place := .key }
  | _, _ => none

def colon (machine : Machine) : Option Machine :=
  match machine.place with
  | .colon => some { machine with place := .value }
  | _ => none

/-- Start a string literal where a value or a key may come. -/
def startText (machine : Machine) : Option Machine :=
  match machine.place with
  | .value | .valueOrEnd | .key | .keyOrEnd => some { machine with lexeme := .text [] }
  | _ => none

/-- Start a word where a value may come. -/
def startWord (machine : Machine) (character : Char) : Option Machine :=
  match machine.place with
  | .value | .valueOrEnd =>
    if inWord character then some { machine with lexeme := .word [character] } else none
  | _ => none

/-- Take a character between literals. -/
def between (machine : Machine) (character : Char) : Option Machine :=
  if isSpace character then some machine
  else
    match character with
    | '[' => machine.enter (.items []) .valueOrEnd
    | '{' => machine.enter (.fields [] true "") .keyOrEnd
    | ']' => machine.leaveArray
    | '}' => machine.leaveObject
    | ',' => machine.comma
    | ':' => machine.colon
    | '"' => machine.startText
    | _ => machine.startWord character

def step (machine : Machine) (character : Char) : Option Machine :=
  match machine.lexeme with
  | .idle => machine.between character
  | .word characters =>
    if inWord character then
      some { machine with lexeme := .word (character :: characters) }
    else
      (machine.endWord characters).bind (·.between character)
  | .text parts =>
    if character = '"' then machine.endText parts
    else if character = '\\' then some { machine with lexeme := .escape parts }
    else if character.toNat < 0x20 then none
    else some { machine with lexeme := .text (.plain character :: parts) }
  | .escape parts =>
    if character = 'u' then some { machine with lexeme := .unit parts [] }
    else
      (escaped? character).map fun meant =>
        { machine with lexeme := .text (.plain meant :: parts) }
  | .unit parts digits =>
    (Number.hexValue? character).map fun digit =>
      match digits with
      | [third, second, first] =>
        let code := ((first * 16 + second) * 16 + third) * 16 + digit
        { machine with lexeme := .text (.unit code :: parts) }
      | _ => { machine with lexeme := .unit parts (digit :: digits) }

/-- Take a byte that is no part of a character, which may stand in a string literal. -/
def stepMalformed (machine : Machine) : Option Machine :=
  match machine.lexeme with
  | .text parts => some { machine with lexeme := .text (.malformed :: parts) }
  | _ => none

/-- The value read, if the text may end here. -/
def finish (machine : Machine) : Option Value :=
  let ended :=
    match machine.lexeme with
    | .idle => some machine
    | .word characters => machine.endWord characters
    | _ => none
  match ended with
  | some ⟨[], .done value, _⟩ => some value
  | _ => none

end Machine

/-- Read one value and nothing else. -/
def read (text : String) : Option Value :=
  (text.toList.foldlM Machine.step {}).bind Machine.finish

/-- Read one value from bytes.  A byte that is no part of a character makes the string literal
around it unreadable and may stand nowhere else. -/
def readBytes (bytes : ByteArray) : Option Value :=
  match String.fromUTF8? bytes with
  | some text => read text
  | none =>
    let take (machine : Machine) : Option Char → Option Machine
      | some character => machine.step character
      | none => machine.stepMalformed
    ((Text.charactersOfBytes bytes).foldlM take {}).bind Machine.finish

end Quill.Json
