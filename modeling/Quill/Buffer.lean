import Quill.Failure

/-!
# Instruction text

The program grows by appending.  A write at the start of a line is first padded with spaces up
to the indentation, and a wrapping write starts a new line if it would run past the wrap
column.  Lengths count bytes, columns count characters.  A write either fits under the byte
limit or leaves the buffer alone, and an instruction made of several pieces is written whole or
not at all.
-/

namespace Quill

/-- The largest wrapping write, in bytes. -/
def pieceLimit : Nat := 4096

/-- How wide lines grow before they wrap, and how many bytes the text may have. -/
structure Layout where
  wrapColumn : Nat := 78
  limit : Option Nat := none
  deriving DecidableEq, Repr

/-- Instruction text with the column it ends in and the current indentation. -/
structure Buffer where
  text : String := ""
  column : Nat := 0
  indent : Nat := 0
  deriving DecidableEq, Repr

/-- A position in a buffer's text. -/
structure Mark where
  length : Nat
  column : Nat
  deriving DecidableEq, Repr

inductive Piece where
  | plain (text : String)
  | wrapping (text : String)
  deriving DecidableEq, Repr

/-- Split characters at a byte offset; there is no split inside a character or past the end. -/
def splitAtByte : Nat → List Char → Option (List Char × List Char)
  | 0, characters => some ([], characters)
  | _ + 1, [] => none
  | offset + 1, character :: rest =>
    if character.utf8Size ≤ offset + 1 then
      (splitAtByte (offset + 1 - character.utf8Size) rest).map fun (before, after) =>
        (character :: before, after)
    else none

/-- The column after some characters that are written from a given column on. -/
def columnAfter (column : Nat) (characters : List Char) : Nat :=
  characters.foldl (fun column character => if character = '\n' then 0 else column + 1) column

def spaces (count : Nat) : String :=
  String.ofList (List.replicate count ' ')

namespace Buffer

/-- Length of the text in bytes. -/
def size (buffer : Buffer) : Nat :=
  buffer.text.utf8ByteSize

/-- The text from a byte offset on, or nothing if there is no such position. -/
def since (buffer : Buffer) (offset : Nat) : String :=
  match splitAtByte offset buffer.text.toList with
  | some (_, after) => String.ofList after
  | none => ""

def indentIn (buffer : Buffer) : Buffer :=
  { buffer with indent := buffer.indent + 1 }

/-- Indent following lines one level less, never below zero. -/
def indentOut (buffer : Buffer) : Buffer :=
  { buffer with indent := buffer.indent - 1 }

def mark (buffer : Buffer) : Mark :=
  ⟨buffer.size, buffer.column⟩

/-- Drop everything behind a mark.  A mark that is no position of the text is ignored. -/
def rewind (buffer : Buffer) (mark : Mark) : Buffer :=
  match splitAtByte mark.length buffer.text.toList with
  | some (before, _) => { buffer with text := String.ofList before, column := mark.column }
  | none => buffer

/-- Drop the text and keep the indentation. -/
def clear (buffer : Buffer) : Buffer :=
  { buffer with text := "", column := 0 }

/-- Drop the text and the indentation. -/
def reset (buffer : Buffer) : Buffer :=
  { buffer.clear with indent := 0 }

/-- Append a text behind the spaces that lead up to the indentation.  The result counts the
bytes written, those spaces included. -/
def append (layout : Layout) (buffer : Buffer) (text : String) :
    Buffer × Except Failure Nat :=
  let padding := buffer.indent - buffer.column
  let count := padding + text.utf8ByteSize
  if layout.limit.any (· < buffer.size + count) then
    (buffer, .error .outOfMemory)
  else
    ({ buffer with
        text := buffer.text ++ spaces padding ++ text
        column := columnAfter (buffer.column + padding) text.toList },
      .ok count)

/-- Whether a text has to start a new line to stay within the wrap column. -/
def breaksLine (layout : Layout) (buffer : Buffer) (text : String) : Bool :=
  layout.wrapColumn < buffer.column + text.length && text.toList.getLast? != some '\n'

/-- Append a text, on a new line if it would run past the wrap column.  If there is no room
for it behind the line break, the break is taken back. -/
def appendWrapping (layout : Layout) (buffer : Buffer) (text : String) :
    Buffer × Except Failure Nat :=
  if pieceLimit < text.utf8ByteSize then
    (buffer, .error (.format
      ("wrapped write of " ++ toString text.utf8ByteSize ++ " bytes exceeds " ++
        toString pieceLimit)))
  else
    let start :=
      if buffer.breaksLine layout text then buffer.append layout "\n" else (buffer, .ok 0)
    match start with
    | (broken, .error failure) => (broken.rewind buffer.mark, .error failure)
    | (broken, .ok breakCount) =>
      match broken.append layout text with
      | (written, .ok count) => (written, .ok (breakCount + count))
      | (unwritten, .error failure) => (unwritten.rewind buffer.mark, .error failure)

def put (layout : Layout) (buffer : Buffer) : Piece → Buffer × Except Failure Nat
  | .plain text => buffer.append layout text
  | .wrapping text => buffer.appendWrapping layout text

/-- Write pieces one after the other, up to the first that fails. -/
def putEach (layout : Layout) (buffer : Buffer) : List Piece → Buffer × Except Failure Nat
  | [] => (buffer, .ok 0)
  | piece :: rest =>
    match buffer.put layout piece with
    | (written, .ok count) =>
      match putEach layout written rest with
      | (all, .ok further) => (all, .ok (count + further))
      | (partly, .error failure) => (partly, .error failure)
    | (unwritten, .error failure) => (unwritten, .error failure)

/-- Write the pieces of an instruction; if one of them fails, take back those before it. -/
def putAll (layout : Layout) (buffer : Buffer) (pieces : List Piece) :
    Buffer × Except Failure Nat :=
  match buffer.putEach layout pieces with
  | (written, .ok count) => (written, .ok count)
  | (partly, .error failure) => (partly.rewind buffer.mark, .error failure)

end Buffer

end Quill
