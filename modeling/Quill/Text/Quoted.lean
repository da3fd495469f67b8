/-!
# Quoted text

Text arguments of instructions stand between single quotes.  A quote or a backslash in the
text follows a backslash, so the first quote without one closes the literal.
-/

namespace Quill.Text.Quoted

def isSpecial (character : Char) : Bool :=
  character == '\'' || character == '\\'

/-- Put a backslash before every quote and every backslash. -/
def encode : List Char → List Char
  | [] => []
  | character :: rest =>
    if isSpecial character then '\\' :: character :: encode rest
    else character :: encode rest

/-- Read up to the first quote without a backslash.  The result is the text read and what
follows the closing quote. -/
def decode : List Char → Option (List Char × List Char)
  | [] => none
  | '\'' :: rest => some ([], rest)
  | '\\' :: character :: rest =>
    (decode rest).map fun (text, after) => (character :: text, after)
  | character :: rest =>
    (decode rest).map fun (text, after) => (character :: text, after)

def literal (text : String) : String :=
  "'" ++ String.ofList (encode text.toList) ++ "'"

end Quill.Text.Quoted
