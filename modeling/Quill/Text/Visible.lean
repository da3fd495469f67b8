import Quill.Text.Extending
import Quill.Text.Unseen

/-!
# Visible text

Summaries show a name between double quotes.  Characters that cannot be seen on their own,
because they have no shape or are written into the character before them, are shown by their
code.
-/

namespace Quill.Text.Visible

/-- Whether a character can be seen on its own. -/
def isVisible (character : Char) : Bool :=
  !(isUnseen character || isExtending character)

def showCharacter (character : Char) : List Char :=
  match character with
  | '"' => ['\\', '"']
  | '\\' => ['\\', '\\']
  | '\n' => ['\\', 'n']
  | '\r' => ['\\', 'r']
  | '\t' => ['\\', 't']
  | '\x00' => ['\\', '0']
  | _ =>
    if isVisible character then [character]
    else ['\\', 'u', '\x7b'] ++ Nat.toDigits 16 character.toNat ++ ['\x7d']

/-- Show a text between double quotes. -/
def quoted (text : String) : String :=
  "\"" ++ String.ofList (text.toList.flatMap showCharacter) ++ "\""

end Quill.Text.Visible
