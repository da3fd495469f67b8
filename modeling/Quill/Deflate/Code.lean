import Quill.Deflate.Bits

/-!
# Prefix codes

A prefix code gives symbols codewords of different lengths.  It is fixed by the lengths alone:
codewords of one length are consecutive numbers in the order of their symbols, and they follow
the shorter codewords.
-/

namespace Quill.Deflate

/-- The longest codeword that there can be. -/
def longestWord : Nat := 15

/-- A prefix code: the symbols with codewords of length one, of length two, and so on up to the
longest one, each in the order of the codewords. -/
structure Code where
  levels : List (Array Nat)

namespace Code

/-- The code in which each symbol has a codeword of the given length, or none for zero. -/
def ofLengths (lengths : List Nat) : Code :=
  let levels := (List.range longestWord).map fun shorter =>
    (lengths.zipIdx.filterMap fun (length, symbol) =>
      if length = shorter + 1 then some symbol else none).toArray
  ⟨(levels.reverse.dropWhile (·.isEmpty)).reverse⟩

/-- Whether every long enough sequence of bits starts with just one codeword: counted in words of
the longest length, the codewords take up all there is and no more. -/
def isComplete (code : Code) : Bool :=
  let (used, all) :=
    code.levels.foldl (fun (used, all) level => (2 * used + level.size, 2 * all)) (0, 1)
  used == all

/-- Whether there is no codeword at all, or just one of a single bit. -/
def isTrivial (code : Code) : Bool :=
  match code.levels with
  | [] => true
  | first :: longer => first.size ≤ 1 && longer.all (·.isEmpty)

/-- Read a symbol, if a codeword comes next.  `first` is the number of the first codeword
of the length at hand, and `word` is what the bits before stand for. -/
def readFrom (first word : Nat) : List (Array Nat) → BitReader (Option Nat)
  | [] => return none
  | level :: longer => do
    let word := 2 * word + (← readNumber 1)
    match level[word - first]? with
    | some symbol => return some symbol
    | none => readFrom (2 * (first + level.size)) word longer

def read? (code : Code) : BitReader (Option Nat) :=
  readFrom 0 0 code.levels

/-- The codeword of a symbol among those that are at least so long. -/
def wordFrom (symbol length first : Nat) : List (Array Nat) → List Bool
  | [] => []
  | level :: longer =>
    match level.idxOf? symbol with
    | some index => (bitsOfNumber length (first + index)).reverse
    | none => wordFrom symbol (length + 1) (2 * (first + level.size)) longer

def word (code : Code) (symbol : Nat) : List Bool :=
  wordFrom symbol 1 0 code.levels

end Code

end Quill.Deflate
