import Quill.Number.Decimal

/-!
# Command line options

The arguments of the program: options before the command, the command, and its options.  An
option's value stands behind `=` or in the next argument, which then may not start with a
dash.  An option may be given only once.
-/

namespace Quill.CommandLine

structure CompileOptions where
  input : String
  output : Option String := none
  settings : Option String := none
  width : Nat := 640
  height : Nat := 480
  artifacts : Bool := false
  context : Option String := none
  deriving DecidableEq, Repr

inductive Request where
  | version
  | help
  | compile (options : CompileOptions)
  deriving DecidableEq, Repr

inductive ValueOption where
  | input
  | output
  | settings
  | width
  | height
  | context
  deriving DecidableEq, Repr

def ValueOption.ofWord? : String → Option ValueOption
  | "--in" => some .input
  | "--out" => some .output
  | "--settings" => some .settings
  | "--width" => some .width
  | "--height" => some .height
  | "--context" => some .context
  | _ => none

structure Given where
  values : List (ValueOption × String) := []
  artifacts : Bool := false
  verbose : Bool := false

/-- A size in pixels, which may have a sign. -/
def size? (text : String) : Option Nat :=
  let (negative, digits) :=
    match text.toList with
    | '+' :: rest => (false, rest)
    | '-' :: rest => (true, rest)
    | characters => (false, characters)
  if digits.isEmpty || !digits.all Char.isDigit then none
  else
    let number := Number.digitsValue digits
    if (negative && number != 0) || 0x100000000 ≤ number then none else some number

/-- Take the value of an option, which may not be given twice or be of the wrong form. -/
def Given.add? (given : Given) (option : ValueOption) (value : String) : Option Given :=
  let isSize := option = .width ∨ option = .height
  if (given.values.lookup option).isSome || value.isEmpty then none
  else if isSize ∧ (size? value).isNone then none
  else some { given with values := (option, value) :: given.values }

/-- The options of a compilation; only the input has to be given. -/
def Given.options? (given : Given) : Option CompileOptions := do
  let value (option : ValueOption) := given.values.lookup option
  return {
    input := ← value .input
    output := value .output
    settings := value .settings
    width := ((value .width).bind size?).getD 640
    height := ((value .height).bind size?).getD 480
    artifacts := given.artifacts
    context := value .context }

/-- Split an argument at its first `=`. -/
def splitAtEquals (argument : String) : String × Option String :=
  let characters := argument.toList
  let word := characters.takeWhile (· != '=')
  match characters.dropWhile (· != '=') with
  | _ :: value => (String.ofList word, some (String.ofList value))
  | [] => (argument, none)

/-- Whether an argument can be the value of the option before it. -/
def standsAsValue (argument : String) : Bool :=
  argument == "-" || !argument.startsWith "-"

/-- Take an option that has no value. -/
def Given.flag? (given : Given) : String → Option Given
  | "--artifacts" => if given.artifacts then none else some { given with artifacts := true }
  | "--verbose" | "-v" => if given.verbose then none else some { given with verbose := true }
  | _ => none

def compileOptions (given : Given) : List String → Option Request
  | [] => given.options?.map .compile
  | ["--"] => given.options?.map .compile
  | "--help" :: _ | "-h" :: _ => some .help
  | argument :: rest =>
    match splitAtEquals argument with
    | (word, some value) => do
      let option ← ValueOption.ofWord? word
      compileOptions (← given.add? option value) rest
    | (word, none) =>
      match ValueOption.ofWord? word, rest with
      | some option, value :: rest => do
        if !standsAsValue value then none
        compileOptions (← given.add? option value) rest
      | some _, [] => none
      | none, rest => do compileOptions (← given.flag? word) rest

/-- The flag of a letter.  A further dash is no letter: what is made of it is no flag either. -/
def flagOfLetter (letter : Char) : String :=
  if letter = '-' then "---" else String.ofList ['-', letter]

/-- Write several letters behind one dash as flags of their own. -/
def separateFlags (argument : String) : List String :=
  match argument.toList with
  | '-' :: first :: second :: rest =>
    if first = '-' then [argument] else (first :: second :: rest).map flagOfLetter
  | _ => [argument]

/-- Read what stands before the command, and then the command. -/
def requestOfFlags? (verbose : Bool) : List String → Option Request
  | "--version" :: _ | "-V" :: _ => some .version
  | "--help" :: _ | "-h" :: _ => some .help
  | "--verbose" :: rest | "-v" :: rest =>
    if verbose then none else requestOfFlags? true rest
  | ["help"] | ["help", "compile"] | ["help", "help"] => some .help
  | "compile" :: rest => compileOptions {} rest
  | _ => none

def request? (arguments : List String) : Option Request :=
  requestOfFlags? false (arguments.flatMap separateFlags)

end Quill.CommandLine
