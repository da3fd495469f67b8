import Quill.CommandLine.Options
import Quill.Context.Snapshot
import Quill.Script.Replay

/-!
# Compiling a script

The command line reads settings and a script, replays the script on an empty canvas, and
writes the program, the artifacts and the final context where it was asked to.  All files are
reached through a disk.
-/

namespace Quill.CommandLine

/-- How a run of the program ends, and what it prints. -/
structure Exit where
  code : Nat
  stdout : String := ""
  stderr : String := ""
  deriving DecidableEq, Repr

/-- What went wrong, and what lies behind it, outermost first. -/
structure Trouble where
  message : String
  causes : List String := []
  deriving DecidableEq, Repr

/-- A file operation that failed. -/
def Trouble.ofFile (doing path : String) (error : FileError) : Trouble :=
  ⟨doing ++ " '" ++ path ++ "'", [error.message]⟩

/-- A cause of a failure, its lines indented alike; causes are numbered if there are several. -/
def causeText (number : Option Nat) (cause : String) : String :=
  match number with
  | some index =>
    let digits := toString index
    spaces (5 - digits.length) ++ digits ++ ": " ++
      ("\n" ++ spaces 7).intercalate (cause.splitOn "\n")
  | none => spaces 4 ++ ("\n" ++ spaces 4).intercalate (cause.splitOn "\n")

def Trouble.report (trouble : Trouble) : String :=
  let causes :=
    match trouble.causes with
    | [] => []
    | [cause] => ["", "Caused by:", causeText none cause]
    | several =>
      ["", "Caused by:"] ++ several.mapIdx fun index cause => causeText (some index) cause
  "\n".intercalate (("Error: " ++ trouble.message) :: causes) ++ "\n"

/-- A run that went wrong. -/
def Trouble.exit (trouble : Trouble) : Exit :=
  { code := 1, stderr := trouble.report }

def settingsOfFile (path : String) (file : Except FileError ByteArray) :
    Except Trouble Settings :=
  let parse (bytes : ByteArray) : Except Trouble Settings :=
    match (Json.readBytes bytes).bind Json.decode with
    | some settings => .ok settings
    | none => .error ⟨"parse settings JSON", []⟩
  match file with
  | .ok bytes => parse bytes
  | .error .isADirectory => parse .empty
  | .error error => .error (.ofFile "open settings" path error)

/-- The canvas's artifacts as they are listed behind a program. -/
def artifactListing (canvas : Canvas) : String :=
  String.join <| canvas.artifacts.entries.map fun (key, text) =>
    "# artifact " ++ key ++ "\n" ++ text ++ (if text.endsWith "\n" then "" else "\n")

def replayed (options : CompileOptions) (settings : Settings) (files : FileReader)
    (commands : List Command) : Except Trouble Drawing :=
  let canvas : Canvas := { width := options.width, height := options.height }
  let base := FileName.parent options.input
  match replay {} files base (Drawing.start settings canvas) commands with
  | (drawing, .done) => .ok drawing
  | (_, .stopped index failure) =>
    .error ⟨"replay '" ++ options.input ++ "'",
      Replayed.message index failure :: failure.message :: failure.causes⟩
  | (_, .aborted promise) => .error ⟨promise, []⟩

/-- The picture files of a script, seen from its directory. -/
def sourcePaths (options : CompileOptions) (commands : List Command) : List String :=
  commands.filterMap fun command =>
    command.source?.map (FileName.join (FileName.parent options.input))

variable {m : Type → Type} [Monad m]

/-- Read files, once each, to look them up later. -/
def preload (disk : Disk m) (paths : List String) : m FileReader := do
  let contents ← paths.eraseDups.mapM fun path => return (path, ← disk.read path)
  return fun path => (contents.lookup path).getD (.error .notFound)

def store (disk : Disk m) (doing path text : String) : ExceptT Trouble m Unit := do
  match ← disk.write path text.toUTF8 with
  | .ok _ => return
  | .error error => throw (.ofFile doing path error)

/-- Compile a script and print or write the program. -/
def compileScript (disk : Disk m) (options : CompileOptions) : ExceptT Trouble m Exit := do
  if options.width = 0 ∨ options.height = 0 then
    throw ⟨"target width/height must be > 0", []⟩
  let settings : Settings ←
    match options.settings with
    | some path => liftM (settingsOfFile path (← disk.read path))
    | none => pure {}
  let commands ←
    match scriptOfFile options.input (← disk.read options.input) with
    | .ok commands => pure commands
    | .error failure => throw ⟨failure.message, failure.causes⟩
  let files ← (preload disk (sourcePaths options commands) : m FileReader)
  let drawing ← liftM (replayed options settings files commands)
  if let some path := options.context then
    store disk "write context" path (Json.encode drawing.context).spreadText
  let report :=
    drawing.program ++ if options.artifacts then artifactListing drawing.canvas else ""
  match options.output with
  | some path =>
    store disk "write program" path report
    return {
      code := 0
      stderr := "compiled " ++ toString commands.length ++ " commands -> " ++ path ++ "\n" }
  | none => return { code := 0, stdout := report }

def usage : String :=
  "Usage: mvgwand [OPTIONS] <COMMAND>\n\nCommands:\n" ++
    "  compile  Replay a JSON draw script and print the compiled MVG program\n" ++
    "  help     Print this message or the help of the given subcommand(s)\n\nOptions:\n" ++
    "  -v, --verbose  Log wand diagnostics to stderr\n" ++
    "  -h, --help     Print help\n" ++
    "  -V, --version  Print version\n"

def run (disk : Disk m) (arguments : List String) : m Exit := do
  match request? arguments with
  | none => return { code := 2, stderr := usage }
  | some .version => return { code := 0, stdout := "mvgwand 0.1.0\n" }
  | some .help => return { code := 0, stdout := usage }
  | some (.compile options) =>
    match ← (compileScript disk options).run with
    | .ok exit => return exit
    | .error trouble => return trouble.exit

end Quill.CommandLine
