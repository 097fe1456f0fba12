import NoteSheet.Formula.Outline
import NoteSheet.Scene

/-!
# The command line

The tool has four commands: it prints the tokens or the tree of a formula,
evaluates a scene, and finds a neighbor in one. This module reads its arguments
and computes what it prints; only reading the scene file is left to the caller.

Arguments are read from left to right, and the first fault, or the first request
for help, settles the matter. A single dash is a value like any other; after a
double dash everything is.
-/

namespace NoteSheet

/-- What the tool is asked to do. -/
inductive Command where
  /-- Print the tokens of a formula. -/
  | tokens (formula : String)
  /-- Print the tree of a formula. -/
  | tree (formula : String)
  /-- Evaluate a scene file. -/
  | evaluate (file : String)
  /-- Find a neighbor in a scene file. -/
  | find (file : String) (path : Path) (direction : Direction) (filter : Filter)
  | help
  | version

/-- Why arguments were refused. -/
inductive UsageError where
  | unknownCommand (word : String)
  | unknownOption (option : String)
  | repeatedOption (option : String)
  | unexpectedArgument (argument : String)
  | missingArgument
  | invalidArgument (argument : String)

/-- The wording of a usage error. -/
def UsageError.message : UsageError → String
  | unknownCommand word => "error: unrecognized subcommand '" ++ word ++ "'"
  | unknownOption option => "error: unexpected argument '" ++ option ++ "' found"
  | repeatedOption option => "error: the argument '" ++ option ++ "' cannot be used multiple times"
  | unexpectedArgument argument => "error: unexpected argument '" ++ argument ++ "' found"
  | missingArgument => "error: the following required arguments were not provided"
  | invalidArgument argument => "error: invalid value '" ++ argument ++ "'"

namespace Command

/-! ## Arguments -/

/-- A command that takes arguments. -/
inductive Verb where
  | tokens
  | parse
  | eval
  | find
deriving DecidableEq

/-- Every command that takes arguments. -/
def Verb.all : List Verb := [.tokens, .parse, .eval, .find]

/-- The word that selects a command. -/
def Verb.name : Verb → String
  | tokens => "tokens"
  | parse => "parse"
  | eval => "eval"
  | find => "find"

/-- The command of a word. -/
def Verb.ofName? (word : String) : Option Verb := all.find? (·.name == word)

/-- The option that keeps a search to pages and images. -/
def pagesOnlyOption : String := "--pages-only"

/-- What a word among the arguments is. -/
inductive Word where
  /-- A value, or the name of a command. -/
  | plain (text : String)
  /-- The double dash. -/
  | separator
  /-- An option of several letters, with its dashes. -/
  | long (option : String)
  /-- Options of one letter each, without the dash. -/
  | short (letters : List Char)

/-- Tells words apart by their dashes. -/
def Word.of (text : String) : Word :=
  match text.toList with
  | ['-', '-'] => .separator
  | '-' :: '-' :: _ => .long text
  | '-' :: letter :: letters => .short (letter :: letters)
  | _ => .plain text

/-- What options that every command knows lead to. -/
inductive Effect where
  /-- Nothing that shows on standard output. -/
  | proceed
  | help
  | version

/-- The effect of one-letter options, read from left to right. -/
def shortEffect (versionKnown : Bool) : List Char → Except UsageError Effect
  | [] => .ok .proceed
  | 'v' :: rest => shortEffect versionKnown rest
  | 'h' :: _ => .ok .help
  | c :: _ =>
      if c == 'V' && versionKnown then .ok .version
      else .error (.unknownOption (String.ofList ['-', c]))

/-- The effect of an option that every command knows. -/
def longEffect (versionKnown : Bool) (option : String) : Except UsageError Effect :=
  if option == "--verbose" then .ok .proceed
  else if option == "--help" then .ok .help
  else if option == "--version" && versionKnown then .ok .version
  else .error (.unknownOption option)

/-- What has been read of a command's arguments. -/
structure Arguments where
  /-- The values, the last one first. -/
  values : List String := []
  pagesOnly : Bool := false

/-- Whether a command can take `text` as its value number `position`. -/
def acceptsValue (verb : Verb) (position : Nat) (text : String) : Except UsageError Unit :=
  let check (valid : Bool) : Except UsageError Unit :=
    if valid then .ok () else .error (.invalidArgument text)
  match verb, position with
  | .tokens, 0 | .parse, 0 => .ok ()
  | .eval, 0 | .find, 0 => check !text.isEmpty
  | .find, 1 => check (Path.parse text).toBool
  | .find, 2 => check (Direction.parse text).toBool
  | _, _ => .error (.unexpectedArgument text)

/-- Takes one more value. -/
def Arguments.addValue (verb : Verb) (arguments : Arguments) (text : String) :
    Except UsageError Arguments := do
  acceptsValue verb arguments.values.length text
  return { arguments with values := text :: arguments.values }

/-- Reads a command's arguments; the result is `none` when help is asked for. -/
def readArguments (verb : Verb) (arguments : Arguments) :
    List String → Except UsageError (Option Arguments)
  | [] => .ok (some arguments)
  | text :: rest =>
      match Word.of text with
      | .plain value => do readArguments verb (← arguments.addValue verb value) rest
      | .separator => do return some (← rest.foldlM (Arguments.addValue verb) arguments)
      | .short letters => do
          match ← shortEffect false letters with
          | .proceed => readArguments verb arguments rest
          | _ => return none
      | .long option =>
          if verb = .find && option == pagesOnlyOption then
            if arguments.pagesOnly then .error (.repeatedOption option)
            else readArguments verb { arguments with pagesOnly := true } rest
          else do
            match ← longEffect false option with
            | .proceed => readArguments verb arguments rest
            | _ => return none

/-- The command that arguments amount to. -/
def ofArguments (verb : Verb) (arguments : Arguments) : Except UsageError Command :=
  match verb, arguments.values.reverse with
  | .tokens, [formula] => .ok (tokens formula)
  | .parse, [formula] => .ok (tree formula)
  | .eval, [file] => .ok (evaluate file)
  | .find, [file, path, direction] =>
      match Path.parse path, Direction.parse direction with
      | .ok path, .ok direction =>
          .ok (find file path direction
            (if arguments.pagesOnly then .pagesAndImages else .anything))
      | _, _ => .error (.invalidArgument path)
  | _, _ => .error .missingArgument

/-- Help on the commands named by `words`: on the tool itself, on one of its
commands, or on help. -/
def helpOn : List String → Except UsageError Command
  | [] => .ok help
  | [word] =>
      if word == "help" || (Verb.ofName? word).isSome then .ok help
      else .error (.unknownCommand word)
  | word :: next :: _ =>
      if word == "help" || (Verb.ofName? word).isSome then .error (.unknownCommand next)
      else .error (.unknownCommand word)

/-- Reads the arguments of the tool. -/
def parse : List String → Except UsageError Command
  | [] => .error .missingArgument
  | text :: rest =>
      match Word.of text with
      | .plain word =>
          match Verb.ofName? word with
          | some verb => do
              match ← readArguments verb {} rest with
              | some arguments => ofArguments verb arguments
              | none => return help
          | none => if word == "help" then helpOn rest else .error (.unknownCommand word)
      | .separator =>
          match rest with
          | [] => .error .missingArgument
          | word :: _ => .error (.unknownCommand word)
      | .short letters => do
          match ← shortEffect true letters with
          | .proceed => parse rest
          | .help => return help
          | .version => return version
      | .long option => do
          match ← longEffect true option with
          | .proceed => parse rest
          | .help => return help
          | .version => return version

/-! ## Running -/

/-- What the tool prints and the code with which it exits. -/
structure Outcome where
  exitCode : Nat := 0
  output : String := ""
  errors : String := ""
deriving DecidableEq, Repr

/-- Why a command cannot be carried out. -/
inductive Failure where
  | unreadableFormula (formula : String) (fault : ParseError)
  | unreadableFile (file : String)
  | invalidScene (file : String)
  | impossibleLayout (fault : Error)
  | noElement (path : Path)

/-- The wording of a failure, and of what is behind it. -/
def Failure.message : Failure → String
  | unreadableFormula formula fault =>
      "Failed to parse '" ++ formula ++ "'\n\nCaused by:\n    " ++ fault.message
  | unreadableFile file => "Failed to read '" ++ file ++ "'"
  | invalidScene file => "Invalid scene '" ++ file ++ "'"
  | impossibleLayout fault =>
      "Failed to lay out scene\n\nCaused by:\n    " ++ fault.message
  | noElement path => "No element at '" ++ path.text ++ "'"

/-- A text without the `=` at its front. -/
def withoutEquals (formula : String) : String :=
  match formula.toList with
  | '=' :: rest => String.ofList rest
  | _ => formula

/-- A text as a line. -/
def line (text : String) : String := text ++ "\n"

/-- The line of a token: its place, its kind and its literal. -/
def tokenLine (token : Token) : String :=
  line (Nat.repr token.offset ++ "\t" ++ token.kind.name ++ "\t" ++ token.literal)

/-- The sheet of a scene file. -/
def loadSheet (file : String) (content : Option String) : Except Failure Sheet :=
  match content with
  | none => .error (.unreadableFile file)
  | some text =>
      match Scene.ofText? text with
      | none => .error (.invalidScene file)
      | some scene => scene.build.mapError .impossibleLayout

/-- What a recalculation reports. -/
def tallyLine (tally : Tally) : String :=
  line ("Calculated " ++ Nat.repr tally.calculated ++ " formulas (" ++ Nat.repr tally.failed ++
    " errors, " ++ Nat.repr tally.skipped ++ " skipped)")

/-- Recalculates a sheet and lists what its flagged elements show. -/
def evaluateSheet (sheet : Sheet) : Outcome :=
  let (after, tally) := sheet.recalculate
  let shown := (sheet.layout.flagged.mergeSort Path.atMost).filterMap fun path =>
    (after.layout.override? path).map fun text => line (path.text ++ "\t" ++ text)
  { output := String.join shown, errors := tallyLine tally }

/-- Finds the neighbor of an element that must be there. -/
def findNeighbor (sheet : Sheet) (path : Path) (direction : Direction) (filter : Filter) :
    Except Failure Outcome :=
  match sheet.layout.elementAt? path with
  | none => .error (.noElement path)
  | some _ =>
      match sheet.layout.neighbor? direction filter path with
      | some found => .ok { output := line found.text }
      | none =>
          .ok { errors := line ("Nothing " ++ direction.name ++ " of '" ++ path.text ++ "'") }

/-- The file that a command reads. -/
def file? : Command → Option String
  | evaluate file | find file _ _ _ => some file
  | tokens _ | tree _ | help | version => none

/-- How the tool is called. -/
def usage : String :=
  "Formula cells on spatially arranged notes\n\n" ++
  "Usage: notecalc [OPTIONS] <COMMAND>\n\n" ++
  "Commands:\n" ++
  "  tokens  Print the token stream of a formula\n" ++
  "  parse   Print the expression tree of a formula\n" ++
  "  eval    Evaluate every flagged formula in a scene\n" ++
  "  find    Find the closest sibling of an element in a direction\n" ++
  "  help    Print this message or the help of the given subcommand(s)\n"

/-- Carries out a command. `content` is what its file holds, if it can be read. -/
def execute (content : Option String) : Command → Except Failure Outcome
  | tokens formula =>
      .ok { output := String.join ((tokenize (withoutEquals formula)).map tokenLine) }
  | tree formula =>
      match Expr.parse (withoutEquals formula) with
      | .ok expr => .ok { output := line expr.outline.render }
      | .error fault => .error (.unreadableFormula formula fault)
  | evaluate file => do return evaluateSheet (← loadSheet file content)
  | find file path direction filter => do
      findNeighbor (← loadSheet file content) path direction filter
  | help => .ok { output := usage }
  | version => .ok { output := line "notecalc 0.1.0" }

/-- What the tool does with arguments: `content` gives what a file holds. A
command that fails exits with 1, and arguments that are refused with 2. -/
def respond (content : String → Option String) (arguments : List String) : Outcome :=
  match parse arguments with
  | .error fault => { exitCode := 2, errors := line fault.message }
  | .ok command =>
      match execute (command.file?.bind content) command with
      | .ok outcome => outcome
      | .error failure => { exitCode := 1, errors := line ("Error: " ++ failure.message) }

end Command

end NoteSheet
