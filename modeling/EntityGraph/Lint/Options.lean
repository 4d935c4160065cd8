import EntityGraph.Lint.Output
import EntityGraph.Text.DecimalDigit
import EntityGraph.Text.Quoted

/-!
# Command line options

The words of a command line as options. A long option may be shortened as long as it is clear, and
takes an argument as the next word or after an equals sign; short options may be written together.
The paths are one run of words, wherever it stands; words after two dashes are no options.
-/

namespace EntityGraph.Lint

/-- What can be asked for by options. -/
inductive Flag where
  | help | format | verbose
  deriving DecidableEq, Repr

namespace Flag

/-- The spellings of the options, in the order of the help text. -/
def spellings : List (Text × Flag) :=
  [("-h", .help), ("--help", .help), ("--format", .format), ("-v", .verbose),
    ("--verbose", .verbose)]

/-- The name of an option in messages: all its spellings. -/
def title (f : Flag) : Text :=
  Text.joined "/" ((spellings.filter fun s ↦ s.2 = f).map (·.1))

end Flag

/-- What is wrong with a command line. -/
inductive OptionError where
  | ambiguous (word : Text) (options : List Text)
  | noArgument (f : Flag)
  | unknownFormat (name : Text)
  | unusedArgument (f : Flag) (argument : Text)
  | unknownWords (words : List Text)
  deriving DecidableEq, Repr

def OptionError.message : OptionError → Text
  | .ambiguous word options =>
    "ambiguous option: " ++ word ++ " could match " ++ Text.joined ", " options
  | .noArgument f => "argument " ++ f.title ++ ": expected one argument"
  | .unknownFormat name =>
    "argument " ++ Flag.title .format ++ ": invalid choice: " ++ name.quoted ++
      " (choose from " ++ Text.joined ", " (Format.all.map fun f ↦ Text.quoted f.name) ++ ")"
  | .unusedArgument f argument =>
    "argument " ++ f.title ++ ": ignored explicit argument " ++ argument.quoted
  | .unknownWords words => "unrecognized arguments: " ++ Text.joined " " words

/-! ## Words -/

/-- What a word is: an option, by a long or a short spelling and with what is attached to it, an
option that is not known, two dashes, or anything else. -/
inductive Word where
  | option (f : Flag) (isLong : Bool) (attached : Option Text)
  | unknown
  | dashes
  | argument
  deriving DecidableEq, Repr

/-- Whether a code point is a decimal digit of any script. -/
def isDecimal : CodePoint → Bool := CodePoint.isCharOf fun c ↦ (Text.decimal? c).isSome

/-- Whether a text is digits, with a point before the last of them or with none. -/
def isUnsigned (t : Text) : Bool :=
  match t.dropWhile isDecimal with
  | [] => !t.isEmpty
  | .char '.' :: ds => !ds.isEmpty && ds.all isDecimal
  | _ => false

/-- Whether a word is a negative number. An end of line after it does not count. -/
def isNegativeNumber : Text → Bool
  | .char '-' :: t =>
    isUnsigned t || (t.getLast? == some (.char '\n') && isUnsigned t.dropLast)
  | _ => false

/-- Whether a spelling is a long one. -/
def isLong (spelling : Text) : Bool := List.isPrefixOf "--" spelling

/-- A word up to its first equals sign, and what is attached after that. -/
def splitEquals (t : Text) : Text × Option Text :=
  match t.dropWhile (· ≠ .char '=') with
  | [] => (t, none)
  | _ :: rest => (t.takeWhile (· ≠ .char '='), some rest)

/-- The options that a word may be short for: a long one by its start, a short one by its letter
with the rest attached. -/
def candidates (t : Text) : List (Text × Flag × Option Text) :=
  if isLong t then
    let (start, attached) := splitEquals t
    (Flag.spellings.filter fun s ↦ start.isPrefixOf s.1).map fun s ↦ (s.1, s.2, attached)
  else
    Flag.spellings.filterMap fun s ↦
      if s.1 = t.take 2 then some (s.1, s.2, some (t.drop 2)) else none

/-- What a word is, before any two dashes. -/
def classify (word : Text) : Except OptionError Word :=
  if word.head? ≠ some (.char '-') then .ok .argument
  else
    match Flag.spellings.lookup word with
    | some f => .ok (.option f (isLong word) none)
    | none =>
      if word.length = 1 then .ok .argument
      else
        let (start, attached) := splitEquals word
        match attached, Flag.spellings.lookup start with
        | some a, some f => .ok (.option f (isLong word) (some a))
        | _, _ =>
          match candidates word with
          | [(spelling, f, attached)] => .ok (.option f (isLong spelling) attached)
          | c :: d :: rest => .error (.ambiguous word ((c :: d :: rest).map (·.1)))
          | [] =>
            if isNegativeNumber word || word.contains (.char ' ') then .ok .argument
            else .ok .unknown

/-- What each word is. After the first two dashes every word is an argument. -/
def classifyAll : List Text → Except OptionError (List (Word × Text))
  | [] => .ok []
  | w :: rest =>
    if w = "--" then .ok ((.dashes, w) :: rest.map fun r ↦ (.argument, r))
    else do
      let word ← classify w
      return (word, w) :: (← classifyAll rest)

/-! ## Options -/

/-- What a command line asks for. -/
structure Options where
  paths : List Text := []
  /-- The format of the output. Two dashes attached to the option ask for none. -/
  format : Option Format := some .human
  verbose : Bool := false
  deriving DecidableEq, Repr

/-- The paths that are searched: the working directory if none is named. -/
def Options.searched (o : Options) : List Files.Path :=
  if o.paths.isEmpty then [{}] else o.paths.map .ofText

/-- Where the run of paths is: still to come, here, or over. -/
inductive PathRun where
  | before | inside | after
  deriving DecidableEq, Repr

/-- The options read so far. -/
structure OptionState where
  options : Options := {}
  run : PathRun := .before
  unknown : List Text := []
  deriving DecidableEq, Repr

namespace OptionState

/-- Adds a word to the run of paths, or to those that nothing is known about if the run is over. -/
def addWord (s : OptionState) (w : Text) : OptionState :=
  match s.run with
  | .after => { s with unknown := s.unknown ++ [w] }
  | _ => { s with run := .inside, options := { s.options with paths := s.options.paths ++ [w] } }

/-- An option ends a run of paths. -/
def endRun (s : OptionState) : OptionState :=
  match s.run with
  | .inside => { s with run := .after }
  | _ => s

def setFormat (s : OptionState) (name : Text) : Except OptionError OptionState :=
  if name = "--" then .ok { s with options := { s.options with format := none } }
  else
    match Format.ofName? name with
    | some f => .ok { s with options := { s.options with format := some f } }
    | none => .error (.unknownFormat name)

def setVerbose (s : OptionState) : OptionState :=
  { s with options := { s.options with verbose := true } }

end OptionState

/-- What a command line leads to. -/
inductive Request where
  | help
  | lint (o : Options)
  deriving DecidableEq, Repr

/-- What an option leads to: nothing further if help was asked for, or the state after it and
whether it still needs the next word. -/
inductive Effect where
  | help
  | state (s : OptionState)
  | needsArgument (s : OptionState)

/-- The effect of an option to which nothing is attached. -/
def applyFlag (s : OptionState) : Flag → Effect
  | .help => .help
  | .verbose => .state s.setVerbose
  | .format => .needsArgument s

/-- The options that are written together: a short option and the letters attached to it. Each
letter has to be one of a short option. -/
def lettersOf (f : Flag) : Text → Except OptionError (List Flag)
  | [] => .error (.unusedArgument f [])
  | x :: rest =>
    match Flag.spellings.lookup [.char '-', x] with
    | none => .error (.unusedArgument f (x :: rest))
    | some next => if rest.isEmpty then .ok [f, next] else (lettersOf next rest).map (f :: ·)

/-- The effect of options one after the other, of which none takes an argument. -/
def applyFlags (s : OptionState) : List Flag → Effect
  | [] => .state s
  | .help :: _ => .help
  | .verbose :: rest => applyFlags s.setVerbose rest
  | .format :: rest => applyFlags s rest

/-- The effect of an option. -/
def applyOption (s : OptionState) (f : Flag) (isLong : Bool) (attached : Option Text) :
    Except OptionError Effect :=
  match attached with
  | none => .ok (applyFlag s f)
  | some t =>
    if f = .format then (s.setFormat t).map .state
    else if isLong then .error (.unusedArgument f t)
    else (lettersOf f t).map (applyFlags s)

/-- Reads classified words. -/
def readWords (s : OptionState) : List (Word × Text) → Except OptionError (Option OptionState)
  | [] => .ok (some s)
  | (.unknown, w) :: rest =>
    readWords { s.endRun with unknown := s.unknown ++ [w] } rest
  | (.option f isLong attached, _) :: rest => do
    match ← applyOption s.endRun f isLong attached with
    | .help => return none
    | .state s => readWords s rest
    | .needsArgument s =>
      match rest with
      | (.argument, a) :: rest => do readWords (← s.setFormat a) rest
      | _ => throw (.noArgument .format)
  | (_, w) :: rest => readWords (s.addWord w) rest

/-- Reads a command line. The first two dashes in the run of paths are left out. -/
def readOptions (words : List Text) : Except OptionError Request := do
  match ← readWords {} (← classifyAll words) with
  | none => return .help
  | some s =>
    if !s.unknown.isEmpty then throw (.unknownWords s.unknown)
    return .lint { s.options with paths := s.options.paths.erase "--" }

/-! ## Texts -/

def programName : String := "entity-schema-lint"

def usage : String :=
  "usage: entity-schema-lint [-h] [--format \x7bhuman,json,github-actions\x7d] [-v]\n" ++
    "                          [paths ...]\n"

def helpText : String :=
  usage ++ "\n" ++ "Lint entity schema project documents\n" ++ "\n" ++
    "positional arguments:\n" ++
    "  paths                 File paths or directories to lint (default: current\n" ++
    "                        directory)\n" ++ "\n" ++
    "options:\n" ++
    "  -h, --help            show this help message and exit\n" ++
    "  --format \x7bhuman,json,github-actions\x7d\n" ++
    "                        Output format (default: human)\n" ++
    "  -v, --verbose         Log loader diagnostics at DEBUG level\n"

/-- What is written about a command line that is wrong. -/
def OptionError.text (e : OptionError) : Text :=
  usage ++ programName ++ ": error: " ++ e.message ++ "\n"

end EntityGraph.Lint
