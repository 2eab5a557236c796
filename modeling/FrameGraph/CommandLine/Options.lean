import FrameGraph.Text.Digit

/-!
# Options

The command line names a description, where to write what was built, and how much to log. An option
may be shortened as long as one name begins with it, its argument follows it or an equals sign, and
of several occurrences the last one counts. There are no arguments besides options. Two dashes are
never an argument: after an equals sign they take the argument of the option away.

* `Options.parse`: the options among some words, or why there are none.
-/

namespace FrameGraph.CommandLine

structure Options where
  /-- The path of the description, if it was not taken away. -/
  config : Option String := some "configs/photo_mode.yaml"
  /-- Where to write what was built; if empty, it is printed. -/
  output : String := ""
  /-- Whether there is a level from which on to log. -/
  hasLevel : Bool := true
  deriving DecidableEq, Repr

/-- Why the words of a command line are no options. -/
inductive Rejection where
  /-- They ask for an explanation instead. -/
  | help
  | misuse
  deriving DecidableEq, Repr

inductive Name where
  | help
  | config
  | output
  | logLevel
  deriving DecidableEq, Repr

def spellings : List (String × Name) :=
  [("-h", .help), ("--help", .help), ("--config", .config), ("--output", .output),
    ("--log-level", .logLevel)]

def logLevels : List String := ["DEBUG", "INFO", "WARNING", "ERROR"]

inductive Word where
  /-- An option with the argument after its equals sign. -/
  | option (name : Name) (argument : Option String)
  | argument (text : String)
  /-- A word that is no option and no argument of one. -/
  | stray
  deriving DecidableEq, Repr

/-- A text without the line feed at its end, if there is one. -/
def withoutLineFeed (s : List Char) : List Char :=
  if s.getLast? = some '\n' then s.dropLast else s

/-- Whether a text is a negative number, perhaps with a line feed behind it: a dash, digits, and
perhaps a point with digits. -/
def isNegativeNumber (s : List Char) : Bool :=
  match withoutLineFeed s with
  | '-' :: rest =>
    let whole := rest.takeWhile Text.isDecimalDigit
    match rest.dropWhile Text.isDecimalDigit with
    | [] => whole ≠ []
    | '.' :: fraction => fraction ≠ [] && fraction.all Text.isDecimalDigit
    | _ => false
  | _ => false

/-- The name that begins with a word, or all of them if there are several. -/
def namesFrom (word : String) : List Name :=
  (spellings.filter fun e => word.toList.isPrefixOf e.1.toList).map Prod.snd

/-- What stands before and after the first equals sign. -/
def splitArgument (s : String) : String × Option String :=
  let chars := s.toList
  match chars.dropWhile (· ≠ '=') with
  | _ :: rest => (String.ofList (chars.takeWhile (· ≠ '=')), some (String.ofList rest))
  | [] => (s, none)

/-- What a word is that begins with one dash. The letter that asks for help may be repeated, also
after an equals sign; anything else behind it is an argument, which it does not take. -/
def ofOneDash (s : String) : List Word :=
  match s.toList with
  | '-' :: 'h' :: rest =>
    let given := if rest.head? = some '=' then rest.drop 1 else rest
    if given ≠ [] && given.all (· = 'h') then [.option .help none]
    else [.option .help (some (String.ofList given))]
  | _ => []

/-- What a word is that does not come after two dashes. -/
def Word.ofText (s : String) : Except Rejection Word :=
  if !s.startsWith "-" || s = "-" then .ok (.argument s)
  else
    match spellings.find? fun e => e.1 = s with
    | some e => .ok (.option e.2 none)
    | none =>
      let (name, given) := splitArgument s
      let meanings := if s.startsWith "--" then (namesFrom name).map (Word.option · given)
        else ofOneDash s
      match meanings with
      | [word] => .ok word
      | _ :: _ => .error .misuse
      | [] =>
        if isNegativeNumber s.toList || s.toList.contains ' ' then .ok (.argument s) else .ok .stray

/-- The words of a command line. What comes after two dashes belongs to no option. -/
def words : List String → Except Rejection (List Word)
  | [] => .ok []
  | "--" :: _ => .ok [.stray]
  | s :: rest => do
    let word ← Word.ofText s
    return word :: (← words rest)

def Options.set (o : Options) (name : Name) (argument : String) : Except Rejection Options :=
  let given := if argument = "--" then none else some argument
  match name, given with
  | .help, _ => .error .misuse
  | .config, path => .ok { o with config := path }
  | .output, path => .ok { o with output := path.getD "" }
  | .logLevel, none => .ok { o with hasLevel := false }
  | .logLevel, some level =>
    if logLevels.contains level then .ok { o with hasLevel := true } else .error .misuse

/-- Reads options from words. A word that belongs to no option is found out after the others were
read. -/
def Options.read (o : Options) : List Word → Except Rejection Options
  | [] => .ok o
  | .option .help none :: _ => .error .help
  | .option name (some argument) :: rest => do (← o.set name argument).read rest
  | .option name none :: .argument s :: rest => do (← o.set name s).read rest
  | .option _ none :: _ => .error .misuse
  | _ :: rest => do
    let _ ← o.read rest
    .error .misuse

/-- The options among the words after the program's name. -/
def Options.parse (args : List String) : Except Rejection Options := do
  ({} : Options).read (← words args)

end FrameGraph.CommandLine
