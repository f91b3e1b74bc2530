import Vimgen.Text.Quoted

/-!
# Arguments of the command

The command takes one file and some options. A word of the command line is an option, an operand, or
the double dash that ends options (`Word.classify`). Long options may be cut short as long as they
stay unique; short ones may be written together, and with their value. `Args.parse` goes through the
words from left to right.
-/

namespace Vimgen.Command

/-- The options of the command. -/
inductive Opt where
  | help
  | output
  | dumpAst
  | verbose
  deriving DecidableEq, Repr

namespace Opt

/-- All options, in the order in which help lists them. -/
def all : List Opt := [.help, .output, .dumpAst, .verbose]

/-- The spellings of an option, short ones first. -/
def spellings : Opt → List String
  | .help => ["-h", "--help"]
  | .output => ["-o", "--output"]
  | .dumpAst => ["--dump-ast"]
  | .verbose => ["-v", "--verbose"]

/-- Whether a value follows the option. -/
def takesValue : Opt → Bool
  | .output => true
  | _ => false

/-- The option as messages mention it. -/
def display (o : Opt) : String := String.intercalate "/" o.spellings

/-- The option of a spelling. -/
def ofSpelling? (s : String) : Option Opt := all.find? (·.spellings.contains s)

/-- The short option of a letter. -/
def ofLetter? (c : Char) : Option Opt := ofSpelling? (String.ofList ['-', c])

/-- All spellings with their options, in order. -/
def table : List (String × Opt) := all.flatMap fun o => o.spellings.map (·, o)

end Opt

/-- Why a command line is not understood. -/
inductive UsageError where
  | ambiguous (word : String) (candidates : List String)
  | missingValue (option : Opt)
  | needlessValue (option : Opt) (value : String)
  | missingFile
  | unrecognized (words : List String)
  deriving DecidableEq, Repr

/-- The wording of a usage error. -/
def UsageError.message : UsageError → String
  | .ambiguous word candidates =>
    let names := String.intercalate ", " candidates
    s!"ambiguous option: {word} could match {names}"
  | .missingValue option => s!"argument {option.display}: expected one argument"
  | .needlessValue option value =>
    s!"argument {option.display}: ignored explicit argument {Text.quoted value}"
  | .missingFile => "the following arguments are required: file"
  | .unrecognized words =>
    let rest := String.intercalate " " words
    s!"unrecognized arguments: {rest}"

/-- A word of the command line. An option may have a value attached, and a short one more options;
`text` is the word as it was given. -/
inductive Word where
  | operand (text : String)
  | separator
  | option (option : Opt) (short : Bool) (attached : Option (List Char))
  | unknown (text : String)
  deriving DecidableEq, Repr

/-- The word that ends options. -/
def separatorText : String := "--"

/-- Splits a word at its first equals sign. -/
def splitEquals (word : List Char) : List Char × Option (List Char) :=
  match word.dropWhile (· ≠ '=') with
  | [] => (word, none)
  | _ :: value => (word.takeWhile (· ≠ '='), some value)

/-- A number with a minus, which is an operand. -/
def isNegativeNumber (word : List Char) : Bool :=
  let isDigit (c : Char) := (Text.digitValue? c).isSome
  let body := if word.getLast? = some '\n' then word.dropLast else word
  match body with
  | '-' :: rest =>
    let fraction := (rest.dropWhile isDigit).drop 1
    (!rest.isEmpty && rest.all isDigit) ||
      ((rest.dropWhile isDigit).head? = some '.' && !fraction.isEmpty && fraction.all isDigit)
  | _ => false

namespace Word

/-- The options that a word, not itself the spelling of one, may stand for: long options that start
with it, or the short option it starts with. -/
def candidates (word : List Char) : List (String × Word) :=
  match word with
  | '-' :: '-' :: _ =>
    let (start, value) := splitEquals word
    (Opt.table.filter fun entry => start.isPrefixOf entry.1.toList).map fun entry =>
      (entry.1, .option entry.2 false value)
  | '-' :: letter :: rest =>
    ((Opt.ofLetter? letter).map fun o => (String.ofList ['-', letter], .option o true (some rest))).toList
  | _ => []

/-- Whether the spelling of an option is a short one. -/
def isShort (spelling : List Char) : Bool := spelling.length = 2

/-- What a word before the separator is. -/
def classify (text : String) : Except UsageError Word :=
  let word := text.toList
  let (start, value) := splitEquals word
  match word, Opt.ofSpelling? text, Opt.ofSpelling? (String.ofList start) with
  | '-' :: _ :: _, some o, _ => .ok (.option o (isShort word) none)
  | '-' :: _ :: _, none, some o => .ok (.option o (isShort start) value)
  | '-' :: _ :: _, none, none =>
    match candidates word with
    | [found] => .ok found.2
    | [] =>
      if isNegativeNumber word || word.contains ' ' then .ok (.operand text)
      else .ok (.unknown text)
    | several => .error (.ambiguous text (several.map Prod.fst))
  | _, _, _ => .ok (.operand text)

/-- What the words of a command line are; all after the separator are operands. -/
def classifyAll : List String → Except UsageError (List Word)
  | [] => .ok []
  | text :: rest =>
    if text = separatorText then .ok (.separator :: rest.map .operand)
    else do
      let word ← classify text
      return word :: (← classifyAll rest)

end Word

/-- What the command is asked to do. -/
structure Args where
  file : Option String := none
  output : Option String := none
  dumpAst : Bool := false
  verbose : Bool := false
  /-- Words that mean nothing. -/
  extras : List String := []
  deriving DecidableEq, Repr

/-- A command line asks for help, is not understood, or has arguments. -/
inductive Request where
  | help
  | usage (error : UsageError)
  | run (file : String) (args : Args)
  deriving DecidableEq, Repr

/-- The options written together in one word, of which the last may have a value attached. -/
def unbundle (option : Opt) (short : Bool) : List Char → Except UsageError (List (Opt × Option String))
  | [] =>
    if option.takesValue then .ok [(option, some "")] else .error (.needlessValue option "")
  | letter :: rest =>
    let attached := String.ofList (letter :: rest)
    if option.takesValue then .ok [(option, some attached)]
    else
      match short, Opt.ofLetter? letter with
      | true, some next =>
        if rest.isEmpty then .ok [(option, none), (next, none)]
        else do return (option, none) :: (← unbundle next true rest)
      | _, _ => .error (.needlessValue option attached)

/-- The options of a word. -/
def optionsOf (option : Opt) (short : Bool) :
    Option (List Char) → Except UsageError (List (Opt × Option String))
  | none => .ok [(option, none)]
  | some attached => unbundle option short attached

/-- Whether the last of some options still needs a value. -/
def needsValue (options : List (Opt × Option String)) : Option Opt :=
  match options.getLast? with
  | some (o, none) => if o.takesValue then some o else none
  | _ => none

namespace Args

/-- Takes options in order, and `value` for one that has none attached. The separator attached to
an option is no value. Help ends it all. -/
def take (args : Args) (value : Option String) : List (Opt × Option String) → Option Args
  | [] => some args
  | (.help, _) :: _ => none
  | (.output, attached) :: rest =>
    let given := if attached = some separatorText then none else attached.or value
    { args with output := given }.take value rest
  | (.dumpAst, _) :: rest => { args with dumpAst := true }.take value rest
  | (.verbose, _) :: rest => { args with verbose := true }.take value rest

/-- Takes an operand: the file, and then only what means nothing. -/
def operand (args : Args) (text : String) : Args :=
  match args.file with
  | none => { args with file := some text }
  | some _ => { args with extras := args.extras ++ [text] }

/-- The request of arguments after the last word. -/
def request (args : Args) : Request :=
  match args.file, args.extras with
  | none, _ => .usage .missingFile
  | some file, [] => .run file args
  | some _, extras => .usage (.unrecognized extras)

/-- Takes options, and goes on unless help ends it. -/
def takeThen (args : Args) (value : Option String) (options : List (Opt × Option String))
    (next : Args → Request) : Request :=
  match args.take value options with
  | none => .help
  | some args => next args

/-- Goes through words. The separator disappears where it stands next to the file, and means nothing
elsewhere. -/
def parseWords (args : Args) : List Word → Request
  | [] => args.request
  | .operand text :: .separator :: rest =>
    if args.file.isNone then parseWords (args.operand text) rest
    else parseWords { args with extras := args.extras ++ [text, separatorText] } rest
  | .operand text :: rest => parseWords (args.operand text) rest
  | .separator :: .operand text :: rest =>
    if args.file.isNone then parseWords (args.operand text) rest
    else parseWords { args with extras := args.extras ++ [separatorText, text] } rest
  | .separator :: rest => parseWords { args with extras := args.extras ++ [separatorText] } rest
  | .unknown text :: rest => parseWords { args with extras := args.extras ++ [text] } rest
  | .option o short attached :: .operand text :: rest =>
    match optionsOf o short attached with
    | .error e => .usage e
    | .ok options =>
      match needsValue options with
      | some _ => args.takeThen (some text) options fun args => parseWords args rest
      | none =>
        args.takeThen none options fun args => parseWords args (.operand text :: rest)
  | .option o short attached :: rest =>
    match optionsOf o short attached with
    | .error e => .usage e
    | .ok options =>
      match needsValue options with
      | some o => .usage (.missingValue o)
      | none => args.takeThen none options fun args => parseWords args rest
termination_by words => words.length

/-- What a command line asks for. -/
def parse (words : List String) : Request :=
  match Word.classifyAll words with
  | .error e => .usage e
  | .ok words => ({} : Args).parseWords words

end Args

end Vimgen.Command
