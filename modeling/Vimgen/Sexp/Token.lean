import Vimgen.Sexp.Datum

/-!
# Tokens of S-expression text

`scan` walks over the text character by character. Blanks and comments are dropped, escapes are
resolved, and what cannot be a token ends the list with a fault. A closing bracket keeps the text
from it on, and an apostrophe its position, for the messages that mention them.
-/

namespace Vimgen.Sexp

/-- A text that ends in the middle of a token. -/
inductive TokenFault where
  | unterminatedText
  | danglingEscape
  deriving DecidableEq, Repr

/-- A token of S-expression text. -/
inductive Token where
  | opening (bracket : Bracket)
  | closing (bracket : Bracket) (rest : List Char)
  | apostrophe (position : Nat)
  | text (value : List Char)
  | atom (value : List Char)
  | fault (cause : TokenFault)
  deriving DecidableEq, Repr

namespace Token

/-- Where the scanner stands; inside a token with what was read of it, last character first. -/
inductive Mode where
  | gap
  | comment
  | text (read : List Char)
  | textEscape (read : List Char)
  | atom (read : List Char)
  | atomEscape (read : List Char)
  deriving DecidableEq, Repr

/-- The six blanks that separate tokens; other blanks are part of an atom. -/
def isSeparator (c : Char) : Bool :=
  c = ' ' || c = '\t' || c = '\n' || c = '\r' || c = '\x0b' || c = '\x0c'

/-- Characters that end an atom. -/
def endsAtom (c : Char) : Bool :=
  isSeparator c || c = '(' || c = ')' || c = '[' || c = ']' || c = '"' || c = ';'

/-- The character that an escape in a text stands for. -/
def textEscape? (c : Char) : Option Char :=
  if c = '\\' then some '\\'
  else if c = '"' then some '"'
  else if c = 'b' then some '\x08'
  else if c = 'f' then some '\x0c'
  else if c = 'n' then some '\n'
  else if c = 'r' then some '\r'
  else if c = 't' then some '\t'
  else none

/-- What the escaped character `c` adds to a text; an unknown escape stands for itself. -/
def addTextEscape (read : List Char) (c : Char) : List Char :=
  match textEscape? c with
  | some d => d :: read
  | none => c :: '\\' :: read

/-- What the escaped character `c` adds to an atom. -/
def addAtomEscape (read : List Char) (c : Char) : List Char :=
  if isEscapable c then c :: read else c :: '\\' :: read

/-- The token that `c`, at a position between tokens, completes, and the mode after it. -/
def enter (position : Nat) (c : Char) (rest : List Char) : List Token × Mode :=
  if isSeparator c then ([], .gap)
  else if c = '"' then ([], .text [])
  else if c = '(' then ([.opening .round], .gap)
  else if c = '[' then ([.opening .square], .gap)
  else if c = ')' then ([.closing .round (c :: rest)], .gap)
  else if c = ']' then ([.closing .square (c :: rest)], .gap)
  else if c = '\'' then ([.apostrophe position], .gap)
  else if c = ';' then ([], .comment)
  else if c = '\\' then ([], .atomEscape [])
  else ([], .atom [c])

/-- The token, if any, that the end of the text completes. -/
def finish : Mode → List Token
  | .gap => []
  | .comment => []
  | .text _ => [.fault .unterminatedText]
  | .textEscape _ => [.fault .danglingEscape]
  | .atom read => [.atom read.reverse]
  | .atomEscape _ => [.fault .danglingEscape]

/-- The tokens that the character `c` completes, and the mode after it. -/
def step (position : Nat) (mode : Mode) (c : Char) (rest : List Char) : List Token × Mode :=
  match mode with
  | .gap => enter position c rest
  | .comment => ([], if c = '\n' then .gap else .comment)
  | .text read =>
    if c = '"' then ([.text read.reverse], .gap)
    else if c = '\\' then ([], .textEscape read)
    else ([], .text (c :: read))
  | .textEscape read => ([], .text (addTextEscape read c))
  | .atom read =>
    if endsAtom c then
      let (tokens, next) := enter position c rest
      (.atom read.reverse :: tokens, next)
    else if c = '\\' then ([], .atomEscape read)
    else ([], .atom (c :: read))
  | .atomEscape read => ([], .atom (addAtomEscape read c))

/-- The tokens of a text from a position and mode on. -/
def scanFrom (position : Nat) (mode : Mode) : List Char → List Token
  | [] => finish mode
  | c :: rest =>
    (step position mode c rest).1 ++ scanFrom (position + 1) (step position mode c rest).2 rest

/-- The tokens of a text. -/
def scan (text : List Char) : List Token := scanFrom 0 .gap text

end Token

end Vimgen.Sexp
