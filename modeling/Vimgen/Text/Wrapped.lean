import Vimgen.Text.Quoted

/-!
# Quoted text over several lines

A text that is too long for its line is shown as several quoted pieces, which together are the text:
`pieces`. Pieces end where lines end, and where a line is too long, between words.
-/

namespace Vimgen.Text

/-- Characters that end a line. -/
def endsLine (c : Char) : Bool :=
  ['\n', '\r', '\x0b', '\x0c', '\x1c', '\x1d', '\x1e', '\x85', '\u2028', '\u2029'].contains c

/-- The lines of a text, each with its end; a return before a newline is part of one end. -/
def linesOf : List Char → List (List Char)
  | [] => []
  | '\r' :: '\n' :: rest => ['\r', '\n'] :: linesOf rest
  | c :: rest =>
    if endsLine c then [c] :: linesOf rest
    else match linesOf rest with
      | [] => [[c]]
      | line :: lines => (c :: line) :: lines

/-- Characters that separate words: blanks and the separators of information. -/
def separatesWords (c : Char) : Bool := isBlank c || inRanges [(0x1C, 0x1F)] c

/-- The words of a line, each with the blanks after it. -/
def wordsOf : List Char → List (List Char)
  | [] => []
  | [c] => [[c]]
  | c :: d :: rest =>
    if separatesWords c && !separatesWords d then [c] :: wordsOf (d :: rest)
    else match wordsOf (d :: rest) with
      | [] => [[c]]
      | word :: words => (c :: word) :: words

/-- The length of a text in quotes. -/
def quotedLength (s : List Char) : Nat := (quoted (String.ofList s)).length

/-- A piece, unless there is nothing in it. -/
def piece (s : List Char) : List (List Char) := if s.isEmpty then [] else [s]

/-- Words joined to pieces of at most `limit` characters in quotes, as long as single words allow
it, after what is in `current` already. The last word has to fit into `lastLimit`. -/
def fill (limit lastLimit : Nat) (current : List Char) : List (List Char) → List (List Char)
  | [] => piece current
  | word :: rest =>
    if quotedLength (current ++ word) ≤ (if rest.isEmpty then lastLimit else limit) then
      fill limit lastLimit (current ++ word) rest
    else piece current ++ fill limit lastLimit word rest

/-- The pieces of lines; the last one is to leave `allowance` of the `limit` free. -/
def piecesOfLines (limit allowance : Nat) : List (List Char) → List (List Char)
  | [] => []
  | line :: rest =>
    let lastLimit := if rest.isEmpty then limit - allowance else limit
    let pieces := if quotedLength line ≤ lastLimit then [line] else fill limit lastLimit [] (wordsOf line)
    pieces ++ piecesOfLines limit allowance rest

/-- The pieces of a text for lines of `limit` characters, of which the last keeps `allowance` free.
The empty text is one piece. -/
def pieces (limit allowance : Nat) (s : String) : List String :=
  if s.isEmpty then [s] else (piecesOfLines limit allowance (linesOf s.toList)).map String.ofList

end Vimgen.Text
