/-
  GraphQLCheck.Language.BlockString
  ─────────────────────────────────
  What a block string stands for.  Its lines lose the white space they have in common at their
  start, blank lines at either end are dropped, and `\"""` stands for three quotes.

  White space is measured in UTF-8 bytes, and the first line neither counts for the common
  indentation nor loses any.
-/
import GraphQLCheck.Text.Blank

namespace GraphQLCheck.BlockString

/-- A line that ends in a line feed loses a carriage return before it.  Takes the line reversed. -/
def endLine : List Char → List Char
  | '\r' :: reversed => reversed.reverse
  | reversed => reversed.reverse

/-- The lines of a text: a line ends at a line feed, and what follows the last one is a line of its
own unless it is empty. -/
def lines (cs : List Char) : List (List Char) := go [] cs
where
  /-- `current` holds the line that is being read, its last character first. -/
  go (current : List Char) : List Char → List (List Char)
    | [] => if current.isEmpty then [] else [current.reverse]
    | c :: cs => if c = '\n' then endLine current :: go [] cs else go (c :: current) cs

/-- The size of a text in UTF-8 bytes. -/
def byteSize (cs : List Char) : Nat := cs.foldl (fun size c => size + c.utf8Size) 0

/-- The size of the white space at the start of a line. -/
def indentation (line : List Char) : Nat := byteSize (line.takeWhile Text.isBlank)

/-- Whether a line holds nothing but white space. -/
def isBlankLine (line : List Char) : Bool := line.all Text.isBlank

/-- The least indentation of the lines that are not blank; `none` if all of them are. -/
def commonIndentation (lines : List (List Char)) : Option Nat :=
  ((lines.filter fun line => !isBlankLine line).map indentation).min?

/-- Drop characters until a number of bytes is gone. -/
def dropBytes : Nat → List Char → List Char
  | _, [] => []
  | size, c :: cs => if size = 0 then c :: cs else dropBytes (size - c.utf8Size) cs

/-- Take a common indentation away from a line that is long enough. -/
def unindent (common : Nat) (line : List Char) : List Char :=
  if common ≤ byteSize line then dropBytes common line else line

/-- Let `\"""` stand for three quotes. -/
def unescape : List Char → List Char
  | '\\' :: '"' :: '"' :: '"' :: cs => '"' :: '"' :: '"' :: unescape cs
  | c :: cs => c :: unescape cs
  | [] => []

/-- Drop the blank lines at either end. -/
def dropBlankEnds (lines : List (List Char)) : List (List Char) :=
  ((lines.dropWhile isBlankLine).reverse.dropWhile isBlankLine).reverse

/-- The text that a block string stands for, given what stands between its quotes. -/
def content (raw : List Char) : List Char :=
  match lines raw with
  | [] => []
  | first :: others =>
    -- the first line stands right after the quotes, so its indentation says nothing
    let others :=
      match commonIndentation others with
      | some common => others.map (unindent common)
      | none => others
    ['\n'].intercalate ((dropBlankEnds (first :: others)).map unescape)

end GraphQLCheck.BlockString
