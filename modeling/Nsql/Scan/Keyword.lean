/-
  File:      Nsql/Scan/Keyword.lean
  Subject:   The words of NSQL that the scanner looks for.

  The scanner has no grammar. It asks four questions about a line: does a query begin here, does
  it hold a word that begins a query, does it end a statement, is it a comment.
-/
import Nsql.Text.Blank
import Nsql.Text.Word

namespace Nsql.Scan

/-- The words that begin a query; they are written in capitals. -/
def queryWords : List Text :=
  [['A', 'S', 'K'], ['T', 'E', 'L', 'L'], ['F', 'I', 'N', 'D'], ['S', 'H', 'O', 'W'],
    ['G', 'E', 'T']]

/-- The word that ends a statement politely. -/
def politeWord : Text := ['P', 'L', 'E', 'A', 'S', 'E']

/-- The mark that opens a comment line. -/
def commentMark : Text := ['>', '>']

/-- Whether a query begins at the front of a line. -/
def beginsStatement (t : Text) : Bool := Text.startsWithWord .exact queryWords none t

/-- Whether a line holds a word that begins a query. -/
def holdsQueryWord (t : Text) : Bool := Text.holdsWord .exact queryWords none t

/-- Whether a text ends, white space aside, with the polite word as a whole word. Read backwards
    from there, the word comes first and then no word character. -/
def endsPolitely (t : Text) : Bool :=
  match Text.behind? .exact politeWord.reverse (t.reverse.dropWhile isBlank) with
  | some rest => isEdge rest.head?
  | none => false

/-- Whether a statement ends with a line: at a semicolon, or politely. -/
def endsStatement (t : Text) : Bool := t.getLast? == some ';' || endsPolitely t

/-- Whether a trimmed line is a comment. -/
def isComment (t : Text) : Bool := (Text.behind? .exact commentMark t).isSome

/-- Whether a line counts: it is neither blank nor a comment. -/
def isSignificant (line : Text) : Bool :=
  let t := Text.trimEdges line
  !t.isEmpty && !isComment t

end Nsql.Scan
