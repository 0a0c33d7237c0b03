/-
  File:      Nsql/Text/Word.lean
  Subject:   Words: runs of word characters that nothing extends.

  A keyword counts only where it stands as a whole word: no word character stands right before
  or right behind it. The searches carry the character before the text that is left, so that a
  word is never found in the middle of a longer one.

  * `behindWord?` is the text behind a whole word at the front;
  * `holdsWord` asks whether one of several words stands anywhere in a text.
-/
import Nsql.Text.Basic
import Nsql.Text.WordTable

namespace Nsql

/-! ## 1. Word characters -/

/-- Word characters: letters, marks, digits, connectors and joiners. -/
def isWord (c : Char) : Bool :=
  if c.toNat < 0x80 then c.isAlphanum || c == '_' else inRanges wordRanges c.toNat

/-- Whether no word character stands at a place; `none` is the end of the text. -/
def isEdge : Option Char → Bool
  | none => true
  | some c => !isWord c

@[simp] theorem isEdge_none : isEdge none = true := rfl
@[simp] theorem isEdge_some (c : Char) : isEdge (some c) = !isWord c := rfl

/-- How letters are compared: exactly, or without regard to the case of the letters A to Z. -/
inductive Letters where
  | exact
  | anyCase
  deriving DecidableEq, Repr

/-- Whether two characters count as the same letter. -/
def Letters.same : Letters → Char → Char → Bool
  | .exact, a, b => a == b
  | .anyCase, a, b => a.toLower == b.toLower

namespace Text

/-! ## 2. Whole words -/

/-- The text behind `word`, if the text begins with it. -/
def behind? (letters : Letters) : (word : Text) → Text → Option Text
  | [], t => some t
  | _ :: _, [] => none
  | w :: ws, c :: t => if letters.same w c then behind? letters ws t else none

/-- The text behind `word`, if it stands at the front of the text as a whole word; `before` is
    the character before the text. -/
def behindWord? (letters : Letters) (word : Text) (before : Option Char) (t : Text) : Option Text :=
  if isEdge before then
    match behind? letters word t with
    | some rest => if isEdge rest.head? then some rest else none
    | none => none
  else none

/-- Whether one of `words` stands at the front of the text as a whole word. -/
def startsWithWord (letters : Letters) (words : List Text) (before : Option Char) (t : Text) :
    Bool :=
  words.any fun w => (behindWord? letters w before t).isSome

/-- Whether one of `words` stands anywhere in the text as a whole word. -/
def holdsWord (letters : Letters) (words : List Text) : (before : Option Char) → Text → Bool
  | _, [] => false
  | before, c :: t =>
    startsWithWord letters words before (c :: t) || holdsWord letters words (some c) t

end Text

end Nsql
