/-
  File:      Nsql/Text/Basic.lean
  Subject:   Texts and their three measures.

  A text is the list of its characters. Three ways of counting meet in an editor protocol, and
  each has one function here:

  * `List.length` counts characters (code points): offsets inside a document;
  * `Text.width` counts UTF-16 code units: the columns that a client sends and receives;
  * `Text.size` counts UTF-8 bytes: offsets inside a file or a stream.

  All three are additive over `++`, so a position in a text is the measure of what stands before
  it.
-/

namespace Nsql

/-- A text: its characters, in order. -/
abbrev Text := List Char

/-! ## 1. Measures -/

/-- UTF-16 code units of one character: two from U+10000 on. -/
def unitsOf (c : Char) : Nat := if c.toNat < 0x10000 then 1 else 2

/-- UTF-8 bytes of one character. -/
def bytesOf (c : Char) : Nat :=
  if c.toNat < 0x80 then 1 else if c.toNat < 0x800 then 2 else if c.toNat < 0x10000 then 3 else 4

theorem unitsOf_pos (c : Char) : 0 < unitsOf c := by
  unfold unitsOf; split <;> decide

theorem bytesOf_pos (c : Char) : 0 < bytesOf c := by
  unfold bytesOf; repeat' split <;> try decide

namespace Text

/-- Width of a text in UTF-16 code units. -/
def width : Text → Nat
  | [] => 0
  | c :: t => unitsOf c + width t

/-- Size of a text in UTF-8 bytes. -/
def size : Text → Nat
  | [] => 0
  | c :: t => bytesOf c + size t

@[simp] theorem width_nil : width [] = 0 := rfl
@[simp] theorem width_cons (c : Char) (t : Text) : width (c :: t) = unitsOf c + width t := rfl
@[simp] theorem size_nil : size [] = 0 := rfl
@[simp] theorem size_cons (c : Char) (t : Text) : size (c :: t) = bytesOf c + size t := rfl

@[simp] theorem width_append (s t : Text) : width (s ++ t) = width s + width t := by
  induction s with
  | nil => simp
  | cons c s ih => simp [ih, Nat.add_assoc]

@[simp] theorem size_append (s t : Text) : size (s ++ t) = size s + size t := by
  induction s with
  | nil => simp
  | cons c s ih => simp [ih, Nat.add_assoc]

/-! ## 2. Between the measures -/

/-- Number of whole characters within the first `units` code units. An index inside a surrogate
    pair belongs to the character that the pair encodes, so it counts the characters before it. -/
def charsWithin : Text → Nat → Nat
  | [], _ => 0
  | c :: t, units => if units < unitsOf c then 0 else charsWithin t (units - unitsOf c) + 1

/-- The `n`-th character boundary, exactly as many units into the text as the characters before
    it are wide. -/
theorem charsWithin_width (s t : Text) : charsWithin (s ++ t) (width s) = s.length := by
  induction s with
  | nil =>
    cases t with
    | nil => rfl
    | cons c t => simp [charsWithin, unitsOf_pos]
  | cons c s ih => simp [charsWithin, ih]

/-! ## 3. Cutting -/

/-- Drops the characters at the end that satisfy `p`. -/
def dropEndWhile (p : Char → Bool) (t : Text) : Text := (t.reverse.dropWhile p).reverse

/-- Drops the characters at both ends that satisfy `p`. -/
def trimWhile (p : Char → Bool) (t : Text) : Text := dropEndWhile p (t.dropWhile p)

end Text

end Nsql
