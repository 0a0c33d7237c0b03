/-
  File:      Nsql/Proofs/Json/Grammar.lean
  Subject:   The texts of a JSON value.

  The rules of the format, said without a reader: `IsText v t` holds if `t` is a text of `v`. White
  space may stand around every token, the members of an object come in any order, a character of a
  string may be spelled in any of its ways. An integer is written in plain decimal, so that a value
  tells an integer from a number with a fraction or an exponent; which floating-point value such a
  number has is left open.

  * `Spelling`, `Spells` -- characters and strings;
  * `Fraction`, `Exponent` -- what makes a number no integer;
  * `Written` -- values, the pieces of arrays and objects, and lists of pieces;
  * `Ahead` -- what is left of an array or an object when some pieces have been read;
  * `Written.exists_head`, `Written.exists_item`, `Written.exists_member` -- what a reader meets
    first.
-/
import Mathlib.Data.List.Forall2
import Nsql.Json.Token

namespace Nsql.Json

/-! ## 1. Tokens -/

/-- White space, or nothing. -/
def Spaces (a : Text) : Prop := ∀ c ∈ a, isSpace c = true

instance (a : Text) : Decidable (Spaces a) := List.decidableBAll (fun c => isSpace c = true) a

theorem spaces_nil : Spaces [] := fun _ h => absurd h List.not_mem_nil

/-- Decimal digits, at least one. -/
structure Digits (ds : Text) : Prop where
  ne_nil : ds ≠ []
  digit : ∀ c ∈ ds, c.isDigit = true

/-- The fraction of a number, or nothing. -/
inductive Fraction : Text → Prop where
  | none : Fraction []
  | digits {ds : Text} (h : Digits ds) : Fraction ('.' :: ds)

/-- The exponent of a number, or nothing. -/
inductive Exponent : Text → Prop where
  | none : Exponent []
  | digits {e : Char} {sign ds : Text} (he : e = 'e' ∨ e = 'E')
      (hsign : sign = [] ∨ sign = ['+'] ∨ sign = ['-']) (h : Digits ds) :
      Exponent (e :: (sign ++ ds))

/-- A hexadecimal digit, small or capital. -/
def HexDigit (n : Nat) (c : Char) : Prop :=
  n < 16 ∧ (c = n.digitChar ∨ c = n.digitChar.toUpper)

/-- The four hexadecimal digits of a number. -/
def HexWord (n : Nat) (w : Text) : Prop :=
  List.Forall₂ HexDigit [n / 0x1000, n / 0x100 % 0x10, n / 0x10 % 0x10, n % 0x10] w

/-- The escapes of one letter, and what they stand for. -/
def escapes : List (Char × Char) :=
  [('"', '"'), ('\\', '\\'), ('/', '/'), ('b', '\x08'), ('f', '\x0c'), ('n', '\n'), ('r', '\r'),
    ('t', '\t')]

/-- The ways to spell one character of a string: by itself, by a letter, by its number, or by the
    two halves of a surrogate pair. -/
inductive Spelling : Char → Text → Prop where
  | plain {c : Char} (h : 0x20 ≤ c.toNat) (hquote : c ≠ '"') (hescape : c ≠ '\\') : Spelling c [c]
  | letter {e c : Char} (h : (e, c) ∈ escapes) : Spelling c ['\\', e]
  | code {c : Char} {w : Text} (h : HexWord c.toNat w) : Spelling c ('\\' :: 'u' :: w)
  | pair {c : Char} {u w : Text} (h : 0x10000 ≤ c.toNat)
      (hhigh : HexWord (0xD800 + (c.toNat - 0x10000) / 0x400) u)
      (hlow : HexWord (0xDC00 + (c.toNat - 0x10000) % 0x400) w) :
      Spelling c ('\\' :: 'u' :: (u ++ '\\' :: 'u' :: w))

/-- The ways to spell the characters of a string, one after the other. -/
inductive Spells : Text → Text → Prop where
  | nil : Spells [] []
  | cons {c : Char} {s u w : Text} (h : Spelling c u) (hs : Spells s w) : Spells (c :: s) (u ++ w)

/-! ## 2. Values -/

/-- A piece of an array or of an object. -/
inductive Piece where
  | item (v : Json)
  | member (key : String) (v : Json)

/-- What the rules are about. -/
inductive Phrase where
  | value (v : Json)
  | piece (q : Piece)
  | pieces (qs : List Piece)

/-- **The texts of a value**, without white space around it, and of the pieces of arrays and
    objects, with the white space that may stand around them. -/
inductive Written : Phrase → Text → Prop where
  | null : Written (.value .null) ['n', 'u', 'l', 'l']
  | yes : Written (.value (.bool true)) ['t', 'r', 'u', 'e']
  | no : Written (.value (.bool false)) ['f', 'a', 'l', 's', 'e']
  | nat (n : Nat) : Written (.value (.int n)) (Nat.toDigits 10 n)
  | neg {n : Nat} (h : n ≠ 0) : Written (.value (.int (-n))) ('-' :: Nat.toDigits 10 n)
  | real {sign f e : Text} {n : Nat} (x : Binary64) (hsign : sign = [] ∨ sign = ['-'])
      (hf : Fraction f) (he : Exponent e) (h : f ≠ [] ∨ e ≠ [] ∨ sign = ['-'] ∧ n = 0) :
      Written (.value (.real x)) (sign ++ (Nat.toDigits 10 n ++ (f ++ e)))
  | str {s : String} {w : Text} (h : Spells s.toList w) :
      Written (.value (.str s)) ('"' :: (w ++ ['"']))
  | arr {vs : List Json} {w : Text} (h : Written (.pieces (vs.map .item)) w) :
      Written (.value (.arr vs)) ('[' :: (w ++ [']']))
  | obj {ms ms' : List (String × Json)} {w : Text} (hperm : ms'.Perm ms)
      (h : Written (.pieces (ms'.map fun m => .member m.1 m.2)) w) :
      Written (.value (.obj ms)) ('\x7b' :: (w ++ ['\x7d']))
  | item {a w : Text} {v : Json} (ha : Spaces a) (h : Written (.value v) w) :
      Written (.piece (.item v)) (a ++ w)
  | member {a u b c w : Text} {key : String} {v : Json} (ha : Spaces a)
      (hkey : Spells key.toList u) (hb : Spaces b) (hc : Spaces c) (h : Written (.value v) w) :
      Written (.piece (.member key v)) (a ++ '"' :: (u ++ '"' :: (b ++ ':' :: (c ++ w))))
  | none {a : Text} (ha : Spaces a) : Written (.pieces []) a
  | last {q : Piece} {w a : Text} (h : Written (.piece q) w) (ha : Spaces a) :
      Written (.pieces [q]) (w ++ a)
  | cons {q q' : Piece} {qs : List Piece} {w a u : Text} (h : Written (.piece q) w)
      (ha : Spaces a) (hs : Written (.pieces (q' :: qs)) u) :
      Written (.pieces (q :: q' :: qs)) (w ++ (a ++ ',' :: u))

/-- **The texts of a value**, with white space around it. -/
def IsText (v : Json) (t : Text) : Prop :=
  ∃ a w b, Spaces a ∧ Written (.value v) w ∧ Spaces b ∧ t = a ++ (w ++ b)

/-! ## 3. What comes first -/

/-- The first characters that tell what kind of value comes. -/
def Starts : Json → Char → Prop
  | .null, c => c = 'n'
  | .bool b, c => c = if b then 't' else 'f'
  | .int _, c => c = '-' ∨ c.isDigit = true
  | .real _, c => c = '-' ∨ c.isDigit = true
  | .str _, c => c = '"'
  | .arr _, c => c = '['
  | .obj _, c => c = '\x7b'

/-- The decimal digits of a number: they begin with a zero only if that is the number. -/
theorem exists_digits (n : Nat) :
    ∃ d ds, Nat.toDigits 10 n = d :: ds ∧ d.isDigit = true ∧ (∀ c ∈ ds, c.isDigit = true) ∧
      (d = '0' → n = 0 ∧ ds = []) := by
  induction n using Nat.strongRecOn with
  | ind n ih =>
    rcases Nat.lt_or_ge n 10 with hlt | hge
    · refine ⟨n.digitChar, [], Nat.toDigits_of_lt_base hlt, ?_, by simp, fun hzero => ⟨?_, rfl⟩⟩
      · rw [Nat.isDigit_digitChar, decide_eq_true hlt]
      · have hcode := Nat.toNat_digitChar_of_lt_ten hlt
        rw [hzero] at hcode
        exact (Nat.add_left_cancel hcode).symm
    · obtain ⟨d, ds, hdigits, hd, hds, hzero⟩ := ih (n / 10) (by omega)
      refine ⟨d, ds ++ [(n % 10).digitChar], ?_, hd, ?_, fun h => ?_⟩
      · rw [Nat.toDigits_of_base_le (by decide) hge, hdigits, List.cons_append]
      · refine List.forall_mem_append.mpr ⟨hds, List.forall_mem_singleton.mpr ?_⟩
        rw [Nat.isDigit_digitChar, decide_eq_true (Nat.mod_lt n (by decide))]
      · have hsmall := (hzero h).1
        omega

/-- **The first character of a value.** -/
theorem Written.exists_head {v : Json} {w : Text} (h : Written (.value v) w) :
    ∃ c r, w = c :: r ∧ v.Starts c := by
  cases h with
  | null => exact ⟨_, _, rfl, rfl⟩
  | yes => exact ⟨_, _, rfl, rfl⟩
  | no => exact ⟨_, _, rfl, rfl⟩
  | nat n =>
    obtain ⟨d, ds, hdigits, hd, -⟩ := exists_digits n
    exact ⟨d, ds, hdigits, .inr hd⟩
  | neg => exact ⟨_, _, rfl, .inl rfl⟩
  | @real sign f e n x hsign =>
    rcases hsign with rfl | rfl
    · obtain ⟨d, ds, hdigits, hd, -⟩ := exists_digits n
      exact ⟨d, ds ++ (f ++ e), by rw [hdigits]; rfl, .inr hd⟩
    · exact ⟨'-', _, rfl, .inl rfl⟩
  | str => exact ⟨_, _, rfl, rfl⟩
  | arr => exact ⟨_, _, rfl, rfl⟩
  | obj => exact ⟨_, _, rfl, rfl⟩

/-- White space: one of four characters. -/
theorem isSpace_iff {c : Char} :
    isSpace c = true ↔ c = ' ' ∨ c = '\t' ∨ c = '\n' ∨ c = '\r' := by
  simp only [isSpace, Bool.or_eq_true, beq_iff_eq, or_assoc]

theorem not_isSpace_of_isDigit {c : Char} (h : c.isDigit = true) : isSpace c = false := by
  rw [← Bool.not_eq_true, isSpace_iff]
  intro hspace
  rcases hspace with rfl | rfl | rfl | rfl <;> cases h

theorem Starts.not_isSpace {v : Json} {c : Char} (h : v.Starts c) : isSpace c = false := by
  cases v with
  | null => rw [show c = 'n' from h]; rfl
  | bool b => rw [show c = _ from h]; cases b <;> rfl
  | int n => exact h.elim (fun hc => by rw [hc]; rfl) not_isSpace_of_isDigit
  | real x => exact h.elim (fun hc => by rw [hc]; rfl) not_isSpace_of_isDigit
  | str s => rw [show c = '"' from h]; rfl
  | arr vs => rw [show c = '[' from h]; rfl
  | obj ms => rw [show c = '\x7b' from h]; rfl

/-- Only numbers begin like numbers. -/
theorem Starts.not_number {v : Json} {c : Char} (h : v.Starts c) (hint : ∀ n, v ≠ .int n)
    (hreal : ∀ x, v ≠ .real x) : c ≠ '-' ∧ c.isDigit = false := by
  cases v with
  | int n => exact absurd rfl (hint n)
  | real x => exact absurd rfl (hreal x)
  | bool b =>
    rw [show c = _ from h]
    cases b <;> decide
  | _ =>
    rw [show c = _ from h]
    decide

/-- What the first character tells about a value. -/
structure Tells (c : Char) (v : Json) : Prop where
  null : c = 'n' → v = .null
  str : c = '"' → ∃ s, v = .str s
  arr : c = '[' → ∃ vs, v = .arr vs
  obj : c = '\x7b' → ∃ ms, v = .obj ms
  inside : c ≠ ']'

theorem Starts.tells {v : Json} {c : Char} (h : v.Starts c) : Tells c v := by
  cases v with
  | bool b => cases b <;> constructor <;> simp [show c = _ from h]
  | int n =>
    rcases h with rfl | hd
    · constructor <;> simp
    · constructor <;> rintro rfl <;> cases hd
  | real x =>
    rcases h with rfl | hd
    · constructor <;> simp
    · constructor <;> rintro rfl <;> cases hd
  | _ => constructor <;> simp [show c = _ from h]

/-! ## 4. What comes behind -/

/-- A text that no number goes on with: it is empty, or it begins with white space or with what may
    stand behind a value. -/
def Closed (t : Text) : Prop := ∀ c, t.head? = some c → isSpace c = true ∨ c ∈ [',', ']', '\x7d']

namespace Closed

theorem nil : Closed [] := fun _ h => nomatch h

theorem cons {c : Char} (hc : c ∈ [',', ']', '\x7d']) (t : Text) : Closed (c :: t) :=
  fun _ h => .inr (Option.some.inj h ▸ hc)

/-- White space may come before. -/
theorem spaces_append {a t : Text} (ha : Spaces a) (h : Closed t) : Closed (a ++ t) := by
  cases a with
  | nil => exact h
  | cons c a => exact fun d hd => .inl (Option.some.inj hd ▸ ha c List.mem_cons_self)

/-- The first character belongs to no number. -/
theorem not_number {c : Char} {t : Text} (h : Closed (c :: t)) :
    c.isDigit = false ∧ c ≠ '.' ∧ c ≠ 'e' ∧ c ≠ 'E' := by
  rcases h c rfl with hspace | hmem
  · rcases isSpace_iff.mp hspace with rfl | rfl | rfl | rfl <;> decide
  · simp only [List.mem_cons, List.not_mem_nil, or_false] at hmem
    rcases hmem with rfl | rfl | rfl <;> decide

end Closed

/-- The pieces that are still to come: from the start, or behind a piece. -/
inductive Ahead : (first : Bool) → List Piece → Text → Prop where
  | start {qs : List Piece} {u : Text} (h : Written (.pieces qs) u) : Ahead true qs u
  | done {a : Text} (ha : Spaces a) : Ahead false [] a
  | more {a u : Text} {q : Piece} {qs : List Piece} (ha : Spaces a)
      (h : Written (.pieces (q :: qs)) u) : Ahead false (q :: qs) (a ++ ',' :: u)

namespace Ahead

/-- What comes behind a piece ends it. -/
theorem closed {qs : List Piece} {u t : Text} (h : Ahead false qs u) (ht : Closed t) :
    Closed (u ++ t) := by
  cases h with
  | done ha => exact .spaces_append ha ht
  | more ha _ =>
    rw [List.append_assoc]
    exact .spaces_append ha (.cons (by decide) _)

/-- Nothing but white space is left when no piece is. -/
theorem spaces {first : Bool} {u : Text} (h : Ahead first [] u) : Spaces u := by
  cases h with
  | start h => cases h with | none ha => exact ha
  | done ha => exact ha

end Ahead

/-- **Pieces come one after the other.** -/
theorem Written.exists_piece {q : Piece} {qs : List Piece} {u : Text}
    (h : Written (.pieces (q :: qs)) u) :
    ∃ w u', u = w ++ u' ∧ Written (.piece q) w ∧ Ahead false qs u' := by
  cases h with
  | last h ha => exact ⟨_, _, rfl, h, .done ha⟩
  | cons h ha hs => exact ⟨_, _, rfl, h, .more ha hs⟩

/-- **An element comes first.** -/
theorem Written.exists_item {v : Json} {qs : List Piece} {u : Text}
    (h : Written (.pieces (.item v :: qs)) u) :
    ∃ a w u', u = a ++ (w ++ u') ∧ Spaces a ∧ Written (.value v) w ∧ Ahead false qs u' := by
  obtain ⟨x, u', rfl, hx, hqs⟩ := h.exists_piece
  cases hx with
  | item ha hw => exact ⟨_, _, u', List.append_assoc .., ha, hw, hqs⟩

/-- **A member comes first**: its key, a colon and its value. -/
theorem Written.exists_member {key : String} {v : Json} {qs : List Piece} {u : Text}
    (h : Written (.pieces (.member key v :: qs)) u) :
    ∃ a k b c w u', u = a ++ '"' :: (k ++ '"' :: (b ++ ':' :: (c ++ (w ++ u')))) ∧ Spaces a ∧
      Spells key.toList k ∧ Spaces b ∧ Spaces c ∧ Written (.value v) w ∧ Ahead false qs u' := by
  obtain ⟨x, u', rfl, hx, hqs⟩ := h.exists_piece
  cases hx with
  | member ha hkey hb hc hw => exact ⟨_, _, _, _, _, u', by simp, ha, hkey, hb, hc, hw, hqs⟩

end Nsql.Json
