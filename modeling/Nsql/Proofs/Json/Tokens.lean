/-
  File:      Nsql/Proofs/Json/Tokens.lean
  Subject:   What the readers of tokens make of the texts of the grammar.

  Each token is read or passed over up to its end, and what follows is left. For a number this needs
  that no digit, fraction or exponent follows (`Closed`); for a string nothing is needed, since it
  ends with its quote.

  * `readUnsigned_digits` -- an integer is read exactly, if its digits fit into 64 bits; otherwise,
    and behind a fraction or an exponent, what comes out is no integer (`NoInt`);
  * `skipUnsigned_written` -- a number is passed over;
  * `readString_spells`, `skipString_spells` -- so is a string, and its characters are read however
    they are spelled.
-/
import Mathlib.Data.List.TakeWhile
import Nsql.Json.Skip
import Nsql.Proofs.Json.Grammar

namespace Nsql.Json

/-! ## 1. White space -/

theorem skipSpace_append {a : Text} (ha : Spaces a) (t : Text) : skipSpace (a ++ t) = skipSpace t :=
  List.dropWhile_append_of_pos ha

theorem skipSpace_cons {c : Char} (hc : isSpace c = false) (t : Text) :
    skipSpace (c :: t) = c :: t :=
  List.dropWhile_cons_of_neg (by rw [hc]; decide)

/-- Nothing but white space leaves nothing. -/
theorem skipSpace_spaces {a : Text} (ha : Spaces a) : skipSpace a = [] :=
  List.dropWhile_eq_nil_iff.mpr ha

/-- White space before a value. -/
theorem skipSpace_written {a w rest : Text} {v : Json} (ha : Spaces a)
    (h : Written (.value v) w) : skipSpace (a ++ (w ++ rest)) = w ++ rest := by
  obtain ⟨c, r, rfl, hc⟩ := h.exists_head
  rw [skipSpace_append ha, List.cons_append, skipSpace_cons hc.not_isSpace]

/-- The colon behind a key. -/
theorem readColon_spaces {b : Text} (hb : Spaces b) (t : Text) :
    readColon (b ++ ':' :: t) = .ok t := by
  rw [readColon, skipSpace_append hb, skipSpace_cons rfl]
  rfl

/-! ## 2. Numbers -/

/-- A reading that gives no integer: a floating-point value, or a fault. -/
def NoInt (r : Reading Number) : Prop := ∀ n rest, r ≠ .ok (.int n, rest)

section NoInt

variable {negative : Bool} {significand : Nat} {power : Int}

theorem noInt_makeReal (rest : Text) : NoInt (makeReal negative significand power rest) := by
  intro n rest'
  unfold makeReal
  split <;> simp

theorem noInt_readExponentDigits {down : Bool} (t : Text) :
    ∀ e, NoInt (readExponentDigits negative significand power down e t) := by
  induction t with
  | nil => exact fun e => noInt_makeReal []
  | cons c t ih =>
    intro e
    unfold readExponentDigits
    split
    · split
      · split
        · intro n rest
          simp
        · intro n rest
          simp
      · exact ih _
    · exact noInt_makeReal _

theorem noInt_readExponent (t : Text) : NoInt (readExponent negative significand power t) := by
  unfold readExponent
  split
  split
  · intro n rest
    simp
  · split
    · exact noInt_readExponentDigits _ _
    · intro n rest
      simp

theorem noInt_endFraction (t : Text) : NoInt (endFraction negative significand power t) := by
  unfold endFraction
  split
  · exact noInt_readExponent _
  · exact noInt_readExponent _
  · exact noInt_makeReal _

theorem noInt_readFraction (t : Text) :
    ∀ some? significand power, NoInt (readFraction negative some? significand power t) := by
  induction t with
  | nil =>
    intro some? s p
    unfold readFraction
    split
    · exact noInt_endFraction _
    · intro n rest
      simp
  | cons c t ih =>
    intro some? s p
    unfold readFraction
    split
    · split
      · exact noInt_endFraction _
      · exact ih _ _ _
    · split
      · exact noInt_endFraction _
      · intro n rest
        simp

theorem noInt_readLong (t : Text) : ∀ power, NoInt (readLong negative significand power t) := by
  induction t with
  | nil => exact fun p => noInt_makeReal []
  | cons c t ih =>
    intro p
    unfold readLong
    split
    · exact ih _
    · split
      · exact noInt_readFraction _ _ _ _
      · split
        · exact noInt_readExponent _
        · exact noInt_makeReal _

/-- A fraction or an exponent behind the digits. -/
theorem noInt_endInteger {f e rest : Text} (hf : Fraction f) (he : Exponent e)
    (h : f ≠ [] ∨ e ≠ []) : NoInt (endInteger negative significand (f ++ (e ++ rest))) := by
  cases hf with
  | digits _ => exact noInt_readFraction _ _ _ _
  | none =>
    cases he with
    | none => simp at h
    | digits he' _ _ =>
      rcases he' with rfl | rfl
      · exact noInt_readExponent _
      · exact noInt_readExponent _

end NoInt

/-- What follows the digits of an integer if no number goes on. -/
theorem endInteger_closed {rest : Text} (h : Closed rest) (negative : Bool) (significand : Nat) :
    endInteger negative significand rest =
      if negative then
        if significand = 0 ∨ -(significand : Int) < leastInt then makeReal true significand 0 rest
        else .ok (.int (-(significand : Int)), rest)
      else .ok (.int significand, rest) := by
  cases rest with
  | nil => rfl
  | cons c r =>
    obtain ⟨-, hpoint, hsmall, hcapital⟩ := h.not_number
    rw [endInteger]
    · intro t ht
      exact hpoint (List.cons.inj ht).1
    · intro t ht
      exact hsmall (List.cons.inj ht).1
    · intro t ht
      exact hcapital (List.cons.inj ht).1

/-- A text that does not begin with a digit. -/
def NoDigit (t : Text) : Prop := ∀ c, t.head? = some c → c.isDigit = false

theorem le_ofDigitChars (ds : Text) : ∀ n, n ≤ Nat.ofDigitChars 10 ds n := by
  induction ds with
  | nil => exact fun n => Nat.le_refl n
  | cons d ds ih =>
    intro n
    have hrest := ih (10 * n + (d.toNat - '0'.toNat))
    rw [Nat.ofDigitChars_cons]
    omega

/-- **The digits of an integer** are counted up, or they are too many for 64 bits. -/
theorem readDigits_append {negative : Bool} {rest : Text} (hrest : NoDigit rest) {ds : Text}
    (hds : ∀ c ∈ ds, c.isDigit = true) : ∀ s,
    readDigits negative s (ds ++ rest) = endInteger negative (Nat.ofDigitChars 10 ds s) rest ∨
      wordLimit < Nat.ofDigitChars 10 ds s ∧ NoInt (readDigits negative s (ds ++ rest)) := by
  induction ds with
  | nil =>
    intro s
    left
    rw [List.nil_append, Nat.ofDigitChars_nil]
    cases rest with
    | nil => rfl
    | cons c r => rw [readDigits, hrest c rfl, if_neg (by decide)]
  | cons d ds ih =>
    intro s
    have hd := hds d List.mem_cons_self
    have hvalue : s * 10 + digitValue d = 10 * s + (d.toNat - '0'.toNat) := by
      rw [Nat.mul_comm]
      rfl
    rw [List.cons_append, readDigits, if_pos hd, Nat.ofDigitChars_cons, hvalue]
    split
    · rename_i hlong
      exact .inr ⟨Nat.lt_of_lt_of_le hlong (le_ofDigitChars ds _), noInt_readLong _ _⟩
    · exact ih (fun c hc => hds c (List.mem_cons_of_mem d hc)) _

theorem readUnsigned_zero {rest : Text} (hrest : NoDigit rest) (negative : Bool) :
    readUnsigned negative ('0' :: rest) = endInteger negative 0 rest := by
  cases rest with
  | nil => rfl
  | cons c r =>
    simp only [readUnsigned, hrest c rfl]
    rfl

theorem readUnsigned_cons {d : Char} (h0 : d ≠ '0') (hd : d.isDigit = true) (negative : Bool)
    (t : Text) : readUnsigned negative (d :: t) = readDigits negative (digitValue d) t := by
  simp only [readUnsigned, if_neg h0, if_pos hd]

/-- **An integer in plain decimal** is read as itself, or it is too large for 64 bits. -/
theorem readUnsigned_digits {rest : Text} (hrest : NoDigit rest) (negative : Bool) (n : Nat) :
    readUnsigned negative (Nat.toDigits 10 n ++ rest) = endInteger negative n rest ∨
      wordLimit < n ∧ NoInt (readUnsigned negative (Nat.toDigits 10 n ++ rest)) := by
  obtain ⟨d, ds, hdigits, hd, hds, hzero⟩ := exists_digits n
  have hvalue : Nat.ofDigitChars 10 ds (digitValue d) = n := by
    have hall := Nat.ofDigitChars_toDigits (b := 10) (n := n) (by decide) (by decide)
    rw [hdigits, Nat.ofDigitChars_cons] at hall
    simpa [digitValue] using hall
  rw [hdigits, List.cons_append]
  by_cases h0 : d = '0'
  · obtain ⟨rfl, rfl⟩ := hzero h0
    rw [h0]
    exact .inl (readUnsigned_zero hrest negative)
  · rw [readUnsigned_cons h0 hd, ← hvalue]
    exact readDigits_append hrest hds _

theorem Closed.noDigit {rest : Text} (h : Closed rest) : NoDigit rest := by
  intro c hc
  obtain ⟨r, rfl⟩ := List.head?_eq_some_iff.mp hc
  exact h.not_number.1

/-- Neither a fraction nor an exponent begins with a digit. -/
theorem noDigit_append {f e rest : Text} (hf : Fraction f) (he : Exponent e)
    (hrest : Closed rest) : NoDigit (f ++ (e ++ rest)) := by
  cases hf with
  | digits _ =>
    intro c hc
    rw [← Option.some.inj hc]
    rfl
  | none =>
    cases he with
    | none => exact hrest.noDigit
    | digits he' _ _ =>
      intro c hc
      rw [← Option.some.inj hc]
      rcases he' with rfl | rfl <;> rfl

/-- **A number with a fraction or an exponent** is no integer, and neither is a negative zero. -/
theorem noInt_number {f e rest : Text} (hf : Fraction f) (he : Exponent e) (hrest : Closed rest)
    {negative : Bool} {n : Nat} (h : f ≠ [] ∨ e ≠ [] ∨ negative = true ∧ n = 0) :
    NoInt (readUnsigned negative (Nat.toDigits 10 n ++ (f ++ (e ++ rest)))) := by
  rcases readUnsigned_digits (noDigit_append hf he hrest) negative n with hend | ⟨-, hno⟩
  · rw [hend]
    by_cases hempty : f ≠ [] ∨ e ≠ []
    · exact noInt_endInteger hf he hempty
    · obtain ⟨rfl, rfl⟩ : f = [] ∧ e = [] := by simpa using hempty
      obtain ⟨rfl, rfl⟩ : negative = true ∧ n = 0 := by simpa using h
      rw [List.nil_append, List.nil_append, endInteger_closed hrest, if_pos rfl, if_pos (.inl rfl)]
      exact noInt_makeReal rest
  · exact hno

/-! ## 3. Passing over numbers -/

theorem dropWhile_digits {ds rest : Text} (hds : ∀ c ∈ ds, c.isDigit = true)
    (hrest : NoDigit rest) : (ds ++ rest).dropWhile Char.isDigit = rest := by
  rw [List.dropWhile_append_of_pos hds]
  cases rest with
  | nil => rfl
  | cons c r => exact List.dropWhile_cons_of_neg (by rw [hrest c rfl]; decide)

theorem skipExponent_digits {sign ds rest : Text}
    (hsign : sign = [] ∨ sign = ['+'] ∨ sign = ['-']) (h : Digits ds) (hrest : NoDigit rest) :
    skipExponent (sign ++ ds ++ rest) = .ok rest := by
  obtain ⟨d, ds, rfl⟩ := List.exists_cons_of_ne_nil h.ne_nil
  have hd := h.digit d List.mem_cons_self
  have hdrop := dropWhile_digits (fun c hc => h.digit c (List.mem_cons_of_mem d hc)) hrest
  rcases hsign with rfl | rfl | rfl
  · have hplus : d ≠ '+' := fun heq => by rw [heq] at hd; cases hd
    have hminus : d ≠ '-' := fun heq => by rw [heq] at hd; cases hd
    simp [skipExponent, hplus, hminus, hd, hdrop]
  · simp [skipExponent, hd, hdrop]
  · simp [skipExponent, hd, hdrop]

theorem skipBehindDigits_exponent {e rest : Text} (he : Exponent e) (hrest : Closed rest) :
    skipBehindDigits (e ++ rest) = .ok rest := by
  cases he with
  | digits he' hsign h =>
    rcases he' with rfl | rfl
    · exact skipExponent_digits hsign h hrest.noDigit
    · exact skipExponent_digits hsign h hrest.noDigit
  | none =>
    rw [List.nil_append]
    cases rest with
    | nil => rfl
    | cons c r =>
      obtain ⟨-, -, hsmall, hcapital⟩ := hrest.not_number
      rw [skipBehindDigits]
      · intro t ht
        exact hsmall (List.cons.inj ht).1
      · intro t ht
        exact hcapital (List.cons.inj ht).1

/-- A fraction and an exponent are passed over, if they are there. -/
theorem skipBehindInteger_append {f e rest : Text} (hf : Fraction f) (he : Exponent e)
    (hrest : Closed rest) : skipBehindInteger (f ++ (e ++ rest)) = .ok rest := by
  have hbehind := skipBehindDigits_exponent he hrest
  cases hf with
  | @digits ds h =>
    obtain ⟨d, ds, rfl⟩ := List.exists_cons_of_ne_nil h.ne_nil
    have hd := h.digit d List.mem_cons_self
    have hdrop := dropWhile_digits (fun c hc => h.digit c (List.mem_cons_of_mem d hc))
      (noDigit_append .none he hrest)
    rw [List.nil_append] at hdrop
    simp [skipBehindInteger, hd, hdrop, hbehind]
  | none =>
    rw [List.nil_append, ← hbehind]
    -- no point comes first
    cases he with
    | digits he' _ _ => rcases he' with rfl | rfl <;> rfl
    | none =>
      cases rest with
      | nil => rfl
      | cons c r =>
        obtain ⟨-, hpoint, -, -⟩ := hrest.not_number
        rw [List.nil_append, skipBehindInteger]
        intro t ht
        exact hpoint (List.cons.inj ht).1

/-- **A number is passed over**, whatever its size and its form. -/
theorem skipUnsigned_written {f e rest : Text} (hf : Fraction f) (he : Exponent e)
    (hrest : Closed rest) (n : Nat) :
    skipUnsigned (Nat.toDigits 10 n ++ (f ++ (e ++ rest))) = .ok rest := by
  obtain ⟨d, ds, hdigits, hd, hds, hzero⟩ := exists_digits n
  have hno := noDigit_append hf he hrest
  have hbehind := skipBehindInteger_append hf he hrest
  rw [hdigits, List.cons_append]
  by_cases h0 : d = '0'
  · obtain ⟨rfl, rfl⟩ := hzero h0
    rw [h0, List.nil_append]
    cases htail : f ++ (e ++ rest) with
    | nil =>
      rw [htail] at hbehind
      exact hbehind
    | cons c r =>
      rw [htail] at hbehind hno
      simp only [skipUnsigned, hno c rfl, hbehind]
      rfl
  · simp only [skipUnsigned, if_neg h0, if_pos hd, dropWhile_digits hds hno, hbehind]

/-! ## 4. Strings -/

theorem hexValue?_of_hexDigit {n : Nat} {c : Char} (h : HexDigit n c) : hexValue? c = some n := by
  have hall : ∀ m < 16,
      hexValue? m.digitChar = some m ∧ hexValue? m.digitChar.toUpper = some m := by decide
  obtain ⟨hlt, rfl | rfl⟩ := h
  · exact (hall n hlt).1
  · exact (hall n hlt).2

/-- **Four hexadecimal digits** are read as the number that they are the digits of. -/
theorem readHex_of_hexWord {n : Nat} {w : Text} (h : HexWord n w) (t : Text) :
    readHex (w ++ t) = .ok n := by
  obtain ⟨a, x, ha, hx, rfl⟩ := List.forall₂_cons_left_iff.mp h
  obtain ⟨b, y, hb, hy, rfl⟩ := List.forall₂_cons_left_iff.mp hx
  obtain ⟨c, z, hc, hz, rfl⟩ := List.forall₂_cons_left_iff.mp hy
  obtain ⟨d, e, hd, he, rfl⟩ := List.forall₂_cons_left_iff.mp hz
  have hvalue : ((n / 0x1000 * 16 + n / 0x100 % 0x10) * 16 + n / 0x10 % 0x10) * 16 + n % 0x10 =
      n := by
    omega
  simp only [readHex, hexWord?, List.cons_append, hexValue?_of_hexDigit ha,
    hexValue?_of_hexDigit hb, hexValue?_of_hexDigit hc, hexValue?_of_hexDigit hd, hvalue]

theorem HexWord.length_eq {n : Nat} {w : Text} (h : HexWord n w) : w.length = 4 :=
  (List.Forall₂.length_eq h).symm

/-- The numbers of characters leave out the halves of surrogate pairs. -/
theorem toNat_valid (c : Char) : c.toNat < 0xD800 ∨ 0xDFFF < c.toNat ∧ c.toNat < 0x110000 :=
  c.valid

theorem escapeLetter?_of_mem {e c : Char} (h : (e, c) ∈ escapes) :
    escapeLetter? e = some c ∧ e ≠ 'u' := by
  have hall : ∀ p ∈ escapes, escapeLetter? p.1 = some p.2 ∧ p.1 ≠ 'u' := by decide
  exact hall (e, c) h

theorem readEscape_code {c : Char} {w : Text} (h : HexWord c.toNat w) (t : Text) :
    readEscape ('u' :: (w ++ t)) = .ok (c, 5) := by
  have hvalid := toNat_valid c
  simp only [readEscape, readHex_of_hexWord h, if_true]
  rw [if_neg (by omega), if_neg (by omega), Char.ofNat_toNat]

theorem readEscape_pair {c : Char} {u w : Text} (h : 0x10000 ≤ c.toNat)
    (hhigh : HexWord (0xD800 + (c.toNat - 0x10000) / 0x400) u)
    (hlow : HexWord (0xDC00 + (c.toNat - 0x10000) % 0x400) w) (t : Text) :
    readEscape ('u' :: (u ++ '\\' :: 'u' :: (w ++ t))) = .ok (c, 11) := by
  have hvalid := toNat_valid c
  have hdrop : (u ++ '\\' :: 'u' :: (w ++ t)).drop 4 = '\\' :: 'u' :: (w ++ t) := by
    rw [← hhigh.length_eq, List.drop_left]
  have hsum : (0xD800 + (c.toNat - 0x10000) / 0x400 - 0xD800) * 0x400 +
      (0xDC00 + (c.toNat - 0x10000) % 0x400 - 0xDC00) + 0x10000 = c.toNat := by
    omega
  have hsecond : readLowSurrogate (0xD800 + (c.toNat - 0x10000) / 0x400)
      ('\\' :: 'u' :: (w ++ t)) = .ok c := by
    simp only [readLowSurrogate, ne_eq, not_true_eq_false, if_false, readHex_of_hexWord hlow]
    rw [if_pos (by omega), hsum, Char.ofNat_toNat]
  simp only [readEscape, readHex_of_hexWord hhigh, if_true, hdrop, hsecond]
  rw [if_neg (by omega), if_pos (by omega)]

/-- The characters of an escape that has been read are passed over. -/
theorem readChars_skip (read t : Text) (x : Text) :
    readChars x.length read (x ++ t) = readChars 0 read t := by
  induction x with
  | nil => rfl
  | cons c x ih => exact ih

/-- **One character of a string** is read, however it is spelled. -/
theorem readChars_spelling {c : Char} {u : Text} (h : Spelling c u) (read t : Text) :
    readChars 0 read (u ++ t) = readChars 0 (c :: read) t := by
  cases h with
  | plain h hquote hescape =>
    rw [List.singleton_append, readChars, if_neg hquote, if_neg hescape, if_neg (by omega)]
  | @letter e _ h =>
    obtain ⟨hletter, hu⟩ := escapeLetter?_of_mem h
    have hread : readEscape (e :: t) = .ok (c, 1) := by
      simp only [readEscape, if_neg hu, hletter]
    have hskip := readChars_skip (c :: read) t [e]
    simp only [List.cons_append, List.nil_append, readChars, hread]
    exact hskip
  | @code _ w h =>
    have hskip := readChars_skip (c :: read) t ('u' :: w)
    rw [List.length_cons, h.length_eq] at hskip
    simp only [List.cons_append, readChars, readEscape_code h]
    exact hskip
  | @pair _ u w h hhigh hlow =>
    have hskip := readChars_skip (c :: read) t ('u' :: (u ++ '\\' :: 'u' :: w))
    simp only [List.length_cons, List.length_append, hhigh.length_eq, hlow.length_eq] at hskip
    simp only [List.cons_append, List.append_assoc] at hskip ⊢
    simp only [readChars, readEscape_pair h hhigh hlow]
    exact hskip

/-- **A string is read** up to its quote, however its characters are spelled. -/
theorem readString_spells {s : String} {w : Text} (h : Spells s.toList w) (rest : Text) :
    readString (w ++ '"' :: rest) = .ok (s, rest) := by
  have hchars : ∀ {x w : Text}, Spells x w → ∀ read,
      readChars 0 read (w ++ '"' :: rest) = .ok (String.ofList (read.reverse ++ x), rest) := by
    intro x w hx
    induction hx with
    | nil =>
      intro read
      rw [List.append_nil]
      rfl
    | cons hc _ ih =>
      intro read
      rw [List.append_assoc, readChars_spelling hc, ih, List.reverse_cons, List.append_assoc]
      rfl
  rw [readString, hchars h, List.reverse_nil, List.nil_append, String.ofList_toList]

theorem skipChars_skip (t x : Text) : skipChars x.length (x ++ t) = skipChars 0 t := by
  induction x with
  | nil => rfl
  | cons c x ih => exact ih

/-- An escape by a number is passed over without a look at the number. -/
theorem skipChars_code {n : Nat} {w : Text} (h : HexWord n w) (t : Text) :
    skipChars 0 ('\\' :: 'u' :: (w ++ t)) = skipChars 0 t := by
  have hskip := skipChars_skip t ('u' :: w)
  rw [List.length_cons, h.length_eq] at hskip
  simp only [skipChars, readHex_of_hexWord h]
  exact hskip

theorem skipChars_spelling {c : Char} {u : Text} (h : Spelling c u) (t : Text) :
    skipChars 0 (u ++ t) = skipChars 0 t := by
  cases h with
  | plain h hquote hescape =>
    simp only [List.singleton_append, skipChars, if_neg hquote, if_neg hescape,
      if_neg (Nat.not_lt.mpr h)]
  | @letter e _ h =>
    obtain ⟨hletter, hu⟩ := escapeLetter?_of_mem h
    have hskip := skipChars_skip t [e]
    simp only [List.cons_append, List.nil_append, skipChars, if_neg hu, hletter]
    exact hskip
  | code h => exact skipChars_code h t
  | pair h hhigh hlow =>
    simp only [List.cons_append, List.append_assoc]
    rw [skipChars_code hhigh, skipChars_code hlow]

/-- **A string is passed over.** -/
theorem skipString_spells {s w : Text} (h : Spells s w) (rest : Text) :
    skipString (w ++ '"' :: rest) = .ok rest := by
  rw [skipString]
  induction h with
  | nil => rfl
  | cons hc _ ih => rw [List.append_assoc, skipChars_spelling hc, ih]

end Nsql.Json
