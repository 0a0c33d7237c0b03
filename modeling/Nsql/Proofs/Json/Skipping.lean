/-
  File:      Nsql/Proofs/Json/Skipping.lean
  Subject:   A value that nobody asked for is passed over to its end.

  Passing over is a loop with a stack of open arrays and objects. On the text of a value it comes
  to where the value ends with the same stack, whatever the stack was; the induction is over the
  rules of the grammar. Each rule costs a number of steps that its text pays for, three for each
  character, so that the fuel is enough.

  * `Skips` -- what passing over means for values, pieces and lists of pieces;
  * `skips_frame`, `skips_last`, `skips_cons` -- arrays and objects, and their pieces;
  * `skips_written` -- the texts of the grammar are passed over;
  * **`skip_written`** -- and so a value is, with what stands behind it left.
-/
import Nsql.Proofs.Json.Tokens

namespace Nsql.Json

/-! ## 1. Values without pieces -/

/-- The frame that a piece belongs to. -/
def Piece.frame : Piece → Frame
  | .item _ => .list
  | .member _ _ => .object

/-- What passing over a phrase means. A value is left with the frames around it still open. Before
    the value of a piece comes its lead; behind the last piece the frame is closed. -/
def Skips : Phrase → Text → Prop
  | .value _, w =>
    ∃ k, k < 3 * w.length ∧ ∀ fuel frames a rest, Spaces a → Closed rest →
      skipValue (fuel + k + 1) frames (a ++ (w ++ rest)) = skipBehind fuel frames rest
  | .piece q, w =>
    ∃ k, k < 3 * w.length ∧ ∀ fuel frames rest, Closed rest →
      (q.frame.skipLead (w ++ rest)).bind (skipValue (fuel + k + 1) frames) =
        skipBehind fuel frames rest
  | .pieces qs, w =>
    qs ≠ [] → ∀ frame, (∀ q ∈ qs, q.frame = frame) →
      ∃ k, k ≤ 3 * w.length ∧ ∀ fuel frames rest,
        (frame.skipLead (w ++ frame.close :: rest)).bind
          (skipValue (fuel + k + 1) (frame :: frames)) = skipBehind fuel frames rest

section Steps

variable {a w rest t : Text} {fuel : Nat} {frames : List Frame} {frame : Frame}

theorem skipValue_digit {d : Char} {r : Text} (hd : d.isDigit = true)
    (ht : skipSpace t = d :: r) :
    skipValue (fuel + 1) frames t = (skipUnsigned (d :: r)).bind (skipBehind fuel frames) := by
  have hne : ∀ c : Char, c.isDigit = false → d ≠ c := by
    intro c hc heq
    rw [heq, hc] at hd
    cases hd
  rw [skipValue, ht]
  simp only [if_neg (hne 'n' rfl), if_neg (hne 't' rfl), if_neg (hne 'f' rfl),
    if_neg (hne '-' rfl), if_pos hd]

/-- A number of any form is one step. -/
theorem skipValue_number {sign f e : Text} (hsign : sign = [] ∨ sign = ['-']) (hf : Fraction f)
    (he : Exponent e) (n : Nat) (ha : Spaces a) (hrest : Closed rest) :
    skipValue (fuel + 1) frames (a ++ ((sign ++ (Nat.toDigits 10 n ++ (f ++ e))) ++ rest)) =
      skipBehind fuel frames rest := by
  have hnumber := skipUnsigned_written hf he hrest n
  rcases hsign with rfl | rfl
  · obtain ⟨d, ds, hdigits, hd, -⟩ := exists_digits n
    rw [hdigits, List.cons_append] at hnumber
    have ht : skipSpace (a ++ (([] ++ (Nat.toDigits 10 n ++ (f ++ e))) ++ rest)) =
        d :: (ds ++ (f ++ (e ++ rest))) := by
      rw [skipSpace_append ha, hdigits]
      simp only [List.nil_append, List.cons_append, List.append_assoc]
      exact skipSpace_cons (not_isSpace_of_isDigit hd) _
    rw [skipValue_digit hd ht, hnumber]
    rfl
  · have ht : skipSpace (a ++ ((['-'] ++ (Nat.toDigits 10 n ++ (f ++ e))) ++ rest)) =
        '-' :: (Nat.toDigits 10 n ++ (f ++ (e ++ rest))) := by
      rw [skipSpace_append ha]
      simp only [List.cons_append, List.append_assoc]
      exact skipSpace_cons rfl _
    rw [skipValue, ht]
    show (skipUnsigned (Nat.toDigits 10 n ++ (f ++ (e ++ rest)))).bind _ = _
    rw [hnumber]
    rfl

/-- What closes a frame is no space, and behind it the frame is gone. -/
theorem skipBehind_close (ha : Spaces a) :
    skipBehind (fuel + 1) (frame :: frames) (a ++ frame.close :: rest) =
      skipBehind fuel frames rest := by
  have hclose : isSpace frame.close = false := by cases frame <;> rfl
  rw [skipBehind, skipSpace_append ha, skipSpace_cons hclose]
  exact if_pos rfl

/-- A comma goes on with the lead of the next piece. -/
theorem skipBehind_comma (ha : Spaces a) :
    skipBehind (fuel + 1) (frame :: frames) (a ++ ',' :: t) =
      (frame.skipLead t).bind (skipValue fuel (frame :: frames)) := by
  have hclose : ',' ≠ frame.close := by cases frame <;> decide
  rw [skipBehind, skipSpace_append ha, skipSpace_cons rfl]
  exact (if_neg hclose).trans (if_pos rfl)

end Steps

/-- The key of a member and its colon. -/
theorem skipKey_written {a u b : Text} {key : String} (ha : Spaces a) (hkey : Spells key.toList u)
    (hb : Spaces b) (t : Text) :
    skipKey (a ++ '"' :: (u ++ '"' :: (b ++ ':' :: t))) = .ok t := by
  rw [skipKey, skipSpace_append ha, skipSpace_cons rfl]
  show (skipString (u ++ '"' :: (b ++ ':' :: t))).bind readColon = _
  rw [skipString_spells hkey]
  exact readColon_spaces hb t

/-! ## 2. Into arrays and objects -/

/-- A piece begins with something that does not close its frame. -/
theorem Written.exists_lead {q : Piece} {w : Text} (h : Written (.piece q) w) :
    ∃ c r, isSpace c = false ∧ c ≠ q.frame.close ∧ ∀ t, skipSpace (w ++ t) = c :: (r ++ t) := by
  cases h with
  | @item a w v ha h =>
    obtain ⟨c, r, rfl, hc⟩ := h.exists_head
    refine ⟨c, r, hc.not_isSpace, hc.tells.inside, fun t => ?_⟩
    rw [List.append_assoc, skipSpace_append ha, List.cons_append, skipSpace_cons hc.not_isSpace]
  | @member a u b c w key v ha _ _ _ _ =>
    refine ⟨'"', u ++ '"' :: (b ++ ':' :: (c ++ w)), rfl, (by decide : '"' ≠ '\x7d'), fun t => ?_⟩
    rw [List.append_assoc, skipSpace_append ha, List.cons_append, skipSpace_cons rfl]

/-- White space before a piece makes no difference. -/
theorem skipLead_skipSpace (frame : Frame) (fuel : Nat) (frames : List Frame) {t r : Text}
    {c : Char} (hc : isSpace c = false) (ht : skipSpace t = c :: r) :
    (frame.skipLead (c :: r)).bind (skipValue (fuel + 1) frames) =
      (frame.skipLead t).bind (skipValue (fuel + 1) frames) := by
  have hself : skipSpace (c :: r) = skipSpace t := by rw [ht, skipSpace_cons hc]
  cases frame with
  | list =>
    show skipValue (fuel + 1) frames (c :: r) = skipValue (fuel + 1) frames t
    rw [skipValue, skipValue, hself]
  | object =>
    show (skipKey (c :: r)).bind _ = (skipKey t).bind _
    rw [skipKey, skipKey, hself]

/-- **A frame that was just opened** is passed over together with its pieces. -/
theorem skipInto_pieces {qs : List Piece} {w : Text} {frame : Frame} (h : Written (.pieces qs) w)
    (hframe : ∀ q ∈ qs, q.frame = frame) (hskips : Skips (.pieces qs) w) :
    ∃ k, k ≤ 3 * w.length + 2 ∧ ∀ fuel frames rest,
      skipInto (fuel + k) frame frames (w ++ frame.close :: rest) =
        skipBehind fuel frames rest := by
  cases qs with
  | nil =>
    cases h with
    | none ha =>
      refine ⟨1, by omega, fun fuel frames rest => ?_⟩
      have hclose : isSpace frame.close = false := by cases frame <;> rfl
      rw [skipInto, skipSpace_append ha, skipSpace_cons hclose]
      exact if_pos rfl
  | cons q qs =>
    obtain ⟨k, hk, hskip⟩ := hskips (List.cons_ne_nil _ _) frame hframe
    obtain ⟨w, u, rfl, hw, -⟩ := h.exists_piece
    obtain ⟨c, r, hc, hclose, hlead⟩ := hw.exists_lead
    rw [hframe q List.mem_cons_self] at hclose
    refine ⟨k + 2, by omega, fun fuel frames rest => ?_⟩
    have ht : skipSpace (w ++ u ++ frame.close :: rest) =
        c :: (r ++ (u ++ frame.close :: rest)) := by
      rw [List.append_assoc, hlead]
    rw [show fuel + (k + 2) = fuel + k + 1 + 1 by omega, skipInto, ht]
    simp only [if_neg hclose]
    rw [skipLead_skipSpace frame _ _ hc ht, hskip]

/-! ## 3. All phrases -/

/-- A value that takes one step: its text pays for it. -/
theorem skips_of_step {v : Json} {w : Text} (h : Written (.value v) w)
    (hstep : ∀ fuel frames a rest, Spaces a → Closed rest →
      skipValue (fuel + 1) frames (a ++ (w ++ rest)) = skipBehind fuel frames rest) :
    Skips (.value v) w := by
  refine ⟨0, ?_, hstep⟩
  obtain ⟨c, r, rfl, -⟩ := h.exists_head
  rw [List.length_cons]
  omega

/-- An array or an object: behind its opening bracket, and the same with its pieces. -/
theorem skips_frame {v : Json} {c : Char} {frame : Frame} {qs : List Piece} {w : Text}
    (hv : Written (.value v) (c :: (w ++ [frame.close]))) (hw : Written (.pieces qs) w)
    (hframe : ∀ q ∈ qs, q.frame = frame) (hskips : Skips (.pieces qs) w)
    (hopen : ∀ fuel frames t r, skipSpace t = c :: r →
      skipValue (fuel + 1) frames t = skipInto fuel frame frames r) :
    Skips (.value v) (c :: (w ++ [frame.close])) := by
  obtain ⟨k, hk, hinto⟩ := skipInto_pieces hw hframe hskips
  refine ⟨k, ?_, fun fuel frames a rest ha _ => ?_⟩
  · simp only [List.length_cons, List.length_append, List.length_nil]
    omega
  · have hskip : skipSpace (a ++ (c :: (w ++ [frame.close]) ++ rest)) =
        c :: (w ++ frame.close :: rest) := by
      rw [skipSpace_written ha hv, List.cons_append, List.append_assoc, List.singleton_append]
    rw [hopen _ _ _ _ hskip]
    exact hinto fuel frames rest

/-- The last piece, and the end of its frame. -/
theorem skips_last {q : Piece} {w a : Text} (hskip : Skips (.piece q) w) (ha : Spaces a) :
    Skips (.pieces [q]) (w ++ a) := by
  intro _ frame hframe
  obtain ⟨k, hk, hskip⟩ := hskip
  rw [hframe q List.mem_cons_self] at hskip
  refine ⟨k + 1, ?_, fun fuel frames rest => ?_⟩
  · rw [List.length_append]
    omega
  · have hclosed : Closed (a ++ frame.close :: rest) :=
      .spaces_append ha (.cons (by cases frame <;> decide) _)
    rw [List.append_assoc, show fuel + (k + 1) + 1 = fuel + 1 + k + 1 by omega,
      hskip _ _ _ hclosed, skipBehind_close ha]

/-- One piece, a comma and the others. -/
theorem skips_cons {q q' : Piece} {qs : List Piece} {w a u : Text} (hskip : Skips (.piece q) w)
    (ha : Spaces a) (hskips : Skips (.pieces (q' :: qs)) u) :
    Skips (.pieces (q :: q' :: qs)) (w ++ (a ++ ',' :: u)) := by
  intro _ frame hframe
  obtain ⟨k, hk, hskip⟩ := hskip
  obtain ⟨k', hk', hskips⟩ := hskips (List.cons_ne_nil _ _) frame
    fun q hq => hframe q (List.mem_cons_of_mem _ hq)
  rw [hframe q List.mem_cons_self] at hskip
  refine ⟨k + k' + 2, ?_, fun fuel frames rest => ?_⟩
  · simp only [List.length_append, List.length_cons]
    omega
  · have hclosed : Closed (a ++ ',' :: (u ++ frame.close :: rest)) :=
      .spaces_append ha (.cons (by decide) _)
    rw [List.append_assoc, List.append_assoc, List.cons_append,
      show fuel + (k + k' + 2) + 1 = fuel + k' + 1 + 1 + k + 1 by omega, hskip _ _ _ hclosed,
      skipBehind_comma ha, hskips]

/-- **The texts of the grammar are passed over.** -/
theorem skips_written {phrase : Phrase} {w : Text} (h : Written phrase w) : Skips phrase w := by
  induction h with
  | null =>
    refine skips_of_step .null fun fuel frames a rest ha _ => ?_
    rw [skipValue, skipSpace_written ha .null]
    rfl
  | yes =>
    refine skips_of_step .yes fun fuel frames a rest ha _ => ?_
    rw [skipValue, skipSpace_written ha .yes]
    rfl
  | no =>
    refine skips_of_step .no fun fuel frames a rest ha _ => ?_
    rw [skipValue, skipSpace_written ha .no]
    rfl
  | nat n =>
    refine skips_of_step (.nat n) fun fuel frames a rest ha hrest => ?_
    have hnumber : skipValue (fuel + 1) frames
        (a ++ (([] ++ (Nat.toDigits 10 n ++ ([] ++ []))) ++ rest)) = _ :=
      skipValue_number (.inl rfl) .none .none n ha hrest
    rwa [List.append_nil, List.append_nil] at hnumber
  | @neg n hn =>
    refine skips_of_step (.neg hn) fun fuel frames a rest ha hrest => ?_
    have hnumber : skipValue (fuel + 1) frames
        (a ++ ((['-'] ++ (Nat.toDigits 10 n ++ ([] ++ []))) ++ rest)) = _ :=
      skipValue_number (.inr rfl) .none .none n ha hrest
    rwa [List.append_nil, List.append_nil] at hnumber
  | real x hsign hf he h =>
    exact skips_of_step (.real x hsign hf he h) fun fuel frames a rest ha hrest =>
      skipValue_number hsign hf he _ ha hrest
  | @str s w h =>
    refine skips_of_step (.str h) fun fuel frames a rest ha _ => ?_
    rw [skipValue, skipSpace_written ha (.str h)]
    show (skipString (w ++ ['"'] ++ rest)).bind _ = _
    rw [List.append_assoc, List.singleton_append, skipString_spells h]
    rfl
  | arr h ih =>
    refine skips_frame (.arr h) h (List.forall_mem_map.mpr fun _ _ => rfl) ih ?_
    intro fuel frames t r ht
    rw [skipValue, ht]
    rfl
  | obj hperm h ih =>
    refine skips_frame (.obj hperm h) h (List.forall_mem_map.mpr fun _ _ => rfl) ih ?_
    intro fuel frames t r ht
    rw [skipValue, ht]
    rfl
  | @item a w v ha _ ih =>
    obtain ⟨k, hk, hskip⟩ := ih
    refine ⟨k, by rw [List.length_append]; omega, fun fuel frames rest hrest => ?_⟩
    rw [List.append_assoc]
    exact hskip fuel frames a rest ha hrest
  | @member a u b c w key v ha hkey hb hc _ ih =>
    obtain ⟨k, hk, hskip⟩ := ih
    refine ⟨k, ?_, fun fuel frames rest hrest => ?_⟩
    · simp only [List.length_append, List.length_cons]
      omega
    · show (skipKey _).bind _ = _
      simp only [List.append_assoc, List.cons_append]
      rw [skipKey_written ha hkey hb]
      exact hskip fuel frames c rest hc hrest
  | none => exact fun hne => absurd rfl hne
  | last _ ha ih => exact skips_last ih ha
  | cons _ ha _ ih ihs => exact skips_cons ih ha ihs

/-- **A value is passed over**, with what stands behind it left. -/
theorem skip_written {v : Json} {a w rest : Text} (ha : Spaces a) (h : Written (.value v) w)
    (hrest : Closed rest) : skip (a ++ (w ++ rest)) = .ok rest := by
  obtain ⟨k, hk, hskip⟩ := skips_written h
  have hfuel : 3 * (a ++ (w ++ rest)).length + 3 =
      3 * (a ++ (w ++ rest)).length + 2 - k + k + 1 := by
    simp only [List.length_append]
    omega
  rw [skip, hfuel, hskip _ _ _ _ ha hrest, skipBehind]

end Nsql.Json
