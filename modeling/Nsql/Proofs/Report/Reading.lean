/-
  File:      Nsql/Proofs/Report/Reading.lean
  Subject:   A parser's report is read as what its text says.

  Each reader is held against a function on values: on the text of a value it gives what the
  function gives, and leaves what stands behind the value (`Gives`, `Reads`). The readers of fields
  come first, then the steps from one piece of a list or of an object to the next, then records and
  the list of them.

  * `reads_readInt`, `reads_readIntOrNull`, `reads_readText` -- the fields;
  * `nextElement_more`, `nextKey_more` -- one piece further;
  * `gives_readMembers`, `gives_readFields`, `gives_readRecord` -- a record;
  * `parse_eq_ok_iff` -- a report;
  * **`report_is_read_as_written`** -- which texts are read, as what, and what becomes of the
    others.
-/
import Nsql.Engine.Program
import Nsql.Proofs.Json.Skipping
import Nsql.Proofs.Json.Writing
import Nsql.Proofs.Report.Description

namespace Nsql.Report

open Json

/-! ## 1. What a reading gives -/

/-- A reading gives a value, if there is one, and leaves the text behind it; if there is none, it
    fails. -/
def Gives {α : Type} (reading : Reading α) (x : Option α) (rest : Text) : Prop :=
  reading.toOption = x.map (·, rest)

section Gives

variable {α β : Type} {reading : Reading α} {rest : Text}

theorem gives_some_iff {x : α} : Gives reading (some x) rest ↔ reading = .ok (x, rest) := by
  cases reading <;> simp [Gives, Except.toOption]

theorem gives_none_iff : Gives reading none rest ↔ ∃ f, reading = .error f := by
  cases reading <;> simp [Gives, Except.toOption]

theorem Gives.map {x : Option α} (h : Gives reading x rest) (g : α → β) :
    Gives (reading.map fun p => (g p.1, p.2)) (x.map g) rest := by
  cases x with
  | none =>
    obtain ⟨f, rfl⟩ := gives_none_iff.mp h
    rfl
  | some x =>
    rw [gives_some_iff.mp h]
    rfl

theorem Gives.bind {x : Option α} (h : Gives reading x rest) {k : α × Text → Reading β}
    {y : α → Option β} {rest' : Text} (hk : ∀ z, Gives (k (z, rest)) (y z) rest') :
    Gives (reading.bind k) (x.bind y) rest' := by
  cases x with
  | none =>
    obtain ⟨f, rfl⟩ := gives_none_iff.mp h
    rfl
  | some x =>
    rw [gives_some_iff.mp h]
    exact hk x

end Gives

/-- A reader reads the values that a function knows: behind white space it takes the text of such a
    value, and on the text of any other value it fails. -/
def Reads {α : Type} (read : Text → Reading α) (f : Json → Option α) : Prop :=
  ∀ {v : Json} {a w rest : Text}, Spaces a → Written (.value v) w → Closed rest →
    Gives (read (a ++ (w ++ rest))) (f v) rest

/-! ## 2. Fields -/

section Fields

variable {rest t r : Text}

theorem gives_asInt_of_noInt {reading : Reading Number} (h : NoInt reading) :
    Gives (asInt reading) none rest := by
  unfold asInt
  split
  · rfl
  · exact absurd rfl (h _ _)
  · rfl

theorem int?_eq_none {n : Int} (h : ¬ InWord n) : int? (.int n) = none := if_neg h

/-- An integer in plain decimal. -/
theorem gives_asInt_digits (hrest : Closed rest) (n : Nat) :
    Gives (asInt (readUnsigned false (Nat.toDigits 10 n ++ rest))) (int? (.int n)) rest := by
  rcases readUnsigned_digits hrest.noDigit false n with hend | ⟨hlong, hno⟩
  · rw [hend, endInteger_closed hrest, if_neg Bool.false_ne_true]
    by_cases hle : (n : Int) ≤ greatestInt
    · have hlow : leastInt ≤ n := by
        unfold leastInt
        omega
      rw [int?_eq_some_iff.mpr ⟨rfl, hlow, hle⟩]
      simp only [asInt, if_pos hle]
      rfl
    · rw [int?_eq_none fun hword => hle hword.2]
      simp only [asInt, if_neg hle]
      rfl
  · rw [int?_eq_none fun hword => ?_]
    · exact gives_asInt_of_noInt hno
    · have hle := hword.2
      unfold greatestInt at hle
      unfold wordLimit at hlong
      omega

/-- An integer in plain decimal, behind a minus sign. -/
theorem gives_asInt_neg (hrest : Closed rest) {n : Nat} (hn : n ≠ 0) :
    Gives (asInt (readUnsigned true (Nat.toDigits 10 n ++ rest))) (int? (.int (-n))) rest := by
  rcases readUnsigned_digits hrest.noDigit true n with hend | ⟨hlong, hno⟩
  · rw [hend, endInteger_closed hrest, if_pos rfl]
    by_cases hlow : -(n : Int) < leastInt
    · rw [if_pos (.inr hlow), int?_eq_none fun hword => Int.not_le.mpr hlow hword.1]
      exact gives_asInt_of_noInt (noInt_makeReal rest)
    · have hle : -(n : Int) ≤ greatestInt := by
        unfold greatestInt
        omega
      rw [if_neg (not_or.mpr ⟨hn, hlow⟩), int?_eq_some_iff.mpr ⟨rfl, Int.not_lt.mp hlow, hle⟩]
      simp only [asInt, if_pos hle]
      rfl
  · rw [int?_eq_none fun hword => ?_]
    · exact gives_asInt_of_noInt hno
    · have hle := hword.1
      unfold leastInt at hle
      unfold wordLimit at hlong
      omega

/-- Digits come first. -/
theorem readInt_of_digits {n : Nat} (ht : skipSpace t = Nat.toDigits 10 n ++ r) :
    readInt t = asInt (readUnsigned false (Nat.toDigits 10 n ++ r)) := by
  obtain ⟨d, ds, hdigits, hd, -⟩ := exists_digits n
  have hminus : d ≠ '-' := fun heq => by rw [heq] at hd; cases hd
  rw [readInt, ht, hdigits, List.cons_append]
  simp [hd, hminus]

theorem readInt_of_minus (ht : skipSpace t = '-' :: r) :
    readInt t = asInt (readUnsigned true r) := by
  rw [readInt, ht]
  rfl

theorem readInt_of_other {c : Char} (ht : skipSpace t = c :: r) (hc : c ≠ '-' ∧ c.isDigit = false) :
    readInt t = .error (wrongKind "i64" (c :: r)) := by
  rw [readInt, ht]
  simp [hc.1, hc.2]

/-- **An integer field** is read exactly if the value is an integer of 64 bits. -/
theorem reads_readInt : Reads readInt int? := by
  intro v a w rest ha h hrest
  have ht : skipSpace (a ++ (w ++ rest)) = w ++ rest := skipSpace_written ha h
  cases v with
  | int n =>
    cases h with
    | nat n =>
      rw [readInt_of_digits ht]
      exact gives_asInt_digits hrest n
    | neg hn =>
      rw [readInt_of_minus ht]
      exact gives_asInt_neg hrest hn
  | real x =>
    cases h with
    | real _ hsign hf he hno =>
      rcases hsign with rfl | rfl
      · rw [List.nil_append] at ht ⊢
        simp only [List.append_assoc] at ht ⊢
        rw [readInt_of_digits ht]
        exact gives_asInt_of_noInt (noInt_number hf he hrest (by simpa using hno))
      · simp only [List.cons_append, List.nil_append, List.append_assoc] at ht ⊢
        rw [readInt_of_minus ht]
        exact gives_asInt_of_noInt (noInt_number hf he hrest (by simpa using hno))
  | _ =>
    obtain ⟨c, r, rfl, hc⟩ := h.exists_head
    rw [readInt_of_other ht (hc.not_number (by simp) (by simp))]
    rfl

/-- **A field that may be null.** -/
theorem reads_readIntOrNull : Reads readIntOrNull intOrNull? := by
  intro v a w rest ha h hrest
  have ht : skipSpace (a ++ (w ++ rest)) = w ++ rest := skipSpace_written ha h
  by_cases hnull : v = .null
  · subst hnull
    cases h with
    | null =>
      rw [readIntOrNull, ht]
      rfl
  · have hvalue : intOrNull? v = (int? v).map some := by
      cases v with
      | null => exact absurd rfl hnull
      | _ => rfl
    have hread : readIntOrNull (a ++ (w ++ rest)) =
        (readInt (w ++ rest)).map fun p => (some p.1, p.2) := by
      obtain ⟨c, r, rfl, hc⟩ := h.exists_head
      rw [readIntOrNull, ht, List.cons_append]
      split
      · rename_i x heq
        exact absurd (hc.tells.null (List.cons.inj heq).1) hnull
      · rfl
    rw [hread, hvalue]
    exact (reads_readInt spaces_nil h hrest).map some

/-- **A string field.** -/
theorem reads_readText : Reads readText text? := by
  intro v a w rest ha h _
  have ht : skipSpace (a ++ (w ++ rest)) = w ++ rest := skipSpace_written ha h
  by_cases hstr : ∃ s, v = .str s
  · obtain ⟨s, rfl⟩ := hstr
    cases h with
    | @str _ x hx =>
      have hread := readString_spells hx rest
      rw [readText, ht, List.cons_append, List.append_assoc]
      exact gives_some_iff.mpr hread
  · have hvalue : text? v = none := by
      cases v with
      | str s => exact absurd ⟨s, rfl⟩ hstr
      | _ => rfl
    obtain ⟨c, r, rfl, hc⟩ := h.exists_head
    rw [readText, ht, hvalue, List.cons_append]
    split
    · rename_i x heq
      exact absurd (hc.tells.str (List.cons.inj heq).1) hstr
    · rfl

end Fields

/-! ## 3. From piece to piece -/

section Pieces

variable {first : Bool} {u : Text} {qs : List Piece}

theorem nextElement_done (h : Ahead first [] u) (rest : Text) :
    nextElement first (u ++ ']' :: rest) = .ok (false, ']' :: rest) := by
  rw [nextElement, skipSpace_append h.spaces, skipSpace_cons rfl]
  rfl

/-- **One element further**, with the white space before it passed over. -/
theorem nextElement_more {v : Json} (h : Ahead first (.item v :: qs) u) :
    ∃ w u', Written (.value v) w ∧ Ahead false qs u' ∧ u'.length < u.length ∧
      ∀ rest, nextElement first (u ++ ']' :: rest) = .ok (true, w ++ (u' ++ ']' :: rest)) := by
  cases h with
  | start h =>
    obtain ⟨a, w, u', rfl, ha, hw, hqs⟩ := h.exists_item
    obtain ⟨c, r, rfl, hc⟩ := hw.exists_head
    refine ⟨_, u', hw, hqs, ?_, fun rest => ?_⟩
    · simp only [List.length_append, List.length_cons]
      omega
    rw [nextElement]
    simp only [List.append_assoc, List.cons_append, skipSpace_append ha,
      skipSpace_cons hc.not_isSpace, if_neg hc.tells.inside, if_true]
  | @more b x _ _ hb h =>
    obtain ⟨a, w, u', rfl, ha, hw, hqs⟩ := h.exists_item
    obtain ⟨c, r, rfl, hc⟩ := hw.exists_head
    refine ⟨_, u', hw, hqs, ?_, fun rest => ?_⟩
    · simp only [List.length_append, List.length_cons]
      omega
    have hcomma : isSpace ',' = false := rfl
    rw [nextElement]
    simp only [List.append_assoc, List.cons_append, skipSpace_append hb, skipSpace_cons hcomma]
    simp only [skipSpace_append ha, skipSpace_cons hc.not_isSpace, if_neg hc.tells.inside]
    rfl

theorem nextKey_done (h : Ahead first [] u) (rest : Text) :
    nextKey first (u ++ '\x7d' :: rest) = .ok (false, rest) := by
  rw [nextKey, skipSpace_append h.spaces, skipSpace_cons rfl]
  rfl

/-- **One member further**, behind the quote before its key. -/
theorem nextKey_more {key : String} {v : Json} (h : Ahead first (.member key v :: qs) u) :
    ∃ k b c w u', Spells key.toList k ∧ Spaces b ∧ Spaces c ∧ Written (.value v) w ∧
      Ahead false qs u' ∧ u'.length < u.length ∧
      ∀ rest, nextKey first (u ++ '\x7d' :: rest) =
        .ok (true, k ++ '"' :: (b ++ ':' :: (c ++ (w ++ (u' ++ '\x7d' :: rest))))) := by
  cases h with
  | start h =>
    obtain ⟨a, k, b, c, w, u', rfl, ha, hkey, hb, hc, hw, hqs⟩ := h.exists_member
    refine ⟨k, b, c, w, u', hkey, hb, hc, hw, hqs, ?_, fun rest => ?_⟩
    · simp only [List.length_append, List.length_cons]
      omega
    have hquote : isSpace '"' = false := rfl
    rw [nextKey]
    simp only [List.append_assoc, List.cons_append, skipSpace_append ha, skipSpace_cons hquote]
    rfl
  | @more a' x _ _ ha' h =>
    obtain ⟨a, k, b, c, w, u', rfl, ha, hkey, hb, hc, hw, hqs⟩ := h.exists_member
    refine ⟨k, b, c, w, u', hkey, hb, hc, hw, hqs, ?_, fun rest => ?_⟩
    · simp only [List.length_append, List.length_cons]
      omega
    have hcomma : isSpace ',' = false := rfl
    have hquote : isSpace '"' = false := rfl
    rw [nextKey]
    simp only [List.append_assoc, List.cons_append, skipSpace_append ha', skipSpace_cons hcomma]
    simp only [skipSpace_append ha, skipSpace_cons hquote]
    rfl

end Pieces

/-! ## 4. Records as objects -/

/-- The value of a member is noted as it is. -/
theorem gives_readMember (d : Draft) (key : String) {v : Json} {a w rest : Text} (ha : Spaces a)
    (h : Written (.value v) w) (hrest : Closed rest) :
    Gives (d.readMember key (a ++ (w ++ rest))) (d.note? key v) rest := by
  unfold Draft.readMember Draft.note?
  split
  · exact (reads_readInt ha h hrest).map fun n => { d with line := some n }
  split
  · exact (reads_readInt ha h hrest).map fun n => { d with column := some n }
  split
  · exact (reads_readIntOrNull ha h hrest).map fun n => { d with length := some n }
  split
  · exact (reads_readText ha h hrest).map fun s => { d with severity := some s }
  split
  · exact (reads_readText ha h hrest).map fun s => { d with message := some s }
  · rw [skip_written ha h hrest]
    rfl

/-- The members that are to come, as pieces. -/
def memberPieces (ms : List (String × Json)) : List Piece := ms.map fun m => .member m.1 m.2

/-- **The members of a record** are taken one after the other, up to the end of the object. -/
theorem gives_readMembers (rest : Text) (ms : List (String × Json)) :
    ∀ {first : Bool} {u : Text} {fuel : Nat} (d : Draft), Ahead first (memberPieces ms) u →
      u.length < fuel →
      Gives (readMembers fuel first d (u ++ '\x7d' :: rest))
        ((ms.foldlM Draft.take? d).bind fun d => d.record.toOption) rest := by
  induction ms with
  | nil =>
    intro first u fuel d h hfuel
    obtain ⟨fuel, rfl⟩ := Nat.exists_eq_succ_of_ne_zero (Nat.ne_of_gt (Nat.zero_lt_of_lt hfuel))
    rw [readMembers, nextKey_done h]
    simp only [List.foldlM_nil, Option.pure_def, Option.bind_some]
    cases d.record <;> rfl
  | cons m ms ih =>
    intro first u fuel d h hfuel
    obtain ⟨fuel, rfl⟩ := Nat.exists_eq_succ_of_ne_zero (Nat.ne_of_gt (Nat.zero_lt_of_lt hfuel))
    obtain ⟨k, b, c, w, u', hkey, hb, hc, hw, hms, hlen, hnext⟩ := nextKey_more h
    have hclosed : Closed (u' ++ '\x7d' :: rest) := hms.closed (.cons (by decide) rest)
    have hmember := gives_readMember d m.1 hc hw hclosed
    have hcolon : readColon (b ++ ':' :: (c ++ (w ++ (u' ++ '\x7d' :: rest)))) =
        .ok (c ++ (w ++ (u' ++ '\x7d' :: rest))) := readColon_spaces hb _
    rw [readMembers, hnext]
    simp only [readString_spells hkey, hcolon, List.foldlM_cons, Draft.take?, Option.bind_eq_bind]
    by_cases hhas : d.has m.1 = true
    · rw [if_pos hhas, if_pos hhas]
      rfl
    · rw [if_neg hhas, if_neg hhas]
      cases hnote : d.note? m.1 m.2 with
      | none =>
        rw [hnote] at hmember
        obtain ⟨f, hf⟩ := gives_none_iff.mp hmember
        rw [hf]
        rfl
      | some d' =>
        rw [hnote] at hmember
        rw [gives_some_iff.mp hmember]
        exact ih d' hms (by omega)

/-! ## 5. Records as lists -/

/-- The elements that are to come, as pieces. -/
def itemPieces (vs : List Json) : List Piece := vs.map .item

/-- **The field at the front** is read, or the end of the list is met. -/
theorem gives_readElement {α : Type} {read : Text → Reading α} {f : Json → Option α}
    (hread : Reads read f) {vs : List Json} {first : Bool} {u : Text}
    (h : Ahead first (itemPieces vs) u) :
    ∃ u', Ahead false (itemPieces vs.tail) u' ∧ ∀ rest,
      Gives (readElement first read (u ++ ']' :: rest)) (front? f vs) (u' ++ ']' :: rest) := by
  cases vs with
  | nil =>
    refine ⟨[], .done spaces_nil, fun rest => ?_⟩
    rw [readElement, nextElement_done h]
    rfl
  | cons v vs =>
    obtain ⟨w, u', hw, hvs, -, hnext⟩ := nextElement_more h
    refine ⟨u', hvs, fun rest => ?_⟩
    rw [readElement, hnext]
    exact (hread spaces_nil hw (hvs.closed (.cons (by decide) rest))).map some

/-- Behind the last field the list has to end. -/
theorem gives_readListEnd {vs : List Json} {u : Text} (h : Ahead false (itemPieces vs) u)
    (r : Record) (rest : Text) :
    Gives ((readListEnd (u ++ ']' :: rest)).map fun rest => (r, rest))
      (if vs = [] then some r else none) rest := by
  cases vs with
  | nil =>
    rw [readListEnd, skipSpace_append h.spaces, skipSpace_cons rfl]
    rfl
  | cons v vs =>
    cases h with
    | more ha _ =>
      have hcomma : isSpace ',' = false := rfl
      rw [readListEnd, List.append_assoc, skipSpace_append ha, List.cons_append,
        skipSpace_cons hcomma]
      dsimp only
      rw [if_neg (by decide), if_pos rfl]
      split <;> rfl

/-- The fields are read one after the other. -/
theorem readFields_eq (t : Text) :
    readFields t = (readElement true readInt t).bind fun
      | (none, t) => .error (tooShort 0 t)
      | (some line, t) => (readElement false readInt t).bind fun
        | (none, t) => .error (tooShort 1 t)
        | (some column, t) => (readElement false readIntOrNull t).bind fun
          | (length, t) => (readElement false readText t).bind fun
            | (severity, t) => (readElement false readText t).bind fun
              | (none, t) => .error (tooShort 4 t)
              | (some message, t) => (readListEnd t).map fun rest =>
                (⟨line, column, length.getD none, severity.getD "", message⟩, rest) := by
  unfold readFields Except.bind
  rcases readElement true readInt t with f | ⟨_ | line, t⟩
  · rfl
  · rfl
  dsimp only
  rcases readElement false readInt t with f | ⟨_ | column, t⟩
  · rfl
  · rfl
  dsimp only
  rcases readElement false readIntOrNull t with f | ⟨length, t⟩
  · rfl
  dsimp only
  rcases readElement false readText t with f | ⟨severity, t⟩
  · rfl
  dsimp only
  rcases readElement false readText t with f | ⟨_ | message, t⟩ <;> rfl

/-- **The list of the fields** is read as the record. -/
theorem gives_readFields {vs : List Json} {u : Text} (h : Written (.pieces (itemPieces vs)) u)
    (rest : Text) : Gives (readFields (u ++ ']' :: rest)) (ofFields? vs) rest := by
  obtain ⟨u₁, h₁, hline⟩ := gives_readElement reads_readInt (.start h)
  obtain ⟨u₂, h₂, hcolumn⟩ := gives_readElement reads_readInt h₁
  obtain ⟨u₃, h₃, hlength⟩ := gives_readElement reads_readIntOrNull h₂
  obtain ⟨u₄, h₄, hseverity⟩ := gives_readElement reads_readText h₃
  obtain ⟨u₅, h₅, hmessage⟩ := gives_readElement reads_readText h₄
  rw [readFields_eq, ofFields?_eq]
  refine (hline rest).bind fun line => ?_
  cases line with
  | none => rfl
  | some line =>
    refine (hcolumn rest).bind fun column => ?_
    cases column with
    | none => rfl
    | some column =>
      refine (hlength rest).bind fun length => ?_
      refine (hseverity rest).bind fun severity => ?_
      refine (hmessage rest).bind fun message => ?_
      cases message with
      | none => rfl
      | some message => exact gives_readListEnd h₅ _ rest

/-! ## 6. Reports -/

/-- **A record is read** exactly if the value describes one. -/
theorem gives_readRecord {v : Json} (hnodup : (v.members.map Prod.fst).Nodup) {a w rest : Text}
    (ha : Spaces a) (h : Written (.value v) w) :
    Gives (readRecord (a ++ (w ++ rest))) (record? v) rest := by
  have ht : skipSpace (a ++ (w ++ rest)) = w ++ rest := skipSpace_written ha h
  cases v with
  | obj ms =>
    cases h with
    | @obj _ ms' u hperm hu =>
      have hkeys : (ms'.map Prod.fst).Nodup := (hperm.map Prod.fst).nodup_iff.mpr hnodup
      have hread := gives_readMembers rest ms' {} (.start hu)
        (show u.length < (u ++ '\x7d' :: rest).length + 1 by rw [List.length_append]; omega)
      rw [readRecord, ht, record?, ← ofMembers?_perm hperm hkeys, List.cons_append,
        List.append_assoc]
      exact hread
  | arr vs =>
    cases h with
    | arr hu =>
      rw [readRecord, ht, List.cons_append, List.append_assoc]
      exact gives_readFields hu rest
  | _ =>
    obtain ⟨c, r, rfl, hc⟩ := h.exists_head
    rw [readRecord, ht, List.cons_append]
    split
    · rename_i x heq
      obtain ⟨ms, hms⟩ := hc.tells.obj (List.cons.inj heq).1
      cases hms
    · rename_i x heq
      obtain ⟨vs, hvs⟩ := hc.tells.arr (List.cons.inj heq).1
      cases hvs
    · rfl

/-- **The records of a report** are read one after the other, up to the end of the list. -/
theorem gives_readRecords (rest : Text) (vs : List Json)
    (hnodup : ∀ v ∈ vs, (v.members.map Prod.fst).Nodup) :
    ∀ {first : Bool} {u : Text} {fuel : Nat} (read : List Record),
      Ahead first (itemPieces vs) u → u.length < fuel →
      Gives (readRecords fuel first read (u ++ ']' :: rest))
        ((vs.mapM record?).map (read.reverse ++ ·)) rest := by
  induction vs with
  | nil =>
    intro first u fuel read h hfuel
    obtain ⟨fuel, rfl⟩ := Nat.exists_eq_succ_of_ne_zero (Nat.ne_of_gt (Nat.zero_lt_of_lt hfuel))
    rw [readRecords, nextElement_done h]
    show Gives (Except.ok (read.reverse, rest)) (some (read.reverse ++ [])) rest
    rw [List.append_nil]
    rfl
  | cons v vs ih =>
    intro first u fuel read h hfuel
    obtain ⟨fuel, rfl⟩ := Nat.exists_eq_succ_of_ne_zero (Nat.ne_of_gt (Nat.zero_lt_of_lt hfuel))
    obtain ⟨w, u', hw, hvs, hlen, hnext⟩ := nextElement_more h
    have hrecord : Gives (readRecord ([] ++ (w ++ (u' ++ ']' :: rest)))) (record? v) _ :=
      gives_readRecord (hnodup v List.mem_cons_self) spaces_nil hw
    rw [List.nil_append] at hrecord
    have hread : readRecords (fuel + 1) first read (u ++ ']' :: rest) =
        (readRecord (w ++ (u' ++ ']' :: rest))).bind fun p =>
          readRecords fuel false (p.1 :: read) p.2 := by
      rw [readRecords, hnext]
      dsimp only
      cases readRecord (w ++ (u' ++ ']' :: rest)) <;> rfl
    have hmap : ((v :: vs).mapM record?).map (read.reverse ++ ·) =
        (record? v).bind fun r => (vs.mapM record?).map ((r :: read).reverse ++ ·) := by
      cases hv : record? v <;> cases hvs : vs.mapM record? <;> simp [hv, hvs]
    rw [hread, hmap]
    exact hrecord.bind fun r => ih (fun x hx => hnodup x (List.mem_cons_of_mem v hx)) (r :: read)
      hvs (show u'.length < fuel by omega)

/-- **A report is read** exactly if it is a list of values that describe records. -/
theorem parse_eq_ok_iff {v : Json} {t : Text} (ht : IsText v t)
    (hnodup : ∀ i ∈ v.items, (i.members.map Prod.fst).Nodup) {rs : List Record} :
    parse t = .ok rs ↔ ∃ vs, v = .arr vs ∧ List.Forall₂ Describes vs rs := by
  obtain ⟨a, w, b, ha, hw, hb, rfl⟩ := ht
  have hskip : skipSpace (a ++ (w ++ b)) = w ++ b := skipSpace_written ha hw
  cases v with
  | arr vs =>
    cases hw with
    | @arr _ u hu =>
      have hread : Gives (readRecords ((u ++ ']' :: b).length + 1) true [] (u ++ ']' :: b))
          ((vs.mapM record?).map id) b :=
        gives_readRecords b vs hnodup [] (.start hu) (by rw [List.length_append]; omega)
      rw [Option.map_id_apply] at hread
      have hrecords : (∃ vs', Json.arr vs = .arr vs' ∧ List.Forall₂ Describes vs' rs) ↔
          vs.mapM record? = some rs := by
        rw [mapM_record?_eq_some_iff (show ∀ i ∈ vs, _ from hnodup)]
        exact ⟨fun ⟨_, heq, h⟩ => Json.arr.inj heq ▸ h, fun h => ⟨vs, rfl, h⟩⟩
      rw [hrecords, parse, hskip, List.cons_append, List.append_assoc]
      cases hmap : vs.mapM record? with
      | none =>
        rw [hmap] at hread
        obtain ⟨f, hf⟩ := gives_none_iff.mp hread
        simp only [hf, List.singleton_append, reduceCtorEq]
      | some rs' =>
        rw [hmap] at hread
        simp only [gives_some_iff.mp hread, List.singleton_append, skipSpace_spaces hb,
          Except.ok.injEq, Option.some.injEq]
  | _ =>
    obtain ⟨c, r, rfl, hc⟩ := hw.exists_head
    rw [parse, hskip, List.cons_append]
    split
    · rename_i x heq
      obtain ⟨vs, hvs⟩ := hc.tells.arr (List.cons.inj heq).1
      cases hvs
    · simp

/-! ## 7. Texts that are read, and the others -/

theorem read_eq_ok_iff {t : Text} {rs : List Record} : read t = .ok rs ↔ parse t = .ok rs := by
  unfold read
  cases parse t <;> simp

/-- A text that cannot be read is kept. -/
theorem raw_of_read {t : Text} {m : Malformed} (h : read t = .error m) : m.raw = t := by
  unfold read at h
  split at h
  · cases h
  · cases h
    rfl

theorem exists_forall₂_iff {vs : List Json} :
    (∃ rs, List.Forall₂ Describes vs rs) ↔ ∀ i ∈ vs, ∃ r, Describes i r := by
  induction vs with
  | nil => simp
  | cons v vs ih =>
    rw [List.forall_mem_cons, ← ih]
    constructor
    · intro ⟨rs, h⟩
      cases h with
      | cons hv hvs => exact ⟨⟨_, hv⟩, _, hvs⟩
    · intro ⟨⟨r, hv⟩, rs, hvs⟩
      exact ⟨r :: rs, .cons hv hvs⟩

theorem puts_json (r : Record) : Puts r.json := by
  have hlength : Puts (lengthValue r.length) := by
    cases r.length with
    | none => exact .null
    | some n => exact .int n
  refine .obj fun m hm => ?_
  simp only [List.mem_cons, List.not_mem_nil, or_false] at hm
  rcases hm with rfl | rfl | rfl | rfl | rfl
  · exact .int _
  · exact hlength
  · exact .int _
  · exact .str _
  · exact .str _

/-- **A report is read as it is written.** Of a text of a value, exactly the lists of values that
    describe records are read, each as the records it describes; so whatever list of records is
    written down is read again. A text that cannot be read is kept, and the check of a document
    with it has one diagnostic. -/
theorem report_is_read_as_written :
    (∀ v t, IsText v t → (∀ i ∈ v.items, (i.members.map Prod.fst).Nodup) →
      (∀ rs, read t = .ok rs ↔ ∃ vs, v = .arr vs ∧ List.Forall₂ Describes vs rs) ∧
      ((∃ rs, read t = .ok rs) ↔ ∃ vs, v = .arr vs ∧ ∀ i ∈ vs, ∃ r, Describes i r)) ∧
    (∀ rs : List Record, (∀ r ∈ rs, r.Fits) →
      read (Json.arr (rs.map Record.json)).render.toList = .ok rs ∧
      ∀ t, IsText (.arr (rs.map Record.json)) t → read t = .ok rs) ∧
    (∀ t m, read t = .error m → m.raw = t ∧
      ∀ (p : Program) (host : Host) (timeout : Nat) (document : Text),
        p.run host timeout document = .ok t →
          p.check host timeout document = [m.diagnostic]) := by
  have hread : ∀ v t, IsText v t → (∀ i ∈ v.items, (i.members.map Prod.fst).Nodup) → ∀ rs,
      (read t = .ok rs ↔ ∃ vs, v = .arr vs ∧ List.Forall₂ Describes vs rs) :=
    fun v t ht hnodup rs => read_eq_ok_iff.trans (parse_eq_ok_iff ht hnodup)
  refine ⟨fun v t ht hnodup => ⟨hread v t ht hnodup, ?_⟩, fun rs hfits => ?_, fun t m h => ?_⟩
  · simp only [hread v t ht hnodup, ← exists_forall₂_iff]
    exact ⟨fun ⟨rs, vs, hv, h⟩ => ⟨vs, hv, rs, h⟩, fun ⟨vs, hv, rs, h⟩ => ⟨rs, vs, hv, h⟩⟩
  · have hdescribes : List.Forall₂ Describes (rs.map Record.json) rs :=
      List.forall₂_map_left_iff.mpr <| List.forall₂_same.mpr fun r hr =>
        r.describes_json (hfits r hr)
    have hnodup : ∀ i ∈ (Json.arr (rs.map Record.json)).items, (i.members.map Prod.fst).Nodup :=
      List.forall_mem_map.mpr fun r _ => r.nodup_json
    have htexts : ∀ t, IsText (.arr (rs.map Record.json)) t → read t = .ok rs := fun t ht =>
      (hread _ t ht hnodup rs).mpr ⟨_, rfl, hdescribes⟩
    exact ⟨htexts _ (Puts.arr (List.forall_mem_map.mpr fun r _ => puts_json r)).isText, htexts⟩
  · refine ⟨raw_of_read h, fun p host timeout document hrun => ?_⟩
    rw [Program.check, hrun]
    simp only [h]

theorem report_is_read_as_written_with_escapes :
    read ("[\x7b\"line\":1,\"column\" : -2,\"message\":\"\\u00E9\",\"note\":[null]\x7d,\n" ++
        "[3,4,null,\"warning\",\"m\"]] ").toList =
      .ok [⟨1, -2, none, "", "é"⟩, ⟨3, 4, none, "warning", "m"⟩] ∧
    read (Json.arr [Record.json ⟨leastInt, greatestInt, some 0, "", "\t"⟩]).render.toList =
      .ok [⟨leastInt, greatestInt, some 0, "", "\t"⟩] ∧
    Program.check ⟨[], none, none, .ok⟩ 1 ⟨fun _ => .ran 0 (.exited 0) [0x78] []⟩ [] =
      [(⟨['x'], .peek .expectedValue ['x']⟩ : Malformed).diagnostic] := by
  obtain ⟨htexts, hrecords, hfaults⟩ := report_is_read_as_written
  -- the object comes with its first two members in the other order
  have hline : Written (.piece (.member "line" (.int 1))) _ :=
    .member spaces_nil (spells_flatMap _) spaces_nil spaces_nil (.nat 1)
  have hcolumn : Written (.piece (.member "column" (.int (-2)))) _ :=
    .member spaces_nil (spells_flatMap _) (b := [' ']) (c := [' ']) (by decide) (by decide)
      (.neg (n := 2) (by decide))
  have hcode : Spelling 'é' ['\\', 'u', '0', '0', 'E', '9'] :=
    .code (by unfold HexWord HexDigit; decide)
  have hmessage : Written (.piece (.member "message" (.str "é"))) _ :=
    .member spaces_nil (spells_flatMap _) spaces_nil spaces_nil (.str (.cons hcode .nil))
  have hnote : Written (.piece (.member "note" (.arr [.null]))) _ :=
    .member spaces_nil (spells_flatMap _) spaces_nil spaces_nil
      (.arr (.last (.item spaces_nil .null) spaces_nil))
  have hobject : Written (.piece (.item (.obj [("column", .int (-2)), ("line", .int 1),
      ("message", .str "é"), ("note", .arr [.null])]))) _ :=
    .item spaces_nil (.obj (.swap _ _ _) (.cons hline spaces_nil (.cons hcolumn spaces_nil
      (.cons hmessage spaces_nil (.last hnote spaces_nil)))))
  have hlist : Written (.piece (.item (.arr [.int 3, .int 4, .null, .str "warning",
      .str "m"]))) _ :=
    .item (a := ['\n']) (by decide) (.arr (.cons (.item spaces_nil (.nat 3)) spaces_nil
      (.cons (.item spaces_nil (.nat 4)) spaces_nil (.cons (.item spaces_nil .null) spaces_nil
        (.cons (.item spaces_nil (.str (spells_flatMap _))) spaces_nil
          (.last (.item spaces_nil (.str (spells_flatMap _))) spaces_nil))))))
  have harr : Written (.value (.arr [_, _])) _ :=
    .arr (.cons hobject spaces_nil (.last hlist spaces_nil))
  have hfirst : Record.InMembers ⟨1, -2, none, "", "é"⟩ [("column", .int (-2)), ("line", .int 1),
      ("message", .str "é"), ("note", .arr [.null])] :=
    ⟨by simp, by simp, .inr (by simp), .inr (by simp), by simp⟩
  refine ⟨((htexts _ _ ⟨[], _, [' '], spaces_nil, harr, by decide, by decide⟩ (by decide)).1 _).mpr
      ⟨_, rfl, .cons (.object hfirst ⟨by decide, by decide, nofun⟩)
        (.cons (@Describes.list ⟨3, 4, none, "warning", "m"⟩ ⟨by decide, by decide, nofun⟩) .nil)⟩,
    (hrecords [⟨leastInt, greatestInt, some 0, "", "\t"⟩] ?_).1,
    (hfaults ['x'] _ rfl).2 _ _ _ _ (by decide)⟩
  refine List.forall_mem_singleton.mpr ⟨by decide, by decide, fun n hn => ?_⟩
  cases hn
  decide

end Nsql.Report
