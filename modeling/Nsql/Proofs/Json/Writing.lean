/-
  File:      Nsql/Proofs/Json/Writing.lean
  Subject:   What is put down for a value is a text of it.

  The writer puts a value in front of a tail, so that each of its pieces is a text by itself and
  the tail behind it (`Puts`). Numbers with a fraction or an exponent are left out.

  * `spelling_escapeChar`, `spells_flatMap` -- the characters of a string;
  * `Puts.arr`, `Puts.obj` -- the values of an array or an object side by side;
  * **`Puts.isText`** -- the whole text.
-/
import Nsql.Json.Printer
import Nsql.Proofs.Json.Grammar

namespace Nsql.Json

/-! ## 1. Strings -/

/-- A control character has four hexadecimal digits, of which the first two are zero. -/
theorem hexWord_control : ∀ n < 0x20,
    HexWord n (List.replicate (4 - (Nat.toDigits 16 n).length) '0' ++ Nat.toDigits 16 n) := by
  unfold HexWord HexDigit
  decide

/-- **A character is put down in one of its spellings.** -/
theorem spelling_escapeChar (c : Char) : Spelling c (escapeChar c) := by
  have hletter : ∀ {e x : Char}, c = x → (e, x) ∈ escapes → Spelling c ['\\', e] :=
    fun heq h => .letter (heq ▸ h)
  unfold escapeChar
  split_ifs with hquote hescape hb ht hn hf hr hcontrol
  · exact hletter hquote (by decide)
  · exact hletter hescape (by decide)
  · exact hletter hb (by decide)
  · exact hletter ht (by decide)
  · exact hletter hn (by decide)
  · exact hletter hf (by decide)
  · exact hletter hr (by decide)
  · exact .code (hexWord_control _ hcontrol)
  · exact .plain (Nat.le_of_not_lt hcontrol) hquote hescape

theorem spells_flatMap (s : Text) : Spells s (s.flatMap escapeChar) := by
  induction s with
  | nil => exact .nil
  | cons c s ih => exact .cons (spelling_escapeChar c) ih

/-! ## 2. Values -/

/-- What is put down for a value is a text of it, in front of the tail. -/
def Puts (v : Json) : Prop := ∃ w, Written (.value v) w ∧ ∀ tail, put v tail = w ++ tail

namespace Puts

theorem null : Puts .null := ⟨_, .null, fun _ => rfl⟩

theorem int (n : Int) : Puts (.int n) := by
  cases n with
  | ofNat n =>
    refine ⟨_, .nat n, fun tail => ?_⟩
    show n.repr.toList ++ tail = _
    rw [Nat.toList_repr]
  | negSucc n =>
    refine ⟨_, .neg (Nat.succ_ne_zero n), fun tail => ?_⟩
    show ("-" ++ n.succ.repr).toList ++ tail = _
    rw [String.toList_append, Nat.toList_repr]
    rfl

theorem str (s : String) : Puts (.str s) := by
  refine ⟨_, .str (spells_flatMap s.toList), fun tail => ?_⟩
  show putString s tail = _
  rw [putString, List.cons_append, List.append_assoc]
  rfl

theorem item {v : Json} (h : Puts v) :
    ∃ w, Written (.piece (.item v)) w ∧ ∀ tail, put v tail = w ++ tail := by
  obtain ⟨w, hw, hput⟩ := h
  exact ⟨w, .item spaces_nil hw, hput⟩

theorem member (key : String) {v : Json} (h : Puts v) :
    ∃ w, Written (.piece (.member key v)) w ∧
      ∀ tail, putString key (':' :: put v tail) = w ++ tail := by
  obtain ⟨w, hw, hput⟩ := h
  refine ⟨_, .member spaces_nil (spells_flatMap key.toList) spaces_nil spaces_nil hw, ?_⟩
  intro tail
  rw [putString, hput]
  simp

/-- The elements of an array, side by side. -/
theorem items {vs : List Json} (hvs : ∀ v ∈ vs, Puts v) {v : Json} (hv : Puts v) :
    ∃ u, Written (.pieces ((v :: vs).map .item)) u ∧
      ∀ tail, put v (putItems vs tail) = u ++ tail := by
  induction vs generalizing v with
  | nil =>
    obtain ⟨w, hw, hput⟩ := hv.item
    refine ⟨w ++ [], .last hw spaces_nil, fun tail => ?_⟩
    show put v tail = _
    rw [hput, List.append_nil]
  | cons v' vs ih =>
    obtain ⟨w, hw, hput⟩ := hv.item
    obtain ⟨u, hu, hputs⟩ := ih (fun x hx => hvs x (List.mem_cons_of_mem v' hx))
      (hvs v' List.mem_cons_self)
    refine ⟨w ++ ([] ++ ',' :: u), .cons hw spaces_nil hu, fun tail => ?_⟩
    show put v (',' :: put v' (putItems vs tail)) = _
    rw [hput, hputs, List.append_assoc, List.nil_append, List.cons_append]

theorem arr {vs : List Json} (h : ∀ v ∈ vs, Puts v) : Puts (.arr vs) := by
  cases vs with
  | nil => exact ⟨_, .arr (.none spaces_nil), fun _ => rfl⟩
  | cons v vs =>
    obtain ⟨u, hu, hput⟩ := items (fun x hx => h x (List.mem_cons_of_mem v hx))
      (h v List.mem_cons_self)
    refine ⟨_, .arr hu, fun tail => ?_⟩
    show '[' :: put v (putItems vs (']' :: tail)) = _
    rw [hput, List.cons_append, List.append_assoc]
    rfl

/-- The members of an object, side by side. -/
theorem members {ms : List (String × Json)} (hms : ∀ m ∈ ms, Puts m.2) (key : String) {v : Json}
    (hv : Puts v) :
    ∃ u, Written (.pieces (((key, v) :: ms).map fun m => .member m.1 m.2)) u ∧
      ∀ tail, putString key (':' :: put v (putMembers ms tail)) = u ++ tail := by
  induction ms generalizing key v with
  | nil =>
    obtain ⟨w, hw, hput⟩ := hv.member key
    refine ⟨w ++ [], .last hw spaces_nil, fun tail => ?_⟩
    show putString key (':' :: put v tail) = _
    rw [hput, List.append_nil]
  | cons m ms ih =>
    obtain ⟨w, hw, hput⟩ := hv.member key
    obtain ⟨u, hu, hputs⟩ := ih (fun x hx => hms x (List.mem_cons_of_mem m hx)) m.1
      (hms m List.mem_cons_self)
    refine ⟨w ++ ([] ++ ',' :: u), .cons hw spaces_nil hu, fun tail => ?_⟩
    show putString key (':' :: put v (',' ::
      putString m.1 (':' :: put m.2 (putMembers ms tail)))) = _
    rw [hput, hputs, List.append_assoc, List.nil_append, List.cons_append]

theorem obj {ms : List (String × Json)} (h : ∀ m ∈ ms, Puts m.2) : Puts (.obj ms) := by
  cases ms with
  | nil => exact ⟨_, .obj .nil (.none spaces_nil), fun _ => rfl⟩
  | cons m ms =>
    obtain ⟨u, hu, hput⟩ := members (fun x hx => h x (List.mem_cons_of_mem m hx)) m.1
      (h m List.mem_cons_self)
    refine ⟨_, .obj (.refl _) hu, fun tail => ?_⟩
    show '\x7b' :: putString m.1 (':' :: put m.2 (putMembers ms ('\x7d' :: tail))) = _
    rw [hput, List.cons_append, List.append_assoc]
    rfl

/-- **What is put down for a value is a text of it.** -/
theorem isText {v : Json} (h : Puts v) : IsText v v.render.toList := by
  obtain ⟨w, hw, hput⟩ := h
  refine ⟨[], w, [], spaces_nil, hw, spaces_nil, ?_⟩
  rw [render, String.toList_ofList, hput, List.nil_append]

end Puts

end Nsql.Json
