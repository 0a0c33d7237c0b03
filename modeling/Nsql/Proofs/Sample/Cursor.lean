/-
  File:      Nsql/Proofs/Sample/Cursor.lean
  Subject:   The place of a mark and the place of a document.

  A mark is placed by counting line feeds before it and the units behind the last one. A document
  counts line breaks, of which a carriage return is one too. In a text where every carriage return
  has its line feed behind it the two come to the same, and so the place of a mark is resolved to
  the offset where the mark stood.

  * `split?_eq_some_iff` -- a text is cut at its first mark;
  * `endOf_eq_place` -- both ways of counting give the same place;
  * **`marks_denote_places`** -- a mark is found again in the document, and an offset in the marks.
-/
import Nsql.Proofs.Document.Place
import Nsql.Sample.Cursor

namespace Nsql.Cursor

open Document (place breaks openLine isBreak Severs)

/-! ## 1. The first mark -/

/-- **A text is cut at its first mark.** -/
theorem split?_eq_some_iff {t p s : Text} :
    split? t = some (p, s) ↔ t = p ++ mark :: s ∧ mark ∉ p := by
  induction t generalizing p with
  | nil => simp [split?]
  | cons c t ih =>
    rw [split?]
    split
    · rename_i hc
      subst hc
      cases p with
      | nil => simp [eq_comm]
      | cons d p =>
        refine iff_of_false (by simp) fun ⟨heq, hno⟩ => ?_
        obtain ⟨hd, -⟩ := List.cons.inj heq
        exact hno (hd ▸ List.mem_cons_self)
    · rename_i hc
      rw [Option.map_eq_some_iff]
      constructor
      · intro ⟨⟨q, r⟩, hq, hpr⟩
        obtain ⟨rfl, rfl⟩ := Prod.mk.inj hpr
        obtain ⟨rfl, hno⟩ := ih.mp hq
        exact ⟨rfl, fun hmem => (List.mem_cons.mp hmem).elim (fun h => hc h.symm) hno⟩
      · intro ⟨heq, hno⟩
        cases p with
        | nil => exact absurd (List.cons.inj heq).1 hc
        | cons d p =>
          obtain ⟨rfl, rfl⟩ := List.cons.inj heq
          exact ⟨(p, s), ih.mpr ⟨rfl, fun h => hno (List.mem_cons_of_mem c h)⟩, rfl⟩

theorem split?_mark {p : Text} (s : Text) (h : mark ∉ p) : split? (p ++ mark :: s) = some (p, s) :=
  split?_eq_some_iff.mpr ⟨rfl, h⟩

/-! ## 2. Line feeds and line breaks -/

/-- Every carriage return has a line feed right behind it. -/
def Paired (t : Text) : Prop := ∀ i < t.length, t[i]? = some '\r' → t[i + 1]? = some '\n'

instance (t : Text) : Decidable (Paired t) := inferInstanceAs (Decidable (∀ i < t.length, _))

theorem Paired.tail {c : Char} {t : Text} (h : Paired (c :: t)) : Paired t :=
  fun i hi hcr => h (i + 1) (Nat.succ_lt_succ hi) hcr

/-- In front of a character that is no line feed stands no carriage return. -/
theorem Paired.getLast?_ne {p s : Text} {c : Char} (h : Paired (p ++ c :: s)) (hc : c ≠ '\n') :
    p.getLast? ≠ some '\r' := by
  intro hlast
  obtain ⟨q, rfl⟩ := List.getLast?_eq_some_iff.mp hlast
  have hnext := h q.length (by simp) (by simp)
  rw [List.append_assoc, List.getElem?_append_right (Nat.le_succ _)] at hnext
  simp [hc] at hnext

/-- What stands before a character that is no line feed has its own line feeds. -/
theorem Paired.left {p s : Text} {c : Char} (h : Paired (p ++ c :: s)) (hc : c ≠ '\n') :
    Paired p := by
  intro i hi hcr
  have hnext := h i (by rw [List.length_append]; omega) (by rw [List.getElem?_append_left hi, hcr])
  rcases Nat.lt_or_ge (i + 1) p.length with hlt | hge
  · rwa [List.getElem?_append_left hlt] at hnext
  · -- the last character of the first part is no carriage return
    refine absurd ?_ (h.getLast?_ne hc)
    rw [List.getLast?_eq_getElem?, show p.length - 1 = i by omega, hcr]

/-- **There are as many breaks as line feeds.** -/
theorem breaks_eq_count {t : Text} (h : Paired t) : breaks t = t.count '\n' := by
  fun_induction breaks t with
  | case1 => rfl
  | case2 t ih => simp [ih h.tail.tail]
  | case3 c t hpair hc ih =>
    rcases hc with rfl | rfl
    · rw [ih h.tail, List.count_cons_self]
    · -- a carriage return without its line feed
      have hnext : t[0]? = some '\n' := h 0 (Nat.succ_pos _) rfl
      rw [← List.head?_eq_getElem?] at hnext
      obtain ⟨u, rfl⟩ := List.head?_eq_some_iff.mp hnext
      exact absurd rfl (hpair u rfl)
  | case4 c t _ hc ih =>
    rw [ih h.tail, List.count_cons_of_ne fun heq => hc (.inl heq)]

/-- **What stands behind the last line feed is what stands behind the last break.** -/
theorem openLine_eq {t : Text} (h : Paired t) :
    openLine t = (t.reverse.takeWhile (· ≠ '\n')).reverse := by
  induction t using List.reverseRecOn with
  | nil => rfl
  | append_singleton t c ih =>
    rw [List.reverse_append, List.reverse_singleton, List.singleton_append]
    by_cases hc : c = '\n'
    · subst hc
      rw [openLine, List.rtakeWhile_concat_neg _ _ _ (by decide)]
      simp
    · have hcr : c ≠ '\r' := by
        intro hcr
        have hnext := h t.length (by simp) (by simp [hcr])
        simp at hnext
      have hkeep : (!isBreak c) = true := by simp [isBreak, hc, hcr]
      have hopen : openLine (t ++ [c]) = openLine t ++ [c] :=
        List.rtakeWhile_concat_pos (fun c => !isBreak c) t c hkeep
      rw [hopen, List.takeWhile_cons_of_pos (by simpa), List.reverse_cons, ← ih (h.left hc)]

/-- **Both ways of counting give the same place.** -/
theorem endOf_eq_place {p : Text} (h : Paired p) : endOf p = place p := by
  rw [endOf, place, breaks_eq_count h, openLine_eq h]

/-! ## 3. Marks and documents -/

/-- A mark cuts no line break. -/
theorem Paired.not_severs {p s : Text} (h : Paired (p ++ mark :: s)) : ¬ Severs p s :=
  fun hs => h.getLast?_ne (by decide) hs.1

theorem locate?_mark {p s : Text} (hno : mark ∉ p) (h : Paired (p ++ mark :: s)) :
    locate? (p ++ mark :: s) = some (p ++ s, place p) := by
  rw [locate?, split?_mark s hno, Option.map_some, endOf_eq_place (h.left (by decide))]

/-- A mark may be put in wherever no line break is cut. -/
theorem paired_mark {p s : Text} (h : Paired (p ++ s)) (hsev : ¬ Severs p s) :
    Paired (p ++ mark :: s) := by
  intro i hi hcr
  rcases Nat.lt_trichotomy i p.length with hlt | heq | hgt
  · have hnext := h i (by rw [List.length_append]; omega)
      (by rw [List.getElem?_append_left hlt, ← hcr, List.getElem?_append_left hlt])
    rcases Nat.lt_or_ge (i + 1) p.length with hlt' | hge
    · rwa [List.getElem?_append_left hlt'] at hnext ⊢
    · -- the carriage return is the last character before the mark
      rw [List.getElem?_append_right hge, show i + 1 - p.length = 0 by omega,
        ← List.head?_eq_getElem?] at hnext
      rw [List.getElem?_append_left hlt] at hcr
      refine absurd ⟨?_, hnext⟩ hsev
      rw [List.getLast?_eq_getElem?, show p.length - 1 = i by omega, hcr]
  · rw [heq, List.getElem?_append_right (Nat.le_refl _), Nat.sub_self] at hcr
    cases hcr
  · obtain ⟨k, rfl⟩ : ∃ k, i = p.length + (k + 1) := ⟨i - p.length - 1, by omega⟩
    rw [List.getElem?_append_right (by omega), Nat.add_sub_cancel_left,
      List.getElem?_cons_succ] at hcr
    have hnext := h (p.length + k) (by simp at hi ⊢; omega)
      (by rw [List.getElem?_append_right (by omega), Nat.add_sub_cancel_left, hcr])
    rw [List.getElem?_append_right (by omega), show p.length + k + 1 - p.length = k + 1 by omega]
      at hnext
    rw [List.getElem?_append_right (by omega),
      show p.length + (k + 1) + 1 - p.length = k + 1 + 1 by omega, List.getElem?_cons_succ]
    exact hnext

/-- **Marks denote places of documents.** Let every carriage return of a text have its line feed
    behind it. If the text has a mark, it is cut at the first one: the text without it is what
    stands before it and what stands behind it, and the place of the mark is resolved to the number
    of characters before it, in a document with that text. If the text has no mark, one can be put
    in at every offset that is not inside a line break, and splitting gives back the text and the
    place of that offset. Line and column fit into 32 bits if the text can be measured in them. -/
theorem marks_denote_places :
    (∀ input : Text, mark ∈ input → Paired input →
      ∃ before behind position, input = before ++ mark :: behind ∧ mark ∉ before ∧
        offset? input = some (Text.size before) ∧ erase input = before ++ behind ∧
        locate? input = some (before ++ behind, position) ∧
        (∀ (uri language : String) (version : Int),
          Document.offset? (Document.ofText uri language version (before ++ behind)).content
            position = some before.length) ∧
        (Text.width input < 4294967296 →
          position.line < 4294967296 ∧ position.column < 4294967296)) ∧
    (∀ (t : Text) (o : Nat), mark ∉ t → Paired t → o ≤ t.length →
      ¬ Severs (t.take o) (t.drop o) →
      Paired (t.take o ++ mark :: t.drop o) ∧
      locate? (t.take o ++ mark :: t.drop o) = some (t, place (t.take o))) := by
  constructor
  · intro input hmark hpaired
    obtain ⟨before, behind, rfl, hno⟩ := List.eq_append_cons_of_mem hmark
    have hsplit := split?_mark behind hno
    refine ⟨before, behind, place before, rfl, hno, ?_, ?_, locate?_mark hno hpaired,
      fun uri language version => Document.offset?_place before behind hpaired.not_severs,
      fun hwidth => ?_⟩
    · rw [offset?, hsplit, Option.map_some]
    · rw [erase, hsplit]
    · obtain ⟨hline, hcolumn⟩ := Document.place_le_width before (mark :: behind)
      exact ⟨by omega, by omega⟩
  · intro t o hno hpaired _ hsev
    have hcut := List.take_append_drop o t
    have hmarked : Paired (t.take o ++ mark :: t.drop o) :=
      paired_mark (by rw [hcut]; exact hpaired) hsev
    refine ⟨hmarked, ?_⟩
    rw [locate?_mark (fun hmem => hno (List.mem_of_mem_take hmem)) hmarked, hcut]

/-- The mark stands before both characters of a break and behind a character of two units; a further
    one stays in the text. Then the same place without the mark. -/
theorem marks_denote_places_beside_break :
    (mark ∈ ['a', '\r', '\n', '😀', '|', '\r', '\n', '|'] ∧
      Paired ['a', '\r', '\n', '😀', '|', '\r', '\n', '|'] ∧
      Document.offset? ['a', '\r', '\n', '😀', '\r', '\n', '|'] ⟨1, 2⟩ = some 4) ∧
    (mark ∉ ['a', '\r', '\n', '😀', '\r', '\n'] ∧ Paired ['a', '\r', '\n', '😀', '\r', '\n'] ∧
      ¬ Severs ['a', '\r', '\n', '😀'] ['\r', '\n'] ∧
      locate? ['a', '\r', '\n', '😀', '|', '\r', '\n'] =
        some (['a', '\r', '\n', '😀', '\r', '\n'], ⟨1, 2⟩)) := by
  obtain ⟨hmarks, hoffsets⟩ := marks_denote_places
  have hmark : mark ∈ ['a', '\r', '\n', '😀', '|', '\r', '\n', '|'] := by decide
  have hpaired : Paired ['a', '\r', '\n', '😀', '|', '\r', '\n', '|'] := by decide
  have hno : mark ∉ ['a', '\r', '\n', '😀', '\r', '\n'] := by decide
  have hpaired' : Paired ['a', '\r', '\n', '😀', '\r', '\n'] := by decide
  have hsev : ¬ Severs ['a', '\r', '\n', '😀'] ['\r', '\n'] := by decide
  obtain ⟨before, behind, pos, hinput, hbefore, -, -, hlocate, hoffset, -⟩ := hmarks _ hmark hpaired
  -- where the input is cut, and what is found there, can be computed
  have hsplit := split?_mark behind hbefore
  rw [← hinput] at hsplit
  obtain ⟨rfl, rfl⟩ : ['a', '\r', '\n', '😀'] = before ∧ ['\r', '\n', '|'] = behind :=
    Prod.mk.inj (Option.some.inj hsplit)
  obtain rfl : (⟨1, 2⟩ : Position) = pos := (Prod.mk.inj (Option.some.inj hlocate)).2
  exact ⟨⟨hmark, hpaired, hoffset "u" "nsql" 1⟩, hno, hpaired', hsev,
    (hoffsets _ 4 hno hpaired' (by decide) hsev).2⟩

end Nsql.Cursor
