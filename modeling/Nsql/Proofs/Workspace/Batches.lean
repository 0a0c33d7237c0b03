/-
  File:      Nsql/Proofs/Workspace/Batches.lean
  Subject:   Batches of edits count as a whole or not at all.

  The edits of a batch are made one after the other, each in the text that the ones before it left
  (`Leads`). The first edit whose range this text does not have (`Refuses`) makes the whole batch
  fail, whatever the edits before it did; the error names its range (`FirstRefused`).

  * `apply_eq_ok_iff`, `apply_eq_error_iff` -- what one edit does, and when it is refused;
  * `applyEdits_eq_ok_iff`, `applyEdits_eq_error_iff` -- the same of a batch;
  * `applyEdits_append`, `Store.update_append` -- two batches one after the other are one;
  * **`batches_count_as_a_whole`** -- what becomes of the store and of the client.
-/
import Nsql.Proofs.Document.Agreement
import Nsql.Proofs.Document.Offsets
import Nsql.Workspace.Task

namespace Nsql

namespace Document

/-! ## 1. One edit -/

/-- What an edit makes of a text: its own text in place of everything, or in place of what stands
    between two offsets that are in order. -/
inductive Edit.Makes (t : Text) : Edit → Text → Prop where
  | whole (new : Text) : Makes t ⟨none, new⟩ new
  | part {range : Range} {a b : Nat} (new : Text) (ha : offset? t range.start = some a)
      (hb : offset? t range.stop = some b) (hab : a ≤ b) :
      Makes t ⟨some range, new⟩ (t.take a ++ new ++ t.drop b)

/-- Whether a text does not have a range: one of its lines does not exist, or it starts at an
    offset behind the one where it ends. -/
def Refuses (t : Text) (range : Range) : Prop :=
  (rows t).length ≤ range.start.line ∨ (rows t).length ≤ range.stop.line ∨
    ∃ a b, offset? t range.start = some a ∧ offset? t range.stop = some b ∧ b < a

/-- A range that a text has gives two offsets in order. -/
theorem not_refuses_iff {t : Text} {range : Range} :
    ¬ Refuses t range ↔
      ∃ a b, offset? t range.start = some a ∧ offset? t range.stop = some b ∧ a ≤ b := by
  rw [Refuses, ← offset?_eq_none_iff, ← offset?_eq_none_iff]
  cases ha : offset? t range.start with
  | none => simp
  | some a =>
    cases hb : offset? t range.stop with
    | none => simp
    | some b => simp

theorem apply_eq_ok_iff {t t' : Text} {e : Edit} : e.apply t = .ok t' ↔ e.Makes t t' := by
  constructor
  · intro h
    obtain ⟨range, new⟩ := e
    cases range with
    | none =>
      cases h
      exact .whole new
    | some range =>
      obtain ⟨a, b, ha, hb, hab⟩ := (apply_range_eq_ok_iff new).mp ⟨t', h⟩
      simp only [Edit.apply, ha, hb, if_pos hab] at h
      cases h
      exact .part new ha hb hab
  · intro h
    cases h with
    | whole => rfl
    | part new ha hb hab => simp only [Edit.apply, ha, hb, if_pos hab]

/-- **When an edit is refused**: it has a range, the text does not, and the error names it. -/
theorem apply_eq_error_iff {t : Text} {e : Edit} {err : Error} :
    e.apply t = .error err ↔
      ∃ range, e.range = some range ∧ Refuses t range ∧ err = .invalidRange range := by
  obtain ⟨range, new⟩ := e
  cases range with
  | none => simp [Edit.apply]
  | some range =>
    by_cases hrefused : Refuses t range
    · have herror : Edit.apply ⟨some range, new⟩ t = .error (.invalidRange range) := by
        rw [Refuses, ← offset?_eq_none_iff, ← offset?_eq_none_iff] at hrefused
        rcases hrefused with h | h | ⟨a, b, ha, hb, hab⟩
        · simp only [Edit.apply, h]
        · simp only [Edit.apply, h]
          cases offset? t range.start <;> rfl
        · simp only [Edit.apply, ha, hb, if_neg (Nat.not_le_of_lt hab)]
      rw [herror]
      constructor
      · intro h
        exact ⟨range, rfl, hrefused, (Except.error.inj h).symm⟩
      · rintro ⟨range', hrange, -, rfl⟩
        rw [Option.some.inj hrange]
    · obtain ⟨t', ht'⟩ := (apply_range_eq_ok_iff new).mpr (not_refuses_iff.mp hrefused)
      rw [ht']
      constructor
      · intro h
        cases h
      · rintro ⟨range', hrange, hrefuses, -⟩
        obtain rfl : range = range' := Option.some.inj hrange
        exact absurd hrefuses hrefused

/-! ## 2. A batch of edits -/

/-- Where the edits of a batch lead, each made in the text that the one before it left. -/
inductive Leads : Text → List Edit → Text → Prop where
  | nil (t : Text) : Leads t [] t
  | cons {t t' t'' : Text} {e : Edit} {es : List Edit} (he : e.Makes t t')
      (hes : Leads t' es t'') : Leads t (e :: es) t''

/-- The range of the first edit of a batch that the text at hand does not have. -/
def FirstRefused (t : Text) (es : List Edit) (range : Range) : Prop :=
  ∃ before new behind t', es = before ++ ⟨some range, new⟩ :: behind ∧ Leads t before t' ∧
    Refuses t' range

theorem applyEdits_eq_ok_iff {t t' : Text} {es : List Edit} :
    applyEdits es t = .ok t' ↔ Leads t es t' := by
  induction es generalizing t with
  | nil =>
    constructor
    · intro h
      obtain rfl : t = t' := Except.ok.inj h
      exact .nil t
    · intro h
      cases h with
      | nil => rfl
  | cons e es ih =>
    constructor
    · intro h
      rw [applyEdits] at h
      split at h
      · rename_i t₁ he
        exact .cons (apply_eq_ok_iff.mp he) (ih.mp h)
      · cases h
    · intro h
      cases h with
      | cons he hes =>
        rw [applyEdits, apply_eq_ok_iff.mpr he]
        exact ih.mpr hes

/-- **When a batch is refused**: at its first edit whose range the text at hand does not have. -/
theorem applyEdits_eq_error_iff {t : Text} {es : List Edit} {err : Error} :
    applyEdits es t = .error err ↔
      ∃ range, FirstRefused t es range ∧ err = .invalidRange range := by
  constructor
  · intro h
    induction es generalizing t with
    | nil => cases h
    | cons e es ih =>
      rw [applyEdits] at h
      split at h
      · rename_i t₁ he
        obtain ⟨range, ⟨before, new, behind, t', rfl, hleads, hrefuses⟩, herr⟩ := ih h
        exact ⟨range, ⟨e :: before, new, behind, t', rfl,
          .cons (apply_eq_ok_iff.mp he) hleads, hrefuses⟩, herr⟩
      · rename_i err' he
        obtain ⟨range, hrange, hrefuses, rfl⟩ := apply_eq_error_iff.mp he
        have hfirst : e = ⟨some range, e.text⟩ := by rw [← hrange]
        refine ⟨range, ⟨[], e.text, es, t, ?_, .nil t, hrefuses⟩, (Except.error.inj h).symm⟩
        rw [List.nil_append, ← hfirst]
  · rintro ⟨range, ⟨before, new, behind, t', rfl, hleads, hrefuses⟩, rfl⟩
    induction hleads with
    | nil t =>
      have he : Edit.apply ⟨some range, new⟩ t = .error (.invalidRange range) :=
        apply_eq_error_iff.mpr ⟨range, rfl, hrefuses, rfl⟩
      rw [List.nil_append, applyEdits, he]
    | cons he _ ih =>
      rw [List.cons_append, applyEdits, apply_eq_ok_iff.mpr he]
      exact ih hrefuses

/-- **Two batches one after the other are one.** -/
theorem applyEdits_append (es fs : List Edit) (t : Text) :
    applyEdits (es ++ fs) t = applyEdits es t >>= applyEdits fs := by
  induction es generalizing t with
  | nil => rfl
  | cons e es ih =>
    rw [List.cons_append, applyEdits, applyEdits]
    cases e.apply t with
    | ok t' => exact ih t'
    | error err => rfl

end Document

/-! ## 3. The store -/

/-- The document with another version and another text. -/
def Document.renewed (d : Document) (version : Int) (t : Text) : Document :=
  ⟨d.uri, d.language, version, (Document.rows t).length, t⟩

namespace Store

open Document

/-- Of two documents that are put in for one URI the second one stays. -/
theorem insert_insert {d e : Document} (h : d.uri = e.uri) (s : Store) :
    (s.insert d).insert e = s.insert e := by
  induction s with
  | nil => simp [insert, h]
  | cons x s ih =>
    by_cases hx : x.uri = d.uri
    · simp [insert, hx, h]
    · have hx' : x.uri ≠ e.uri := h ▸ hx
      simp only [insert, if_neg hx, if_neg hx', ih]

/-- A change of a document that is open is a batch of edits of its text. -/
theorem update_of_get? {uri : String} {s : Store} {d : Document} (h : s.get? uri = some d)
    (version : Int) (es : List Edit) :
    s.update uri version es =
      (applyEdits es d.content).map fun t => s.insert (d.renewed version t) := by
  rw [update, h]
  simp only [change]
  cases applyEdits es d.content <;> rfl

/-- **Two changes one after the other are one**, whatever version the first one was for. -/
theorem update_append (uri : String) (version first : Int) (es fs : List Edit) (s : Store) :
    s.update uri version (es ++ fs) =
      s.update uri first es >>= fun s' => s'.update uri version fs := by
  cases hd : s.get? uri with
  | none =>
    rw [update, update, hd]
    rfl
  | some d =>
    rw [update_of_get? hd, update_of_get? hd, applyEdits_append]
    cases applyEdits es d.content with
    | error err => rfl
    | ok t =>
      -- the second change finds the document that the first one has put in
      have hget : (s.insert (d.renewed first t)).get? uri = some (d.renewed first t) := by
        rw [← uri_of_get? hd]
        exact get?_insert_self (d.renewed first t) s
      have hlast : ∀ t', s.insert (d.renewed version t') =
          (s.insert (d.renewed first t)).insert ((d.renewed first t).renewed version t') :=
        fun t' => (insert_insert (by rfl) s).symm
      show (applyEdits fs t).map (fun t' => s.insert (d.renewed version t')) =
        update uri version fs (s.insert (d.renewed first t))
      rw [update_of_get? hget]
      simp only [hlast]
      rfl

theorem update_eq_ok_iff {uri : String} {version : Int} {es : List Edit} {s s' : Store} :
    s.update uri version es = .ok s' ↔
      ∃ d t, s.get? uri = some d ∧ Leads d.content es t ∧ s' = s.insert (d.renewed version t) := by
  constructor
  · intro h
    cases hd : s.get? uri with
    | none =>
      rw [update, hd] at h
      cases h
    | some d =>
      rw [update_of_get? hd] at h
      cases ht : applyEdits es d.content with
      | error err =>
        rw [ht] at h
        cases h
      | ok t =>
        rw [ht] at h
        exact ⟨d, t, rfl, applyEdits_eq_ok_iff.mp ht, (Except.ok.inj h).symm⟩
  · rintro ⟨d, t, hd, hleads, rfl⟩
    rw [update_of_get? hd, applyEdits_eq_ok_iff.mpr hleads]
    rfl

/-- **When a change is refused**: because the URI is not open, or because of the first edit whose
    range the text at hand does not have. -/
theorem update_eq_error_iff {uri : String} {version : Int} {es : List Edit} {s : Store}
    {err : Error} :
    s.update uri version es = .error err ↔
      s.get? uri = none ∧ err = .notFound uri ∨
      ∃ d range, s.get? uri = some d ∧ FirstRefused d.content es range ∧
        err = .invalidRange range := by
  cases hd : s.get? uri with
  | none =>
    rw [update, hd]
    simp [eq_comm]
  | some d =>
    rw [update_of_get? hd]
    have hmap : (applyEdits es d.content).map (fun t => s.insert (d.renewed version t)) =
        .error err ↔ applyEdits es d.content = .error err := by
      cases applyEdits es d.content <;> simp [Except.map]
    rw [hmap, applyEdits_eq_error_iff]
    simp

end Store

/-! ## 4. The workspace -/

namespace Workspace

open Document

/-- **A batch of edits counts as a whole or not at all.** Two batches one after the other are one.
    A batch is accepted exactly if all its edits can be made, each in the text that the ones before
    it left, and then the document has the text that they lead to, the number of its lines and the
    version of the batch. It is refused with a range exactly if this is the range of the first edit
    that cannot be made, and because of the URI exactly if it is not open. A batch that is refused
    leaves the whole workspace as it was, nothing is checked and nothing published, also where
    other requests are dealt with at the same time; one that is accepted leaves all documents of
    other URIs as they were. -/
theorem batches_count_as_a_whole (host : Host) (w : Workspace) (uri : String) (version : Int) :
    (∀ (first : Int) (es fs : List Edit), w.documents.update uri version (es ++ fs) =
      w.documents.update uri first es >>= fun s => s.update uri version fs) ∧
    (∀ (es : List Edit) (s : Store), w.documents.update uri version es = .ok s ↔
      ∃ d t, w.document? uri = some d ∧ Leads d.content es t ∧
        s = w.documents.insert (d.renewed version t)) ∧
    (∀ (es : List Edit) (range : Range),
      w.documents.update uri version es = .error (.invalidRange range) ↔
        ∃ d, w.document? uri = some d ∧ FirstRefused d.content es range) ∧
    (∀ (es : List Edit) (other : String),
      w.documents.update uri version es = .error (.notFound other) ↔
        w.document? uri = none ∧ other = uri) ∧
    (∀ (es : List Edit) (err : Error), w.documents.update uri version es = .error err →
      w.handle host (.changeDocument uri version es) = ⟨w, .rejected err, [], []⟩ ∧
      ∀ shared : Shared, shared.workspace = w →
        (Request.changeDocument uri version es).start shared =
          (shared, .finished (.rejected err))) ∧
    (∀ (es : List Edit) (s : Store), w.documents.update uri version es = .ok s →
      (w.handle host (.changeDocument uri version es)).workspace = { w with documents := s } ∧
      ∀ other, other ≠ uri → s.get? other = w.document? other) := by
  refine ⟨fun first es fs => Store.update_append uri version first es fs w.documents,
    fun es s => Store.update_eq_ok_iff, fun es range => ?_, fun es other => ?_,
    fun es err h => ⟨?_, fun shared hshared => ?_⟩, fun es s h => ⟨?_, fun other hne => ?_⟩⟩
  · rw [Store.update_eq_error_iff]
    simp [document?]
  · rw [Store.update_eq_error_iff]
    simp [document?]
  · simp only [handle, h]
  · subst hshared
    simp only [Request.start, h]
  · simp only [handle, h, workspace_recheck]
  · obtain ⟨d, t, hd, -, rfl⟩ := Store.update_eq_ok_iff.mp h
    have huri : d.uri = uri := Store.uri_of_get? hd
    exact Store.get?_insert_of_ne (d.renewed version t) w.documents (huri ▸ hne.symm)

/-- A text in place of everything, then one on the line that this has added, then one on a line
    that is still missing: the batch is refused with the range of the third, and nothing of it
    counts. Without the third edit it is accepted, and the other document stays. -/
theorem batches_count_as_a_whole_after_replacement :
    let w : Workspace := { ofConfig .default with
      documents := [.ofText "a" "nsql" 1 ['x'], .ofText "b" "nsql" 7 ['\r']] }
    let host : Host := ⟨[], none, none, .ok⟩
    let es : List Edit := [⟨none, ['y', '\r', '\n']⟩, ⟨some ⟨⟨1, 0⟩, ⟨1, 4⟩⟩, ['z']⟩]
    let last : Edit := ⟨some ⟨⟨2, 0⟩, ⟨2, 0⟩⟩, ['q']⟩
    (w.documents.update "a" 2 (es ++ [last]) = .error (.invalidRange ⟨⟨2, 0⟩, ⟨2, 0⟩⟩) ∧
      w.handle host (.changeDocument "a" 2 (es ++ [last])) =
        ⟨w, .rejected (.invalidRange ⟨⟨2, 0⟩, ⟨2, 0⟩⟩), [], []⟩ ∧
      FirstRefused ['x'] (es ++ [last]) ⟨⟨2, 0⟩, ⟨2, 0⟩⟩) ∧
    ∃ s, w.documents.update "a" 2 es = .ok s ∧
      s.get? "a" = some ⟨"a", "nsql", 2, 2, ['y', '\r', '\n', 'z']⟩ ∧
      (w.handle host (.changeDocument "a" 2 es)).workspace = { w with documents := s } ∧
      "b" ≠ "a" ∧ s.get? "b" = w.document? "b" := by
  intro w host es last
  obtain ⟨-, -, hrange, -, hrefused, haccepted⟩ := batches_count_as_a_whole host w "a" 2
  have herror : w.documents.update "a" 2 (es ++ [last]) =
      .error (.invalidRange ⟨⟨2, 0⟩, ⟨2, 0⟩⟩) := rfl
  have hok : w.documents.update "a" 2 es = .ok
      [⟨"a", "nsql", 2, 2, ['y', '\r', '\n', 'z']⟩, .ofText "b" "nsql" 7 ['\r']] := rfl
  have hne : "b" ≠ "a" := by decide
  obtain ⟨d, hd, hfirst⟩ := (hrange _ _).mp herror
  obtain rfl : d = .ofText "a" "nsql" 1 ['x'] := (Option.some.inj hd).symm
  obtain ⟨hworkspace, hothers⟩ := haccepted _ _ hok
  exact ⟨⟨herror, (hrefused _ _ herror).1, hfirst⟩,
    ⟨_, hok, rfl, hworkspace, hne, hothers "b" hne⟩⟩

end Workspace

end Nsql
