/-
  File:      Nsql/Proofs/Report/Description.lean
  Subject:   Which JSON values describe a record of a parser's report.

  A record is described by an object that has its fields among its members, or by the list of its
  fields in order. This is said by what the value holds (`Describes`), and once more as a function
  that goes through the members one by one (`record?`), as a reader does. The five fields do not
  depend on each other, so that each of them can be followed alone (`Follows`); if no key comes
  twice, the order of the members does not count.

  * `take?_eq_some_iff`, `foldlM_take?_iff` -- one member, and all of them, field by field;
  * `follows_iff` -- a field has the value of its member, and nothing if there is none;
  * **`record?_eq_some_iff`** -- the function gives the record that a value describes.
-/
import Mathlib.Data.List.Forall2
import Nsql.Report.Reader

namespace Nsql.Report

/-! ## 1. Descriptions -/

/-- An integer of 64 bits. -/
def InWord (n : Int) : Prop := Json.leastInt ≤ n ∧ n ≤ Json.greatestInt

instance (n : Int) : Decidable (InWord n) := inferInstanceAs (Decidable (_ ∧ _))

/-- A record whose numbers have 64 bits. -/
structure Record.Fits (r : Record) : Prop where
  line : InWord r.line
  column : InWord r.column
  length : ∀ n, r.length = some n → InWord n

/-- A length as a value: without one it is null. -/
def lengthValue (length : Option Int) : Json := .ofOption (length.map .int)

/-- The members of an object have the fields of a record. A length and a severity may be missing;
    what other members there are does not count. -/
structure Record.InMembers (r : Record) (ms : List (String × Json)) : Prop where
  line : ("line", .int r.line) ∈ ms
  column : ("column", .int r.column) ∈ ms
  length : ("length", lengthValue r.length) ∈ ms ∨ "length" ∉ ms.map Prod.fst ∧ r.length = none
  severity : ("severity", .str r.severity) ∈ ms ∨ "severity" ∉ ms.map Prod.fst ∧ r.severity = ""
  message : ("message", .str r.message) ∈ ms

/-- **The values that describe a record**: objects with its fields, and the list of its fields. -/
inductive Describes : Json → Record → Prop where
  | object {ms : List (String × Json)} {r : Record} (h : r.InMembers ms) (hfits : r.Fits) :
      Describes (.obj ms) r
  | list {r : Record} (hfits : r.Fits) :
      Describes (.arr [.int r.line, .int r.column, lengthValue r.length, .str r.severity,
        .str r.message]) r

/-- A record as an object with all its fields. -/
def Record.json (r : Record) : Json :=
  .obj [("column", .int r.column), ("length", lengthValue r.length), ("line", .int r.line),
    ("message", .str r.message), ("severity", .str r.severity)]

theorem Record.describes_json {r : Record} (h : r.Fits) : Describes r.json r :=
  .object ⟨by simp, by simp, .inl (by simp), .inl (by simp), by simp⟩ h

/-- No key of such an object comes twice. -/
theorem Record.nodup_json (r : Record) : (r.json.members.map Prod.fst).Nodup := by
  show ["column", "length", "line", "message", "severity"].Nodup
  decide

/-! ## 2. Fields -/

/-- The integer of 64 bits that a value is. -/
def int? : Json → Option Int
  | .int n => if InWord n then some n else none
  | _ => none

/-- The integer of 64 bits that a value is, or that it is null. -/
def intOrNull? : Json → Option (Option Int)
  | .null => some none
  | v => (int? v).map some

/-- The string that a value is. -/
def text? : Json → Option String
  | .str s => some s
  | _ => none

theorem int?_eq_some_iff {v : Json} {n : Int} : int? v = some n ↔ v = .int n ∧ InWord n := by
  cases v with
  | int m =>
    rw [int?]
    constructor
    · intro h
      split at h
      · rename_i hm
        cases h
        exact ⟨rfl, hm⟩
      · cases h
    · intro ⟨hm, hn⟩
      cases hm
      exact if_pos hn
  | _ => simp [int?]

theorem intOrNull?_eq_some_iff {v : Json} {x : Option Int} :
    intOrNull? v = some x ↔ v = lengthValue x ∧ ∀ n, x = some n → InWord n := by
  cases x with
  | none =>
    cases v with
    | null => simp [intOrNull?, lengthValue, Json.ofOption]
    | _ => simp [intOrNull?, lengthValue, Json.ofOption]
  | some n =>
    cases v with
    | null => simp [intOrNull?, lengthValue, Json.ofOption]
    | _ => simp [intOrNull?, lengthValue, Json.ofOption, int?_eq_some_iff]

theorem text?_eq_some_iff {v : Json} {s : String} : text? v = some s ↔ v = .str s := by
  cases v <;> simp [text?]

/-! ## 3. Objects -/

attribute [ext] Draft

/-- Notes the value of a member; one that no record has changes nothing. -/
def Draft.note? (d : Draft) (key : String) (v : Json) : Option Draft :=
  if key = "line" then (int? v).map fun n => { d with line := some n }
  else if key = "column" then (int? v).map fun n => { d with column := some n }
  else if key = "length" then (intOrNull? v).map fun n => { d with length := some n }
  else if key = "severity" then (text? v).map fun s => { d with severity := some s }
  else if key = "message" then (text? v).map fun s => { d with message := some s }
  else some d

/-- Takes a member, unless its field has been noted before. -/
def Draft.take? (d : Draft) (m : String × Json) : Option Draft :=
  if d.has m.1 then none else d.note? m.1 m.2

/-- The record that the members of an object describe. -/
def ofMembers? (ms : List (String × Json)) : Option Record :=
  (ms.foldlM Draft.take? {}).bind fun d => d.record.toOption

/-- One field at one member: the member is its own and fills it, or it stays as it is. -/
def Follow {α : Type} (f : Json → Option α) (key : String) (m : String × Json)
    (old new : Option α) : Prop :=
  if m.1 = key then old = none ∧ ∃ x, f m.2 = some x ∧ new = some x else new = old

/-- One member, field by field. -/
structure Takes (d : Draft) (m : String × Json) (d' : Draft) : Prop where
  line : Follow int? "line" m d.line d'.line
  column : Follow int? "column" m d.column d'.column
  length : Follow intOrNull? "length" m d.length d'.length
  severity : Follow text? "severity" m d.severity d'.severity
  message : Follow text? "message" m d.message d'.message

theorem follow_of_ne {α : Type} {f : Json → Option α} {key k : String} {v : Json}
    {old new : Option α} (h : k ≠ key) : Follow f key (k, v) old new ↔ new = old := by
  rw [Follow, if_neg h]

theorem follow_self {α : Type} {f : Json → Option α} {key : String} {v : Json}
    {old new : Option α} :
    Follow f key (key, v) old new ↔ old = none ∧ ∃ x, f v = some x ∧ new = some x := by
  rw [Follow, if_pos rfl]

theorem takes_iff {d d' : Draft} {m : String × Json} :
    Takes d m d' ↔ Follow int? "line" m d.line d'.line ∧
      Follow int? "column" m d.column d'.column ∧
      Follow intOrNull? "length" m d.length d'.length ∧
      Follow text? "severity" m d.severity d'.severity ∧
      Follow text? "message" m d.message d'.message :=
  ⟨fun h => ⟨h.line, h.column, h.length, h.severity, h.message⟩,
    fun ⟨h₁, h₂, h₃, h₄, h₅⟩ => ⟨h₁, h₂, h₃, h₄, h₅⟩⟩

/-- A field that is noted for the first time. -/
theorem noted_iff {α : Type} {f : Json → Option α} {v : Json} {old : Option α} {put : α → Draft}
    {d' : Draft} :
    (if old.isSome = true then none else (f v).map put) = some d' ↔
      old = none ∧ ∃ x, f v = some x ∧ put x = d' := by
  cases old with
  | none => simp
  | some x => simp

/-- **One member is taken** exactly if it can be, field by field. -/
theorem take?_eq_some_iff {d d' : Draft} {m : String × Json} :
    d.take? m = some d' ↔ Takes d m d' := by
  obtain ⟨key, v⟩ := m
  by_cases hknown : key ∈ ["line", "column", "length", "severity", "message"]
  · simp only [List.mem_cons, List.not_mem_nil, or_false] at hknown
    rw [takes_iff]
    rcases hknown with rfl | rfl | rfl | rfl | rfl
    all_goals
      refine noted_iff.trans ?_
      simp only [follow_self, follow_of_ne, ne_eq, String.reduceEq, not_false_eq_true,
        Draft.ext_iff]
      grind
  · simp only [List.mem_cons, List.not_mem_nil, or_false, not_or] at hknown
    obtain ⟨hline, hcolumn, hlength, hseverity, hmessage⟩ := hknown
    have htake : d.take? (key, v) = some d := by
      simp only [Draft.take?, Draft.has, Draft.note?, if_neg hline, if_neg hcolumn,
        if_neg hlength, if_neg hseverity, if_neg hmessage]
      rfl
    rw [htake, takes_iff, follow_of_ne hline, follow_of_ne hcolumn, follow_of_ne hlength,
      follow_of_ne hseverity, follow_of_ne hmessage, Option.some.injEq, eq_comm, Draft.ext_iff]

/-- One field along all members. -/
def Follows {α : Type} (f : Json → Option α) (key : String) :
    List (String × Json) → (old new : Option α) → Prop
  | [], old, new => new = old
  | m :: ms, old, new => ∃ mid, Follow f key m old mid ∧ Follows f key ms mid new

/-- **The fields do not depend on each other**: the members are taken exactly if each field can be
    followed along them. -/
theorem foldlM_take?_iff {ms : List (String × Json)} {d d' : Draft} :
    ms.foldlM Draft.take? d = some d' ↔
      Follows int? "line" ms d.line d'.line ∧ Follows int? "column" ms d.column d'.column ∧
      Follows intOrNull? "length" ms d.length d'.length ∧
      Follows text? "severity" ms d.severity d'.severity ∧
      Follows text? "message" ms d.message d'.message := by
  induction ms generalizing d with
  | nil =>
    rw [List.foldlM_nil, Option.pure_def, Option.some.injEq, eq_comm, Draft.ext_iff]
    rfl
  | cons m ms ih =>
    rw [List.foldlM_cons, Option.bind_eq_bind, Option.bind_eq_some_iff]
    constructor
    · intro ⟨mid, hm, hms⟩
      obtain ⟨hl, hc, hn, hs, ht⟩ := take?_eq_some_iff.mp hm
      obtain ⟨hl', hc', hn', hs', ht'⟩ := ih.mp hms
      exact ⟨⟨_, hl, hl'⟩, ⟨_, hc, hc'⟩, ⟨_, hn, hn'⟩, ⟨_, hs, hs'⟩, ⟨_, ht, ht'⟩⟩
    · intro ⟨⟨l, hl, hl'⟩, ⟨c, hc, hc'⟩, ⟨n, hn, hn'⟩, ⟨s, hs, hs'⟩, ⟨t, ht, ht'⟩⟩
      exact ⟨⟨l, c, n, s, t⟩, take?_eq_some_iff.mpr ⟨hl, hc, hn, hs, ht⟩,
        ih.mpr ⟨hl', hc', hn', hs', ht'⟩⟩

section Follows

variable {α : Type} {f : Json → Option α} {key : String}

/-- Members of other keys leave a field alone. -/
theorem follows_of_not_mem {ms : List (String × Json)} (h : key ∉ ms.map Prod.fst)
    {old new : Option α} : Follows f key ms old new ↔ new = old := by
  induction ms generalizing old with
  | nil => exact Iff.rfl
  | cons m ms ih =>
    rw [List.map_cons, List.mem_cons, not_or] at h
    have hm : ∀ mid, Follow f key m old mid ↔ mid = old := fun mid =>
      follow_of_ne fun heq => h.1 heq.symm
    simp only [Follows, hm, ih h.2, exists_eq_left]

/-- **A field has the value of its member**, and nothing if there is none. -/
theorem follows_iff {ms : List (String × Json)} (hnodup : (ms.map Prod.fst).Nodup)
    {x : Option α} :
    Follows f key ms none x ↔
      key ∉ ms.map Prod.fst ∧ x = none ∨ ∃ v y, (key, v) ∈ ms ∧ f v = some y ∧ x = some y := by
  induction ms with
  | nil => simp [Follows]
  | cons m ms ih =>
    obtain ⟨k, v⟩ := m
    rw [List.map_cons, List.nodup_cons] at hnodup
    by_cases hk : k = key
    · subst hk
      -- the member is the only one of its key
      have honly : ∀ u, (k, u) ∉ ms := fun u hu => hnodup.1 (List.mem_map.mpr ⟨(k, u), hu, rfl⟩)
      simp only [Follows, follow_self, follows_of_not_mem hnodup.1]
      simp [honly]
    · simp only [Follows, follow_of_ne hk, exists_eq_left, ih hnodup.2]
      simp [Ne.symm hk]

/-- A field that must be there. -/
theorem follows_some_iff {ms : List (String × Json)} (hnodup : (ms.map Prod.fst).Nodup) {y : α} :
    Follows f key ms none (some y) ↔ ∃ v, (key, v) ∈ ms ∧ f v = some y := by
  rw [follows_iff hnodup]
  constructor
  · intro h
    rcases h with ⟨-, hnone⟩ | ⟨v, z, hv, hf, hz⟩
    · cases hnone
    · cases hz
      exact ⟨v, hv, hf⟩
  · intro ⟨v, hv, hf⟩
    exact .inr ⟨v, y, hv, hf, rfl⟩

/-- A field that may be missing, and what it is then. -/
theorem exists_follows_iff {ms : List (String × Json)} (hnodup : (ms.map Prod.fst).Nodup)
    {y default : α} :
    (∃ x, Follows f key ms none x ∧ x.getD default = y) ↔
      (∃ v, (key, v) ∈ ms ∧ f v = some y) ∨ key ∉ ms.map Prod.fst ∧ y = default := by
  constructor
  · intro ⟨x, hx, hy⟩
    rcases (follows_iff hnodup).mp hx with ⟨hno, rfl⟩ | ⟨v, z, hv, hf, rfl⟩
    · exact .inr ⟨hno, hy.symm⟩
    · exact .inl ⟨v, hv, hf.trans (congrArg some hy)⟩
  · intro h
    rcases h with hsome | ⟨hno, hy⟩
    · exact ⟨some y, (follows_some_iff hnodup).mpr hsome, rfl⟩
    · exact ⟨none, (follows_iff hnodup).mpr (.inl ⟨hno, rfl⟩), hy.symm⟩

end Follows

/-- A draft makes a record exactly if it has a line, a column and a message. -/
theorem Draft.record_eq_some_iff {d : Draft} {r : Record} :
    d.record.toOption = some r ↔ d.line = some r.line ∧ d.column = some r.column ∧
      d.length.getD none = r.length ∧ d.severity.getD "" = r.severity ∧
      d.message = some r.message := by
  obtain ⟨line, column, length, severity, message⟩ := d
  obtain ⟨l, c, n, s, t⟩ := r
  cases line <;> cases column <;> cases message <;> simp [Draft.record, Except.toOption]

/-- **The record of an object** whose keys come once each. -/
theorem ofMembers?_eq_some_iff {ms : List (String × Json)} (hnodup : (ms.map Prod.fst).Nodup)
    {r : Record} : ofMembers? ms = some r ↔ r.InMembers ms ∧ r.Fits := by
  have hfields : ofMembers? ms = some r ↔
      Follows int? "line" ms none (some r.line) ∧ Follows int? "column" ms none (some r.column) ∧
      (∃ x, Follows intOrNull? "length" ms none x ∧ x.getD none = r.length) ∧
      (∃ x, Follows text? "severity" ms none x ∧ x.getD "" = r.severity) ∧
      Follows text? "message" ms none (some r.message) := by
    simp only [ofMembers?, Option.bind_eq_some_iff, foldlM_take?_iff, Draft.record_eq_some_iff]
    constructor
    · intro ⟨d, ⟨hl, hc, hn, hs, ht⟩, hline, hcolumn, hlength, hseverity, hmessage⟩
      rw [hline] at hl
      rw [hcolumn] at hc
      rw [hmessage] at ht
      exact ⟨hl, hc, ⟨_, hn, hlength⟩, ⟨_, hs, hseverity⟩, ht⟩
    · intro ⟨hl, hc, ⟨x, hn, hlength⟩, ⟨y, hs, hseverity⟩, ht⟩
      exact ⟨⟨some r.line, some r.column, x, y, some r.message⟩, ⟨hl, hc, hn, hs, ht⟩, rfl, rfl,
        hlength, hseverity, rfl⟩
  rw [hfields]
  simp only [follows_some_iff hnodup, exists_follows_iff hnodup, int?_eq_some_iff,
    intOrNull?_eq_some_iff, text?_eq_some_iff]
  constructor
  · intro ⟨⟨_, hl, rfl, hline⟩, ⟨_, hc, rfl, hcolumn⟩, hlength, hseverity, ⟨_, ht, rfl⟩⟩
    have hword : ∀ n, r.length = some n → InWord n := by
      rcases hlength with ⟨_, -, -, hword⟩ | ⟨-, hnone⟩
      · exact hword
      · intro n hn
        rw [hnone] at hn
        cases hn
    refine ⟨⟨hl, hc, hlength.imp_left ?_, hseverity.imp_left ?_, ht⟩, ⟨hline, hcolumn, hword⟩⟩
    · intro ⟨v, hv, hvalue, _⟩
      rwa [hvalue] at hv
    · intro ⟨v, hv, hvalue⟩
      rwa [hvalue] at hv
  · intro ⟨h, hfits⟩
    exact ⟨⟨_, h.line, rfl, hfits.line⟩, ⟨_, h.column, rfl, hfits.column⟩,
      h.length.imp_left fun hv => ⟨_, hv, rfl, hfits.length⟩,
      h.severity.imp_left fun hv => ⟨_, hv, rfl⟩, ⟨_, h.message, rfl⟩⟩

theorem Record.InMembers.perm {r : Record} {ms ms' : List (String × Json)} (h : r.InMembers ms)
    (hperm : ms.Perm ms') : r.InMembers ms' where
  line := hperm.mem_iff.mp h.line
  column := hperm.mem_iff.mp h.column
  length := h.length.imp hperm.mem_iff.mp (And.imp_left (mt (hperm.map _).mem_iff.mpr))
  severity := h.severity.imp hperm.mem_iff.mp (And.imp_left (mt (hperm.map _).mem_iff.mpr))
  message := hperm.mem_iff.mp h.message

/-- **The order of the members does not count.** -/
theorem ofMembers?_perm {ms ms' : List (String × Json)} (hperm : ms.Perm ms')
    (hnodup : (ms.map Prod.fst).Nodup) : ofMembers? ms = ofMembers? ms' := by
  have hnodup' := (hperm.map Prod.fst).nodup_iff.mp hnodup
  refine Option.ext fun r => ?_
  rw [ofMembers?_eq_some_iff hnodup, ofMembers?_eq_some_iff hnodup']
  exact and_congr_left fun _ => ⟨fun h => h.perm hperm, fun h => h.perm hperm.symm⟩

/-! ## 4. Lists, and both -/

/-- The record that the elements of a list are the fields of. -/
def ofFields? : List Json → Option Record
  | [line, column, length, severity, message] => do
    let line ← int? line
    let column ← int? column
    let length ← intOrNull? length
    let severity ← text? severity
    let message ← text? message
    return ⟨line, column, length, severity, message⟩
  | _ => none

/-- The field at the front of a list; nothing where the list has ended. -/
def front? {α : Type} (f : Json → Option α) : List Json → Option (Option α)
  | [] => some none
  | v :: _ => (f v).map some

/-- **The fields are taken from the front**, one after the other. -/
theorem ofFields?_eq (vs : List Json) :
    ofFields? vs =
      (front? int? vs).bind fun
        | none => none
        | some line => (front? int? vs.tail).bind fun
          | none => none
          | some column => (front? intOrNull? vs.tail.tail).bind fun length =>
            (front? text? vs.tail.tail.tail).bind fun severity =>
              (front? text? vs.tail.tail.tail.tail).bind fun
                | none => none
                | some message =>
                  if vs.tail.tail.tail.tail.tail = [] then
                    some ⟨line, column, length.getD none, severity.getD "", message⟩
                  else none := by
  rcases vs with _ | ⟨l, _ | ⟨c, _ | ⟨n, _ | ⟨s, _ | ⟨t, _ | ⟨v, vs⟩⟩⟩⟩⟩⟩
  · rfl
  · cases hl : int? l <;> simp [ofFields?, front?, hl]
  · cases hl : int? l <;> cases hc : int? c <;> simp [ofFields?, front?, hl, hc]
  · cases hl : int? l <;> cases hc : int? c <;> simp [ofFields?, front?, hl, hc]
  · cases hl : int? l <;> cases hc : int? c <;> simp [ofFields?, front?, hl, hc]
  · cases hl : int? l <;> cases hc : int? c <;> cases hn : intOrNull? n <;> cases hs : text? s <;>
      cases ht : text? t <;> simp [ofFields?, front?, hl, hc, hn, hs, ht]
  · cases hl : int? l <;> cases hc : int? c <;> cases hn : intOrNull? n <;> cases hs : text? s <;>
      cases ht : text? t <;> simp [ofFields?, front?, hl, hc, hn, hs, ht]

theorem ofFields?_eq_some_iff {vs : List Json} {r : Record} :
    ofFields? vs = some r ↔ r.Fits ∧ vs = [.int r.line, .int r.column, lengthValue r.length,
      .str r.severity, .str r.message] := by
  constructor
  · intro h
    unfold ofFields? at h
    split at h
    · simp only [Option.bind_eq_bind, Option.bind_eq_some_iff, Option.pure_def, Option.some.injEq,
        int?_eq_some_iff, intOrNull?_eq_some_iff, text?_eq_some_iff] at h
      obtain ⟨l, ⟨rfl, hl⟩, c, ⟨rfl, hc⟩, n, ⟨rfl, hn⟩, s, rfl, t, rfl, rfl⟩ := h
      exact ⟨⟨hl, hc, hn⟩, rfl⟩
    · cases h
  · intro ⟨hfits, hvs⟩
    simp only [hvs, ofFields?, int?_eq_some_iff.mpr ⟨rfl, hfits.line⟩,
      int?_eq_some_iff.mpr ⟨rfl, hfits.column⟩, intOrNull?_eq_some_iff.mpr ⟨rfl, hfits.length⟩,
      text?, Option.bind_eq_bind, Option.bind_some, Option.pure_def]

/-- The record that a value describes. -/
def record? : Json → Option Record
  | .obj ms => ofMembers? ms
  | .arr vs => ofFields? vs
  | _ => none

/-- **The function gives the record that a value describes**, if no key comes twice. -/
theorem record?_eq_some_iff {v : Json} (hnodup : (v.members.map Prod.fst).Nodup) {r : Record} :
    record? v = some r ↔ Describes v r := by
  constructor
  · intro h
    cases v with
    | obj ms =>
      obtain ⟨hms, hfits⟩ := (ofMembers?_eq_some_iff hnodup).mp h
      exact .object hms hfits
    | arr vs =>
      obtain ⟨hfits, rfl⟩ := ofFields?_eq_some_iff.mp h
      exact .list hfits
    | _ => cases h
  · intro h
    cases h with
    | object hms hfits => exact (ofMembers?_eq_some_iff hnodup).mpr ⟨hms, hfits⟩
    | list hfits => exact ofFields?_eq_some_iff.mpr ⟨hfits, rfl⟩

/-- The records that the values of a list describe, in order. -/
theorem mapM_record?_eq_some_iff {vs : List Json}
    (hnodup : ∀ v ∈ vs, (v.members.map Prod.fst).Nodup) {rs : List Record} :
    vs.mapM record? = some rs ↔ List.Forall₂ Describes vs rs := by
  induction vs generalizing rs with
  | nil => simp [eq_comm]
  | cons v vs ih =>
    have hv := fun r => record?_eq_some_iff (r := r) (hnodup v List.mem_cons_self)
    have hvs : ∀ rs, vs.mapM record? = some rs ↔ List.Forall₂ Describes vs rs := fun rs =>
      ih fun u hu => hnodup u (List.mem_cons_of_mem v hu)
    rw [List.mapM_cons, List.forall₂_cons_left_iff]
    simp only [Option.bind_eq_bind, Option.bind_eq_some_iff, Option.pure_def, Option.some.injEq, hv,
      hvs]
    constructor
    · intro ⟨r, hr, rs', hrs, heq⟩
      exact ⟨r, rs', hr, hrs, heq.symm⟩
    · intro ⟨r, rs', hr, hrs, heq⟩
      exact ⟨r, hr, rs', hrs, heq.symm⟩

end Nsql.Report
