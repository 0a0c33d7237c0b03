/-
  File:      Nsql/Proofs/Scan/Collecting.lean
  Subject:   What is collected into statements, and what is handed over.

  Lines are collected one by one, and now and then what has been collected is handed over. Whatever
  the order of the two, no line gets lost and none comes twice. What is being collected at some time
  can be told from the lines that came since the last time something was handed over, without
  running anything (`sinceTake`), and so can what is handed over next.

  * `Action`, `collect` -- lines that come and statements that are handed over, in any order;
  * `Statement.MadeOf`, `Pending.MadeOf` -- the lines that a statement is made of, and what is being
    collected;
  * `Accounted` -- what has been handed over and what is being collected are the lines that came;
  * `Accounted.step`, `accounted_collect` -- one action keeps this, and so does every run;
  * **`lines_are_collected_once`** -- what follows for the statements and the lines.
-/
import Mathlib.Data.List.DropRight
import Mathlib.Data.List.Forall2
import Nsql.Scan.Statement

namespace Nsql.Scan

/-! ## 1. Actions -/

/-- What happens to the lines that are being collected: one more comes, with its index, or they are
    handed over. -/
inductive Action where
  | push (index : Nat) (line : Text)
  | take
  deriving DecidableEq, Repr

/-- The line that an action brings. -/
def Action.pushed? : Action → Option (Nat × Text)
  | .push i line => some (i, line)
  | .take => none

/-- What an action hands over, and what is being collected then. -/
def Pending.act (p : Pending) : Action → Option Statement × Pending
  | .push i line => (none, p.push i line)
  | .take => p.take

/-- One more action: what it hands over comes behind what was handed over before. -/
def collectNext (r : List Statement × Pending) (a : Action) : List Statement × Pending :=
  (r.1 ++ (r.2.act a).1.toList, (r.2.act a).2)

/-- The statements that some actions hand over, and what is being collected in the end; in the
    beginning it is nothing. -/
def collect (as : List Action) : List Statement × Pending := as.foldl collectNext ([], .idle)

theorem collect_concat (as : List Action) (a : Action) :
    collect (as ++ [a]) = collectNext (collect as) a := List.foldl_concat ..

/-- The lines that are being collected. -/
def Pending.lines (p : Pending) : List Text := (p.statement?.map Statement.lines).getD []

/-! ## 2. The lines that came -/

/-- All lines that came, with their indices. -/
def pushes (as : List Action) : List (Nat × Text) := as.filterMap Action.pushed?

/-- The lines that came since something was handed over. -/
def sinceTake (as : List Action) : List (Nat × Text) := pushes (as.rtakeWhile (· ≠ .take))

theorem pushes_push (as : List Action) (i : Nat) (line : Text) :
    pushes (as ++ [.push i line]) = pushes as ++ [(i, line)] := by
  simp [pushes, Action.pushed?]

theorem pushes_take (as : List Action) : pushes (as ++ [.take]) = pushes as := by
  simp [pushes, Action.pushed?]

theorem sinceTake_push (as : List Action) (i : Nat) (line : Text) :
    sinceTake (as ++ [.push i line]) = sinceTake as ++ [(i, line)] := by
  rw [sinceTake, List.rtakeWhile_concat_pos _ _ _ (by simp), pushes_push, sinceTake]

theorem sinceTake_take (as : List Action) : sinceTake (as ++ [.take]) = [] := by
  rw [sinceTake, List.rtakeWhile_concat_neg _ _ _ (by simp)]
  rfl

/-- A statement is made of lines that came: it has these lines and starts at the index that came
    with the first of them. -/
structure Statement.MadeOf (s : Statement) (group : List (Nat × Text)) : Prop where
  lines : s.lines = group.map Prod.snd
  start : group.head?.map Prod.fst = some s.startLine

theorem Statement.MadeOf.ne_nil {s : Statement} {group : List (Nat × Text)} (h : s.MadeOf group) :
    group ≠ [] := by
  intro hnil
  have hstart := h.start
  rw [hnil] at hstart
  cases hstart

theorem Statement.MadeOf.lines_ne_nil {s : Statement} {group : List (Nat × Text)}
    (h : s.MadeOf group) : s.lines ≠ [] := by
  rw [h.lines]
  exact fun hnil => h.ne_nil (List.map_eq_nil_iff.mp hnil)

/-- Two statements that are made of the same lines are the same. -/
theorem Statement.MadeOf.unique {s s' : Statement} {group : List (Nat × Text)} (h : s.MadeOf group)
    (h' : s'.MadeOf group) : s = s' := by
  have hstart := h.start.symm.trans h'.start
  cases s with
  | mk i ls =>
    cases s' with
    | mk i' ls' =>
      rw [Statement.mk.injEq]
      exact ⟨Option.some.inj hstart, h.lines.trans h'.lines.symm⟩

/-! ## 3. What is being collected -/

/-- What is being collected is made of some lines; of none if there is nothing. -/
inductive Pending.MadeOf : Pending → List (Nat × Text) → Prop where
  | idle : MadeOf .idle []
  | collecting {s : Statement} {group : List (Nat × Text)} (h : s.MadeOf group) :
      MadeOf (.collecting s) group

namespace Pending.MadeOf

variable {p : Pending} {group : List (Nat × Text)}

/-- One more line. -/
theorem push (h : p.MadeOf group) (i : Nat) (line : Text) :
    (p.push i line).MadeOf (group ++ [(i, line)]) := by
  cases h with
  | idle => exact .collecting ⟨rfl, rfl⟩
  | collecting hs =>
    refine .collecting ⟨?_, ?_⟩
    · rw [hs.lines, List.map_append]
      rfl
    · rw [List.head?_append_of_ne_nil _ hs.ne_nil, hs.start]

theorem lines_eq (h : p.MadeOf group) : p.lines = group.map Prod.snd := by
  cases h with
  | idle => rfl
  | collecting hs => exact hs.lines

theorem startLine?_eq (h : p.MadeOf group) : p.startLine? = group.head?.map Prod.fst := by
  cases h with
  | idle => rfl
  | collecting hs => exact hs.start.symm

theorem hasQueryWord_eq (h : p.MadeOf group) :
    p.hasQueryWord = group.any fun line => holdsQueryWord line.2 := by
  cases h with
  | idle => rfl
  | collecting hs =>
    show Statement.hasQueryWord _ = _
    rw [Statement.hasQueryWord, hs.lines, List.any_map]
    rfl

/-- What would be handed over now. -/
theorem take_eq_some_iff (h : p.MadeOf group) {s : Statement} :
    p.take.1 = some s ↔ s.MadeOf group := by
  cases h with
  | idle => exact iff_of_false (fun hs => by cases hs) fun hs => hs.ne_nil rfl
  | collecting hs =>
    constructor
    · intro heq
      rwa [← Option.some.inj heq]
    · intro hs'
      exact congrArg some (hs.unique hs')

theorem take_eq_none_iff (h : p.MadeOf group) : p.take.1 = none ↔ group = [] := by
  cases h with
  | idle => exact iff_of_true rfl rfl
  | collecting hs => exact iff_of_false (fun hnone => by cases hnone) hs.ne_nil

end Pending.MadeOf

/-! ## 4. Accounts -/

/-- Some actions are accounted for: the lines that came are those of the statements that were handed
    over, one group for each, and then those that are being collected, which came since. -/
structure Accounted (as : List Action) (r : List Statement × Pending) : Prop where
  handed : ∃ groups, List.Forall₂ Statement.MadeOf r.1 groups ∧
    groups.flatten ++ sinceTake as = pushes as
  pending : r.2.MadeOf (sinceTake as)

/-- **One action** leaves everything accounted for. -/
theorem Accounted.step {as : List Action} {r : List Statement × Pending} (h : Accounted as r)
    (a : Action) : Accounted (as ++ [a]) (collectNext r a) := by
  obtain ⟨groups, hgroups, hflat⟩ := h.handed
  cases a with
  | push i line =>
    refine ⟨⟨groups, ?_, ?_⟩, ?_⟩
    · rw [collectNext, Pending.act, Option.toList_none, List.append_nil]
      exact hgroups
    · rw [sinceTake_push, pushes_push, ← List.append_assoc, hflat]
    · rw [sinceTake_push]
      exact h.pending.push i line
  | take =>
    have hidle : (collectNext r .take).2.MadeOf (sinceTake (as ++ [.take])) := by
      rw [sinceTake_take]
      exact .idle
    -- what was being collected becomes the last group, unless there was nothing
    cases hhanded : r.2.take.1 with
    | none =>
      have hnil := h.pending.take_eq_none_iff.mp hhanded
      refine ⟨⟨groups, ?_, ?_⟩, hidle⟩
      · rw [collectNext, Pending.act, hhanded, Option.toList_none, List.append_nil]
        exact hgroups
      · rw [sinceTake_take, pushes_take, ← hflat, hnil]
    | some s =>
      have hs := h.pending.take_eq_some_iff.mp hhanded
      refine ⟨⟨groups ++ [sinceTake as], ?_, ?_⟩, hidle⟩
      · rw [collectNext, Pending.act, hhanded, Option.toList_some]
        exact List.rel_append hgroups (.cons hs .nil)
      · rw [sinceTake_take, pushes_take, List.append_nil, List.flatten_append,
          List.flatten_singleton, hflat]

/-- **Every run** is accounted for. -/
theorem accounted_collect (as : List Action) : Accounted as (collect as) := by
  induction as using List.reverseRecOn with
  | nil => exact ⟨⟨[], .nil, rfl⟩, .idle⟩
  | append_singleton as a ih =>
    rw [collect_concat]
    exact ih.step a

/-- The lines of statements are those of the groups that they are made of. -/
theorem flatMap_lines {handed : List Statement} {groups : List (List (Nat × Text))}
    (h : List.Forall₂ Statement.MadeOf handed groups) :
    handed.flatMap Statement.lines = groups.flatten.map Prod.snd := by
  induction h with
  | nil => rfl
  | cons hs _ ih =>
    rw [List.flatMap_cons, List.flatten_cons, List.map_append, hs.lines, ih]

theorem lines_ne_nil_of_mem {handed : List Statement} {groups : List (List (Nat × Text))}
    (h : List.Forall₂ Statement.MadeOf handed groups) : ∀ s ∈ handed, s.lines ≠ [] := by
  induction h with
  | nil => exact List.forall_mem_nil _
  | cons hs _ ih => exact List.forall_mem_cons.mpr ⟨hs.lines_ne_nil, ih⟩

/-- **Lines are collected once.** Whatever lines come and whenever something is handed over, the
    lines of the statements that were handed over and those that are being collected are the lines
    that came, in order. Each statement has a group of consecutive lines, at least one, and starts
    at the index that came with the first of them. Nothing is handed over exactly if no line came
    since the last time, and otherwise the statement that is made of these lines; they alone tell
    where it starts and whether it holds a word that begins a query. -/
theorem lines_are_collected_once (as : List Action) :
    (collect as).1.flatMap Statement.lines ++ (collect as).2.lines = (pushes as).map Prod.snd ∧
    (∃ groups, List.Forall₂ Statement.MadeOf (collect as).1 groups ∧
      groups.flatten ++ sinceTake as = pushes as) ∧
    (∀ s ∈ (collect as).1, s.lines ≠ []) ∧
    ((collect as).2.take.1 = none ↔ sinceTake as = []) ∧
    (∀ s, (collect as).2.take.1 = some s ↔ s.MadeOf (sinceTake as)) ∧
    (collect as).2.startLine? = (sinceTake as).head?.map Prod.fst ∧
    (collect as).2.hasQueryWord = (sinceTake as).any fun line => holdsQueryWord line.2 := by
  obtain ⟨⟨groups, hgroups, hflat⟩, hpending⟩ := accounted_collect as
  refine ⟨?_, ⟨groups, hgroups, hflat⟩, lines_ne_nil_of_mem hgroups, hpending.take_eq_none_iff,
    fun s => hpending.take_eq_some_iff, hpending.startLine?_eq, hpending.hasQueryWord_eq⟩
  rw [flatMap_lines hgroups, hpending.lines_eq, ← List.map_append, hflat]

/-- Something is to be handed over before any line came, and twice in a row; then one more line
    comes. The statement keeps the index of its first line, also if the next one is out of order. -/
theorem lines_are_collected_once_between_takes :
    (collect [.take, .push 5 ['G', 'E', 'T'], .push 3 ['x'], .take, .take, .push 7 ['y']]).1 =
      [⟨5, [['G', 'E', 'T'], ['x']]⟩] ∧
    (∃ s ∈ (collect [.take, .push 5 ['G', 'E', 'T'], .push 3 ['x'], .take, .take,
        .push 7 ['y']]).1, s.lines ≠ []) ∧
    (collect [.take, .push 5 ['G', 'E', 'T'], .push 3 ['x'], .take, .take,
      .push 7 ['y']]).2.startLine? = some 7 := by
  obtain ⟨-, -, hlines, -, -, hstart, -⟩ := lines_are_collected_once
    [.take, .push 5 ['G', 'E', 'T'], .push 3 ['x'], .take, .take, .push 7 ['y']]
  exact ⟨rfl, ⟨_, List.mem_cons_self, hlines _ List.mem_cons_self⟩, hstart⟩

end Nsql.Scan
