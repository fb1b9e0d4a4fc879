import Mathlib.Data.List.Basic
import Mathlib.Data.List.Induction

set_option autoImplicit false

namespace Library

-- A labelled transition system whose labels carry every choice of the
-- environment, so that the step itself is a partial function. Each step
-- produces an observation; a run collects them in order.
structure System (σ α ω : Type) where
  step : σ → α → Option (σ × ω)

namespace System

variable {σ α ω : Type} (M : System σ α ω)

def run : σ → List α → Option (σ × List ω)
  | s, [] => some (s, [])
  | s, a :: rest =>
      match M.step s a with
      | none => none
      | some (next, out) => (run next rest).map fun done => (done.1, out :: done.2)

def Reachable (init s : σ) : Prop := ∃ actions log, M.run init actions = some (s, log)

-- Every step of the run meets a condition on its label and on the state the
-- step starts from. Nothing is asked of steps that the run does not take.
def Along (P : σ → α → Prop) : σ → List α → Prop
  | _, [] => True
  | s, a :: rest => P s a ∧ ∀ next out, M.step s a = some (next, out) → Along P next rest

theorem run_nil (s t : σ) (log : List ω) : M.run s [] = some (t, log) ↔ t = s ∧ log = [] := by
  simp [run, eq_comm]

theorem run_cons (s t : σ) (a : α) (rest : List α) (log : List ω) :
    M.run s (a :: rest) = some (t, log) ↔
      ∃ next out tail, M.step s a = some (next, out) ∧ M.run next rest = some (t, tail) ∧ log = out :: tail := by
  cases taken : M.step s a with
  | none => simp [run, taken]
  | some pair =>
      obtain ⟨next, out⟩ := pair
      simp only [run, taken, Option.map_eq_some_iff, Prod.mk.injEq, Option.some.injEq]
      constructor
      · rintro ⟨⟨last, tail⟩, ran, rfl, rfl⟩
        exact ⟨next, out, tail, ⟨rfl, rfl⟩, ran, rfl⟩
      · rintro ⟨_, _, tail, ⟨rfl, rfl⟩, ran, rfl⟩
        exact ⟨(t, tail), ran, rfl, rfl⟩

theorem run_append (s t : σ) (front back : List α) (log : List ω) :
    M.run s (front ++ back) = some (t, log) ↔
      ∃ mid head tail, M.run s front = some (mid, head) ∧ M.run mid back = some (t, tail) ∧ log = head ++ tail := by
  induction front generalizing s log with
  | nil =>
      simp only [List.nil_append, run_nil]
      constructor
      · exact fun ran => ⟨s, [], log, ⟨rfl, rfl⟩, ran, rfl⟩
      · rintro ⟨_, _, tail, ⟨rfl, rfl⟩, ran, rfl⟩
        exact ran
  | cons a front ih =>
      simp only [List.cons_append, run_cons, ih]
      constructor
      · rintro ⟨next, out, _, taken, ⟨mid, head, tail, first, second, rfl⟩, rfl⟩
        exact ⟨mid, out :: head, tail, ⟨next, out, head, taken, first, rfl⟩, second, rfl⟩
      · rintro ⟨mid, _, tail, ⟨next, out, head, taken, first, rfl⟩, second, rfl⟩
        exact ⟨next, out, head ++ tail, taken, ⟨mid, head, tail, first, second, rfl⟩, rfl⟩

theorem run_single (s t : σ) (a : α) (log : List ω) :
    M.run s [a] = some (t, log) ↔ ∃ out, M.step s a = some (t, out) ∧ log = [out] := by
  simp only [run_cons, run_nil]
  constructor
  · rintro ⟨next, out, _, taken, ⟨rfl, rfl⟩, rfl⟩
    exact ⟨out, taken, rfl⟩
  · rintro ⟨out, taken, rfl⟩
    exact ⟨t, out, [], taken, ⟨rfl, rfl⟩, rfl⟩

theorem run_trans (s mid t : σ) (front back : List α) (head tail : List ω)
    (first : M.run s front = some (mid, head)) (second : M.run mid back = some (t, tail)) :
    M.run s (front ++ back) = some (t, head ++ tail) :=
  (M.run_append s t front back (head ++ tail)).mpr ⟨mid, head, tail, first, second, rfl⟩

theorem reachable_run (init s t : σ) (actions : List α) (log : List ω) (reach : M.Reachable init s)
    (ran : M.run s actions = some (t, log)) : M.Reachable init t := by
  obtain ⟨before, head, first⟩ := reach
  exact ⟨before ++ actions, head ++ log, M.run_trans init s t before actions head log first ran⟩

theorem run_at (s t : σ) (a : α) (actions : List α) (log : List ω) (i : Nat)
    (ran : M.run s actions = some (t, log)) (here : actions[i]? = some a) :
    ∃ mid head next out, M.run s (actions.take i) = some (mid, head) ∧ M.step mid a = some (next, out) ∧
      log[i]? = some out := by
  induction actions generalizing s log i with
  | nil => cases here
  | cons first rest ih =>
      obtain ⟨after, seen, tail, taken, later, rfl⟩ := (M.run_cons s t first rest log).mp ran
      cases i with
      | zero =>
          cases here
          exact ⟨s, [], after, seen, rfl, taken, rfl⟩
      | succ i =>
          obtain ⟨mid, head, next, out, before, stepped, logged⟩ := ih after tail i later here
          refine ⟨mid, seen :: head, next, out, ?_, stepped, logged⟩
          exact (M.run_cons s mid first (rest.take i) (seen :: head)).mpr
            ⟨after, seen, head, taken, before, rfl⟩

theorem run_check (s : σ) (actions : List α) (check : σ × List ω → Bool)
    (passes : (M.run s actions).any check = true) :
    ∃ t log, M.run s actions = some (t, log) ∧ check (t, log) = true := by
  cases ran : M.run s actions with
  | none => simp [ran] at passes
  | some done => exact ⟨done.1, done.2, rfl, by simpa [ran] using passes⟩

theorem run_check_after (s mid : σ) (front back : List α) (head : List ω) (check : σ × List ω → Bool)
    (ran : M.run s front = some (mid, head))
    (passes : (M.run s front).any (fun done => (M.run done.1 back).any check) = true) :
    ∃ t log, M.run mid back = some (t, log) ∧ check (t, log) = true := by
  rw [ran] at passes
  exact M.run_check mid back check passes

theorem along_always (P : σ → α → Prop) (actions : List α) (s : σ) (always : ∀ s, ∀ a ∈ actions, P s a) :
    M.Along P s actions := by
  induction actions generalizing s with
  | nil => trivial
  | cons a rest ih =>
      refine ⟨always s a (by simp), fun next out _ => ih next ?_⟩
      exact fun s b member => always s b (by simp [member])

theorem along_and (P Q : σ → α → Prop) (actions : List α) (s : σ) (first : M.Along P s actions)
    (second : M.Along Q s actions) : M.Along (fun s a => P s a ∧ Q s a) s actions := by
  induction actions generalizing s with
  | nil => trivial
  | cons a rest ih =>
      exact ⟨⟨first.1, second.1⟩, fun next out taken => ih next (first.2 next out taken) (second.2 next out taken)⟩

theorem along_iff (P Q : σ → α → Prop) (inv : σ → Prop)
    (keeps : ∀ s a t out, inv s → M.step s a = some (t, out) → inv t) (same : ∀ s a, inv s → (P s a ↔ Q s a))
    (actions : List α) (s : σ) (start : inv s) : M.Along P s actions ↔ M.Along Q s actions := by
  induction actions generalizing s with
  | nil => exact Iff.rfl
  | cons a rest ih =>
      have later : ∀ next out, M.step s a = some (next, out) → (M.Along P next rest ↔ M.Along Q next rest) :=
        fun next out taken => ih next (keeps s a next out start taken)
      constructor
      · rintro ⟨here, after⟩
        exact ⟨(same s a start).mp here, fun next out taken => (later next out taken).mp (after next out taken)⟩
      · rintro ⟨here, after⟩
        exact ⟨(same s a start).mpr here, fun next out taken => (later next out taken).mpr (after next out taken)⟩

theorem along_snoc (P : σ → α → Prop) (s t : σ) (actions : List α) (a : α) (log : List ω)
    (meets : M.Along P s (actions ++ [a])) (ran : M.run s actions = some (t, log)) : M.Along P s actions ∧ P t a := by
  induction actions generalizing s log with
  | nil =>
      obtain ⟨rfl, _⟩ := (M.run_nil s t log).mp ran
      exact ⟨trivial, meets.1⟩
  | cons first rest ih =>
      obtain ⟨next, out, tail, taken, later, _⟩ := (M.run_cons s t first rest log).mp ran
      refine ⟨⟨meets.1, fun other seen again => ?_⟩, (ih next tail (meets.2 next out taken) later).2⟩
      cases taken.symm.trans again
      exact (ih next tail (meets.2 next out taken) later).1

def checkAlong (check : σ → α → Bool) : σ → List α → Bool
  | _, [] => true
  | s, a :: rest =>
      check s a &&
        match M.step s a with
        | none => true
        | some (next, _) => checkAlong check next rest

theorem along_checked (P : σ → α → Prop) (check : σ → α → Bool) (sound : ∀ s a, check s a = true → P s a)
    (actions : List α) (s : σ) (passes : M.checkAlong check s actions = true) : M.Along P s actions := by
  induction actions generalizing s with
  | nil => trivial
  | cons a rest ih =>
      obtain ⟨here, later⟩ := Bool.and_eq_true_iff.mp passes
      refine ⟨sound s a here, fun next out taken => ih next ?_⟩
      rw [taken] at later
      exact later

theorem run_invariant (P : σ → α → Prop) (inv : σ → Prop)
    (keeps : ∀ s a t out, inv s → P s a → M.step s a = some (t, out) → inv t)
    (actions : List α) (s t : σ) (log : List ω) (start : inv s) (meets : M.Along P s actions)
    (ran : M.run s actions = some (t, log)) : inv t := by
  induction actions generalizing s log with
  | nil =>
      obtain ⟨rfl, _⟩ := (M.run_nil s t log).mp ran
      exact start
  | cons a rest ih =>
      obtain ⟨next, out, tail, taken, remaining, _⟩ := (M.run_cons s t a rest log).mp ran
      exact ih next tail (keeps s a next out start meets.1 taken) (meets.2 next out taken) remaining

theorem reachable_invariant (init : σ) (inv : σ → Prop) (start : inv init)
    (keeps : ∀ s a t out, inv s → M.step s a = some (t, out) → inv t) (s : σ)
    (reach : M.Reachable init s) : inv s := by
  obtain ⟨actions, log, ran⟩ := reach
  exact M.run_invariant (fun _ _ => True) inv (fun s a t out held _ taken => keeps s a t out held taken)
    actions init s log start (M.along_always _ actions init fun _ _ _ => trivial) ran

theorem run_history (init : σ) (holds : List α → List ω → σ → Prop) (start : holds [] [] init)
    (keeps : ∀ past head s a t out, M.run init past = some (s, head) → holds past head s →
      M.step s a = some (t, out) → holds (past ++ [a]) (head ++ [out]) t)
    (actions : List α) (s : σ) (log : List ω) (ran : M.run init actions = some (s, log)) : holds actions log s := by
  induction actions using List.reverseRecOn generalizing s log with
  | nil =>
      obtain ⟨rfl, rfl⟩ := (M.run_nil init s log).mp ran
      exact start
  | append_singleton past a ih =>
      obtain ⟨mid, head, tail, before, last, rfl⟩ := (M.run_append init s past [a] log).mp ran
      obtain ⟨out, taken, rfl⟩ := (M.run_single mid s a tail).mp last
      exact keeps past head mid a s out before (ih mid head before) taken

-- The same system with a record of its past beside the state, which no step reads.
def recorded {η : Type} (note : σ → α → η → η) : System (σ × η) α ω where
  step := fun (s, past) a => (M.step s a).map fun (t, out) => ((t, note s a past), out)

theorem recorded_step {η : Type} (note : σ → α → η → η) (s t : σ) (past after : η) (a : α) (out : ω) :
    (M.recorded note).step (s, past) a = some ((t, after), out) ↔
      M.step s a = some (t, out) ∧ after = note s a past := by
  cases taken : M.step s a with
  | none => simp [recorded, taken]
  | some pair =>
      obtain ⟨next, seen⟩ := pair
      simp only [recorded, taken, Option.map_some, Option.some.injEq, Prod.mk.injEq]
      constructor
      · rintro ⟨⟨rfl, rfl⟩, rfl⟩
        exact ⟨⟨rfl, rfl⟩, rfl⟩
      · rintro ⟨⟨rfl, rfl⟩, rfl⟩
        exact ⟨⟨rfl, rfl⟩, rfl⟩

theorem recorded_run {η : Type} (note : σ → α → η → η) (actions : List α) (s t : σ) (past : η) (log : List ω) :
    M.run s actions = some (t, log) ↔ ∃ after, (M.recorded note).run (s, past) actions = some ((t, after), log) := by
  induction actions generalizing s past log with
  | nil =>
      simp only [run_nil, Prod.mk.injEq]
      exact ⟨fun ⟨same, empty⟩ => ⟨past, ⟨same, rfl⟩, empty⟩, fun ⟨_, ⟨same, _⟩, empty⟩ => ⟨same, empty⟩⟩
  | cons a rest ih =>
      simp only [run_cons]
      constructor
      · rintro ⟨next, out, tail, taken, ran, rfl⟩
        obtain ⟨after, followed⟩ := (ih next (note s a past) tail).mp ran
        exact ⟨after, _, out, tail, (M.recorded_step note s next past _ a out).mpr ⟨taken, rfl⟩, followed, rfl⟩
      · rintro ⟨after, ⟨next, noted⟩, out, tail, taken, ran, rfl⟩
        obtain ⟨stepped, rfl⟩ := (M.recorded_step note s next past noted a out).mp taken
        exact ⟨next, out, tail, stepped, (ih next _ tail).mpr ⟨after, ran⟩, rfl⟩

theorem recorded_fold {η : Type} (note : α → η → η) (actions : List α) (s t : σ) (past after : η) (log : List ω)
    (ran : (M.recorded fun _ a past => note a past).run (s, past) actions = some ((t, after), log)) :
    after = actions.foldl (fun past a => note a past) past := by
  induction actions generalizing s past log with
  | nil =>
      simp only [run_nil, Prod.mk.injEq] at ran
      exact ran.1.2
  | cons a rest ih =>
      obtain ⟨⟨next, noted⟩, out, tail, taken, later, _⟩ := (run_cons _ _ _ _ _ _).mp ran
      obtain ⟨_, rfl⟩ := (M.recorded_step _ s next past noted a out).mp taken
      exact ih next _ tail later

theorem recorded_trace (actions : List α) (s t : σ) (past after : List α) (log : List ω)
    (ran : (M.recorded fun _ a past => a :: past).run (s, past) actions = some ((t, after), log)) :
    after = actions.reverse ++ past := by
  rw [M.recorded_fold (fun a past => a :: past) actions s t past after log ran]
  exact List.foldl_flip_cons_eq_append'

theorem along_recorded {η : Type} (note : σ → α → η → η) (P : σ → α → Prop) (actions : List α) (s : σ) (past : η)
    (meets : M.Along P s actions) : (M.recorded note).Along (fun now a => P now.1 a) (s, past) actions := by
  induction actions generalizing s past with
  | nil => trivial
  | cons a rest ih =>
      refine ⟨meets.1, fun (next, after) out taken => ?_⟩
      obtain ⟨stepped, _⟩ := (M.recorded_step note s next past after a out).mp taken
      exact ih next after (meets.2 next out stepped)

def Leads (P : α → Prop) (s t : σ) : Prop := ∃ actions log, M.run s actions = some (t, log) ∧ ∀ a ∈ actions, P a

theorem leads_refl (P : α → Prop) (s : σ) : M.Leads P s s := ⟨[], [], rfl, by simp⟩

theorem leads_step (P : α → Prop) (s t : σ) (a : α) (out : ω) (meets : P a) (taken : M.step s a = some (t, out)) :
    M.Leads P s t :=
  ⟨[a], [out], (M.run_single s t a [out]).mpr ⟨out, taken, rfl⟩, by simpa using meets⟩

theorem leads_trans (P : α → Prop) (s t u : σ) (first : M.Leads P s t) (second : M.Leads P t u) : M.Leads P s u := by
  obtain ⟨front, head, before, met⟩ := first
  obtain ⟨back, tail, after, also⟩ := second
  refine ⟨front ++ back, head ++ tail, M.run_trans s t u front back head tail before after, fun a member => ?_⟩
  exact (List.mem_append.mp member).elim (met a) (also a)

theorem leads_weaken (P Q : α → Prop) (s t : σ) (weaker : ∀ a, P a → Q a) (leads : M.Leads P s t) : M.Leads Q s t := by
  obtain ⟨actions, log, ran, met⟩ := leads
  exact ⟨actions, log, ran, fun a member => weaker a (met a member)⟩

end System

end Library
