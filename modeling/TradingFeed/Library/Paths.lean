import TradingFeed.Library.Runs

set_option autoImplicit false

namespace Library

structure Event (σ α ω : Type) where
  before : σ
  action : α
  out : ω

namespace System

variable {σ α ω : Type}

inductive Path (M : System σ α ω) : σ → List (Event σ α ω) → σ → Prop where
  | stop (s : σ) : Path M s [] s
  | step (s next t : σ) (a : α) (out : ω) (rest : List (Event σ α ω)) (taken : M.step s a = some (next, out))
      (later : Path M next rest t) : Path M s (⟨s, a, out⟩ :: rest) t

section

variable (M : System σ α ω)

theorem path_run (s t : σ) (events : List (Event σ α ω)) (path : M.Path s events t) :
    M.run s (events.map Event.action) = some (t, events.map Event.out) := by
  induction path with
  | stop s => rfl
  | step s next t a out rest taken _ ih =>
      exact (M.run_cons s t a _ _).mpr ⟨next, out, _, taken, ih, rfl⟩

def trace : σ → List α → List (Event σ α ω)
  | _, [] => []
  | s, a :: rest =>
      match M.step s a with
      | none => []
      | some (next, out) => ⟨s, a, out⟩ :: trace next rest

theorem trace_path (s t : σ) (actions : List α) (log : List ω) (ran : M.run s actions = some (t, log)) :
    M.Path s (M.trace s actions) t := by
  induction actions generalizing s log with
  | nil =>
      obtain ⟨rfl, rfl⟩ := (M.run_nil s t log).mp ran
      exact .stop t
  | cons a rest ih =>
      obtain ⟨next, out, tail, taken, later, rfl⟩ := (M.run_cons s t a rest log).mp ran
      rw [trace, taken]
      exact .step s next t a out _ taken (ih next tail later)

theorem trace_seen (s t : σ) (actions : List α) (log : List ω) (ran : M.run s actions = some (t, log)) :
    (M.trace s actions).map Event.action = actions ∧ (M.trace s actions).map Event.out = log := by
  induction actions generalizing s log with
  | nil =>
      obtain ⟨rfl, rfl⟩ := (M.run_nil s t log).mp ran
      exact ⟨rfl, rfl⟩
  | cons a rest ih =>
      obtain ⟨next, out, tail, taken, later, rfl⟩ := (M.run_cons s t a rest log).mp ran
      obtain ⟨actions, outs⟩ := ih next tail later
      rw [trace, taken]
      exact ⟨congrArg (a :: ·) actions, congrArg (out :: ·) outs⟩

theorem run_path (s t : σ) (actions : List α) (log : List ω) (ran : M.run s actions = some (t, log)) :
    ∃ events, M.Path s events t ∧ events.map Event.action = actions ∧ events.map Event.out = log :=
  ⟨_, M.trace_path s t actions log ran, M.trace_seen s t actions log ran⟩

theorem path_reachable (init s : σ) (events : List (Event σ α ω)) (path : M.Path init events s) : M.Reachable init s :=
  ⟨_, _, M.path_run init s events path⟩

theorem path_append (s mid t : σ) (front back : List (Event σ α ω)) (first : M.Path s front mid)
    (second : M.Path mid back t) : M.Path s (front ++ back) t := by
  induction first with
  | stop s => exact second
  | step s next _ a out rest taken _ ih => exact .step s next t a out (rest ++ back) taken (ih second)

theorem path_split (s t : σ) (front back : List (Event σ α ω)) (path : M.Path s (front ++ back) t) :
    ∃ mid, M.Path s front mid ∧ M.Path mid back t := by
  induction front generalizing s with
  | nil => exact ⟨s, .stop s, path⟩
  | cons event front ih =>
      cases path with
      | step _ next _ a out _ taken later =>
          obtain ⟨mid, first, second⟩ := ih next later
          exact ⟨mid, .step s next mid a out front taken first, second⟩

theorem path_step (init t : σ) (events : List (Event σ α ω)) (path : M.Path init events t) (event : Event σ α ω)
    (member : event ∈ events) :
    M.Reachable init event.before ∧ ∃ next, M.step event.before event.action = some (next, event.out) := by
  obtain ⟨front, back, rfl⟩ := List.append_of_mem member
  obtain ⟨mid, first, later⟩ := M.path_split init t front _ path
  cases later with
  | step _ next _ a out _ taken _ => exact ⟨M.path_reachable init mid front first, next, taken⟩

theorem path_needed (needs : σ → Prop) (guarded : ∀ s a t out, M.step s a = some (t, out) → needs s) (s t : σ)
    (events : List (Event σ α ω)) (path : M.Path s events t) (holds : needs t) : needs s := by
  cases path with
  | stop s => exact holds
  | step s next t a out rest taken _ => exact guarded s a next out taken

theorem path_history (init : σ) (holds : List (Event σ α ω) → σ → Prop) (start : holds [] init)
    (keeps : ∀ past s a t out, M.Path init past s → holds past s → M.step s a = some (t, out) →
      holds (past ++ [⟨s, a, out⟩]) t)
    (events : List (Event σ α ω)) (s : σ) (path : M.Path init events s) : holds events s := by
  induction events using List.reverseRecOn generalizing s with
  | nil =>
      cases path
      exact start
  | append_singleton past event ih =>
      obtain ⟨mid, before, last⟩ := M.path_split init s past [event] path
      cases last with
      | step _ next _ a out _ taken later =>
          cases later
          exact keeps past mid a s out before (ih mid before) taken

end

end System

end Library
