import Mathlib.Data.List.Basic
import Mathlib.Logic.Function.Basic
import TradingFeed.Library.Paths
import TradingFeed.Library.Tagged

set_option autoImplicit false

namespace Library

namespace System

variable {σ τ α β ω ψ : Type}

def parallel (M : System σ α ω) (N : System τ β ψ) : System (σ × τ) (α ⊕ β) (ω ⊕ ψ) where
  step := fun (s, t) action =>
    match action with
    | .inl a => (M.step s a).map fun (next, out) => ((next, t), .inl out)
    | .inr b => (N.step t b).map fun (next, out) => ((s, next), .inr out)

def leftEvent (event : Event (σ × τ) (α ⊕ β) (ω ⊕ ψ)) : Option (Event σ α ω) :=
  match event.action, event.out with
  | .inl a, .inl out => some ⟨event.before.1, a, out⟩
  | _, _ => none

def rightEvent (event : Event (σ × τ) (α ⊕ β) (ω ⊕ ψ)) : Option (Event τ β ψ) :=
  match event.action, event.out with
  | .inr b, .inr out => some ⟨event.before.2, b, out⟩
  | _, _ => none

theorem parallel_step (M : System σ α ω) (N : System τ β ψ) (s u : σ × τ) (action : α ⊕ β) (out : ω ⊕ ψ)
    (taken : (M.parallel N).step s action = some (u, out)) :
    (∃ a seen, action = .inl a ∧ out = .inl seen ∧ M.step s.1 a = some (u.1, seen) ∧ u.2 = s.2) ∨
      ∃ b seen, action = .inr b ∧ out = .inr seen ∧ N.step s.2 b = some (u.2, seen) ∧ u.1 = s.1 := by
  cases action with
  | inl a =>
      obtain ⟨⟨next, seen⟩, stepped, same⟩ := Option.map_eq_some_iff.mp taken
      cases same
      exact Or.inl ⟨a, seen, rfl, rfl, stepped, rfl⟩
  | inr b =>
      obtain ⟨⟨next, seen⟩, stepped, same⟩ := Option.map_eq_some_iff.mp taken
      cases same
      exact Or.inr ⟨b, seen, rfl, rfl, stepped, rfl⟩

theorem parallel_left (M : System σ α ω) (N : System τ β ψ) (s t : σ × τ)
    (events : List (Event (σ × τ) (α ⊕ β) (ω ⊕ ψ))) (path : (M.parallel N).Path s events t) :
    M.Path s.1 (events.filterMap leftEvent) t.1 := by
  induction path with
  | stop s => exact .stop s.1
  | step s next t action out rest taken _ ih =>
      rcases M.parallel_step N s next action out taken with ⟨a, seen, rfl, rfl, stepped, _⟩ | ⟨b, seen, rfl, rfl, _, same⟩
      · exact .step s.1 next.1 t.1 a seen _ stepped ih
      · rw [same] at ih
        exact ih

theorem parallel_right (M : System σ α ω) (N : System τ β ψ) (s t : σ × τ)
    (events : List (Event (σ × τ) (α ⊕ β) (ω ⊕ ψ))) (path : (M.parallel N).Path s events t) :
    N.Path s.2 (events.filterMap rightEvent) t.2 := by
  induction path with
  | stop s => exact .stop s.2
  | step s next t action out rest taken _ ih =>
      rcases M.parallel_step N s next action out taken with ⟨a, seen, rfl, rfl, _, same⟩ | ⟨b, seen, rfl, rfl, stepped, _⟩
      · rw [same] at ih
        exact ih
      · exact .step s.2 next.2 t.2 b seen _ stepped ih

section

variable {ι : Type} [DecidableEq ι]

def family (M : System σ α ω) : System (ι → σ) (ι × α) (ι × ω) where
  step := fun states (i, a) => (M.step (states i) a).map fun (next, out) => (Function.update states i next, (i, out))

def memberEvent (i : ι) (event : Event (ι → σ) (ι × α) (ι × ω)) : Option (Event σ α ω) :=
  if event.action.1 = i then some ⟨event.before i, event.action.2, event.out.2⟩ else none

theorem family_path (M : System σ α ω) (s t : ι → σ) (events : List (Event (ι → σ) (ι × α) (ι × ω))) (i : ι)
    (path : (M.family).Path s events t) : M.Path (s i) (events.filterMap (memberEvent i)) (t i) := by
  induction path with
  | stop s => exact .stop (s i)
  | step s next t action out rest taken _ ih =>
      obtain ⟨j, a⟩ := action
      obtain ⟨⟨after, seen⟩, stepped, same⟩ := Option.map_eq_some_iff.mp taken
      cases same
      by_cases here : j = i
      · subst here
        rw [Function.update_self] at ih
        have mine : memberEvent j ⟨s, (j, a), (j, seen)⟩ = some ⟨s j, a, seen⟩ := if_pos rfl
        rw [List.filterMap_cons_some mine]
        exact .step (s j) after (t j) a seen _ stepped ih
      · rw [Function.update_of_ne (Ne.symm here)] at ih
        have other : memberEvent i ⟨s, (j, a), (j, seen)⟩ = none := if_neg here
        rw [List.filterMap_cons_none other]
        exact ih

end

end System

section

variable {κ μ σ α ω : Type} [DecidableEq κ]

-- Which message a step takes from a channel, and which ones it puts into channels
-- when it starts from a state and has an observation.
structure Ports (σ α ω κ μ : Type) where
  takes : α → Option (κ × μ)
  gives : σ → ω → List (κ × μ)

namespace Ports

variable (ports : Ports σ α ω κ μ)

def given (key : κ) (events : List (Event σ α ω)) : List μ :=
  events.flatMap fun event => under key (ports.gives event.before event.out)

def taken (key : κ) (events : List (Event σ α ω)) : List μ :=
  events.flatMap fun event => under key (ports.takes event.action).toList

end Ports

def Ports.parallel {τ β ψ : Type} (ports : Ports σ α ω κ μ) (others : Ports τ β ψ κ μ) :
    Ports (σ × τ) (α ⊕ β) (ω ⊕ ψ) κ μ where
  takes := Sum.elim ports.takes others.takes
  gives := fun (s, t) => Sum.elim (ports.gives s) (others.gives t)

def Ports.family {ι : Type} (ports : ι → Ports σ α ω κ μ) : Ports (ι → σ) (ι × α) (ι × ω) κ μ where
  takes := fun (i, a) => (ports i).takes a
  gives := fun states (i, out) => (ports i).gives (states i) out

theorem given_cons (ports : Ports σ α ω κ μ) (key : κ) (event : Event σ α ω) (rest : List (Event σ α ω)) :
    ports.given key (event :: rest) = under key (ports.gives event.before event.out) ++ ports.given key rest := rfl

theorem taken_cons (ports : Ports σ α ω κ μ) (key : κ) (event : Event σ α ω) (rest : List (Event σ α ω)) :
    ports.taken key (event :: rest) = under key (ports.takes event.action).toList ++ ports.taken key rest := rfl

section

variable {τ β ψ : Type} (M : System σ α ω) (N : System τ β ψ) (ports : Ports σ α ω κ μ) (others : Ports τ β ψ κ μ)
  (s t : σ × τ) (events : List (Event (σ × τ) (α ⊕ β) (ω ⊕ ψ))) (key : κ)

theorem given_left (silent : ∀ t out, under key (others.gives t out) = []) (path : (M.parallel N).Path s events t) :
    (ports.parallel others).given key events = ports.given key (events.filterMap System.leftEvent) := by
  induction path with
  | stop s => rfl
  | step s next t action out rest taken _ ih =>
      rw [given_cons, ih]
      rcases M.parallel_step N s next action out taken with ⟨a, seen, rfl, rfl, _⟩ | ⟨b, seen, rfl, rfl, _⟩
      · rfl
      · change under key (others.gives s.2 seen) ++ _ = _
        rw [silent]
        rfl

theorem given_right (silent : ∀ s out, under key (ports.gives s out) = []) (path : (M.parallel N).Path s events t) :
    (ports.parallel others).given key events = others.given key (events.filterMap System.rightEvent) := by
  induction path with
  | stop s => rfl
  | step s next t action out rest taken _ ih =>
      rw [given_cons, ih]
      rcases M.parallel_step N s next action out taken with ⟨a, seen, rfl, rfl, _⟩ | ⟨b, seen, rfl, rfl, _⟩
      · change under key (ports.gives s.1 seen) ++ _ = _
        rw [silent]
        rfl
      · rfl

theorem taken_left (deaf : ∀ b, under key (others.takes b).toList = []) (path : (M.parallel N).Path s events t) :
    (ports.parallel others).taken key events = ports.taken key (events.filterMap System.leftEvent) := by
  induction path with
  | stop s => rfl
  | step s next t action out rest taken _ ih =>
      rw [taken_cons, ih]
      rcases M.parallel_step N s next action out taken with ⟨a, seen, rfl, rfl, _⟩ | ⟨b, seen, rfl, rfl, _⟩
      · rfl
      · change under key (others.takes b).toList ++ _ = _
        rw [deaf]
        rfl

theorem taken_right (deaf : ∀ a, under key (ports.takes a).toList = []) (path : (M.parallel N).Path s events t) :
    (ports.parallel others).taken key events = others.taken key (events.filterMap System.rightEvent) := by
  induction path with
  | stop s => rfl
  | step s next t action out rest taken _ ih =>
      rw [taken_cons, ih]
      rcases M.parallel_step N s next action out taken with ⟨a, seen, rfl, rfl, _⟩ | ⟨b, seen, rfl, rfl, _⟩
      · change under key (ports.takes a).toList ++ _ = _
        rw [deaf]
        rfl
      · rfl

end

section

variable {ι : Type} [DecidableEq ι] (M : System σ α ω) (ports : ι → Ports σ α ω κ μ) (s t : ι → σ)
  (events : List (Event (ι → σ) (ι × α) (ι × ω))) (key : κ) (i : ι)

theorem given_member (silent : ∀ j, j ≠ i → ∀ s out, under key ((ports j).gives s out) = [])
    (path : (M.family).Path s events t) :
    (Ports.family ports).given key events = (ports i).given key (events.filterMap (System.memberEvent i)) := by
  induction path with
  | stop s => rfl
  | step s next t action out rest taken _ ih =>
      obtain ⟨j, a⟩ := action
      obtain ⟨⟨after, seen⟩, _, same⟩ := Option.map_eq_some_iff.mp taken
      cases same
      rw [given_cons, ih]
      by_cases here : j = i
      · subst here
        have mine : System.memberEvent j ⟨s, (j, a), (j, seen)⟩ = some ⟨s j, a, seen⟩ := if_pos rfl
        rw [List.filterMap_cons_some mine]
        rfl
      · have other : System.memberEvent i ⟨s, (j, a), (j, seen)⟩ = none := if_neg here
        rw [List.filterMap_cons_none other]
        change under key ((ports j).gives (s j) seen) ++ _ = _
        rw [silent j here]
        rfl

theorem taken_member (deaf : ∀ j, j ≠ i → ∀ a, under key ((ports j).takes a).toList = [])
    (path : (M.family).Path s events t) :
    (Ports.family ports).taken key events = (ports i).taken key (events.filterMap (System.memberEvent i)) := by
  induction path with
  | stop s => rfl
  | step s next t action out rest taken _ ih =>
      obtain ⟨j, a⟩ := action
      obtain ⟨⟨after, seen⟩, _, same⟩ := Option.map_eq_some_iff.mp taken
      cases same
      rw [taken_cons, ih]
      by_cases here : j = i
      · subst here
        have mine : System.memberEvent j ⟨s, (j, a), (j, seen)⟩ = some ⟨s j, a, seen⟩ := if_pos rfl
        rw [List.filterMap_cons_some mine]
        rfl
      · have other : System.memberEvent i ⟨s, (j, a), (j, seen)⟩ = none := if_neg here
        rw [List.filterMap_cons_none other]
        change under key ((ports j).takes a).toList ++ _ = _
        rw [deaf j here]
        rfl

end

end

section

variable {κ μ σ α ω : Type} [DecidableEq κ] [DecidableEq μ]

abbrev Channels (κ μ : Type) := κ → List μ

def Channels.post (channels : Channels κ μ) (messages : List (κ × μ)) : Channels κ μ :=
  fun key => channels key ++ under key messages

def Channels.receive (channels : Channels κ μ) : Option (κ × μ) → Option (Channels κ μ)
  | none => some channels
  | some (key, message) =>
      match channels key with
      | [] => none
      | first :: rest => if first = message then some (Function.update channels key rest) else none

-- The system with its inputs bound to its outputs by FIFO channels.
def System.wired (M : System σ α ω) (ports : Ports σ α ω κ μ) : System (σ × Channels κ μ) α ω where
  step := fun (s, channels) a =>
    match M.step s a, channels.receive (ports.takes a) with
    | some (next, out), some left => some ((next, left.post (ports.gives s out)), out)
    | _, _ => none

def innerEvent (event : Event (σ × Channels κ μ) α ω) : Event σ α ω := ⟨event.before.1, event.action, event.out⟩

theorem receive_keeps (channels left : Channels κ μ) (message : Option (κ × μ)) (key : κ)
    (received : channels.receive message = some left) : channels key = under key message.toList ++ left key := by
  cases message with
  | none =>
      cases received
      rfl
  | some pair =>
      obtain ⟨other, value⟩ := pair
      dsimp only [Channels.receive] at received
      cases queue : channels other with
      | nil => simp [queue] at received
      | cons first rest =>
          simp only [queue] at received
          split at received
          · rename_i same
            cases received
            by_cases here : other = key
            · subst here
              simp [under, queue, same]
            · simp [under, here, Function.update_of_ne (Ne.symm here)]
          · cases received

theorem wired_step (M : System σ α ω) (ports : Ports σ α ω κ μ) (s t : σ) (before after : Channels κ μ) (a : α) (out : ω)
    (stepped : (M.wired ports).step (s, before) a = some ((t, after), out)) :
    M.step s a = some (t, out) ∧ ∃ left, before.receive (ports.takes a) = some left ∧
      after = left.post (ports.gives s out) := by
  dsimp only [System.wired] at stepped
  split at stepped
  · rename_i next seen left taken received
    cases stepped
    exact ⟨taken, left, received, rfl⟩
  · cases stepped

theorem wired_path (M : System σ α ω) (ports : Ports σ α ω κ μ) (s t : σ × Channels κ μ)
    (events : List (Event (σ × Channels κ μ) α ω)) (path : (M.wired ports).Path s events t) :
    M.Path s.1 (events.map innerEvent) t.1 := by
  induction path with
  | stop s => exact .stop s.1
  | step s next t a out rest taken _ ih =>
      exact .step s.1 next.1 t.1 a out _ (wired_step M ports s.1 next.1 s.2 next.2 a out taken).1 ih

theorem wired_fifo (M : System σ α ω) (ports : Ports σ α ω κ μ) (s t : σ × Channels κ μ)
    (events : List (Event (σ × Channels κ μ) α ω)) (key : κ) (path : (M.wired ports).Path s events t) :
    s.2 key ++ ports.given key (events.map innerEvent) = ports.taken key (events.map innerEvent) ++ t.2 key := by
  induction path with
  | stop s => simp [Ports.given, Ports.taken]
  | step s next t a out rest taken _ ih =>
      obtain ⟨_, left, received, posted⟩ := wired_step M ports s.1 next.1 s.2 next.2 a out taken
      have split := receive_keeps s.2 left (ports.takes a) key received
      have later : left key ++ under key (ports.gives s.1 out) ++ ports.given key (rest.map innerEvent) =
          ports.taken key (rest.map innerEvent) ++ t.2 key := by
        rw [posted] at ih
        exact ih
      calc s.2 key ++ ports.given key ((⟨s, a, out⟩ :: rest).map innerEvent)
        _ = under key (ports.takes a).toList ++
              (left key ++ under key (ports.gives s.1 out) ++ ports.given key (rest.map innerEvent)) := by
            rw [split]
            simp [Ports.given, innerEvent]
        _ = under key (ports.takes a).toList ++ (ports.taken key (rest.map innerEvent) ++ t.2 key) := by rw [later]
        _ = ports.taken key ((⟨s, a, out⟩ :: rest).map innerEvent) ++ t.2 key := by
            simp [Ports.taken, innerEvent]

theorem wired_prefix (M : System σ α ω) (ports : Ports σ α ω κ μ) (s : σ) (t : σ × Channels κ μ)
    (events : List (Event (σ × Channels κ μ) α ω)) (key : κ) (path : (M.wired ports).Path (s, fun _ => []) events t) :
    ports.taken key (events.map innerEvent) <+: ports.given key (events.map innerEvent) :=
  ⟨t.2 key, (wired_fifo M ports _ t events key path).symm⟩

end

end Library
