import TradingFeed.Aggregator.Transitions

set_option autoImplicit false

namespace TradingFeed.Aggregator

open TradingFeed.Json TradingFeed.Sockets

variable {D : Type}

namespace State

def slot (s : State) (id : Int) : Option (Slot Hdl) := (s.handler id).map ClientHandler.dataReceivedSignal

def tasks (s : State) : List (Hdl × Int) := s.m_sendFutures.map fun task => (task.hdl, task.id)

theorem slot_of (s : State) (id : Int) (handler : ClientHandler Hdl) (found : s.handler id = some handler) :
    s.slot id = some handler.dataReceivedSignal := by
  dsimp only [slot]
  rw [found]
  rfl

theorem slot_known (s : State) (id : Int) (slot : Slot Hdl) (found : s.slot id = some slot) :
    0 ≤ id ∧ id < s.m_endpoint.m_next_id := by
  obtain ⟨handler, known, _⟩ := Option.map_eq_some_iff.mp found
  exact s.m_endpoint.get_numbered id handler known

theorem slot_update (s : State) (id other : Int) (change : ClientHandler Hdl → ClientHandler Hdl) :
    (s.updateHandler id change).slot other =
      if other = id then (s.handler id).map fun handler => (change handler).dataReceivedSignal else s.slot other := by
  dsimp only [slot]
  rw [handler_update]
  by_cases same : other = id
  · rw [if_pos same, if_pos same, Option.map_map]
    rfl
  · rw [if_neg same, if_neg same]

theorem slot_kept (s : State) (id other : Int) (change : ClientHandler Hdl → ClientHandler Hdl)
    (keeps : ∀ handler, (change handler).dataReceivedSignal = handler.dataReceivedSignal) :
    (s.updateHandler id change).slot other = s.slot other := by
  rw [slot_update]
  by_cases same : other = id
  · subst other
    rw [if_pos rfl]
    exact congrArg (fun f => (s.handler id).map f) (funext keeps)
  · rw [if_neg same]

theorem tasks_set (s : State) (task : Nat) (hdl : Hdl) (id : Int) (before after : Phase)
    (found : s.m_sendFutures[task]? = some ⟨hdl, id, before⟩) : (s.setTask task ⟨hdl, id, after⟩).tasks = s.tasks := by
  dsimp only [tasks, setTask]
  have key : (s.m_sendFutures.map fun task => (task.hdl, task.id))[task]? = some (hdl, id) := by
    rw [List.getElem?_map, found]
    rfl
  obtain ⟨inside, same⟩ := List.getElem?_eq_some_iff.mp key
  rw [List.map_set, ← same]
  exact List.set_getElem_self inside

end State

namespace Thread

def consumer : Thread → Option Hdl
  | polling hdl _ _ => some hdl
  | acknowledging hdl _ _ => some hdl
  | launching hdl _ => some hdl
  | clearing hdl _ _ => some hdl
  | _ => none

def adding : Thread → Option Int
  | polling _ _ id => some id
  | acknowledging _ _ id => some id
  | launching _ id => some id
  | _ => none

def seenOpen : Thread → Option Int
  | acknowledging _ _ id => some id
  | launching _ id => some id
  | _ => none

end Thread

theorem transition_slot (p : Platform D) (s t : State) (action : Action) (out : List (Output D)) (id : Int)
    (taken : Transition p s action t out) :
    t.slot id = s.slot id ∨ (s.slot id = none ∧ t.slot id = some .unset) ∨
      (action = .silenced id ∧ s.slot id ≠ none ∧ t.slot id = some .ignore) ∨
      ∃ task hdl, action = .install task ∧ s.m_sendFutures[task]? = some ⟨hdl, id, .resolved⟩ ∧
        t.slot id = some (.call hdl) := by
  cases taken with
  | addProvider hdl payload request =>
      rcases s.m_endpoint.connect_get (p.acceptsUri (request.index "host".toList).asText) id with same | ⟨missing, fresh⟩
      · exact Or.inl (congrArg (Option.map ClientHandler.dataReceivedSignal) same)
      · exact Or.inr (Or.inl ⟨congrArg (Option.map ClientHandler.dataReceivedSignal) missing,
          congrArg (Option.map ClientHandler.dataReceivedSignal) fresh⟩)
  | closedOne hdl gone other todo =>
      exact Or.inl (State.slot_kept s other id .shut fun _ => rfl)
  | installed task hdl other handler found known =>
      by_cases same : id = other
      · subst other
        refine Or.inr (Or.inr (Or.inr ⟨task, hdl, rfl, found, ?_⟩))
        change (s.updateHandler id (.onDataReceived hdl)).slot id = _
        rw [State.slot_update, if_pos rfl, known]
        rfl
      · left
        change (s.updateHandler other (.onDataReceived hdl)).slot id = _
        rw [State.slot_update, if_neg same]
  | opened other => exact Or.inl (State.slot_kept s other id .publishOpen fun _ => rfl)
  | silenced other =>
      change (s.updateHandler other .ignoreData).slot id = _ ∨ _
      by_cases same : id = other
      · subst other
        cases found : s.handler id with
        | none =>
            left
            rw [State.slot_update, if_pos rfl]
            dsimp only [State.slot]
            rw [found]
            rfl
        | some handler =>
            refine Or.inr (Or.inr (Or.inl ⟨rfl, by rw [s.slot_of id handler found]; simp, ?_⟩))
            change (s.updateHandler id .ignoreData).slot id = _
            rw [State.slot_update, if_pos rfl, found]
            rfl
      · left
        rw [State.slot_update, if_neg same]
  | failed other => exact Or.inl (State.slot_kept s other id .onFail fun _ => rfl)
  | lost other => exact Or.inl (State.slot_kept s other id .lose fun _ => rfl)
  | closed other => exact Or.inl (State.slot_kept s other id .onClose fun _ => rfl)
  | _ => exact Or.inl rfl

theorem transition_tasks (p : Platform D) (s t : State) (action : Action) (out : List (Output D))
    (taken : Transition p s action t out) :
    t.tasks = s.tasks ∨ ∃ hdl id, s.thread = .launching hdl id ∧ t.thread = .idle ∧ t.tasks = s.tasks ++ [(hdl, id)] := by
  cases taken with
  | launched hdl id thread => exact Or.inr ⟨hdl, id, thread, rfl, by simp [State.tasks]⟩
  | started task hdl id found => exact Or.inl (s.tasks_set task hdl id .launched _ found)
  | installed task hdl id handler found =>
      exact Or.inl ((s.updateHandler id (.onDataReceived hdl)).tasks_set task hdl id .resolved .installed found)
  | _ => exact Or.inl rfl

structure Owned (s : State) : Prop where
  busy : ∀ hdl, s.thread.consumer = some hdl → s.m_server.alive hdl = true
  seen : ∀ id, s.thread.seenOpen = some id → s.slot id ≠ none
  known : ∀ task ∈ s.tasks, s.slot task.2 ≠ none
  fresh : ∀ id, s.thread.adding = some id → ∀ task ∈ s.tasks, task.2 ≠ id
  distinct : (s.tasks.map Prod.snd).Nodup
  called : ∀ id hdl, s.slot id = some (.call hdl) → (hdl, id) ∈ s.tasks

theorem owned_init : Owned .init where
  busy := by simp [State.init, Thread.consumer]
  seen := by simp [State.init, Thread.seenOpen]
  known := by simp [State.init, State.tasks]
  fresh := by simp [State.init, State.tasks]
  distinct := by simp [State.init, State.tasks]
  called := by simp [State.init, State.slot, State.handler, EndPoint.get_new]

section

variable (p : Platform D) (s t : State) (action : Action) (out : List (Output D))

theorem slot_stays (id : Int) (taken : Transition p s action t out) (found : s.slot id ≠ none) : t.slot id ≠ none := by
  rcases transition_slot p s t action out id taken with same | ⟨missing, _⟩ | ⟨_, _, now⟩ | ⟨_, _, _, _, now⟩
  · rw [same]
    exact found
  · exact absurd missing found
  · simp [now]
  · simp [now]

theorem owned_busy (owned : Owned s) (taken : Transition p s action t out) (hdl : Hdl)
    (busy : t.thread.consumer = some hdl) : t.m_server.alive hdl = true := by
  cases taken with
  | connected =>
      rw [Server.alive_accept, owned.busy hdl busy]
      rfl
  | disconnected other idle alive =>
      cases busy
      exact alive
  | addProvider other payload request idle alive =>
      cases busy
      exact alive
  | clearProviders other payload request idle alive =>
      cases busy
      exact alive
  | ready other host id handler thread =>
      apply owned.busy hdl
      rw [thread]
      exact busy
  | replied other host id thread =>
      apply owned.busy hdl
      rw [thread]
      exact busy
  | closedOne other gone id todo thread =>
      apply owned.busy hdl
      rw [thread]
      exact busy
  | launched => cases busy
  | stuck => cases busy
  | cleared => cases busy
  | _ => exact owned.busy hdl busy

theorem owned_seen (owned : Owned s) (taken : Transition p s action t out) (id : Int)
    (seen : t.thread.seenOpen = some id) : t.slot id ≠ none := by
  apply slot_stays p s t action out id taken
  cases taken with
  | ready hdl host other handler thread found =>
      cases seen
      rw [s.slot_of id handler found]
      simp
  | replied hdl host other thread =>
      apply owned.seen id
      rw [thread]
      exact seen
  | disconnected => cases seen
  | addProvider => cases seen
  | clearProviders => cases seen
  | launched => cases seen
  | closedOne => cases seen
  | stuck => cases seen
  | cleared => cases seen
  | _ => exact owned.seen id seen

theorem owned_fresh (owned : Owned s) (taken : Transition p s action t out) (id : Int)
    (adding : t.thread.adding = some id) (task : Hdl × Int) (member : task ∈ t.tasks) : task.2 ≠ id := by
  rcases transition_tasks p s t action out taken with same | ⟨_, _, _, idle, _⟩
  · rw [same] at member
    cases taken with
    | addProvider hdl payload request =>
        obtain ⟨slot, found⟩ := Option.ne_none_iff_exists'.mp (owned.known task member)
        have bounds := s.slot_known task.2 slot found
        cases adding
        rcases s.m_endpoint.connect_id (p.acceptsUri (request.index "host".toList).asText) with rejected | fresh
        · rw [rejected]
          omega
        · rw [fresh]
          omega
    | ready hdl host other handler thread =>
        refine owned.fresh id ?_ task member
        rw [thread]
        exact adding
    | replied hdl host other thread =>
        refine owned.fresh id ?_ task member
        rw [thread]
        exact adding
    | disconnected => cases adding
    | clearProviders => cases adding
    | launched => cases adding
    | closedOne => cases adding
    | stuck => cases adding
    | cleared => cases adding
    | _ => exact owned.fresh id adding task member
  · rw [idle] at adding
    cases adding

theorem owned_step (owned : Owned s) (taken : Transition p s action t out) : Owned t where
  busy := owned_busy p s t action out owned taken
  seen := owned_seen p s t action out owned taken
  fresh := owned_fresh p s t action out owned taken
  known := by
    intro task member
    apply slot_stays p s t action out task.2 taken
    rcases transition_tasks p s t action out taken with same | ⟨hdl, id, launching, _, grown⟩
    · rw [same] at member
      exact owned.known task member
    · rw [grown] at member
      rcases List.mem_append.mp member with old | new
      · exact owned.known task old
      · rw [List.mem_singleton.mp new]
        exact owned.seen id (by rw [launching]; rfl)
  distinct := by
    rcases transition_tasks p s t action out taken with same | ⟨hdl, id, launching, _, grown⟩
    · rw [same]
      exact owned.distinct
    · rw [grown, List.map_append]
      refine List.nodup_append.mpr ⟨owned.distinct, by simp, fun old member new single => ?_⟩
      obtain ⟨task, among, rfl⟩ := List.mem_map.mp member
      rw [List.mem_singleton.mp single]
      exact owned.fresh id (by rw [launching]; rfl) task among
  called := by
    intro id hdl now
    have old : (hdl, id) ∈ s.tasks := by
      rcases transition_slot p s t action out id taken with same | ⟨_, unset⟩ | ⟨_, _, ignored⟩ | ⟨task, other, _, found, call⟩
      · exact owned.called id hdl (by rw [← same]; exact now)
      · rw [unset] at now
        cases now
      · rw [ignored] at now
        cases now
      · rw [call] at now
        cases now
        exact List.mem_map.mpr ⟨_, List.mem_of_getElem? found, rfl⟩
    rcases transition_tasks p s t action out taken with same | ⟨_, _, _, _, grown⟩
    · rw [same]
      exact old
    · rw [grown]
      exact List.mem_append_left _ old

end

theorem reachable_owned (p : Platform D) (s : State) (reach : (aggregator p).Reachable .init s) : Owned s :=
  (aggregator p).reachable_invariant .init Owned owned_init
    (fun s a t out owned taken => owned_step p s t a out owned (step_transition p s t a out taken).2) s reach

end TradingFeed.Aggregator
