import TradingFeed.Broadcaster.Delivery

set_option autoImplicit false

namespace TradingFeed.Broadcaster

open TradingFeed.Json TradingFeed.Sockets

variable {D : Type}

-- Runs in which aggregators are added, connections open and subscriptions of a
-- kind are asked for; no connection that receives is closed or lost.
def Arriving (p : Platform D) (good : Subscription → Prop) : Action → Prop
  | .message hdl payload =>
      (∃ request, Asks p payload "add-trading-aggregator".toList request) ∨
        ∃ request, Asks p payload "subscribe".toList request ∧ good ⟨hdl, channel request⟩
  | .disconnected _ | .lost _ | .closed _ => False
  | _ => True

def Calm (s : State D) : Prop := ∀ endpoints, s.thread ≠ .joining endpoints

theorem handled_arriving (p : Platform D) (s : State D) (good : Subscription → Prop) (hdl : Hdl) (payload : Text)
    (request : JSON D) (arriving : Arriving p good (.message hdl payload)) (loaded : load p.fp payload = .ok request) :
    (command p (subscribePart p s hdl request) hdl payload request).1 = (handleAddAggregator p s hdl request).1 ∨
      ∃ sub, good sub ∧ (command p (subscribePart p s hdl request) hdl payload request).1 = launch s sub := by
  rcases arriving with ⟨other, asks⟩ | ⟨other, asks, subscribed⟩
  · cases asks.loaded.symm.trans loaded
    exact Or.inl (congrArg Prod.fst (asks_add_aggregator p s hdl payload request asks))
  · cases asks.loaded.symm.trans loaded
    exact Or.inr ⟨_, subscribed, congrArg Prod.fst (asks_subscribing p s hdl payload _ request asks (Or.inl rfl))⟩

theorem add_calm (p : Platform D) (s : State D) (hdl : Hdl) (request : JSON D) :
    Calm (handleAddAggregator p s hdl request).1 := by
  intro endpoints
  dsimp only [handleAddAggregator]
  split <;> simp

theorem wake_calm (p : Platform D) (s : State D) (call : Adding) : Calm (wakeAdding p s call).1 := by
  intro endpoints
  dsimp only [wakeAdding, replyAdded]
  split
  · simp
  · split <;> simp

theorem calm_step (p : Platform D) (s t : State D) (good : Subscription → Prop) (action : Action)
    (out : List (Output D)) (calm : Calm s) (arriving : Arriving p good action)
    (taken : step p s action = some (t, out)) : Calm t := by
  obtain ⟨_, transition⟩ := step_transition p s t action out taken
  cases transition with
  | handled hdl payload request _ _ loaded =>
      rcases handled_arriving p s good hdl payload request arriving loaded with same | ⟨sub, _, same⟩
      · rw [same]
        exact add_calm p s hdl request
      · rw [same]
        exact calm
  | added call => exact wake_calm p s call
  | deleted e rest thread => exact absurd thread (calm _)
  | joined e rest endpoint thread => exact absurd thread (calm _)
  | delivered place data handler sub status =>
      intro endpoints
      rw [(deliver_registry sub status s).thread]
      exact calm endpoints
  | _ => exact calm

theorem arriving_tracked (p : Platform D) (s t : State D) (good : Subscription → Prop) (action : Action)
    (out : List (Output D)) (conn : Conn) (calm : action = .wake → Calm s) (arriving : Arriving p good action)
    (taken : step p s action = some (t, out)) (tracked : conn ∈ s.tracked) : conn ∈ t.tracked := by
  obtain ⟨_, transition⟩ := step_transition p s t action out taken
  cases transition with
  | handled hdl payload request _ _ loaded =>
      rcases handled_arriving p s good hdl payload request arriving loaded with same | ⟨sub, _, same⟩
      · rw [same, tracked_same s _ (add_aggregator_endpoints p s hdl request)]
        exact tracked
      · rw [same]
        exact tracked
  | added call =>
      rw [tracked_same (trackId s call) _ (wake_adding_endpoints p s call)]
      exact (tracked_track_id s call conn).mpr (Or.inl tracked)
  | deleted e rest thread => exact absurd thread (calm rfl _)
  | joined e rest endpoint thread => exact absurd thread (calm rfl _)
  | delivered place data handler sub status =>
      rw [tracked_same s _ (deliver_registry sub status s).endpoints]
      exact tracked
  | _ => exact tracked

theorem receives_grows (s t : State D) (conn : Conn) (grows : Grows s t) (receives : s.Receives conn) :
    Shuts (s.handler conn) (t.handler conn) := by
  rcases grows.handlers conn with shuts | ⟨absent, _⟩
  · exact shuts
  · obtain ⟨handler, found, _⟩ := receives
    rw [absent] at found
    cases found

theorem receives_elsewhere (s : State D) (conn place : Conn) (handler : ClientHandler Subscription)
    (change : ClientHandler Subscription → ClientHandler Subscription) (found : s.handler place = some handler)
    (deaf : handler.receives = false) (receives : s.Receives conn) :
    Shuts (s.handler conn) ((s.updateHandler place change).handler conn) := by
  by_cases here : conn = place
  · obtain ⟨_, again, open_⟩ := receives
    rw [here, found] at again
    cases again
    rw [deaf] at open_
    cases open_
  · rw [State.handler_update, if_neg here]
    exact shuts_refl _

theorem arriving_shuts (p : Platform D) (s t : State D) (good : Subscription → Prop) (action : Action)
    (out : List (Output D)) (conn : Conn) (calm : action = .wake → Calm s) (arriving : Arriving p good action)
    (other : ∀ task, action ≠ .visit task) (taken : step p s action = some (t, out)) (receives : s.Receives conn) :
    Shuts (s.handler conn) (t.handler conn) := by
  obtain ⟨_, transition⟩ := step_transition p s t action out taken
  cases transition with
  | handled hdl payload request => exact receives_grows s _ conn (grows_handled p s hdl payload request) receives
  | added call => exact receives_grows s _ conn (grows_wake_adding p s call) receives
  | deleted e rest thread => exact absurd thread (calm rfl _)
  | joined e rest endpoint thread => exact absurd thread (calm rfl _)
  | installed i => exact absurd rfl (other i)
  | opened place handler found session =>
      exact receives_elsewhere s conn place handler _ found (by simp [ClientHandler.receives, session]) receives
  | silenced place handler found opening =>
      exact receives_elsewhere s conn place handler _ found (by simp [ClientHandler.receives, opening]) receives
  | failed place handler found session =>
      exact receives_elsewhere s conn place handler _ found (by simp [ClientHandler.receives, session]) receives
  | lost => exact False.elim arriving
  | closed => exact False.elim arriving
  | delivered place data handler sub status =>
      exact Or.inl (handler_same s _ (deliver_registry sub status s).endPoints conn)
  | _ => exact shuts_refl _

structure Standing (good : Subscription → Prop) (conn : Conn) (s : State D) : Prop where
  subs : ∀ task ∈ s.m_sendFutures, task.finished = false → good task.sub
  tracked : conn ∈ s.tracked
  receives : s.Receives conn

-- The i-th task and one connection it must reach: the connection carries a good
-- callback already or the task has still to visit it.
structure Carried (good : Subscription → Prop) (i : Nat) (conn : Conn) (s : State D) : Prop
    extends Standing good conn s where
  reached : (∃ sub, good sub ∧ s.InForce conn sub) ∨
    ∃ task, s.m_sendFutures[i]? = some task ∧ conn ∈ task.remaining s.tracked

theorem subs_step (p : Platform D) (s t : State D) (good : Subscription → Prop) (action : Action)
    (out : List (Output D)) (arriving : Arriving p good action) (taken : step p s action = some (t, out))
    (subs : ∀ task ∈ s.m_sendFutures, task.finished = false → good task.sub) :
    ∀ task ∈ t.m_sendFutures, task.finished = false → good task.sub := by
  intro task member unfinished
  rcases step_unfinished p s t action out task taken member unfinished with ⟨old, before, open_, same⟩ | new
  · rw [← same]
    exact subs old before open_
  · obtain ⟨hdl, payload, rfl, _⟩ := new
    obtain ⟨_, transition⟩ := step_transition p s t _ out taken
    cases transition with
    | malformed => exact subs task member unfinished
    | handled _ _ request _ _ loaded =>
        rcases handled_arriving p s good hdl payload request arriving loaded with same | ⟨sub, given, same⟩
        · rw [same, (steady_add_aggregator p s hdl request).futures] at member
          exact subs task member unfinished
        · rw [same] at member
          rcases List.mem_append.mp member with old | new
          · exact subs task old unfinished
          · rw [List.mem_singleton.mp new]
            exact given

theorem getElem_set_of_other {α : Type} (l : List α) (i j : Nat) (old new found : α) (here : l[i]? = some old)
    (at_ : l[j]? = some found) : (l.set j new)[i]? = some (if i = j then new else old) := by
  by_cases same : i = j
  · subst same
    simp [List.getElem?_set_self (List.getElem?_eq_some_iff.mp at_).1]
  · rw [if_neg same, List.getElem?_set_ne (Ne.symm same), here]

theorem install_receives (s t : State D) (place conn : Conn) (sub : Subscription)
    (objects : t.endPoints = (s.updateHandler place (.onDataReceived sub)).endPoints) (receives : s.Receives conn) :
    t.Receives conn := by
  have same := handler_same (s.updateHandler place (.onDataReceived sub)) t objects conn
  by_cases here : conn = place
  · subst here
    apply in_force_receives t conn sub
    exact (in_force_same _ t conn sub objects).mpr (installed_in_force s conn sub receives)
  · exact receives_shuts s t conn (Or.inl (same.trans (installed_elsewhere s place conn sub here))) receives

theorem visit_receives (p : Platform D) (s t : State D) (i : Nat) (out : List (Output D)) (conn : Conn)
    (taken : step p s (.visit i) = some (t, out)) (receives : s.Receives conn) : t.Receives conn := by
  obtain ⟨_, transition⟩ := step_transition p s t _ out taken
  cases transition with
  | installed _ sub place => exact install_receives s _ place conn sub rfl receives
  | _ => exact receives

theorem standing_step (p : Platform D) (s t : State D) (good : Subscription → Prop) (action : Action)
    (out : List (Output D)) (conn : Conn) (calm : action = .wake → Calm s) (arriving : Arriving p good action)
    (standing : Standing good conn s) (taken : step p s action = some (t, out)) : Standing good conn t := by
  refine ⟨subs_step p s t good action out arriving taken standing.subs,
    arriving_tracked p s t good action out conn calm arriving taken standing.tracked, ?_⟩
  by_cases visit : ∃ task, action = .visit task
  · obtain ⟨task, rfl⟩ := visit
    exact visit_receives p s t task out conn taken standing.receives
  · exact receives_shuts s t conn (arriving_shuts p s t good action out conn calm arriving
      (fun task same => visit ⟨task, same⟩) taken standing.receives) standing.receives

theorem visit_reached (p : Platform D) (s t : State D) (good : Subscription → Prop) (i j : Nat)
    (out : List (Output D)) (conn : Conn) (carried : Carried good i conn s)
    (taken : step p s (.visit j) = some (t, out)) :
    (∃ sub, good sub ∧ t.InForce conn sub) ∨
      ∃ task, t.m_sendFutures[i]? = some task ∧ conn ∈ task.remaining s.tracked := by
  obtain ⟨_, transition⟩ := step_transition p s t _ out taken
  cases transition with
  | dangling => exact carried.reached
  | unknown => exact carried.reached
  | installed _ sub place todo found =>
      by_cases here : conn = place
      · subst here
        have given := carried.subs _ (List.mem_of_getElem? found) rfl
        exact Or.inl ⟨sub, given, installed_in_force s conn sub carried.receives⟩
      · have kept := installed_elsewhere s place conn sub here
        rcases carried.reached with ⟨other, fine, force⟩ | ⟨task, held, waiting⟩
        · exact Or.inl ⟨other, fine, (in_force_shuts s _ conn other (Or.inl kept)).mpr force⟩
        · refine Or.inr ⟨_, getElem_set_of_other s.m_sendFutures i j task ⟨sub, .walking todo⟩ _ held found, ?_⟩
          by_cases same : i = j
          · subst same
            rw [found] at held
            cases held
            rw [if_pos rfl]
            exact (List.mem_cons.mp waiting).resolve_left here
          · rw [if_neg same]
            exact waiting

theorem remaining_grows (task : Task) (before after : List Conn) (conn : Conn)
    (grows : conn ∈ before → conn ∈ after) (waiting : conn ∈ task.remaining before) : conn ∈ task.remaining after := by
  obtain ⟨sub, phase⟩ := task
  cases phase with
  | launched => exact grows waiting
  | walking todo => exact waiting

theorem futures_reached (p : Platform D) (s t : State D) (action : Action) (out : List (Output D)) (i : Nat)
    (conn : Conn) (task : Task) (other : ∀ task, action ≠ .visit task) (taken : step p s action = some (t, out))
    (held : s.m_sendFutures[i]? = some task) (waiting : conn ∈ task.remaining s.tracked) :
    ∃ later, t.m_sendFutures[i]? = some later ∧ conn ∈ later.remaining s.tracked := by
  rcases step_futures p s t action out taken with same | launched | started | visited
  · exact ⟨task, by rw [same, held], waiting⟩
  · obtain ⟨_, _, tasks, _, appended, _⟩ := launched
    refine ⟨task, ?_, waiting⟩
    rw [appended, List.getElem?_append_left (List.getElem?_eq_some_iff.mp held).1, held]
  · obtain ⟨j, sub, _, found, updated⟩ := started
    rw [updated]
    refine ⟨_, getElem_set_of_other s.m_sendFutures i j task ⟨sub, .walking s.tracked⟩ _ held found, ?_⟩
    by_cases same : i = j
    · subst same
      rw [found] at held
      cases held
      rw [if_pos rfl]
      exact waiting
    · rw [if_neg same]
      exact waiting
  · obtain ⟨j, _, _, _, visit, _⟩ := visited
    exact absurd visit (other j)

theorem carried_step (p : Platform D) (s t : State D) (good : Subscription → Prop) (action : Action)
    (out : List (Output D)) (i : Nat) (conn : Conn) (calm : action = .wake → Calm s) (arriving : Arriving p good action)
    (carried : Carried good i conn s) (taken : step p s action = some (t, out)) : Carried good i conn t := by
  have standing := standing_step p s t good action out conn calm arriving carried.toStanding taken
  have tracked := arriving_tracked p s t good action out conn calm arriving taken
  refine ⟨standing, ?_⟩
  by_cases visit : ∃ task, action = .visit task
  · obtain ⟨task, rfl⟩ := visit
    rcases visit_reached p s t good i task out conn carried taken with force | ⟨later, after, still⟩
    · exact Or.inl force
    · exact Or.inr ⟨later, after, remaining_grows later _ _ conn tracked still⟩
  · have other : ∀ task, action ≠ .visit task := fun task same => visit ⟨task, same⟩
    have shuts := arriving_shuts p s t good action out conn calm arriving other taken carried.receives
    rcases carried.reached with ⟨sub, given, force⟩ | ⟨task, held, waiting⟩
    · exact Or.inl ⟨sub, given, (in_force_shuts s t conn sub shuts).mpr force⟩
    · obtain ⟨later, after, still⟩ := futures_reached p s t action out i conn task other taken held waiting
      exact Or.inr ⟨later, after, remaining_grows later _ _ conn tracked still⟩

theorem carried_finished (s : State D) (good : Subscription → Prop) (i : Nat) (conn : Conn)
    (carried : Carried good i conn s) (finished : ∀ task ∈ s.m_sendFutures, task.finished = true) :
    ∃ sub, good sub ∧ s.InForce conn sub := by
  rcases carried.reached with reached | ⟨task, held, waiting⟩
  · exact reached
  · rw [finished_remaining task (finished task (List.mem_of_getElem? held)) s.tracked] at waiting
    cases waiting

theorem launch_carried (s : State D) (good : Subscription → Prop) (sub : Subscription) (conn : Conn)
    (standing : Standing good conn s) (given : good sub) :
    Carried good s.m_sendFutures.length conn (launch s sub) := by
  refine ⟨⟨?_, standing.tracked, standing.receives⟩,
    Or.inr ⟨⟨sub, .launched⟩, by simp [launch], standing.tracked⟩⟩
  intro task member unfinished
  rcases List.mem_append.mp member with old | new
  · exact standing.subs task old unfinished
  · rw [List.mem_singleton.mp new]
    exact given

def OnlyReceived (action : Action) : Prop := ∃ conn data, action = .received conn data

theorem in_force_later (p : Platform D) (s t : State D) (actions : List Action) (log : List (List (Output D)))
    (conn : Conn) (sub : Subscription) (only : ∀ action ∈ actions, OnlyReceived action)
    (ran : (broadcaster p).run s actions = some (t, log)) (force : s.InForce conn sub) : t.InForce conn sub := by
  refine (broadcaster p).run_invariant (fun _ action => OnlyReceived action) (fun s => s.InForce conn sub) ?_
    actions s t log force ((broadcaster p).along_always _ actions s fun _ action member => only action member) ran
  rintro s _ t out force ⟨place, data, rfl⟩ taken
  obtain ⟨_, transition⟩ := step_transition p s t (.received place data) out taken
  cases transition with
  | delivered _ _ handler given status =>
      exact (in_force_same s _ conn sub (deliver_registry given status s).endPoints).mpr force
  | _ => exact force

end TradingFeed.Broadcaster
