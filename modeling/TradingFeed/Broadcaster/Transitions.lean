import TradingFeed.Broadcaster.Registry

set_option autoImplicit false

namespace TradingFeed.Broadcaster

open TradingFeed.Json TradingFeed.Sockets

variable {D : Type}

-- What a step can do to a state without fault. A visit ends in one of three ways:
-- the callback is installed, the EndPoint is gone, or the id has no connection.
inductive Transition (p : Platform D) (s : State D) : Action → State D → List (Output D) → Prop where
  | connected (idle : s.thread = .idle) : Transition p s .connected { s with m_server := s.m_server.accept } []
  | disconnected (hdl : Hdl) (alive : s.m_server.alive hdl = true) (idle : s.thread = .idle) :
      Transition p s (.disconnected hdl) { s with m_server := s.m_server.drop hdl } []
  | malformed (hdl : Hdl) (payload : Text) (fault : LoadFault) (alive : s.m_server.alive hdl = true)
      (idle : s.thread = .idle) (raised : load p.fp payload = .error fault) :
      Transition p s (.message hdl payload) { s with fault := some (.load fault) } []
  | handled (hdl : Hdl) (payload : Text) (request : JSON D) (alive : s.m_server.alive hdl = true)
      (idle : s.thread = .idle) (loaded : load p.fp payload = .ok request) :
      Transition p s (.message hdl payload) (command p (subscribePart p s hdl request) hdl payload request).1
        (command p (subscribePart p s hdl request) hdl payload request).2
  | added (call : Adding) (thread : s.thread = .adding call) :
      Transition p s .wake (wakeAdding p s call).1 (wakeAdding p s call).2
  | deleted (e : Nat) (rest : List Nat) (thread : s.thread = .joining (e :: rest))
      (absent : s.endPoints.get e = none) : Transition p s .wake (destroy s rest) []
  | joined (e : Nat) (rest : List Nat) (endpoint : EndPoint Subscription) (thread : s.thread = .joining (e :: rest))
      (found : s.endPoints.get e = some endpoint)
      (settled : (endpoint.m_connection_list.toList.all fun entry => entry.2.settled) = true) :
      Transition p s .wake (destroy { s with endPoints := s.endPoints.delete e } rest) []
  | started (i : Nat) (sub : Subscription) (found : s.m_sendFutures[i]? = some ⟨sub, .launched⟩) :
      Transition p s (.start i) { s with m_sendFutures := s.m_sendFutures.set i ⟨sub, .walking s.tracked⟩ } []
  | installed (i : Nat) (sub : Subscription) (conn : Conn) (todo : List Conn)
      (found : s.m_sendFutures[i]? = some ⟨sub, .walking (conn :: todo)⟩) (known : (s.handler conn).isSome = true) :
      Transition p s (.visit i)
        { s.updateHandler conn (.onDataReceived sub) with
          m_sendFutures := s.m_sendFutures.set i ⟨sub, .walking todo⟩ } []
  | dangling (i : Nat) (sub : Subscription) (conn : Conn) (todo : List Conn)
      (found : s.m_sendFutures[i]? = some ⟨sub, .walking (conn :: todo)⟩)
      (gone : s.endPoints.get conn.endpoint = none) :
      Transition p s (.visit i) { s with fault := some .danglingEndPoint } []
  | unknown (i : Nat) (sub : Subscription) (conn : Conn) (todo : List Conn)
      (found : s.m_sendFutures[i]? = some ⟨sub, .walking (conn :: todo)⟩)
      (there : (s.endPoints.get conn.endpoint).isSome = true) (absent : s.handler conn = none) :
      Transition p s (.visit i) { s with fault := some .nullHandler } []
  | opened (conn : Conn) (handler : ClientHandler Subscription) (found : s.handler conn = some handler)
      (session : handler.session = .connecting) : Transition p s (.opened conn) (s.updateHandler conn .publishOpen) []
  | silenced (conn : Conn) (handler : ClientHandler Subscription) (found : s.handler conn = some handler)
      (opening : handler.opening = true) : Transition p s (.silenced conn) (s.updateHandler conn .ignoreData) []
  | failed (conn : Conn) (handler : ClientHandler Subscription) (found : s.handler conn = some handler)
      (session : handler.session = .connecting) : Transition p s (.failed conn) (s.updateHandler conn .onFail) []
  | lost (conn : Conn) (handler : ClientHandler Subscription) (found : s.handler conn = some handler)
      (receives : handler.receives = true) : Transition p s (.lost conn) (s.updateHandler conn .lose) []
  | closed (conn : Conn) (handler : ClientHandler Subscription) (found : s.handler conn = some handler)
      (status : handler.m_status = .opened) (session : handler.session = .closed) :
      Transition p s (.closed conn) (s.updateHandler conn .onClose) []
  | ignored (conn : Conn) (data : Text) (handler : ClientHandler Subscription) (status : JSON D)
      (found : s.handler conn = some handler) (receives : handler.receives = true)
      (slot : handler.dataReceivedSignal = .ignore) (loaded : load p.fp data = .ok status) :
      Transition p s (.received conn data) s []
  | delivered (conn : Conn) (data : Text) (handler : ClientHandler Subscription) (sub : Subscription)
      (status : JSON D) (found : s.handler conn = some handler) (receives : handler.receives = true)
      (slot : handler.dataReceivedSignal = .call sub) (alive : s.m_server.alive sub.hdl = true)
      (loaded : load p.fp data = .ok status) :
      Transition p s (.received conn data) (deliver sub status s).1 (deliver sub status s).2
  | escaped (conn : Conn) (data : Text) (handler : ClientHandler Subscription) (fault : Fault)
      (found : s.handler conn = some handler) (receives : handler.receives = true)
      (raised : clientOnMessage p handler data s = .error fault) :
      Transition p s (.received conn data) { s with fault := some fault } []

theorem server_event_some (s : State D) (given : State D × List (Output D)) (t : State D) (out : List (Output D))
    (taken : serverEvent s given = some (t, out)) : s.thread = .idle ∧ given = (t, out) := by
  dsimp only [serverEvent] at taken
  split at taken
  · rename_i idle
    exact ⟨idle, Option.some.inj taken⟩
  · cases taken

theorem quiet_some (next : Option (State D)) (t : State D) (out : List (Output D)) (taken : quiet next = some (t, out)) :
    next = some t ∧ out = [] := by
  cases next with
  | none => cases taken
  | some other =>
      cases taken
      exact ⟨rfl, rfl⟩

theorem conn_event_some (s t : State D) (conn : Conn) (ready : ClientHandler Subscription → Bool)
    (change : ClientHandler Subscription → ClientHandler Subscription) (taken : connEvent s conn ready change = some t) :
    ∃ handler, s.handler conn = some handler ∧ ready handler = true ∧ t = s.updateHandler conn change := by
  dsimp only [connEvent] at taken
  split at taken
  · cases taken
  · rename_i handler found
    by_cases allowed : ready handler = true
    · rw [if_pos allowed] at taken
      exact ⟨handler, found, allowed, (Option.some.inj taken).symm⟩
    · rw [if_neg allowed] at taken
      cases taken

theorem message_transition (p : Platform D) (s t : State D) (hdl : Hdl) (payload : Text) (out : List (Output D))
    (alive : s.m_server.alive hdl = true) (idle : s.thread = .idle)
    (done : outcome s (onMessage p s hdl payload) = (t, out)) : Transition p s (.message hdl payload) t out := by
  dsimp only [onMessage, loadText] at done
  cases loaded : load p.fp payload with
  | error fault =>
      rw [loaded] at done
      cases done
      exact .malformed hdl payload fault alive idle loaded
  | ok request =>
      have handled := Transition.handled (p := p) hdl payload request alive idle loaded
      rw [loaded] at done
      have same : command p (subscribePart p s hdl request) hdl payload request = (t, out) := done
      rw [same] at handled
      exact handled

theorem wake_transition (p : Platform D) (s t : State D) (out : List (Output D)) (taken : wake p s = some (t, out)) :
    Transition p s .wake t out := by
  dsimp only [wake] at taken
  split at taken
  · rename_i call thread
    have added := Transition.added (p := p) call thread
    rw [Option.some.inj taken] at added
    exact added
  · rename_i e rest thread
    obtain ⟨next, woken, same⟩ := Option.map_eq_some_iff.mp taken
    cases same
    dsimp only [wakeJoining] at woken
    split at woken
    · rename_i absent
      cases woken
      exact .deleted e rest thread absent
    · rename_i endpoint found
      split at woken
      · rename_i settled
        cases woken
        exact .joined e rest endpoint thread found settled
      · cases woken
  · cases taken

theorem start_transition (p : Platform D) (s t : State D) (i : Nat) (started : startTask s i = some t) :
    Transition p s (.start i) t [] := by
  dsimp only [startTask] at started
  split at started
  · rename_i sub found
    cases started
    exact .started i sub found
  · cases started

theorem visit_transition (p : Platform D) (s t : State D) (i : Nat) (visited : visitTask s i = some t) :
    Transition p s (.visit i) t [] := by
  dsimp only [visitTask] at visited
  split at visited
  · rename_i sub conn todo found
    split at visited
    · rename_i gone
      cases visited
      exact .dangling i sub conn todo found gone
    · rename_i endpoint there
      have pointer : s.handler conn = endpoint.get_metadata conn.id := by simp [State.handler, there]
      split at visited
      · rename_i absent
        cases visited
        exact .unknown i sub conn todo found (by simp [there]) (pointer.trans absent)
      · rename_i handler known
        cases visited
        exact .installed i sub conn todo found (by simp [pointer, known])
  · cases visited

theorem receive_transition (p : Platform D) (s t : State D) (conn : Conn) (data : Text) (out : List (Output D))
    (handler : ClientHandler Subscription) (found : s.handler conn = some handler) (receives : handler.receives = true)
    (done : outcome s (clientOnMessage p handler data s) = (t, out)) : Transition p s (.received conn data) t out := by
  cases called : clientOnMessage p handler data s with
  | error fault =>
      rw [called] at done
      cases done
      exact .escaped conn data handler fault found receives called
  | ok result =>
      rw [called] at done
      cases done
      obtain ⟨status, loaded, ⟨slot, same⟩ | ⟨sub, slot, alive, same⟩⟩ :=
        (client_on_message_ok p handler data s (t, out)).mp called
      · cases same
        exact .ignored conn data handler status found receives slot loaded
      · have delivered := Transition.delivered (p := p) conn data handler sub status found receives slot alive loaded
        rw [← same] at delivered
        exact delivered

theorem step_transition (p : Platform D) (s t : State D) (action : Action) (out : List (Output D))
    (taken : step p s action = some (t, out)) : s.fault = none ∧ Transition p s action t out := by
  dsimp only [step] at taken
  cases sound : s.fault with
  | some fault => simp [sound] at taken
  | none =>
      refine ⟨rfl, ?_⟩
      rw [if_neg (by simp [sound])] at taken
      cases action with
      | connected =>
          obtain ⟨idle, same⟩ := server_event_some s _ t out taken
          cases same
          exact .connected idle
      | disconnected hdl =>
          obtain ⟨alive, event⟩ := Option.ite_none_right_eq_some.mp taken
          obtain ⟨idle, same⟩ := server_event_some s _ t out event
          cases same
          exact .disconnected hdl alive idle
      | message hdl payload =>
          obtain ⟨alive, event⟩ := Option.ite_none_right_eq_some.mp taken
          obtain ⟨idle, done⟩ := server_event_some s _ t out event
          exact message_transition p s t hdl payload out alive idle done
      | wake => exact wake_transition p s t out taken
      | start i =>
          obtain ⟨started, rfl⟩ := quiet_some _ t out taken
          exact start_transition p s t i started
      | visit i =>
          obtain ⟨visited, rfl⟩ := quiet_some _ t out taken
          exact visit_transition p s t i visited
      | opened conn =>
          obtain ⟨event, rfl⟩ := quiet_some _ t out taken
          obtain ⟨handler, found, session, rfl⟩ := conn_event_some s t conn _ _ event
          exact .opened conn handler found (of_decide_eq_true session)
      | silenced conn =>
          obtain ⟨event, rfl⟩ := quiet_some _ t out taken
          obtain ⟨handler, found, opening, rfl⟩ := conn_event_some s t conn _ _ event
          exact .silenced conn handler found opening
      | failed conn =>
          obtain ⟨event, rfl⟩ := quiet_some _ t out taken
          obtain ⟨handler, found, session, rfl⟩ := conn_event_some s t conn _ _ event
          exact .failed conn handler found (of_decide_eq_true session)
      | lost conn =>
          obtain ⟨event, rfl⟩ := quiet_some _ t out taken
          obtain ⟨handler, found, receives, rfl⟩ := conn_event_some s t conn _ _ event
          exact .lost conn handler found receives
      | closed conn =>
          obtain ⟨event, rfl⟩ := quiet_some _ t out taken
          obtain ⟨handler, found, ready, rfl⟩ := conn_event_some s t conn _ _ event
          simp only [Bool.and_eq_true, decide_eq_true_eq] at ready
          exact .closed conn handler found ready.1 ready.2
      | received conn data =>
          dsimp only at taken
          split at taken
          · cases taken
          · rename_i handler found
            obtain ⟨receives, event⟩ := Option.ite_none_right_eq_some.mp taken
            exact receive_transition p s t conn data out handler found receives (Option.some.inj event)

theorem transition_step (p : Platform D) (s t : State D) (action : Action) (out : List (Output D))
    (sound : s.fault = none) (transition : Transition p s action t out) : step p s action = some (t, out) := by
  dsimp only [step]
  rw [if_neg (by simp [sound])]
  cases transition with
  | connected idle => simp only [serverEvent, idle]
  | disconnected hdl alive idle => simp only [serverEvent, idle, alive, if_true]
  | malformed hdl payload fault alive idle raised =>
      simp [serverEvent, idle, alive, outcome, onMessage, loadText, raised, Except.map]
  | handled hdl payload request alive idle loaded =>
      simp [serverEvent, idle, alive, outcome, onMessage, loadText, loaded, Except.map]
  | added call thread => simp only [wake, thread]
  | deleted e rest thread absent => simp only [wake, thread, wakeJoining, absent, Option.map_some]
  | joined e rest endpoint thread found settled =>
      simp only [wake, thread, wakeJoining, found, settled, if_true, Option.map_some]
  | started i sub found => simp only [quiet, startTask, found, Option.map_some]
  | installed i sub conn todo found known =>
      obtain ⟨handler, here⟩ := Option.isSome_iff_exists.mp known
      obtain ⟨endpoint, there, pointer⟩ := Option.bind_eq_some_iff.mp here
      simp only [quiet, visitTask, found, there, pointer, Option.map_some]
  | dangling i sub conn todo found gone => simp only [quiet, visitTask, found, gone, Option.map_some]
  | unknown i sub conn todo found there absent =>
      obtain ⟨endpoint, here⟩ := Option.isSome_iff_exists.mp there
      have pointer : endpoint.get_metadata conn.id = none := by simpa [State.handler, here] using absent
      simp only [quiet, visitTask, found, here, pointer, Option.map_some]
  | opened conn handler found session => simp [quiet, connEvent, found, session]
  | silenced conn handler found opening => simp [quiet, connEvent, found, opening]
  | failed conn handler found session => simp [quiet, connEvent, found, session]
  | lost conn handler found receives => simp [quiet, connEvent, found, receives]
  | closed conn handler found status session => simp [quiet, connEvent, found, status, session]
  | ignored conn data handler status found receives slot loaded =>
      have called := (client_on_message_ok p handler data s (s, [])).mpr ⟨status, loaded, Or.inl ⟨slot, rfl⟩⟩
      simp [found, receives, outcome, called]
  | delivered conn data handler sub status found receives slot alive loaded =>
      have called := (client_on_message_ok p handler data s (deliver sub status s)).mpr
        ⟨status, loaded, Or.inr ⟨sub, slot, alive, rfl⟩⟩
      simp [found, receives, outcome, called]
  | escaped conn data handler fault found receives raised => simp [found, receives, outcome, raised]

theorem step_server (p : Platform D) (s t : State D) (action : Action) (out : List (Output D))
    (taken : step p s action = some (t, out)) :
    t.m_server = match action with
      | .connected => s.m_server.accept
      | .disconnected hdl => s.m_server.drop hdl
      | _ => s.m_server := by
  obtain ⟨_, transition⟩ := step_transition p s t action out taken
  cases transition with
  | handled hdl payload request => exact (handled_effect p s _ hdl payload request rfl).1
  | added call => exact (steady_wake_adding p s call).server
  | deleted e rest => exact (steady_destroy s rest).server
  | joined e rest => exact (steady_destroy _ rest).server
  | delivered conn data handler sub status => exact (deliver_registry sub status s).server
  | _ => rfl

theorem step_futures (p : Platform D) (s t : State D) (action : Action) (out : List (Output D))
    (taken : step p s action = some (t, out)) :
    t.m_sendFutures = s.m_sendFutures ∨
      (∃ hdl payload tasks, action = .message hdl payload ∧ t.m_sendFutures = s.m_sendFutures ++ tasks ∧
        ∀ task ∈ tasks, task.phase = .launched ∧ task.sub.hdl = hdl) ∨
      (∃ i sub, action = .start i ∧ s.m_sendFutures[i]? = some ⟨sub, .launched⟩ ∧
        t.m_sendFutures = s.m_sendFutures.set i ⟨sub, .walking s.tracked⟩) ∨
      ∃ i sub conn todo, action = .visit i ∧ s.m_sendFutures[i]? = some ⟨sub, .walking (conn :: todo)⟩ ∧
        t.m_sendFutures = s.m_sendFutures.set i ⟨sub, .walking todo⟩ := by
  obtain ⟨_, transition⟩ := step_transition p s t action out taken
  cases transition with
  | handled hdl payload request =>
      obtain ⟨_, _, _, tasks, appended, phases⟩ := handled_effect p s _ hdl payload request rfl
      exact Or.inr (Or.inl ⟨hdl, payload, tasks, rfl, appended, phases⟩)
  | added call => exact Or.inl (steady_wake_adding p s call).futures
  | deleted e rest => exact Or.inl (steady_destroy s rest).futures
  | joined e rest => exact Or.inl (steady_destroy _ rest).futures
  | started i sub found => exact Or.inr (Or.inr (Or.inl ⟨i, sub, rfl, found, rfl⟩))
  | installed i sub conn todo found => exact Or.inr (Or.inr (Or.inr ⟨i, sub, conn, todo, rfl, found, rfl⟩))
  | delivered conn data handler sub status => exact Or.inl (deliver_registry sub status s).futures
  | _ => exact Or.inl rfl

theorem step_batch (p : Platform D) (s t : State D) (action : Action) (out : List (Output D))
    (taken : step p s action = some (t, out)) :
    t.m_broadcastArray = s.m_broadcastArray ∨ ∃ sub status, t = (deliver sub status s).1 := by
  obtain ⟨_, transition⟩ := step_transition p s t action out taken
  cases transition with
  | handled hdl payload request => exact Or.inl (handled_effect p s _ hdl payload request rfl).2.1
  | added call => exact Or.inl (steady_wake_adding p s call).batch
  | deleted e rest => exact Or.inl (steady_destroy s rest).batch
  | joined e rest => exact Or.inl (steady_destroy _ rest).batch
  | delivered conn data handler sub status => exact Or.inr ⟨sub, status, rfl⟩
  | _ => exact Or.inl rfl

structure HandlerRule (Q : ClientHandler Subscription → Prop) : Prop where
  new : ∀ id, Q (.new id)
  shut : ∀ handler, Q handler → handler.session = .opened → Q handler.shut
  opened : ∀ handler, Q handler → handler.session = .connecting → Q handler.publishOpen
  silenced : ∀ handler, Q handler → handler.opening = true → Q handler.ignoreData
  failed : ∀ handler, Q handler → handler.session = .connecting → Q handler.onFail
  lost : ∀ handler, Q handler → handler.receives = true → Q handler.lose
  closed : ∀ handler, Q handler → handler.m_status = .opened → handler.session = .closed → Q handler.onClose
  installed : ∀ handler sub, Q handler → Q (handler.onDataReceived sub)

def State.Every (Q : ClientHandler Subscription → Prop) (s : State D) : Prop :=
  ∀ conn handler, s.handler conn = some handler → Q handler

section

variable (Q : ClientHandler Subscription → Prop)

theorem every_grows (rule : HandlerRule Q) (s t : State D) (grows : Grows s t) (every : s.Every Q) : t.Every Q := by
  intro conn later found
  rcases grows.handlers conn with shuts | ⟨_, created⟩
  · rw [found] at shuts
    rcases shuts with same | ⟨handler, before, opened, same⟩
    · exact every conn later same.symm
    · cases same
      exact rule.shut handler (every conn handler before) opened
  · rw [found] at created
    cases created
    exact rule.new conn.id

theorem every_update (s : State D) (place : Conn) (handler : ClientHandler Subscription)
    (change : ClientHandler Subscription → ClientHandler Subscription) (found : s.handler place = some handler)
    (changed : Q (change handler)) (every : s.Every Q) : (s.updateHandler place change).Every Q := by
  intro conn later here
  rw [State.handler_update] at here
  split at here
  · rw [found] at here
    cases here
    exact changed
  · exact every conn later here

theorem every_step (rule : HandlerRule Q) (p : Platform D) (s t : State D) (action : Action) (out : List (Output D))
    (every : s.Every Q) (taken : step p s action = some (t, out)) : t.Every Q := by
  obtain ⟨_, transition⟩ := step_transition p s t action out taken
  cases transition with
  | handled hdl payload request => exact every_grows Q rule s _ (grows_handled p s hdl payload request) every
  | added call => exact every_grows Q rule s _ (grows_wake_adding p s call) every
  | deleted e rest => exact every_grows Q rule s _ (closes_grows _ _ (destroy_closes s rest)) every
  | joined e rest =>
      refine every_grows Q rule _ _ (closes_grows _ _ (destroy_closes _ rest)) fun conn handler found => ?_
      rw [handler_deleted] at found
      split at found
      · cases found
      · exact every conn handler found
  | installed i sub place todo found known =>
      obtain ⟨handler, here⟩ := Option.isSome_iff_exists.mp known
      exact every_update Q s place handler _ here (rule.installed handler sub (every place handler here)) every
  | opened place handler found session =>
      exact every_update Q s place handler _ found (rule.opened handler (every place handler found) session) every
  | silenced place handler found opening =>
      exact every_update Q s place handler _ found (rule.silenced handler (every place handler found) opening) every
  | failed place handler found session =>
      exact every_update Q s place handler _ found (rule.failed handler (every place handler found) session) every
  | lost place handler found receives =>
      exact every_update Q s place handler _ found (rule.lost handler (every place handler found) receives) every
  | closed place handler found status session =>
      exact every_update Q s place handler _ found (rule.closed handler (every place handler found) status session) every
  | delivered place data handler sub status =>
      exact every_grows Q rule s _ (grows_same s _ (deliver_registry sub status s).endPoints) every
  | _ => exact every

theorem reachable_every (rule : HandlerRule Q) (p : Platform D) (s : State D)
    (reach : (broadcaster p).Reachable .init s) : s.Every Q := by
  refine (broadcaster p).reachable_invariant .init (State.Every Q) (fun conn handler found => ?_)
    (fun s action t out every taken => every_step Q rule p s t action out every taken) s reach
  simp [State.handler, State.init, EndPoints.empty, EndPoints.get] at found

end

end TradingFeed.Broadcaster
