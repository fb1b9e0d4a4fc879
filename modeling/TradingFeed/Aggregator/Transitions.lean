import TradingFeed.Aggregator.Step

set_option autoImplicit false

namespace TradingFeed.Aggregator

open TradingFeed.Json TradingFeed.Sockets

variable {D : Type}

-- Everything a step can do, one constructor for each outcome with the guards it
-- has passed. The invariants below are proved by cases on it.
inductive Transition (p : Platform D) (s : State) : Action → State → List (Output D) → Prop where
  | connected (idle : s.thread = .idle) : Transition p s .connected { s with m_server := s.m_server.accept } []
  | disconnected (hdl : Hdl) (idle : s.thread = .idle) (alive : s.m_server.alive hdl = true) :
      Transition p s (.disconnected hdl) (handleClearProvider s hdl true) []
  | addProvider (hdl : Hdl) (payload : Text) (request : JSON D) (idle : s.thread = .idle)
      (alive : s.m_server.alive hdl = true) (loaded : load p.fp payload = .ok request)
      (action : (request.index "action".toList).asText = "add-provider".toList) :
      Transition p s (.message hdl payload) (handleAddProvider p s hdl request).1 (handleAddProvider p s hdl request).2
  | clearProviders (hdl : Hdl) (payload : Text) (request : JSON D) (idle : s.thread = .idle)
      (alive : s.m_server.alive hdl = true) (loaded : load p.fp payload = .ok request)
      (action : (request.index "action".toList).asText = "clear-providers".toList) :
      Transition p s (.message hdl payload) (handleClearProvider s hdl false) []
  | otherMessage (hdl : Hdl) (payload : Text) (request : JSON D) (out : List (Output D)) (idle : s.thread = .idle)
      (alive : s.m_server.alive hdl = true) (loaded : load p.fp payload = .ok request)
      (out_ : out = [.deleteAllPrices] ∨ out = []) : Transition p s (.message hdl payload) s out
  | malformed (hdl : Hdl) (payload : Text) (fault : LoadFault) (idle : s.thread = .idle)
      (alive : s.m_server.alive hdl = true) (raised : load p.fp payload = .error fault) :
      Transition p s (.message hdl payload) { s with fault := some (.load fault) } []
  | polled (hdl : Hdl) (host : Text) (id : Int) (thread : s.thread = .polling hdl host id)
      (unready : (s.handler id).map ClientHandler.m_status ≠ some .opened) : Transition p s .wake s []
  | ready (hdl : Hdl) (host : Text) (id : Int) (handler : ClientHandler Hdl)
      (thread : s.thread = .polling hdl host id) (found : s.handler id = some handler)
      (opened : handler.m_status = .opened) :
      Transition p s .wake
        { s with m_client_ids := s.m_client_ids ++ [id], thread := .acknowledging hdl host id } []
  | replied (hdl : Hdl) (host : Text) (id : Int) (thread : s.thread = .acknowledging hdl host id) :
      Transition p s .wake { s with m_close := false, thread := .launching hdl id }
        [.send hdl (providerReply host id)]
  | launched (hdl : Hdl) (id : Int) (thread : s.thread = .launching hdl id) :
      Transition p s .wake { s with m_sendFutures := s.m_sendFutures ++ [⟨hdl, id, .launched⟩], thread := .idle } []
  | closedOne (hdl : Hdl) (gone : Bool) (id : Int) (todo : List Int)
      (thread : s.thread = .clearing hdl gone (id :: todo)) (handler : ClientHandler Hdl)
      (found : s.handler id = some handler) (session : handler.session = .opened) :
      Transition p s .wake { s.updateHandler id .shut with thread := .clearing hdl gone todo } []
  | stuck (hdl : Hdl) (gone : Bool) (id : Int) (todo : List Int)
      (thread : s.thread = .clearing hdl gone (id :: todo))
      (unclosed : ∀ handler, s.handler id = some handler → handler.session ≠ .opened) :
      Transition p s .wake { s with m_client_ids := [], thread := .waiting } []
  | cleared (hdl : Hdl) (gone : Bool) (thread : s.thread = .clearing hdl gone []) :
      Transition p s .wake
        { s with
          m_client_ids := []
          thread := .idle
          m_server := if gone then s.m_server.drop hdl else s.m_server }
        [.send hdl (statusObject "procceed".toList [])]
  | started (task : Nat) (hdl : Hdl) (id : Int) (found : s.m_sendFutures[task]? = some ⟨hdl, id, .launched⟩) :
      Transition p s (.start task)
        (s.setTask task ⟨hdl, id, if s.m_server.alive hdl then .resolved else .broken⟩) []
  | installed (task : Nat) (hdl : Hdl) (id : Int) (handler : ClientHandler Hdl)
      (found : s.m_sendFutures[task]? = some ⟨hdl, id, .resolved⟩) (known : s.handler id = some handler) :
      Transition p s (.install task)
        ((s.updateHandler id (.onDataReceived hdl)).setTask task ⟨hdl, id, .installed⟩) []
  | unknown (task : Nat) (hdl : Hdl) (id : Int) (found : s.m_sendFutures[task]? = some ⟨hdl, id, .resolved⟩)
      (missing : s.handler id = none) :
      Transition p s (.install task) { s with fault := some .nullHandler } []
  | opened (id : Int) (handler : ClientHandler Hdl) (free : s.opening = none) (found : s.handler id = some handler)
      (session : handler.session = .connecting) :
      Transition p s (.opened id) { s.updateHandler id .publishOpen with opening := some id } []
  | silenced (id : Int) (opening : s.opening = some id) :
      Transition p s (.silenced id) { s.updateHandler id .ignoreData with opening := none } []
  | failed (id : Int) (handler : ClientHandler Hdl) (free : s.opening = none) (found : s.handler id = some handler)
      (session : handler.session = .connecting) : Transition p s (.failed id) (s.updateHandler id .onFail) []
  | lost (id : Int) (handler : ClientHandler Hdl) (free : s.opening = none) (found : s.handler id = some handler)
      (receives : handler.receives = true) : Transition p s (.lost id) (s.updateHandler id .lose) []
  | closed (id : Int) (handler : ClientHandler Hdl) (free : s.opening = none) (found : s.handler id = some handler)
      (status : handler.m_status = .opened) (session : handler.session = .closed) :
      Transition p s (.closed id) (s.updateHandler id .onClose) []
  | ignored (id : Int) (data : Text) (handler : ClientHandler Hdl) (free : s.opening = none)
      (found : s.handler id = some handler) (receives : handler.receives = true)
      (slot : handler.dataReceivedSignal = .ignore) : Transition p s (.received id data) s []
  | forwarded (id : Int) (data : Text) (handler : ClientHandler Hdl) (hdl : Hdl) (response : JSON D)
      (free : s.opening = none) (found : s.handler id = some handler) (receives : handler.receives = true)
      (slot : handler.dataReceivedSignal = .call hdl) (alive : s.m_server.alive hdl = true)
      (loaded : load p.fp data = .ok response) : Transition p s (.received id data) s [.send hdl response]
  | escaped (id : Int) (data : Text) (handler : ClientHandler Hdl) (fault : Fault)
      (free : s.opening = none) (found : s.handler id = some handler) (receives : handler.receives = true)
      (raised : clientOnMessage p s handler data = .error fault) :
      Transition p s (.received id data) { s with fault := some fault } []

theorem conn_event_some (s t : State) (id : Int) (guard : ClientHandler Hdl → Bool)
    (change : ClientHandler Hdl → ClientHandler Hdl) (taken : connEvent s id guard change = some t) :
    ∃ handler, s.opening = none ∧ s.handler id = some handler ∧ guard handler = true ∧ t = s.updateHandler id change := by
  unfold connEvent at taken
  cases free : s.opening with
  | some other => simp [free] at taken
  | none =>
      cases found : s.handler id with
      | none => simp [free, found] at taken
      | some handler =>
          by_cases ready : guard handler = true
          · simp only [free, found, if_pos ready, Option.some.injEq] at taken
            exact ⟨handler, rfl, rfl, ready, taken.symm⟩
          · simp [free, found, ready] at taken

theorem server_event_some (s : State) (hdl : Hdl) (result : Except Fault (State × List (Output D)))
    (done : State × List (Output D)) (taken : serverEvent s hdl result = some done) :
    s.thread = .idle ∧ s.m_server.alive hdl = true ∧
      (result = .ok done ∨ ∃ fault, result = .error fault ∧ done = ({ s with fault := some fault }, [])) := by
  dsimp only [serverEvent] at taken
  split at taken
  · rename_i idle
    by_cases alive : s.m_server.alive hdl = true
    · rw [if_pos alive] at taken
      refine ⟨idle, alive, ?_⟩
      cases result with
      | ok other => exact Or.inl (congrArg _ (Option.some.inj taken))
      | error fault => exact Or.inr ⟨fault, rfl, (Option.some.inj taken).symm⟩
    · rw [if_neg alive] at taken
      cases taken
  · cases taken

theorem quiet_some (next : Option State) (t : State) (out : List (Output D)) (taken : quiet next = some (t, out)) :
    next = some t ∧ out = [] := by
  cases next with
  | none => cases taken
  | some other =>
      cases taken
      exact ⟨rfl, rfl⟩

theorem message_transition (p : Platform D) (s t : State) (hdl : Hdl) (payload : Text) (out : List (Output D))
    (taken : serverEvent s hdl (onMessage p s hdl payload) = some (t, out)) :
    Transition p s (.message hdl payload) t out := by
  obtain ⟨idle, alive, result⟩ := server_event_some s hdl _ _ taken
  dsimp only [onMessage, loadText] at result
  cases loaded : load p.fp payload with
  | error fault =>
      rcases result with done | ⟨cause, raised, same⟩
      · simp [loaded, Except.map] at done
      · simp only [loaded, Except.map, Except.error.injEq] at raised
        subst cause
        cases same
        exact .malformed hdl payload fault idle alive loaded
  | ok request =>
      rcases result with done | ⟨cause, raised, _⟩
      · simp only [loaded, Except.map, Except.ok.injEq] at done
        dsimp only [command] at done
        by_cases add : (request.index "action".toList).asText = "add-provider".toList
        · rw [if_pos add] at done
          have made := Transition.addProvider (p := p) hdl payload request idle alive loaded add
          rw [done] at made
          exact made
        · rw [if_neg add] at done
          by_cases clear : (request.index "action".toList).asText = "clear-providers".toList
          · rw [if_pos clear] at done
            cases done
            exact .clearProviders hdl payload request idle alive loaded clear
          · rw [if_neg clear] at done
            split at done
            · cases done
              exact .otherMessage hdl payload request _ idle alive loaded (Or.inl rfl)
            · cases done
              exact .otherMessage hdl payload request _ idle alive loaded (Or.inr rfl)
      · simp [loaded, Except.map] at raised

theorem clear_transition (p : Platform D) (s t : State) (hdl : Hdl) (gone : Bool) (todo : List Int)
    (out : List (Output D)) (thread : s.thread = .clearing hdl gone todo)
    (done : clearNext s hdl gone todo = (t, out)) : Transition p s .wake t out := by
  cases todo with
  | nil =>
      cases done
      exact .cleared hdl gone thread
  | cons id todo =>
      unfold clearNext EndPoint.close at done
      dsimp only at done
      cases found : s.m_endpoint.get_metadata id with
      | none =>
          rw [found] at done
          cases done
          exact .stuck hdl gone id todo thread fun handler some_ => by simp [State.handler, found] at some_
      | some handler =>
          rw [found] at done
          by_cases session : handler.session = .opened
          · simp only [if_pos session] at done
            cases done
            exact .closedOne hdl gone id todo thread handler found session
          · simp only [if_neg session] at done
            cases done
            refine .stuck hdl gone id todo thread fun other same => ?_
            cases found.symm.trans same
            exact session

theorem wake_transition (p : Platform D) (s t : State) (out : List (Output D)) (taken : wake s = some (t, out)) :
    Transition p s .wake t out := by
  dsimp only [wake] at taken
  split at taken
  · rename_i hdl host id thread
    cases taken
    dsimp only [poll]
    cases found : s.handler id with
    | none =>
        rw [if_neg (by simp)]
        exact .polled hdl host id thread (by simp [found])
    | some handler =>
        by_cases opened : handler.m_status = .opened
        · rw [if_pos (by simp [opened])]
          exact .ready hdl host id handler thread found opened
        · rw [if_neg (by simp [opened])]
          exact .polled hdl host id thread (by simp [found, opened])
  · rename_i hdl host id thread
    cases taken
    exact .replied hdl host id thread
  · rename_i hdl id thread
    cases taken
    exact .launched hdl id thread
  · rename_i hdl gone todo thread
    exact clear_transition p s t hdl gone todo out thread (Option.some.inj taken)
  · cases taken

theorem task_transition (p : Platform D) (s t : State) (task : Nat) (out : List (Output D))
    (taken : quiet (startTask s task) = some (t, out)) : Transition p s (.start task) t out := by
  obtain ⟨started, rfl⟩ := quiet_some _ t out taken
  dsimp only [startTask] at started
  split at started
  · rename_i hdl id found
    cases started
    exact .started task hdl id found
  · cases started

theorem install_transition (p : Platform D) (s t : State) (task : Nat) (out : List (Output D))
    (taken : quiet (installTask s task) = some (t, out)) : Transition p s (.install task) t out := by
  obtain ⟨installed, rfl⟩ := quiet_some _ t out taken
  dsimp only [installTask] at installed
  split at installed
  · rename_i hdl id found
    cases known : s.handler id with
    | none =>
        simp only [known, Option.some.injEq] at installed
        subst installed
        exact .unknown task hdl id found known
    | some handler =>
        simp only [known, Option.some.injEq] at installed
        subst installed
        exact .installed task hdl id handler found known
  · cases installed

theorem receive_transition (p : Platform D) (s t : State) (id : Int) (data : Text) (out : List (Output D))
    (taken : receive p s id data = some (t, out)) : Transition p s (.received id data) t out := by
  dsimp only [receive] at taken
  split at taken
  · rename_i handler free found
    by_cases receives : handler.receives = true
    · rw [if_pos receives] at taken
      cases raised : clientOnMessage p s handler data with
      | error fault =>
          rw [raised] at taken
          cases taken
          exact .escaped id data handler fault free found receives raised
      | ok sent =>
          rw [raised] at taken
          cases taken
          dsimp only [clientOnMessage, emitDataReceived] at raised
          cases slot : handler.dataReceivedSignal with
          | unset => simp [slot] at raised
          | ignore =>
              rw [slot] at raised
              cases raised
              exact .ignored id data handler free found receives slot
          | call hdl =>
              rw [slot] at raised
              dsimp only [forward, loadText] at raised
              by_cases alive : s.m_server.alive hdl = true
              · cases loaded : load p.fp data with
                | error fault => simp [alive, loaded, Except.map] at raised
                | ok response =>
                    simp only [if_pos alive, loaded, Except.map, Except.ok.injEq] at raised
                    subst raised
                    exact .forwarded id data handler hdl response free found receives slot alive loaded
              · simp [alive] at raised
    · rw [if_neg receives] at taken
      cases taken
  · cases taken

theorem step_transition (p : Platform D) (s t : State) (action : Action) (out : List (Output D))
    (taken : step p s action = some (t, out)) : s.fault = none ∧ Transition p s action t out := by
  dsimp only [step] at taken
  cases sound : s.fault with
  | some fault => simp [sound] at taken
  | none =>
      refine ⟨rfl, ?_⟩
      rw [if_neg (by simp [sound])] at taken
      cases action with
      | connected =>
          dsimp only at taken
          split at taken
          · rename_i idle
            cases taken
            exact .connected idle
          · cases taken
      | disconnected hdl =>
          obtain ⟨idle, alive, done | ⟨fault, raised, _⟩⟩ := server_event_some s hdl _ _ taken
          · cases done
            exact .disconnected hdl idle alive
          · cases raised
      | message hdl payload => exact message_transition p s t hdl payload out taken
      | wake => exact wake_transition p s t out taken
      | start task => exact task_transition p s t task out taken
      | install task => exact install_transition p s t task out taken
      | opened id =>
          obtain ⟨opened, rfl⟩ := quiet_some _ t out taken
          obtain ⟨mid, event, rfl⟩ := Option.map_eq_some_iff.mp opened
          obtain ⟨handler, free, found, session, rfl⟩ := conn_event_some s mid id _ _ event
          exact .opened id handler free found (of_decide_eq_true session)
      | silenced id =>
          obtain ⟨silenced, rfl⟩ := quiet_some _ t out taken
          dsimp only [silence] at silenced
          split at silenced
          · rename_i opening
            cases silenced
            exact .silenced id opening
          · cases silenced
      | failed id =>
          obtain ⟨event, rfl⟩ := quiet_some _ t out taken
          obtain ⟨handler, free, found, session, rfl⟩ := conn_event_some s t id _ _ event
          exact .failed id handler free found (of_decide_eq_true session)
      | lost id =>
          obtain ⟨event, rfl⟩ := quiet_some _ t out taken
          obtain ⟨handler, free, found, receives, rfl⟩ := conn_event_some s t id _ _ event
          exact .lost id handler free found receives
      | closed id =>
          obtain ⟨event, rfl⟩ := quiet_some _ t out taken
          obtain ⟨handler, free, found, ready, rfl⟩ := conn_event_some s t id _ _ event
          simp only [Bool.and_eq_true, decide_eq_true_eq] at ready
          exact .closed id handler free found ready.1 ready.2
      | received id data => exact receive_transition p s t id data out taken

end TradingFeed.Aggregator
