import TradingFeed.Broadcaster.Callback
import TradingFeed.Library.Runs

set_option autoImplicit false

namespace TradingFeed.Broadcaster

open TradingFeed.Json TradingFeed.Sockets

variable {D : Type}

def launch (s : State D) (sub : Subscription) : State D :=
  { s with m_sendFutures := s.m_sendFutures ++ [⟨sub, .launched⟩] }

-- The first branch of on_message: subscribe, unsubscribe and any request with a
-- status take it, and each call of subscribeMessages launches one task.
def subscribePart (p : Platform D) (s : State D) (hdl : Hdl) (request : JSON D) : State D :=
  let action := (request.index "action".toList).asText
  let status := (request.index "status".toList).asText
  if action = "subscribe".toList ∨ action = "unsubscribe".toList ∨ status ≠ [] then
    let first :=
      if status ≠ [] then
        launch s ⟨hdl, ((request.indexed "action".toList).indexed "status".toList).dump p.fp⟩
      else s
    launch first ⟨hdl, (request.index "channel".toList).asText⟩
  else s

def aggregatorSend (s : State D) (conn : Conn) (payload : Text) : List (Output D) :=
  if (s.handler conn).isSome then [.aggregatorSend conn payload] else []

def sendTracked (s : State D) (payload : Text) : List (Output D) :=
  s.tracked.flatMap fun conn => aggregatorSend s conn payload

def handleClearPrices (s : State D) (payload : Text) : State D × List (Output D) :=
  ({ s with m_clearedPrices := true }, sendTracked s payload)

def handleClearProviders (s : State D) (payload : Text) : State D × List (Output D) := (s, sendTracked s payload)

-- The calls of EndPoint::send in the loops of handle_add_provider, in their order.
def providerCalls (s : State D) (payload : Text) : List (Conn × Text) :=
  s.tracked.flatMap fun conn =>
    (s.m_ids.toList.filter fun target => target = conn.id).map fun _ => (conn, payload)

def handleAddProvider (s : State D) (payload : Text) (request : JSON D) : State D × List (Output D) :=
  if s.m_endpoints.isEmpty then (s, [])
  else
    let symbols := (request.index "symbols".toList).elements.map JSON.asText
    ({ s with m_symbols := s.m_symbols.insertMany symbols },
      (providerCalls s payload).flatMap fun call => aggregatorSend s call.1 call.2)

def connectOn (p : Platform D) (s : State D) (e : Nat) (host : Text) : State D × Int :=
  match s.endPoints.get e with
  | none => (s, -1)
  | some endpoint =>
      let connected := endpoint.connect (p.acceptsUri host)
      ({ s with endPoints := s.endPoints.update e fun _ => connected.1 }, connected.2)

def handleAddAggregator (p : Platform D) (s : State D) (hdl : Hdl) (request : JSON D) : State D × List (Output D) :=
  let host := (request.index "host".toList).asText
  match s.m_endpoints.keys with
  | [] =>
      let connected := (EndPoint.new : EndPoint Subscription).connect (p.acceptsUri host)
      ({ s with
          endPoints := s.endPoints.allocate connected.1
          thread := .adding ⟨hdl, host, s.endPoints.allocated, connected.2, true, []⟩ }, [])
  | e :: rest =>
      let connected := connectOn p s e host
      ({ connected.1 with thread := .adding ⟨hdl, host, e, connected.2, false, rest⟩ }, [])

def handleError (hdl : Hdl) (status message : Text) : Output D := .send hdl (.status status message)

def replyAdded (s : State D) (call : Adding) : State D × List (Output D) :=
  ({ s with thread := .idle },
    [if call.clientId ≠ -1 then
        handleError call.hdl "processed".toList ("connected to ".toList ++ call.host)
      else handleError call.hdl "processed".toList ("error connecting to ".toList ++ call.host)])

def trackId (s : State D) (call : Adding) : State D :=
  { s with
    m_ids := s.m_ids.insert call.clientId
    m_endpoints := s.m_endpoints.insert call.endpoint
      ((s.m_endpoints[call.endpoint]?.getD ∅).insert call.clientId) }

def wakeAdding (p : Platform D) (s : State D) (call : Adding) : State D × List (Output D) :=
  let added := trackId s call
  if call.first then replyAdded added call
  else
    let again := (connectOn p added call.endpoint call.host).1
    match call.rest with
    | [] => replyAdded again call
    | e :: rest =>
        let connected := connectOn p again e call.host
        ({ connected.1 with
            thread := .adding { call with endpoint := e, clientId := connected.2, rest := rest } }, [])

def closeIds (endpoint : EndPoint Subscription) : List Int → EndPoint Subscription × Bool
  | [] => (endpoint, false)
  | id :: rest =>
      let closed := endpoint.close true id
      if closed.2 then closed else closeIds closed.1 rest

def closeAll (s : State D) : List (Nat × Std.TreeSet Int) → State D × Bool
  | [] => (s, false)
  | (e, ids) :: rest =>
      match s.endPoints.get e with
      | none => closeAll s rest
      | some endpoint =>
          let closed := closeIds endpoint ids.toList
          let others := closeAll { s with endPoints := s.endPoints.update e fun _ => closed.1 } rest
          (others.1, closed.2 || others.2)

-- The destructor of the first EndPoint closes what is open, then joins.
def destroy (s : State D) : List Nat → State D
  | [] => { s with m_ids := ∅, thread := .idle }
  | e :: rest =>
      { s with endPoints := s.endPoints.update e .closeOpen, thread := .joining (e :: rest) }

def handleClearAggregator (s : State D) (hdl : Hdl) : State D × List (Output D) :=
  let closed := closeAll s s.m_endpoints.toList
  if closed.2 then
    (destroy { closed.1 with m_endpoints := ∅ } s.m_endpoints.keys, [handleError hdl "processed".toList []])
  else ({ closed.1 with thread := .waiting }, [])

-- The thread of an EndPoint ends when no connection is left to serve.
def wakeJoining (s : State D) (e : Nat) (rest : List Nat) : Option (State D) :=
  match s.endPoints.get e with
  | none => some (destroy s rest)
  | some endpoint =>
      if endpoint.m_connection_list.toList.all fun entry => entry.2.settled then
        some (destroy { s with endPoints := s.endPoints.delete e } rest)
      else none

def command (p : Platform D) (s : State D) (hdl : Hdl) (payload : Text) (request : JSON D) :
    State D × List (Output D) :=
  let action := (request.index "action".toList).asText
  if action = "add-trading-aggregator".toList then handleAddAggregator p s hdl request
  else if action = "clear-trading-aggregators".toList then handleClearAggregator s hdl
  else if action = "add-provider".toList then handleAddProvider s payload request
  else if action = "clear-providers".toList then handleClearPrices s payload
  else if action = "clear-prices".toList then handleClearProviders s payload
  else (s, [])

-- The handlers load the payload again and get the same request. The catch clause
-- is for websocketpp::exception only: what JSON::Load throws passes through it,
-- and get_con_from_hdl cannot throw while the event loop holds the connection.
def onMessage (p : Platform D) (s : State D) (hdl : Hdl) (payload : Text) :
    Except Fault (State D × List (Output D)) :=
  (loadText p payload).map fun request => command p (subscribePart p s hdl request) hdl payload request

inductive Action where
  | connected
  | disconnected (hdl : Hdl)
  | message (hdl : Hdl) (payload : Text)
  | wake
  | start (task : Nat)
  | visit (task : Nat)
  | opened (conn : Conn)
  | silenced (conn : Conn)
  | failed (conn : Conn)
  | lost (conn : Conn)
  | closed (conn : Conn)
  | received (conn : Conn) (data : Text)

def outcome (s : State D) : Except Fault (State D × List (Output D)) → State D × List (Output D)
  | .ok result => result
  | .error fault => ({ s with fault := some fault }, [])

def startTask (s : State D) (i : Nat) : Option (State D) :=
  match s.m_sendFutures[i]? with
  | some ⟨sub, .launched⟩ => some { s with m_sendFutures := s.m_sendFutures.set i ⟨sub, .walking s.tracked⟩ }
  | _ => none

-- get_metadata and the call of onDataReceived through the pointer it returns.
def visitTask (s : State D) (i : Nat) : Option (State D) :=
  match s.m_sendFutures[i]? with
  | some ⟨sub, .walking (conn :: todo)⟩ =>
      match s.endPoints.get conn.endpoint with
      | none => some { s with fault := some .danglingEndPoint }
      | some endpoint =>
          match endpoint.get_metadata conn.id with
          | none => some { s with fault := some .nullHandler }
          | some _ =>
              let installed := s.updateHandler conn (.onDataReceived sub)
              some { installed with m_sendFutures := s.m_sendFutures.set i ⟨sub, .walking todo⟩ }
  | _ => none

-- The events of one EndPoint come from its one thread; the steps leave their order
-- open, so that there are more runs here than the program has.
def connEvent (s : State D) (conn : Conn) (ready : ClientHandler Subscription → Bool)
    (change : ClientHandler Subscription → ClientHandler Subscription) : Option (State D) :=
  match s.handler conn with
  | none => none
  | some handler => if ready handler then some (s.updateHandler conn change) else none

def serverEvent (s : State D) (result : State D × List (Output D)) : Option (State D × List (Output D)) :=
  match s.thread with
  | .idle => some result
  | _ => none

def wake (p : Platform D) (s : State D) : Option (State D × List (Output D)) :=
  match s.thread with
  | .adding call => some (wakeAdding p s call)
  | .joining (e :: rest) => (wakeJoining s e rest).map fun t => (t, [])
  | _ => none

def quiet (next : Option (State D)) : Option (State D × List (Output D)) := next.map fun t => (t, [])

def step (p : Platform D) (s : State D) (action : Action) : Option (State D × List (Output D)) :=
  if s.fault.isSome then none
  else
    match action with
    | .connected => serverEvent s ({ s with m_server := s.m_server.accept }, [])
    | .disconnected hdl =>
        if s.m_server.alive hdl then serverEvent s ({ s with m_server := s.m_server.drop hdl }, []) else none
    | .message hdl payload =>
        if s.m_server.alive hdl then serverEvent s (outcome s (onMessage p s hdl payload)) else none
    | .wake => wake p s
    | .start task => quiet (startTask s task)
    | .visit task => quiet (visitTask s task)
    | .opened conn => quiet (connEvent s conn (fun handler => handler.session = .connecting) .publishOpen)
    | .silenced conn => quiet (connEvent s conn (fun handler => handler.opening) .ignoreData)
    | .failed conn => quiet (connEvent s conn (fun handler => handler.session = .connecting) .onFail)
    | .lost conn => quiet (connEvent s conn (fun handler => handler.receives) .lose)
    | .closed conn =>
        quiet (connEvent s conn (fun handler => handler.m_status = .opened && handler.session = .closed) .onClose)
    | .received conn data =>
        match s.handler conn with
        | none => none
        | some handler =>
            if handler.receives then some (outcome s (clientOnMessage p handler data s)) else none

def broadcaster (p : Platform D) : Library.System (State D) Action (List (Output D)) := ⟨step p⟩

end TradingFeed.Broadcaster
