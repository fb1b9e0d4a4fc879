import TradingFeed.Aggregator.State
import TradingFeed.Library.Runs

set_option autoImplicit false

namespace TradingFeed.Aggregator

open TradingFeed.Json TradingFeed.Sockets

variable {D : Type}

-- The lambda of sendMessages, run by the thread of the EndPoint.
def forward (p : Platform D) (s : State) (hdl : Hdl) (data : Text) : Except Fault (List (Output D)) :=
  if s.m_server.alive hdl then (loadText p data).map fun response => [.send hdl response]
  else .error .badConnection

def emitDataReceived (p : Platform D) (s : State) (slot : Slot Hdl) (data : Text) :
    Except Fault (List (Output D)) :=
  match slot with
  | .unset => .error .badFunctionCall
  | .ignore => .ok []
  | .call hdl => forward p s hdl data

-- ClientHandler::on_message of the Aggregator passes the payload on unread.
def clientOnMessage (p : Platform D) (s : State) (handler : ClientHandler Hdl) (payload : Text) :
    Except Fault (List (Output D)) :=
  emitDataReceived p s handler.dataReceivedSignal payload

def handleAddProvider (p : Platform D) (s : State) (hdl : Hdl) (request : JSON D) : State × List (Output D) :=
  let symbols := (request.index "symbols".toList).elements.map JSON.asText
  let host := request.index "host".toList
  let connected := s.m_endpoint.connect (p.acceptsUri host.asText)
  ({ s with
      m_symbols := s.m_symbols.insertMany symbols
      m_endpoint := connected.1
      m_connections := s.m_connections.insert hdl ((s.m_connections[hdl]?.getD []) ++ [connected.2])
      thread := .polling hdl (host.dump p.fp) connected.2 },
    symbols.map .getSymbol)

def handleClearProvider (s : State) (hdl : Hdl) (gone : Bool) : State :=
  { s with m_close := true, thread := .clearing hdl gone s.m_client_ids }

def command (p : Platform D) (s : State) (hdl : Hdl) (response : JSON D) : State × List (Output D) :=
  let action := (response.index "action".toList).asText
  if action = "add-provider".toList then handleAddProvider p s hdl response
  else if action = "clear-providers".toList then (handleClearProvider s hdl false, [])
  else if action = "clear-prices".toList then (s, [.deleteAllPrices])
  else (s, [])

-- onMessage up to its first wait. There is no catch clause, and handle_add_provider
-- loads the same payload again.
def onMessage (p : Platform D) (s : State) (hdl : Hdl) (payload : Text) : Except Fault (State × List (Output D)) :=
  (loadText p payload).map fun response => command p s hdl response

def providerReply (host : Text) (id : Int) : JSON D :=
  if id ≠ -1 then statusObject "processed".toList ("connecting to ".toList ++ host)
  else statusObject "not processed".toList ("error connecting to ".toList ++ host)

-- One poll of the status: getStatus is "" for an id without connection.
def poll (s : State) (hdl : Hdl) (host : Text) (id : Int) : State :=
  if (s.handler id).map ClientHandler.m_status = some .opened then
    { s with m_client_ids := s.m_client_ids ++ [id], thread := .acknowledging hdl host id }
  else s

def acknowledge (s : State) (hdl : Hdl) (host : Text) (id : Int) : State × List (Output D) :=
  ({ s with m_close := false, thread := .launching hdl id }, [.send hdl (providerReply host id)])

def sendMessages (s : State) (hdl : Hdl) (id : Int) : State :=
  { s with m_sendFutures := s.m_sendFutures ++ [⟨hdl, id, .launched⟩], thread := .idle }

-- A close that fails ends the loop; the wait behind it never ends, and nothing
-- is replied. The connection of a consumer that left ends with the handler.
def clearNext (s : State) (hdl : Hdl) (gone : Bool) : List Int → State × List (Output D)
  | [] =>
      ({ s with
          m_client_ids := []
          thread := .idle
          m_server := if gone then s.m_server.drop hdl else s.m_server },
        [.send hdl (statusObject "procceed".toList [])])
  | id :: todo =>
      let closed := s.m_endpoint.close false id
      if closed.2 then ({ s with m_endpoint := closed.1, thread := .clearing hdl gone todo }, [])
      else ({ s with m_endpoint := closed.1, m_client_ids := [], thread := .waiting }, [])

def wake (s : State) : Option (State × List (Output D)) :=
  match s.thread with
  | .polling hdl host id => some (poll s hdl host id, [])
  | .acknowledging hdl host id => some (acknowledge s hdl host id)
  | .launching hdl id => some (sendMessages s hdl id, [])
  | .clearing hdl gone todo => some (clearNext s hdl gone todo)
  | _ => none

inductive Action where
  | connected
  | disconnected (hdl : Hdl)
  | message (hdl : Hdl) (payload : Text)
  | wake
  | start (task : Nat)
  | install (task : Nat)
  | opened (id : Int)
  | silenced (id : Int)
  | failed (id : Int)
  | lost (id : Int)
  | closed (id : Int)
  | received (id : Int) (data : Text)

def startTask (s : State) (i : Nat) : Option State :=
  match s.m_sendFutures[i]? with
  | some ⟨hdl, id, .launched⟩ => some (s.setTask i ⟨hdl, id, if s.m_server.alive hdl then .resolved else .broken⟩)
  | _ => none

def installTask (s : State) (i : Nat) : Option State :=
  match s.m_sendFutures[i]? with
  | some ⟨hdl, id, .resolved⟩ =>
      match s.handler id with
      | none => some { s with fault := some .nullHandler }
      | some _ => some ((s.updateHandler id (.onDataReceived hdl)).setTask i ⟨hdl, id, .installed⟩)
  | _ => none

-- An event of a connection, on the thread of the EndPoint.
def connEvent (s : State) (id : Int) (ready : ClientHandler Hdl → Bool)
    (change : ClientHandler Hdl → ClientHandler Hdl) : Option State :=
  match s.opening, s.handler id with
  | none, some handler => if ready handler then some (s.updateHandler id change) else none
  | _, _ => none

def openConn (s : State) (id : Int) : Option State :=
  (connEvent s id (fun handler => handler.session = .connecting) .publishOpen).map
    fun t => { t with opening := some id }

def silence (s : State) (id : Int) : Option State :=
  if s.opening = some id then some { s.updateHandler id .ignoreData with opening := none } else none

def receive (p : Platform D) (s : State) (id : Int) (data : Text) : Option (State × List (Output D)) :=
  match s.opening, s.handler id with
  | none, some handler =>
      if handler.receives then
        match clientOnMessage p s handler data with
        | .ok out => some (s, out)
        | .error fault => some ({ s with fault := some fault }, [])
      else none
  | _, _ => none

def quiet (next : Option State) : Option (State × List (Output D)) := next.map fun t => (t, [])

def serverEvent (s : State) (hdl : Hdl) (result : Except Fault (State × List (Output D))) :
    Option (State × List (Output D)) :=
  match s.thread with
  | .idle =>
      if s.m_server.alive hdl then
        match result with
        | .ok done => some done
        | .error fault => some ({ s with fault := some fault }, [])
      else none
  | _ => none

def step (p : Platform D) (s : State) (action : Action) : Option (State × List (Output D)) :=
  if s.fault.isSome then none
  else
    match action with
    | .connected =>
        match s.thread with
        | .idle => some ({ s with m_server := s.m_server.accept }, [])
        | _ => none
    | .disconnected hdl => serverEvent s hdl (.ok (handleClearProvider s hdl true, []))
    | .message hdl payload => serverEvent s hdl (onMessage p s hdl payload)
    | .wake => wake s
    | .start task => quiet (startTask s task)
    | .install task => quiet (installTask s task)
    | .opened id => quiet (openConn s id)
    | .silenced id => quiet (silence s id)
    | .failed id => quiet (connEvent s id (fun handler => handler.session = .connecting) .onFail)
    | .lost id => quiet (connEvent s id (fun handler => handler.receives) .lose)
    | .closed id =>
        quiet (connEvent s id (fun handler => handler.m_status = .opened && handler.session = .closed) .onClose)
    | .received id data => receive p s id data

def aggregator (p : Platform D) : Library.System State Action (List (Output D)) := ⟨step p⟩

end TradingFeed.Aggregator
