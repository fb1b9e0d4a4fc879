import TradingFeed.Broadcaster.State

set_option autoImplicit false

namespace TradingFeed.Broadcaster

open TradingFeed.Json TradingFeed.Sockets

variable {D : Type}

def repost (s : State D) : State D × List (Output D) :=
  if s.m_clearedPrices then ({ s with m_clearedPrices := false }, s.m_symbols.toList.map .postSymbol)
  else (s, [])

-- The branch for "broadcast" once the symbols are posted.
def batch (s : State D) (hdl : Hdl) (response : JSON D) : State D × List (Output D) :=
  let batched := s.m_broadcastArray.append response
  if batched.size = 2 then ({ s with m_broadcastArray := .array [] }, [.send hdl (.batch batched.elements)])
  else ({ s with m_broadcastArray := batched }, [])

-- The body of the data callback from the channel tests on. con->send reports
-- its errors as a code that nobody reads.
def deliver (sub : Subscription) (status : JSON D) (s : State D) : State D × List (Output D) :=
  if sub.channel = "broadcast".toList then
    let posted := repost s
    let batched := batch posted.1 sub.hdl status
    (batched.1, posted.2 ++ batched.2)
  else if sub.channel = "latest-price".toList then
    let posted := repost s
    (posted.1, posted.2 ++ [.send sub.hdl (.latestPrice status)])
  else if sub.channel = "unsubscribe".toList then
    ({ s with m_clearedPrices := true }, [.deleteAllPrices, .send sub.hdl (.status "processed".toList [])])
  else if (status.index "status".toList).asText ≠ [] then (s, [.send sub.hdl (.reply status)])
  else (s, [])

-- One call of the callback is one step: the thread of the EndPoint runs it to its
-- end, and only that thread touches the batch. The server thread does write
-- m_clearedPrices and m_symbols meanwhile; Interleaved takes the call apart.
def dataCallback (p : Platform D) (sub : Subscription) (data : Text) (s : State D) :
    Except Fault (State D × List (Output D)) :=
  if s.m_server.alive sub.hdl then (loadText p data).map fun status => deliver sub status s
  else .error .badConnection

def emitDataReceived (p : Platform D) (slot : Slot Subscription) (data : Text) (s : State D) :
    Except Fault (State D × List (Output D)) :=
  match slot with
  | .unset => .error .badFunctionCall
  | .ignore => .ok (s, [])
  | .call sub => dataCallback p sub data s

def clientOnMessage (p : Platform D) (handler : ClientHandler Subscription) (payload : Text) (s : State D) :
    Except Fault (State D × List (Output D)) := do
  let _ ← loadText p payload
  emitDataReceived p handler.dataReceivedSignal payload s

structure SameRegistry (s t : State D) : Prop where
  server : t.m_server = s.m_server
  endPoints : t.endPoints = s.endPoints
  endpoints : t.m_endpoints = s.m_endpoints
  ids : t.m_ids = s.m_ids
  futures : t.m_sendFutures = s.m_sendFutures
  symbols : t.m_symbols = s.m_symbols
  thread : t.thread = s.thread
  fault : t.fault = s.fault

theorem registry_kept (s : State D) (batch : JSON D) (cleared : Bool) :
    SameRegistry s { s with m_broadcastArray := batch, m_clearedPrices := cleared } :=
  ⟨rfl, rfl, rfl, rfl, rfl, rfl, rfl, rfl⟩

theorem repost_registry (s : State D) : SameRegistry s (repost s).1 := by
  dsimp only [repost]
  split <;> exact registry_kept s _ _

theorem repost_batch (s : State D) : (repost s).1.m_broadcastArray = s.m_broadcastArray := by
  dsimp only [repost]
  split <;> rfl

theorem batch_registry (s : State D) (hdl : Hdl) (response : JSON D) : SameRegistry s (batch s hdl response).1 := by
  dsimp only [batch]
  split <;> exact registry_kept s _ _

theorem batch_cleared (s : State D) (hdl : Hdl) (response : JSON D) :
    (batch s hdl response).1.m_clearedPrices = s.m_clearedPrices := by
  dsimp only [batch]
  split <;> rfl

theorem same_registry_trans (s t u : State D) (first : SameRegistry s t) (second : SameRegistry t u) :
    SameRegistry s u :=
  ⟨second.server.trans first.server, second.endPoints.trans first.endPoints,
    second.endpoints.trans first.endpoints, second.ids.trans first.ids, second.futures.trans first.futures,
    second.symbols.trans first.symbols, second.thread.trans first.thread, second.fault.trans first.fault⟩

theorem deliver_registry (sub : Subscription) (status : JSON D) (s : State D) :
    SameRegistry s (deliver sub status s).1 := by
  dsimp only [deliver]
  split
  · exact same_registry_trans s _ _ (repost_registry s) (batch_registry _ sub.hdl status)
  · split
    · exact repost_registry s
    · split
      · exact registry_kept s _ _
      · split <;> exact registry_kept s _ _

theorem data_callback_ok (p : Platform D) (sub : Subscription) (data : Text) (s : State D)
    (result : State D × List (Output D)) :
    dataCallback p sub data s = .ok result ↔
      s.m_server.alive sub.hdl = true ∧ ∃ status, load p.fp data = .ok status ∧ result = deliver sub status s := by
  dsimp only [dataCallback]
  by_cases alive : s.m_server.alive sub.hdl = true
  · cases loaded : load p.fp data with
    | ok status => simp [loadText, alive, loaded, Except.map, eq_comm]
    | error fault => simp [loadText, alive, loaded, Except.map]
  · simp [alive]

theorem client_on_message_ok (p : Platform D) (handler : ClientHandler Subscription) (payload : Text) (s : State D)
    (result : State D × List (Output D)) :
    clientOnMessage p handler payload s = .ok result ↔
      ∃ json, load p.fp payload = .ok json ∧
        ((handler.dataReceivedSignal = .ignore ∧ result = (s, [])) ∨
          ∃ sub, handler.dataReceivedSignal = .call sub ∧ s.m_server.alive sub.hdl = true ∧
            result = deliver sub json s) := by
  dsimp only [clientOnMessage]
  cases loaded : load p.fp payload with
  | error fault => simp [loadText, loaded, bind, Except.bind]
  | ok json =>
      cases slot : handler.dataReceivedSignal with
      | unset => simp [loadText, loaded, bind, Except.bind, emitDataReceived]
      | ignore =>
          simp only [loadText, loaded, bind, Except.bind, emitDataReceived, Except.ok.injEq, true_and,
            reduceCtorEq, false_and, exists_false, or_false, exists_eq_left']
          exact eq_comm
      | call sub => simp [loadText, loaded, bind, Except.bind, emitDataReceived, data_callback_ok]

theorem client_on_message_error (p : Platform D) (handler : ClientHandler Subscription) (payload : Text) (s : State D)
    (fault : Fault) :
    clientOnMessage p handler payload s = .error fault ↔
      (∃ cause, load p.fp payload = .error cause ∧ .load cause = fault) ∨
        ∃ json, load p.fp payload = .ok json ∧
          ((handler.dataReceivedSignal = .unset ∧ .badFunctionCall = fault) ∨
            ∃ sub, handler.dataReceivedSignal = .call sub ∧ s.m_server.alive sub.hdl = false ∧
              .badConnection = fault) := by
  dsimp only [clientOnMessage]
  cases loaded : load p.fp payload with
  | error cause => simp [loadText, loaded, bind, Except.bind]
  | ok json =>
      cases slot : handler.dataReceivedSignal with
      | unset => simp [loadText, loaded, bind, Except.bind, emitDataReceived]
      | ignore => simp [loadText, loaded, bind, Except.bind, emitDataReceived]
      | call sub =>
          by_cases alive : s.m_server.alive sub.hdl = true
          · simp [loadText, loaded, bind, Except.bind, emitDataReceived, dataCallback, alive, Except.map]
          · simp [loadText, loaded, bind, Except.bind, emitDataReceived, dataCallback, alive]

end TradingFeed.Broadcaster
