import Std.Data.TreeSet
import TradingFeed.Platform

set_option autoImplicit false

namespace TradingFeed.Broadcaster

open TradingFeed.Json TradingFeed.Sockets

-- The data callback of subscribeMessages captures a consumer and a channel.
structure Subscription where
  hdl : Hdl
  channel : Text
deriving DecidableEq

-- An aggregator connection: an EndPoint object and the id it gave out.
structure Conn where
  endpoint : Nat
  id : Int
deriving DecidableEq

-- The task that subscribeMessages launches copies the id sets and then visits
-- one connection after the other; it is done when no visit is left.
inductive Phase where
  | launched
  | walking (todo : List Conn)
deriving DecidableEq

structure Task where
  sub : Subscription
  phase : Phase
deriving DecidableEq

-- handle_add_aggregator sleeps behind each connect. `first` is the branch for
-- an empty m_endpoints; `rest` are the endpoints the loop has still to reach.
structure Adding where
  hdl : Hdl
  host : Text
  endpoint : Nat
  clientId : Int
  first : Bool
  rest : List Nat

-- The server thread between two steps: free for the next event, asleep in
-- handle_add_aggregator, in the wait loop of handle_clear_aggregator, or joining
-- the thread of the first of the EndPoints that are being destroyed.
inductive Thread where
  | idle
  | adding (call : Adding)
  | waiting
  | joining (endpoints : List Nat)

-- What con->send is given, as the value it is printed from.
inductive Sent (D : Type) where
  | batch (elements : List (JSON D))
  | latestPrice (response : JSON D)
  | reply (response : JSON D)
  | status (status message : Text)

inductive Output (D : Type) where
  | send (hdl : Hdl) (sent : Sent D)
  | aggregatorSend (conn : Conn) (payload : Text)
  | postSymbol (symbol : Text)
  | deleteAllPrices

-- `endPoints` holds the EndPoint objects that exist; m_endpoints and a running
-- handler own them. A fault ends the program.
structure State (D : Type) where
  m_server : Server
  endPoints : EndPoints Subscription
  m_endpoints : Std.TreeMap Nat (Std.TreeSet Int)
  m_ids : Std.TreeSet Int
  m_sendFutures : List Task
  m_broadcastArray : JSON D
  m_symbols : Std.TreeSet Text
  m_clearedPrices : Bool
  thread : Thread
  fault : Option Fault

variable {D : Type}

def State.init : State D where
  m_server := ⟨[]⟩
  endPoints := .empty
  m_endpoints := ∅
  m_ids := ∅
  m_sendFutures := []
  m_broadcastArray := .array []
  m_symbols := ∅
  m_clearedPrices := false
  thread := .idle
  fault := none

def latestPriceText (fp : Doubles D) (response : JSON D) : Text :=
  "\x7b\n".toList ++
  "  \"price\" : ".toList ++ fp.toText ((response.index "price".toList).asFloat fp) ++ ",\n".toList ++
  "  \"quantity\" : ".toList ++ showInt (response.index "quantity".toList).asInt ++ ",\n".toList ++
  "  \"symbol\" : \"".toList ++ (response.index "symbol".toList).asText ++ "\",\n".toList ++
  "  \"lastprice\" : true,\n".toList ++
  "  \"timestamp\" : ".toList ++ showInt (response.index "timestamp".toList).asInt ++ "\n".toList ++
  "\x7d".toList

def Sent.text (fp : Doubles D) : Sent D → Text
  | .batch elements => (JSON.array elements).dump fp
  | .latestPrice response => latestPriceText fp response
  | .reply response => response.dump fp
  | .status word detail => (statusObject word detail : JSON D).dump fp

namespace State

def handler (s : State D) (conn : Conn) : Option (ClientHandler Subscription) :=
  (s.endPoints.get conn.endpoint).bind fun endpoint => endpoint.get_metadata conn.id

def updateHandler (s : State D) (conn : Conn)
    (change : ClientHandler Subscription → ClientHandler Subscription) : State D :=
  { s with endPoints := s.endPoints.update conn.endpoint fun endpoint => endpoint.update conn.id change }

def tracked (s : State D) : List Conn :=
  s.m_endpoints.toList.flatMap fun entry => entry.2.toList.map fun id => ⟨entry.1, id⟩

theorem handler_update (s : State D) (conn other : Conn)
    (change : ClientHandler Subscription → ClientHandler Subscription) :
    (s.updateHandler conn change).handler other =
      if other = conn then (s.handler conn).map change else s.handler other := by
  obtain ⟨e, id⟩ := conn
  obtain ⟨f, otherId⟩ := other
  by_cases same : f = e
  · subst f
    cases found : s.endPoints.get e with
    | none => simp [updateHandler, handler, EndPoints.get_update, found]
    | some endpoint => simp [updateHandler, handler, EndPoints.get_update, EndPoint.get_update, found]
  · simp [updateHandler, handler, EndPoints.get_update, same]

theorem mem_tracked (s : State D) (conn : Conn) :
    conn ∈ s.tracked ↔ ∃ ids, s.m_endpoints[conn.endpoint]? = some ids ∧ conn.id ∈ ids := by
  obtain ⟨e, id⟩ := conn
  simp only [tracked, List.mem_flatMap, List.mem_map, Conn.mk.injEq, Prod.exists]
  constructor
  · rintro ⟨address, ids, entry, found, member, rfl, rfl⟩
    exact ⟨ids, Std.TreeMap.mem_toList_iff_getElem?_eq_some.mp entry, Std.TreeSet.mem_toList.mp member⟩
  · rintro ⟨ids, entry, member⟩
    exact ⟨e, ids, Std.TreeMap.mem_toList_iff_getElem?_eq_some.mpr entry, id,
      Std.TreeSet.mem_toList.mpr member, rfl, rfl⟩

end State

end TradingFeed.Broadcaster
