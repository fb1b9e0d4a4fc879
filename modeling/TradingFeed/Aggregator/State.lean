import Std.Data.TreeSet
import TradingFeed.Platform

set_option autoImplicit false

namespace TradingFeed.Aggregator

open TradingFeed.Json TradingFeed.Sockets

-- The task that sendMessages launches: get_con_from_hdl, which raises into the
-- future when the consumer is gone, and then the call of onDataReceived.
inductive Phase where
  | launched
  | resolved
  | broken
  | installed
deriving DecidableEq

structure Task where
  hdl : Hdl
  id : Int
  phase : Phase
deriving DecidableEq

-- The server thread between two steps. handle_add_provider polls the status,
-- replies and launches the task; `host` is the host of the request as dump prints
-- it. handle_clear_provider closes one id after the other, and waits for ever
-- behind a failed close; `gone` tells that a disconnect called it.
inductive Thread where
  | idle
  | polling (hdl : Hdl) (host : Text) (id : Int)
  | acknowledging (hdl : Hdl) (host : Text) (id : Int)
  | launching (hdl : Hdl) (id : Int)
  | clearing (hdl : Hdl) (gone : Bool) (todo : List Int)
  | waiting
deriving DecidableEq

-- con->send is always given the dump of a JSON value.
inductive Output (D : Type) where
  | send (hdl : Hdl) (response : JSON D)
  | getSymbol (symbol : Text)
  | deleteAllPrices

-- The forwarding callback captures the consumer. `opening` is the connection
-- whose on_open has written the status and not yet the default callback: until
-- then the thread of the EndPoint handles nothing else.
structure State where
  m_server : Server
  m_endpoint : EndPoint Hdl
  m_connections : Std.TreeMap Hdl (List Int)
  m_client_ids : List Int
  m_close : Bool
  m_sendFutures : List Task
  m_symbols : Std.TreeSet Text
  thread : Thread
  opening : Option Int
  fault : Option Fault

def State.init : State where
  m_server := ⟨[]⟩
  m_endpoint := .new
  m_connections := ∅
  m_client_ids := []
  m_close := false
  m_sendFutures := []
  m_symbols := ∅
  thread := .idle
  opening := none
  fault := none

namespace State

def handler (s : State) (id : Int) : Option (ClientHandler Hdl) := s.m_endpoint.get_metadata id

def updateHandler (s : State) (id : Int) (change : ClientHandler Hdl → ClientHandler Hdl) : State :=
  { s with m_endpoint := s.m_endpoint.update id change }

def setTask (s : State) (task : Nat) (to_ : Task) : State :=
  { s with m_sendFutures := s.m_sendFutures.set task to_ }

theorem handler_update (s : State) (id other : Int) (change : ClientHandler Hdl → ClientHandler Hdl) :
    (s.updateHandler id change).handler other =
      if other = id then (s.handler id).map change else s.handler other :=
  s.m_endpoint.get_update id other change

end State

end TradingFeed.Aggregator
