import TradingFeed.Aggregator.Sources
import TradingFeed.Broadcaster.Accounting
import TradingFeed.DataProvider.Rounds
import TradingFeed.Library.Network

set_option autoImplicit false

namespace TradingFeed.Feed

open TradingFeed.Json TradingFeed.Sockets Library

-- Which accepted connection of which server a connection of a client leads to.
-- The environment fixes it: no two connections lead to one. A consumer that
-- speaks to an aggregator itself is a client that is no broadcaster connection.
structure Wiring (P A : Type) where
  provider : A → Int → P × Hdl
  aggregator : Broadcaster.Conn → A × Hdl
  client : A → Hdl → Option Broadcaster.Conn
  one_provider : ∀ g other id otherId, provider g id = provider other otherId → g = other ∧ id = otherId
  one_client : ∀ g hdl conn, client g hdl = some conn ↔ aggregator conn = (g, hdl)

inductive Channel (P A : Type) where
  | quotes (provider : P) (hdl : Hdl)
  | replies (aggregator : A) (hdl : Hdl)
  | commands (conn : Broadcaster.Conn)
deriving DecidableEq

section

variable {P A D : Type} (p : Platform D) (wiring : Wiring P A)

theorem Wiring.one_aggregator (conn other : Broadcaster.Conn) (same : wiring.aggregator conn = wiring.aggregator other) :
    conn = other := by
  have here := (wiring.one_client (wiring.aggregator other).1 (wiring.aggregator other).2 conn).mpr same
  have there := (wiring.one_client (wiring.aggregator other).1 (wiring.aggregator other).2 other).mpr rfl
  exact Option.some.inj (here.symm.trans there)

def providerPorts (provider : P) :
    Ports (DataProvider.State D) DataProvider.Action (List (DataProvider.Output D)) (Channel P A) Text where
  takes := fun _ => none
  gives := fun _ out => out.map fun | .send hdl message => (.quotes provider hdl, message.toJson p.fp)

def aggregatorPorts (g : A) :
    Ports Aggregator.State Aggregator.Action (List (Aggregator.Output D)) (Channel P A) Text where
  takes := fun
    | .received id data => some (.quotes (wiring.provider g id).1 (wiring.provider g id).2, data)
    | .message hdl payload => (wiring.client g hdl).map fun conn => (.commands conn, payload)
    | _ => none
  gives := fun _ out => out.filterMap fun
    | .send hdl response => some (.replies g hdl, response.dump p.fp)
    | _ => none

-- send on a connection that is not open only reports an error.
def broadcasterPorts :
    Ports (Broadcaster.State D) Broadcaster.Action (List (Broadcaster.Output D)) (Channel P A) Text where
  takes := fun
    | .received conn data => some (.replies (wiring.aggregator conn).1 (wiring.aggregator conn).2, data)
    | _ => none
  gives := fun s out => out.filterMap fun
    | .aggregatorSend conn payload =>
        if (s.handler conn).map ClientHandler.session = some .opened then some (.commands conn, payload) else none
    | _ => none

end

abbrev Parts (P A D : Type) := (P → DataProvider.State D) × (A → Aggregator.State) × Broadcaster.State D

abbrev Action (P A : Type) := (P × DataProvider.Action) ⊕ (A × Aggregator.Action) ⊕ Broadcaster.Action

abbrev Seen (P A D : Type) :=
  (P × List (DataProvider.Output D)) ⊕ (A × List (Aggregator.Output D)) ⊕ List (Broadcaster.Output D)

abbrev Step (P A D : Type) := Event (Parts P A D) (Action P A) (Seen P A D)

abbrev State (P A D : Type) := Parts P A D × Channels (Channel P A) Text

abbrev FeedStep (P A D : Type) := Event (State P A D) (Action P A) (Seen P A D)

variable {P A D : Type} [DecidableEq P] [DecidableEq A]

def parts (p : Platform D) : System (Parts P A D) (Action P A) (Seen P A D) :=
  DataProvider.provider.family.parallel ((Aggregator.aggregator p).family.parallel (Broadcaster.broadcaster p))

def ports (p : Platform D) (wiring : Wiring P A) : Ports (Parts P A D) (Action P A) (Seen P A D) (Channel P A) Text :=
  .parallel (.family (providerPorts p)) (.parallel (.family (aggregatorPorts p wiring)) (broadcasterPorts wiring))

-- The programs with the connections between them. Whatever else a program meets,
-- consumers, connections that open and close, threads and clocks, is free.
def feed (p : Platform D) (wiring : Wiring P A) : System (State P A D) (Action P A) (Seen P A D) :=
  (parts p).wired (ports p wiring)

def init (p : Platform D) (boot : P → Nat → Int64) : State P A D :=
  ((fun provider => .init (DataProvider.messages p.fp (boot provider)), fun _ => .init, .init), fun _ => [])

def providerSteps (provider : P) (events : List (Step P A D)) : List (DataProvider.Step D) :=
  (events.filterMap System.leftEvent).filterMap (System.memberEvent provider)

def aggregatorSteps (g : A) (events : List (Step P A D)) : List (Aggregator.Step D) :=
  ((events.filterMap System.rightEvent).filterMap System.leftEvent).filterMap (System.memberEvent g)

def broadcasterSteps (events : List (Step P A D)) : List (Broadcaster.Step D) :=
  (events.filterMap System.rightEvent).filterMap System.rightEvent

section

variable (p : Platform D) (s t : Parts P A D) (events : List (Step P A D)) (path : (parts p).Path s events t)

include path

theorem provider_path (provider : P) :
    DataProvider.provider.Path (s.1 provider) (providerSteps provider events) (t.1 provider) :=
  System.family_path _ _ _ _ provider (System.parallel_left _ _ _ _ _ path)

theorem aggregator_path (g : A) : (Aggregator.aggregator p).Path (s.2.1 g) (aggregatorSteps g events) (t.2.1 g) :=
  System.family_path _ _ _ _ g (System.parallel_left _ _ _ _ _ (System.parallel_right _ _ _ _ _ path))

theorem broadcaster_path : (Broadcaster.broadcaster p).Path s.2.2 (broadcasterSteps events) t.2.2 :=
  System.parallel_right _ _ _ _ _ (System.parallel_right _ _ _ _ _ path)

end

end TradingFeed.Feed
