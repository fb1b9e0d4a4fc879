import TradingFeed.Broadcaster.Transitions

set_option autoImplicit false

namespace TradingFeed.Broadcaster

open TradingFeed.Json TradingFeed.Sockets

variable {D : Type}

-- A payload that asks for one action. With a status in it, on_message would
-- launch a further task, which no consumer's request does.
structure Asks (p : Platform D) (payload action : Text) (request : JSON D) : Prop where
  loaded : load p.fp payload = .ok request
  action : (request.index "action".toList).asText = action
  plain : (request.index "status".toList).asText = []

def channel (request : JSON D) : Text := (request.index "channel".toList).asText

def commands : List Text :=
  ["add-trading-aggregator".toList, "clear-trading-aggregators".toList, "add-provider".toList,
    "clear-providers".toList, "clear-prices".toList]

theorem command_other (p : Platform D) (s : State D) (hdl : Hdl) (payload : Text) (request : JSON D)
    (other : (request.index "action".toList).asText ∉ commands) : command p s hdl payload request = (s, []) := by
  simp only [commands, List.mem_cons, List.not_mem_nil, or_false, not_or] at other
  dsimp only [command]
  rw [if_neg other.1, if_neg other.2.1, if_neg other.2.2.1, if_neg other.2.2.2.1, if_neg other.2.2.2.2]

theorem asks_subscribing (p : Platform D) (s : State D) (hdl : Hdl) (payload action : Text) (request : JSON D)
    (asks : Asks p payload action request) (either : action = "subscribe".toList ∨ action = "unsubscribe".toList) :
    command p (subscribePart p s hdl request) hdl payload request = (launch s ⟨hdl, channel request⟩, []) := by
  have launched : subscribePart p s hdl request = launch s ⟨hdl, channel request⟩ := by
    dsimp only [subscribePart]
    rw [asks.action, asks.plain, if_pos (either.imp_right Or.inl), if_neg (by simp)]
    rfl
  rw [launched]
  apply command_other
  rw [asks.action]
  rcases either with rfl | rfl <;> decide

theorem asks_command (p : Platform D) (s : State D) (hdl : Hdl) (payload action : Text) (request : JSON D)
    (asks : Asks p payload action request) (subscribes : action ≠ "subscribe".toList)
    (unsubscribes : action ≠ "unsubscribe".toList) : subscribePart p s hdl request = s := by
  dsimp only [subscribePart]
  rw [asks.action, asks.plain, if_neg]
  exact fun either => either.elim subscribes fun rest => rest.elim unsubscribes fun plain => plain rfl

theorem asks_add_aggregator (p : Platform D) (s : State D) (hdl : Hdl) (payload : Text) (request : JSON D)
    (asks : Asks p payload "add-trading-aggregator".toList request) :
    command p (subscribePart p s hdl request) hdl payload request = handleAddAggregator p s hdl request := by
  rw [asks_command p s hdl payload _ request asks (by decide) (by decide)]
  exact if_pos asks.action

theorem asks_clear_aggregators (p : Platform D) (s : State D) (hdl : Hdl) (payload : Text) (request : JSON D)
    (asks : Asks p payload "clear-trading-aggregators".toList request) :
    command p (subscribePart p s hdl request) hdl payload request = handleClearAggregator s hdl := by
  rw [asks_command p s hdl payload _ request asks (by decide) (by decide)]
  dsimp only [command]
  rw [asks.action, if_neg (by decide), if_pos rfl]

theorem message_step (p : Platform D) (s t : State D) (hdl : Hdl) (payload : Text) (request : JSON D)
    (out : List (Output D)) (sound : s.fault = none) (alive : s.m_server.alive hdl = true) (idle : s.thread = .idle)
    (loaded : load p.fp payload = .ok request)
    (done : command p (subscribePart p s hdl request) hdl payload request = (t, out)) :
    step p s (.message hdl payload) = some (t, out) := by
  apply transition_step p s t _ out sound
  have handled := Transition.handled (p := p) hdl payload request alive idle loaded
  rw [done] at handled
  exact handled

theorem step_handled (p : Platform D) (s t : State D) (hdl : Hdl) (payload : Text) (request : JSON D)
    (out : List (Output D)) (loaded : load p.fp payload = .ok request)
    (taken : step p s (.message hdl payload) = some (t, out)) :
    command p (subscribePart p s hdl request) hdl payload request = (t, out) := by
  obtain ⟨_, transition⟩ := step_transition p s t _ out taken
  cases transition with
  | malformed _ _ fault _ _ raised =>
      rw [loaded] at raised
      cases raised
  | handled _ _ other _ _ again =>
      cases loaded.symm.trans again
      rfl

theorem step_message (p : Platform D) (s t : State D) (hdl : Hdl) (payload : Text) (out : List (Output D))
    (taken : step p s (.message hdl payload) = some (t, out)) :
    s.fault = none ∧ s.m_server.alive hdl = true ∧ s.thread = .idle := by
  obtain ⟨sound, transition⟩ := step_transition p s t _ out taken
  cases transition with
  | malformed _ _ _ alive idle => exact ⟨sound, alive, idle⟩
  | handled _ _ _ alive idle => exact ⟨sound, alive, idle⟩

def addRequest : Text := "\x7b\"action\":\"add-trading-aggregator\",\"host\":\"ws://b:1\"\x7d".toList

def clearRequest : Text := "\x7b\"action\":\"clear-trading-aggregators\"\x7d".toList

def subscribeRequest : Text := "\x7b\"action\":\"subscribe\",\"channel\":\"broadcast\"\x7d".toList

def priceText : Text := "\x7b\"symbol\":\"EURUSD\"\x7d".toList

theorem asks_add (p : Platform D) :
    Asks p addRequest "add-trading-aggregator".toList
      (.object [("action".toList, .string "add-trading-aggregator".toList), ("host".toList, .string "ws://b:1".toList)]) :=
  ⟨by cbv, rfl, rfl⟩

theorem asks_clear (p : Platform D) :
    Asks p clearRequest "clear-trading-aggregators".toList
      (.object [("action".toList, .string "clear-trading-aggregators".toList)]) :=
  ⟨by cbv, rfl, rfl⟩

theorem asks_subscribe (p : Platform D) :
    Asks p subscribeRequest "subscribe".toList
      (.object [("action".toList, .string "subscribe".toList), ("channel".toList, .string "broadcast".toList)]) :=
  ⟨by cbv, rfl, rfl⟩

def priceValue : JSON D := .object [("symbol".toList, .string "EURUSD".toList)]

theorem load_price (fp : Doubles D) : load fp priceText = .ok priceValue := by cbv

end TradingFeed.Broadcaster
