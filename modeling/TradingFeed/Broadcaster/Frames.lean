import TradingFeed.Broadcaster.Step

set_option autoImplicit false

namespace TradingFeed.Broadcaster

open TradingFeed.Json TradingFeed.Sockets

variable {D : Type}

structure Steady (s t : State D) : Prop where
  server : t.m_server = s.m_server
  futures : t.m_sendFutures = s.m_sendFutures
  batch : t.m_broadcastArray = s.m_broadcastArray
  symbols : t.m_symbols = s.m_symbols
  cleared : t.m_clearedPrices = s.m_clearedPrices
  fault : t.fault = s.fault

theorem steady_kept (s : State D) (objects : EndPoints Subscription) (endpoints : Std.TreeMap Nat (Std.TreeSet Int))
    (ids : Std.TreeSet Int) (thread : Thread) :
    Steady s { s with endPoints := objects, m_endpoints := endpoints, m_ids := ids, thread := thread } :=
  ⟨rfl, rfl, rfl, rfl, rfl, rfl⟩

theorem steady_refl (s : State D) : Steady s s := steady_kept s s.endPoints s.m_endpoints s.m_ids s.thread

theorem steady_trans (s t u : State D) (first : Steady s t) (second : Steady t u) : Steady s u :=
  ⟨second.server.trans first.server, second.futures.trans first.futures, second.batch.trans first.batch,
    second.symbols.trans first.symbols, second.cleared.trans first.cleared, second.fault.trans first.fault⟩

theorem steady_update (s : State D) (conn : Conn)
    (change : ClientHandler Subscription → ClientHandler Subscription) : Steady s (s.updateHandler conn change) :=
  steady_kept s _ s.m_endpoints s.m_ids s.thread

theorem connect_on_objects (p : Platform D) (s : State D) (e : Nat) (host : Text) :
    ∃ objects, (connectOn p s e host).1 = { s with endPoints := objects } := by
  dsimp only [connectOn]
  split
  · exact ⟨s.endPoints, rfl⟩
  · exact ⟨_, rfl⟩

theorem close_all_objects (entries : List (Nat × Std.TreeSet Int)) (s : State D) :
    ∃ objects, (closeAll s entries).1 = { s with endPoints := objects } := by
  induction entries generalizing s with
  | nil => exact ⟨s.endPoints, rfl⟩
  | cons entry rest ih =>
      obtain ⟨e, ids⟩ := entry
      cases found : s.endPoints.get e with
      | none => simpa only [closeAll, found] using ih s
      | some endpoint =>
          simp only [closeAll, found]
          obtain ⟨objects, closed⟩ :=
            ih { s with endPoints := s.endPoints.update e fun _ => (closeIds endpoint ids.toList).1 }
          exact ⟨objects, closed⟩

theorem steady_connect_on (p : Platform D) (s : State D) (e : Nat) (host : Text) :
    Steady s (connectOn p s e host).1 := by
  obtain ⟨objects, connected⟩ := connect_on_objects p s e host
  rw [connected]
  exact steady_kept s _ _ _ _

theorem steady_close_all (entries : List (Nat × Std.TreeSet Int)) (s : State D) :
    Steady s (closeAll s entries).1 := by
  obtain ⟨objects, closed⟩ := close_all_objects entries s
  rw [closed]
  exact steady_kept s _ _ _ _

theorem steady_destroy (s : State D) (endpoints : List Nat) : Steady s (destroy s endpoints) := by
  cases endpoints with
  | nil => exact steady_kept s _ _ _ _
  | cons e rest => exact steady_kept s _ _ _ _

theorem steady_add_aggregator (p : Platform D) (s : State D) (hdl : Hdl) (request : JSON D) :
    Steady s (handleAddAggregator p s hdl request).1 := by
  dsimp only [handleAddAggregator]
  split
  · exact steady_kept s _ _ _ _
  · rename_i e rest _
    exact steady_trans s _ _ (steady_connect_on p s e _) (steady_kept _ _ _ _ _)

theorem steady_clear_aggregator (s : State D) (hdl : Hdl) : Steady s (handleClearAggregator s hdl).1 := by
  have closing := steady_close_all s.m_endpoints.toList s
  dsimp only [handleClearAggregator]
  split
  · exact steady_trans s _ _ closing (steady_trans _ _ _ (steady_kept _ _ ∅ _ _) (steady_destroy _ _))
  · exact steady_trans s _ _ closing (steady_kept _ _ _ _ _)

theorem steady_wake_adding (p : Platform D) (s : State D) (call : Adding) : Steady s (wakeAdding p s call).1 := by
  dsimp only [wakeAdding]
  split
  · exact steady_kept s _ _ _ _
  · have again : Steady s (connectOn p (trackId s call) call.endpoint call.host).1 := by
      refine steady_trans s _ _ ?_ (steady_connect_on p _ _ _)
      exact steady_kept s _ _ _ _
    split
    · exact steady_trans s _ _ again (steady_kept _ _ _ _ _)
    · exact steady_trans s _ _ again
        (steady_trans _ _ _ (steady_connect_on p _ _ _) (steady_kept _ _ _ _ _))

structure Unhurt (s t : State D) : Prop where
  server : t.m_server = s.m_server
  futures : t.m_sendFutures = s.m_sendFutures
  batch : t.m_broadcastArray = s.m_broadcastArray
  fault : t.fault = s.fault

theorem unhurt_steady (s t : State D) (steady : Steady s t) : Unhurt s t :=
  ⟨steady.server, steady.futures, steady.batch, steady.fault⟩

theorem command_cases (p : Platform D) (s : State D) (hdl : Hdl) (payload : Text) (request : JSON D) :
    (request.index "action".toList).asText = "add-trading-aggregator".toList ∧
        command p s hdl payload request = handleAddAggregator p s hdl request ∨
      (request.index "action".toList).asText = "clear-trading-aggregators".toList ∧
        command p s hdl payload request = handleClearAggregator s hdl ∨
      ((request.index "action".toList).asText ≠ "add-trading-aggregator".toList ∧
        (request.index "action".toList).asText ≠ "clear-trading-aggregators".toList) ∧
        ∃ symbols cleared, (command p s hdl payload request).1 =
          { s with m_symbols := symbols, m_clearedPrices := cleared } := by
  dsimp only [command]
  split
  · rename_i adds
    exact Or.inl ⟨adds, rfl⟩
  split
  · rename_i clears
    exact Or.inr (Or.inl ⟨clears, rfl⟩)
  rename_i adds clears
  refine Or.inr (Or.inr ⟨⟨adds, clears⟩, ?_⟩)
  split
  · dsimp only [handleAddProvider]
    split
    · exact ⟨s.m_symbols, s.m_clearedPrices, rfl⟩
    · exact ⟨_, s.m_clearedPrices, rfl⟩
  · split
    · exact ⟨s.m_symbols, true, rfl⟩
    · split <;> exact ⟨s.m_symbols, s.m_clearedPrices, rfl⟩

theorem unhurt_command (p : Platform D) (s : State D) (hdl : Hdl) (payload : Text) (request : JSON D) :
    Unhurt s (command p s hdl payload request).1 := by
  rcases command_cases p s hdl payload request with ⟨_, adds⟩ | ⟨_, clears⟩ | ⟨_, symbols, cleared, other⟩
  · rw [adds]
    exact unhurt_steady s _ (steady_add_aggregator p s hdl request)
  · rw [clears]
    exact unhurt_steady s _ (steady_clear_aggregator s hdl)
  · rw [other]
    exact ⟨rfl, rfl, rfl, rfl⟩

theorem subscribe_part_same (p : Platform D) (s : State D) (hdl : Hdl) (request : JSON D) :
    ∃ tasks, subscribePart p s hdl request = { s with m_sendFutures := s.m_sendFutures ++ tasks } ∧
      ∀ task ∈ tasks, task.phase = .launched ∧ task.sub.hdl = hdl := by
  dsimp only [subscribePart, launch]
  split
  · split
    · exact ⟨_, by rw [List.append_assoc], by simp⟩
    · exact ⟨_, rfl, by simp⟩
  · exact ⟨[], by simp, by simp⟩

-- What the handlers of on_message put out: messages to the aggregators and
-- status replies. Prices and posts come from the data callback alone.
def isAnswer : Output D → Bool
  | .aggregatorSend _ _ => true
  | .send _ (.status _ _) => true
  | _ => false

theorem aggregator_send_answers (s : State D) (conn : Conn) (payload : Text) :
    ∀ output ∈ aggregatorSend s conn payload, isAnswer output = true := by
  dsimp only [aggregatorSend]
  split <;> simp [isAnswer]

theorem send_tracked_answers (s : State D) (payload : Text) :
    ∀ output ∈ sendTracked s payload, isAnswer output = true := by
  intro output member
  obtain ⟨conn, _, sent⟩ := List.mem_flatMap.mp member
  exact aggregator_send_answers s conn payload output sent

theorem add_provider_answers (s : State D) (payload : Text) (request : JSON D) :
    ∀ output ∈ (handleAddProvider s payload request).2, isAnswer output = true := by
  dsimp only [handleAddProvider]
  split
  · simp
  · intro output member
    obtain ⟨call, _, sent⟩ := List.mem_flatMap.mp member
    exact aggregator_send_answers s call.1 call.2 output sent

theorem add_aggregator_silent (p : Platform D) (s : State D) (hdl : Hdl) (request : JSON D) :
    (handleAddAggregator p s hdl request).2 = [] := by
  dsimp only [handleAddAggregator]
  split <;> rfl

theorem clear_aggregator_answers (s : State D) (hdl : Hdl) :
    ∀ output ∈ (handleClearAggregator s hdl).2, isAnswer output = true := by
  dsimp only [handleClearAggregator, handleError]
  split <;> simp [isAnswer]

theorem command_answers (p : Platform D) (s : State D) (hdl : Hdl) (payload : Text) (request : JSON D) :
    ∀ output ∈ (command p s hdl payload request).2, isAnswer output = true := by
  dsimp only [command]
  split
  · rw [add_aggregator_silent]
    simp
  · split
    · exact clear_aggregator_answers s hdl
    · split
      · exact add_provider_answers s payload request
      · split
        · exact send_tracked_answers s payload
        · split
          · exact send_tracked_answers s payload
          · simp

theorem reply_added_answers (s : State D) (call : Adding) : ∀ output ∈ (replyAdded s call).2, isAnswer output = true := by
  dsimp only [replyAdded, handleError]
  split <;> simp [isAnswer]

theorem wake_adding_answers (p : Platform D) (s : State D) (call : Adding) :
    ∀ output ∈ (wakeAdding p s call).2, isAnswer output = true := by
  dsimp only [wakeAdding]
  split
  · exact reply_added_answers _ call
  · split
    · exact reply_added_answers _ call
    · simp

theorem handled_effect (p : Platform D) (s t : State D) (hdl : Hdl) (payload : Text) (request : JSON D)
    (done : (command p (subscribePart p s hdl request) hdl payload request).1 = t) :
    t.m_server = s.m_server ∧ t.m_broadcastArray = s.m_broadcastArray ∧ t.fault = s.fault ∧
      ∃ tasks, t.m_sendFutures = s.m_sendFutures ++ tasks ∧
        ∀ task ∈ tasks, task.phase = .launched ∧ task.sub.hdl = hdl := by
  obtain ⟨tasks, launched, phases⟩ := subscribe_part_same p s hdl request
  have unhurt := unhurt_command p (subscribePart p s hdl request) hdl payload request
  rw [done, launched] at unhurt
  exact ⟨unhurt.server, unhurt.batch, unhurt.fault, tasks, unhurt.futures, phases⟩

end TradingFeed.Broadcaster
