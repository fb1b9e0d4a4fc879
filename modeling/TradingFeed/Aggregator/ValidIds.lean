import TradingFeed.Aggregator.Connections

set_option autoImplicit false

namespace TradingFeed.Aggregator

open TradingFeed.Json TradingFeed.Sockets

variable {D : Type}

def isAdd (p : Platform D) : Action → Bool
  | .message _ payload =>
      match load p.fp payload with
      | .ok request => (request.index "action".toList).asText = "add-provider".toList
      | .error _ => false
  | _ => false

-- The wait loop for the id has ended in the run, and its last poll has read "Open".
def SawOpen (p : Platform D) (actions : List Action) (id : Int) : Prop :=
  ∃ past later s log t out hdl host, actions = past ++ .wake :: later ∧
    (aggregator p).run .init past = some (s, log) ∧ step p s .wake = some (t, out) ∧
    s.thread = .polling hdl host id ∧ t.thread = .acknowledging hdl host id ∧
    (s.handler id).map ClientHandler.m_status = some .opened

section

variable (p : Platform D) (s t : State) (action : Action) (out : List (Output D))

theorem complete_step (complete : s.m_endpoint.Complete) (taken : Transition p s action t out) :
    t.m_endpoint.Complete := by
  cases taken with
  | addProvider hdl payload request => exact s.m_endpoint.complete_connect _ complete
  | closedOne hdl gone id => exact s.m_endpoint.complete_update id .shut (fun _ => rfl) complete
  | installed task hdl id => exact s.m_endpoint.complete_update id (.onDataReceived hdl) (fun _ => rfl) complete
  | opened id => exact s.m_endpoint.complete_update id .publishOpen (fun _ => rfl) complete
  | silenced id => exact s.m_endpoint.complete_update id .ignoreData (fun _ => rfl) complete
  | failed id => exact s.m_endpoint.complete_update id .onFail (fun _ => rfl) complete
  | lost id => exact s.m_endpoint.complete_update id .lose (fun _ => rfl) complete
  | closed id => exact s.m_endpoint.complete_update id .onClose (fun _ => rfl) complete
  | _ => exact complete

theorem distinct_step (recorded : Recorded s) (distinct : (s.thread.awaited ++ s.m_client_ids).Nodup)
    (taken : Transition p s action t out) : (t.thread.awaited ++ t.m_client_ids).Nodup := by
  cases taken with
  | disconnected hdl idle =>
      rw [idle] at distinct
      exact distinct
  | clearProviders hdl payload request idle =>
      rw [idle] at distinct
      exact distinct
  | addProvider hdl payload request idle =>
      rw [idle] at distinct
      refine List.nodup_cons.mpr ⟨fun member => ?_, distinct⟩
      obtain ⟨natural, other, among⟩ := recorded.clients _ member
      have below := recorded.numbered other _ among
      rcases s.m_endpoint.connect_id (p.acceptsUri (request.index "host".toList).asText) with rejected | fresh <;> omega
  | ready hdl host id handler thread =>
      rw [thread] at distinct
      have moved : (s.m_client_ids ++ [id]).Nodup := List.perm_append_comm.nodup_iff.mp distinct
      exact moved
  | replied hdl host id thread =>
      rw [thread] at distinct
      exact distinct
  | launched hdl id thread =>
      rw [thread] at distinct
      exact distinct
  | closedOne hdl gone id todo thread =>
      rw [thread] at distinct
      exact distinct
  | stuck => exact List.nodup_nil
  | cleared => exact List.nodup_nil
  | _ => exact distinct

theorem client_added (id : Int) (taken : Transition p s action t out) (fresh : id ∉ s.m_client_ids)
    (member : id ∈ t.m_client_ids) :
    ∃ hdl host, action = .wake ∧ s.thread = .polling hdl host id ∧ t.thread = .acknowledging hdl host id ∧
      (s.handler id).map ClientHandler.m_status = some .opened := by
  cases taken with
  | ready hdl host other handler thread found opened =>
      have same : id = other := List.mem_singleton.mp ((List.mem_append.mp member).resolve_left fresh)
      subst other
      refine ⟨hdl, host, rfl, thread, rfl, ?_⟩
      rw [found, Option.map_some, opened]
  | stuck => cases member
  | cleared => cases member
  | _ => exact absurd member fresh

theorem callback_not_null (handler : ClientHandler Hdl) (data : Text) :
    clientOnMessage p s handler data ≠ .error .nullHandler := by
  dsimp only [clientOnMessage, emitDataReceived]
  split
  · exact fun raised => by cases raised
  · exact fun raised => by cases raised
  · dsimp only [forward]
    split
    · dsimp only [loadText]
      split <;> exact fun raised => by cases raised
    · exact fun raised => by cases raised

theorem pointer_step (owned : Owned s) (sound : s.fault ≠ some .nullHandler) (taken : Transition p s action t out) :
    t.fault ≠ some .nullHandler := by
  cases taken with
  | malformed => simp
  | unknown task hdl id found missing =>
      have among : (hdl, id) ∈ s.tasks := List.mem_map.mpr ⟨_, List.mem_of_getElem? found, rfl⟩
      exact absurd (congrArg (Option.map ClientHandler.dataReceivedSignal) missing) (owned.known (hdl, id) among)
  | escaped id data handler fault free found receives raised =>
      intro null
      cases null
      exact callback_not_null p s handler data raised
  | _ => exact sound

theorem is_add (hdl : Hdl) (payload : Text) (request : JSON D) (loaded : load p.fp payload = .ok request)
    (asked : (request.index "action".toList).asText = "add-provider".toList) :
    isAdd p (.message hdl payload) = true := by
  dsimp only [isAdd]
  rw [loaded]
  exact decide_eq_true asked

theorem next_step (taken : Transition p s action t out) :
    t.m_endpoint.m_next_id ≤ s.m_endpoint.m_next_id + [action].countP (isAdd p) := by
  rcases transition_connections p s t action out taken with ⟨_, same⟩ | ⟨hdl, payload, request, rfl, loaded, asked, _, _, rfl⟩
  · omega
  · rw [List.countP_singleton, if_pos (is_add p hdl payload request loaded asked)]
    exact s.m_endpoint.connect_next _

end

structure Ids (p : Platform D) (actions : List Action) (s : State) : Prop where
  complete : s.m_endpoint.Complete
  distinct : (s.thread.awaited ++ s.m_client_ids).Nodup
  opened : ∀ id ∈ s.m_client_ids, SawOpen p actions id
  pointer : s.fault ≠ some .nullHandler
  next : s.m_endpoint.m_next_id ≤ actions.countP (isAdd p)

theorem run_ids (p : Platform D) (actions : List Action) (s : State) (log : List (List (Output D)))
    (ran : (aggregator p).run .init actions = some (s, log)) : Ids p actions s := by
  refine (aggregator p).run_history .init (fun past _ s => Ids p past s) ?_ (fun past head s a t out before held taken => ?_)
    actions s log ran
  · refine ⟨EndPoint.complete_new, List.nodup_nil, fun id member => absurd member List.not_mem_nil, ?_, Int.le_refl 0⟩
    exact fun null => nomatch null
  · have transition := (step_transition p s t a out taken).2
    have recorded := reachable_recorded p s ⟨past, head, before⟩
    have owned := reachable_owned p s ⟨past, head, before⟩
    refine ⟨complete_step p s t a out held.complete transition, distinct_step p s t a out recorded held.distinct transition,
      fun id member => ?_, pointer_step p s t a out owned held.pointer transition, ?_⟩
    · by_cases old : id ∈ s.m_client_ids
      · obtain ⟨earlier, later, mid, mids, next, sent, hdl, host, rfl, rest⟩ := held.opened id old
        exact ⟨earlier, later ++ [a], mid, mids, next, sent, hdl, host, by simp, rest⟩
      · obtain ⟨hdl, host, rfl, polling, acknowledging, opened⟩ := client_added p s t a out id transition old member
        exact ⟨past, [], s, head, t, out, hdl, host, rfl, before, taken, polling, acknowledging, opened⟩
    · have grows := next_step p s t a out transition
      have bound := held.next
      rw [List.countP_append]
      omega

theorem ids_always_valid (p : Platform D) (actions : List Action) (s : State) (log : List (List (Output D)))
    (few : actions.countP (isAdd p) < 2 ^ 31) (ran : (aggregator p).run .init actions = some (s, log)) :
    s.m_endpoint.m_next_id < 2 ^ 31 ∧
      (∀ id, id ∈ s.m_endpoint.m_connection_list ↔ 0 ≤ id ∧ id < s.m_endpoint.m_next_id) ∧
      (∀ (id : Int) (handler : ClientHandler Hdl), s.m_endpoint.m_connection_list[id]? = some handler → handler.m_id = id) ∧
      s.m_client_ids.Nodup ∧
      (∀ id ∈ s.m_client_ids, id ≠ -1 ∧ id ∈ s.m_endpoint.m_connection_list ∧ SawOpen p actions id) ∧
      (∀ task ∈ s.m_sendFutures, s.m_endpoint.get_metadata task.id ≠ none) ∧
      s.fault ≠ some .nullHandler := by
  have ids := run_ids p actions s log ran
  have recorded := reachable_recorded p s ⟨actions, log, ran⟩
  have owned := reachable_owned p s ⟨actions, log, ran⟩
  have listed := s.m_endpoint.mem_complete ids.complete
  refine ⟨?_, listed, s.m_endpoint.complete_named ids.complete, (List.nodup_append.mp ids.distinct).2.1, ?_, ?_, ids.pointer⟩
  · have bound := ids.next
    omega
  · intro id member
    obtain ⟨natural, hdl, among⟩ := recorded.clients id member
    exact ⟨by omega, (listed id).mpr ⟨natural, recorded.numbered hdl id among⟩, ids.opened id member⟩
  · intro task member missing
    have known := owned.known (task.hdl, task.id) (List.mem_map.mpr ⟨task, member, rfl⟩)
    exact known (congrArg (Option.map ClientHandler.dataReceivedSignal) missing)

theorem ids_always_valid_added :
    ∃ s log, (aggregator .plain).run .init addedRun = some (s, log) ∧ s.m_client_ids = [0] ∧
      s.m_endpoint.m_next_id < 2 ^ 31 ∧
      (∀ id, id ∈ s.m_endpoint.m_connection_list ↔ 0 ≤ id ∧ id < s.m_endpoint.m_next_id) ∧
      (∀ (id : Int) (handler : ClientHandler Hdl), s.m_endpoint.m_connection_list[id]? = some handler → handler.m_id = id) ∧
      s.m_client_ids.Nodup ∧
      (∀ id ∈ s.m_client_ids, id ≠ -1 ∧ id ∈ s.m_endpoint.m_connection_list ∧ SawOpen .plain addedRun id) ∧
      (∀ task ∈ s.m_sendFutures, s.m_endpoint.get_metadata task.id ≠ none) ∧
      s.fault ≠ some .nullHandler := by
  obtain ⟨s, log, ran, checked⟩ := (aggregator .plain).run_check .init addedRun
    (fun done => done.1.m_client_ids = [0]) (by decide +kernel)
  exact ⟨s, log, ran, of_decide_eq_true checked, ids_always_valid .plain addedRun s log (by decide +kernel) ran⟩

end TradingFeed.Aggregator
