import Mathlib.Data.List.Nodup
import TradingFeed.Broadcaster.Registered

set_option autoImplicit false

namespace TradingFeed.Broadcaster

open TradingFeed.Json TradingFeed.Sockets

variable {D : Type}

structure State.Synced (s : State D) : Prop where
  single : s.m_endpoints.size ≤ 1
  union : ∀ id, id ∈ s.m_ids ↔ ∃ conn ∈ s.tracked, conn.id = id

-- The same in the middle of a command: the loop of handle_add_aggregator has
-- nothing left to reach, and m_ids is cleared only behind the last join.
def ThreadSynced (s : State D) : Prop :=
  match s.thread with
  | .adding call =>
      s.Synced ∧ call.rest = [] ∧ (call.first = true → s.m_endpoints.size = 0) ∧
        (call.first = false → call.endpoint ∈ s.m_endpoints)
  | .joining _ => s.m_endpoints = ∅
  | _ => s.Synced

theorem add_provider_calls (s : State D) (payload : Text) (request : JSON D) :
    (handleAddProvider s payload request).2 =
      (providerCalls s payload).flatMap fun call => aggregatorSend s call.1 call.2 := by
  dsimp only [handleAddProvider]
  split
  · rename_i empty
    have untracked : s.tracked = [] := by
      rw [State.tracked, List.isEmpty_iff.mp (Std.TreeMap.isEmpty_toList.trans empty)]
      rfl
    rw [providerCalls, untracked]
    rfl
  · rfl

theorem synced_same (s t : State D) (endpoints : t.m_endpoints = s.m_endpoints) (ids : t.m_ids = s.m_ids)
    (synced : s.Synced) : t.Synced := by
  refine ⟨by rw [endpoints]; exact synced.single, fun id => ?_⟩
  rw [ids, tracked_same s t endpoints]
  exact synced.union id

theorem synced_empty (s : State D) (endpoints : s.m_endpoints = ∅) (ids : s.m_ids = ∅) : s.Synced := by
  constructor
  · rw [endpoints]
    exact Nat.zero_le 1
  · intro id
    have untracked := nothing_tracked s endpoints
    rw [ids]
    constructor
    · exact fun member => absurd member Std.TreeSet.not_mem_emptyc
    · exact fun ⟨conn, tracked, _⟩ => absurd tracked (untracked conn)

theorem thread_synced_same (s t : State D) (endpoints : t.m_endpoints = s.m_endpoints) (ids : t.m_ids = s.m_ids)
    (thread : t.thread = s.thread) (synced : ThreadSynced s) : ThreadSynced t := by
  dsimp only [ThreadSynced] at synced ⊢
  rw [thread]
  split
  · rename_i call adding
    rw [adding] at synced
    rw [endpoints]
    exact ⟨synced_same s t endpoints ids synced.1, synced.2⟩
  · rename_i joining
    rw [joining] at synced
    exact endpoints.trans synced
  · rename_i notAdding notJoining
    split at synced
    · rename_i call adding
      exact absurd adding (notAdding call)
    · rename_i rest joining
      exact absurd joining (notJoining rest)
    · exact synced_same s t endpoints ids synced

theorem idle_synced (s : State D) (idle : s.thread = .idle) : ThreadSynced s ↔ s.Synced := by
  dsimp only [ThreadSynced]
  rw [idle]

theorem adding_synced (s : State D) (call : Adding) (adding : s.thread = .adding call) (synced : ThreadSynced s) :
    s.Synced ∧ call.rest = [] ∧ (call.first = true → s.m_endpoints.size = 0) ∧
      (call.first = false → call.endpoint ∈ s.m_endpoints) := by
  dsimp only [ThreadSynced] at synced
  rw [adding] at synced
  exact synced

theorem joining_synced (s : State D) (endpoints : List Nat) (joining : s.thread = .joining endpoints)
    (synced : ThreadSynced s) : s.m_endpoints = ∅ := by
  dsimp only [ThreadSynced] at synced
  rw [joining] at synced
  exact synced

theorem track_synced (s : State D) (call : Adding) (synced : s.Synced)
    (place : s.m_endpoints.size = 0 ∨ call.endpoint ∈ s.m_endpoints) : (trackId s call).Synced := by
  constructor
  · dsimp only [trackId]
    rw [Std.TreeMap.size_insert]
    have single := synced.single
    split
    · exact single
    · rename_i absent
      exact Nat.le_of_eq (congrArg (· + 1) (place.resolve_right absent))
  · intro id
    have key : compare call.clientId id = .eq ↔ id = call.clientId := by
      rw [Std.LawfulEqCmp.compare_eq_iff_eq, eq_comm]
    simp only [tracked_track_id]
    dsimp only [trackId]
    rw [Std.TreeSet.mem_insert, key, synced.union id]
    constructor
    · rintro (rfl | ⟨conn, tracked, same⟩)
      · exact ⟨⟨call.endpoint, call.clientId⟩, Or.inr rfl, rfl⟩
      · exact ⟨conn, Or.inl tracked, same⟩
    · rintro ⟨conn, tracked | rfl, same⟩
      · exact Or.inr ⟨conn, tracked, same⟩
      · exact Or.inl same.symm

theorem wake_adding_last (p : Platform D) (s : State D) (call : Adding) (last : call.rest = []) :
    ∃ objects, wakeAdding p s call = replyAdded { trackId s call with endPoints := objects } call := by
  dsimp only [wakeAdding]
  rw [last]
  split
  · exact ⟨_, rfl⟩
  · obtain ⟨objects, connected⟩ := connect_on_objects p (trackId s call) call.endpoint call.host
    exact ⟨objects, by rw [connected]⟩

theorem add_adding (p : Platform D) (s : State D) (hdl : Hdl) (request : JSON D) :
    ∃ objects call, handleAddAggregator p s hdl request =
        ({ s with endPoints := objects, thread := .adding call }, []) ∧
      call.hdl = hdl ∧ call.host = (request.index "host".toList).asText ∧
      ((s.m_endpoints.keys = [] ∧ call.first = true ∧ call.rest = []) ∨
        (s.m_endpoints.keys = call.endpoint :: call.rest ∧ call.first = false)) := by
  dsimp only [handleAddAggregator]
  split
  · rename_i empty
    exact ⟨_, _, rfl, rfl, rfl, Or.inl ⟨empty, rfl, rfl⟩⟩
  · rename_i e rest keys
    obtain ⟨objects, connected⟩ := connect_on_objects p s e (request.index "host".toList).asText
    exact ⟨objects, _, by rw [connected], rfl, rfl, Or.inr ⟨keys, rfl⟩⟩

theorem add_synced (p : Platform D) (s : State D) (hdl : Hdl) (request : JSON D) (synced : s.Synced) :
    ThreadSynced (handleAddAggregator p s hdl request).1 := by
  obtain ⟨objects, call, added, _, _, branch⟩ := add_adding p s hdl request
  have kept : ({ s with endPoints := objects, thread := .adding call } : State D).Synced := synced_same s _ rfl rfl synced
  have single := synced.single
  rw [added]
  rw [← Std.TreeMap.length_keys] at single
  cases branch with
  | inl alone =>
      obtain ⟨keys, first, rest⟩ := alone
      refine ⟨kept, rest, fun _ => ?_, fun later => ?_⟩
      · rw [← Std.TreeMap.length_keys, keys]
        rfl
      · rw [first] at later
        cases later
  | inr looped =>
      obtain ⟨keys, first⟩ := looped
      refine ⟨kept, ?_, fun earlier => ?_, fun _ => ?_⟩
      · rw [keys, List.length_cons] at single
        exact List.eq_nil_of_length_eq_zero (by omega)
      · rw [first] at earlier
        cases earlier
      · rw [← Std.TreeMap.mem_keys, keys]
        exact List.mem_cons_self

theorem wake_adding_synced (p : Platform D) (s : State D) (call : Adding) (adding : s.thread = .adding call)
    (synced : ThreadSynced s) : ThreadSynced (wakeAdding p s call).1 := by
  obtain ⟨held, last, first, later⟩ := adding_synced s call adding synced
  have place : s.m_endpoints.size = 0 ∨ call.endpoint ∈ s.m_endpoints := by
    cases branch : call.first with
    | true => exact Or.inl (first branch)
    | false => exact Or.inr (later branch)
  obtain ⟨objects, woken⟩ := wake_adding_last p s call last
  rw [woken]
  exact synced_same (trackId s call) _ rfl rfl (track_synced s call held place)

theorem destroy_synced (s : State D) (endpoints : List Nat) (cleared : s.m_endpoints = ∅) :
    ThreadSynced (destroy s endpoints) := by
  cases endpoints with
  | nil => exact synced_empty _ cleared rfl
  | cons e rest => exact cleared

theorem clear_synced (s : State D) (hdl : Hdl) (synced : s.Synced) : ThreadSynced (handleClearAggregator s hdl).1 := by
  dsimp only [handleClearAggregator]
  split
  · exact destroy_synced _ _ rfl
  · obtain ⟨objects, closed⟩ := close_all_objects s.m_endpoints.toList s
    rw [closed]
    exact synced_same s _ rfl rfl synced

theorem handled_synced (p : Platform D) (s : State D) (hdl : Hdl) (payload : Text) (request : JSON D)
    (idle : s.thread = .idle) (synced : s.Synced) :
    ThreadSynced (command p (subscribePart p s hdl request) hdl payload request).1 := by
  obtain ⟨tasks, launched, _⟩ := subscribe_part_same p s hdl request
  have ready : ({ s with m_sendFutures := s.m_sendFutures ++ tasks } : State D).Synced := synced_same s _ rfl rfl synced
  rw [launched]
  rcases command_cases p _ hdl payload request with ⟨_, adds⟩ | ⟨_, clears⟩ | ⟨_, symbols, cleared, other⟩
  · rw [adds]
    exact add_synced p _ hdl request ready
  · rw [clears]
    exact clear_synced _ hdl ready
  · rw [other]
    refine (idle_synced _ ?_).mpr (synced_same s _ rfl rfl synced)
    exact idle

theorem synced_step (p : Platform D) (s t : State D) (action : Action) (out : List (Output D)) (synced : ThreadSynced s)
    (taken : step p s action = some (t, out)) : ThreadSynced t := by
  obtain ⟨_, transition⟩ := step_transition p s t action out taken
  cases transition with
  | handled hdl payload request _ idle => exact handled_synced p s hdl payload request idle ((idle_synced s idle).mp synced)
  | added call thread => exact wake_adding_synced p s call thread synced
  | deleted e rest thread => exact destroy_synced s rest (joining_synced s _ thread synced)
  | joined e rest _ thread => exact destroy_synced _ rest (joining_synced s _ thread synced)
  | delivered conn data handler sub status =>
      have registry := deliver_registry sub status s
      exact thread_synced_same s _ registry.endpoints registry.ids registry.thread synced
  | _ => exact thread_synced_same s _ rfl rfl rfl synced

theorem reachable_synced (p : Platform D) (s : State D) (reach : (broadcaster p).Reachable .init s) : ThreadSynced s :=
  (broadcaster p).reachable_invariant .init ThreadSynced (synced_empty _ rfl rfl)
    (fun s action t out synced taken => synced_step p s t action out synced taken) s reach

theorem ids_nodup (ids : Std.TreeSet Int) : ids.toList.Nodup := by
  refine ids.distinct_toList.imp fun {a b} different same => different ?_
  rw [same]
  exact Std.ReflCmp.compare_self

theorem single_entry (s : State D) (single : s.m_endpoints.size ≤ 1) :
    s.m_endpoints.toList = [] ∨ ∃ e ids, s.m_endpoints.toList = [(e, ids)] := by
  rw [← Std.TreeMap.length_toList] at single
  match entries : s.m_endpoints.toList with
  | [] => exact Or.inl rfl
  | [(e, ids)] => exact Or.inr ⟨e, ids, rfl⟩
  | first :: second :: rest =>
      rw [entries, List.length_cons, List.length_cons] at single
      omega

theorem tracked_ids_nodup (s : State D) (single : s.m_endpoints.size ≤ 1) : (s.tracked.map Conn.id).Nodup := by
  dsimp only [State.tracked]
  cases single_entry s single with
  | inl empty =>
      rw [empty]
      exact List.nodup_nil
  | inr alone =>
      obtain ⟨e, ids, entry⟩ := alone
      have listed : (s.m_endpoints.toList.flatMap fun entry => entry.2.toList.map fun id => (⟨entry.1, id⟩ : Conn)).map
          Conn.id = ids.toList := by
        rw [entry, List.flatMap_singleton, List.map_map]
        exact List.map_id ids.toList
      rw [listed]
      exact ids_nodup ids

theorem filter_target (ids : Std.TreeSet Int) (id : Int) (member : id ∈ ids) :
    (ids.toList.filter fun target => target = id) = [id] := by
  rw [List.filter_eq, List.count_eq_one_of_mem (ids_nodup ids) (Std.TreeSet.mem_toList.mpr member)]
  rfl

theorem provider_calls_tracked (s : State D) (payload : Text) (synced : s.Synced) :
    providerCalls s payload = s.tracked.map fun conn => (conn, payload) := by
  have once : ∀ conn ∈ s.tracked,
      (s.m_ids.toList.filter fun target => target = conn.id).map (fun _ => (conn, payload)) = [(conn, payload)] := by
    intro conn tracked
    rw [filter_target s.m_ids conn.id ((synced.union conn.id).mpr ⟨conn, tracked, rfl⟩)]
    rfl
  rw [providerCalls, List.flatMap_congr once]
  exact List.flatMap_pure_eq_map _ s.tracked

theorem add_provider_reaches_each_once (p : Platform D) (s : State D) (reach : (broadcaster p).Reachable .init s)
    (idle : s.thread = .idle) :
    s.m_endpoints.size ≤ 1 ∧ (∀ id, id ∈ s.m_ids ↔ ∃ (e : Nat) (ids : Std.TreeSet Int), s.m_endpoints[e]? = some ids ∧ id ∈ ids) ∧
      (s.tracked.map Conn.id).Nodup ∧
      ∀ payload request,
        (handleAddProvider s payload request).2 =
            (providerCalls s payload).flatMap (fun call => aggregatorSend s call.1 call.2) ∧
          providerCalls s payload = s.tracked.map fun conn => (conn, payload) := by
  have synced := (idle_synced s idle).mp (reachable_synced p s reach)
  refine ⟨synced.single, fun id => ?_, tracked_ids_nodup s synced.single, fun payload request =>
    ⟨add_provider_calls s payload request, provider_calls_tracked s payload synced⟩⟩
  rw [synced.union id]
  constructor
  · rintro ⟨⟨e, _⟩, tracked, rfl⟩
    obtain ⟨ids, listed, member⟩ := (State.mem_tracked s _).mp tracked
    exact ⟨e, ids, listed, member⟩
  · rintro ⟨e, ids, listed, member⟩
    exact ⟨⟨e, id⟩, (State.mem_tracked s _).mpr ⟨ids, listed, member⟩, rfl⟩

def twoAdds : List Action := [.connected, .message 0 addRequest, .wake, .message 0 addRequest, .wake]

theorem add_provider_reaches_each_once_two :
    ∃ s log, (broadcaster .plain).run .init twoAdds = some (s, log) ∧ s.m_endpoints.size ≤ 1 ∧
      ∀ payload, providerCalls s payload = [(⟨0, 0⟩, payload), (⟨0, 1⟩, payload)] := by
  obtain ⟨s, log, ran, checked⟩ := (broadcaster .plain).run_check .init twoAdds
    (fun done => done.1.thread.isIdle = true ∧ done.1.tracked = [⟨0, 0⟩, ⟨0, 1⟩]) (by decide +kernel)
  obtain ⟨idle, tracked⟩ := of_decide_eq_true checked
  obtain ⟨single, _, _, calls⟩ := add_provider_reaches_each_once .plain s ⟨twoAdds, log, ran⟩ (idle_checked _ idle)
  refine ⟨s, log, ran, single, fun payload => ?_⟩
  have reached := (calls payload priceValue).2
  rw [tracked] at reached
  exact reached

end TradingFeed.Broadcaster
