import TradingFeed.Broadcaster.Accounting
import TradingFeed.Broadcaster.Providers

set_option autoImplicit false

namespace TradingFeed.Broadcaster

open TradingFeed.Json TradingFeed.Sockets Library

variable {D : Type}

def passedOn (request : JSON D) : Bool :=
  let action := (request.index "action".toList).asText
  action = "add-provider".toList ∨ action = "clear-providers".toList ∨ action = "clear-prices".toList

def request (p : Platform D) (event : Step D) : Option Text :=
  match event.action with
  | .message _ payload => if (load p.fp payload).toOption.any passedOn then some payload else none
  | _ => none

def requests (p : Platform D) (events : List (Step D)) : List Text := events.filterMap (request p)

def sentOn (conn : Conn) (outputs : List (Output D)) : List Text :=
  outputs.filterMap fun | .aggregatorSend other payload => if other = conn then some payload else none | _ => none

def handedTo (conn : Conn) (events : List (Step D)) : List Text := events.flatMap fun event => sentOn conn event.out

theorem sent_on_send (s : State D) (conn other : Conn) (payload : Text) :
    (sentOn conn (aggregatorSend s other payload)).Sublist (if other = conn then [payload] else []) := by
  dsimp only [aggregatorSend, sentOn]
  by_cases there : (s.handler other).isSome = true
  · rw [if_pos there]
    by_cases same : other = conn <;> simp [same]
  · rw [if_neg there]
    exact List.nil_sublist _

theorem sent_on_each (s : State D) (conn : Conn) (payload : Text) (conns : List Conn) (distinct : conns.Nodup) :
    (sentOn conn (conns.flatMap fun other => aggregatorSend s other payload)).Sublist [payload] := by
  induction conns with
  | nil => exact List.nil_sublist _
  | cons first rest ih =>
      obtain ⟨fresh, distinct⟩ := List.nodup_cons.mp distinct
      have head := sent_on_send s conn first payload
      rw [List.flatMap_cons, sentOn, List.filterMap_append]
      change (sentOn conn (aggregatorSend s first payload) ++ sentOn conn _).Sublist [payload]
      by_cases same : first = conn
      · have none_ : sentOn conn (rest.flatMap fun other => aggregatorSend s other payload) = [] := by
          refine List.filterMap_eq_nil_iff.mpr fun output member => ?_
          obtain ⟨other, among, sent⟩ := List.mem_flatMap.mp member
          dsimp only [aggregatorSend] at sent
          split at sent
          · cases List.mem_singleton.mp sent
            refine if_neg fun equal => fresh ?_
            rw [same, ← equal]
            exact among
          · cases sent
        rw [none_, List.append_nil]
        rwa [if_pos same] at head
      · rw [if_neg same, List.sublist_nil] at head
        rw [head, List.nil_append]
        exact ih distinct

theorem sent_on_silent (conn : Conn) (outputs : List (Output D))
    (silent : ∀ other payload, .aggregatorSend other payload ∉ outputs) : sentOn conn outputs = [] := by
  refine List.filterMap_eq_nil_iff.mpr fun output member => ?_
  cases output with
  | aggregatorSend other payload => exact absurd member (silent other payload)
  | _ => rfl

section

variable (p : Platform D) (s t : State D) (conn : Conn) (hdl : Hdl) (payload : Text) (request : JSON D)

theorem clear_aggregator_silent (other : Conn) (text : Text) :
    .aggregatorSend other text ∉ (handleClearAggregator s hdl).2 := by
  dsimp only [handleClearAggregator, handleError]
  split <;> simp

theorem wake_adding_silent (call : Adding) (other : Conn) (text : Text) :
    .aggregatorSend other text ∉ (wakeAdding p s call).2 := by
  dsimp only [wakeAdding, replyAdded, handleError]
  split
  · split <;> simp
  · split
    · split <;> simp
    · simp

theorem deliver_silent (sub : Subscription) (status : JSON D) (other : Conn) (text : Text) :
    .aggregatorSend other text ∉ (deliver sub status s).2 := by
  dsimp only [deliver, batch]
  rw [repost_outputs]
  split
  · split <;> simp
  · split
    · simp
    · split
      · simp
      · split <;> simp

theorem tracked_nodup (synced : s.Synced) : s.tracked.Nodup := (tracked_ids_nodup s synced.single).of_map Conn.id

theorem sent_tracked (synced : s.Synced) : (sentOn conn (sendTracked s payload)).Sublist [payload] :=
  sent_on_each s conn payload s.tracked (tracked_nodup s synced)

theorem add_provider_once (synced : s.Synced) :
    (sentOn conn (handleAddProvider s payload request).2).Sublist [payload] := by
  rw [add_provider_calls, provider_calls_tracked s payload synced, List.flatMap_map]
  exact sent_on_each s conn payload s.tracked (tracked_nodup s synced)

theorem command_once (synced : s.Synced) :
    (sentOn conn (command p s hdl payload request).2).Sublist (if passedOn request then [payload] else []) := by
  dsimp only [command]
  split
  · rw [add_aggregator_silent]
    exact List.nil_sublist _
  split
  · rw [sent_on_silent conn _ fun other text => clear_aggregator_silent s hdl other text]
    exact List.nil_sublist _
  split
  · rename_i action
    have passed : passedOn request = true := decide_eq_true (Or.inl action)
    rw [if_pos passed]
    exact add_provider_once s conn payload request synced
  split
  · rename_i action
    have passed : passedOn request = true := decide_eq_true (Or.inr (Or.inl action))
    rw [if_pos passed]
    exact sent_tracked s conn payload synced
  split
  · rename_i action
    have passed : passedOn request = true := decide_eq_true (Or.inr (Or.inr action))
    rw [if_pos passed]
    exact sent_tracked s conn payload synced
  · exact List.nil_sublist _

end

theorem request_loaded (p : Platform D) (s : State D) (hdl : Hdl) (payload : Text) (given : JSON D) (out : List (Output D))
    (loaded : load p.fp payload = .ok given) :
    request p ⟨s, .message hdl payload, out⟩ = if passedOn given then some payload else none := by
  simp only [request, loaded, Except.toOption, Option.any_some]

theorem step_forwards (p : Platform D) (s t : State D) (action : Action) (out : List (Output D)) (conn : Conn)
    (synced : ThreadSynced s) (taken : step p s action = some (t, out)) :
    (sentOn conn out).Sublist (request p ⟨s, action, out⟩).toList := by
  obtain ⟨_, moved⟩ := step_transition p s t action out taken
  cases moved with
  | handled hdl payload request alive idle loaded =>
      obtain ⟨tasks, kept, _⟩ := subscribe_part_same p s hdl request
      have same : (subscribePart p s hdl request).Synced := by
        rw [kept]
        exact synced_same s _ rfl rfl ((idle_synced s idle).mp synced)
      have once := command_once p _ conn hdl payload request same
      rw [request_loaded p s hdl payload request _ loaded]
      by_cases passed : passedOn request = true
      · rw [if_pos passed] at once ⊢
        exact once
      · rw [if_neg passed] at once ⊢
        exact once
  | added call =>
      rw [sent_on_silent conn _ (wake_adding_silent p s call)]
      exact List.nil_sublist _
  | delivered conn' data handler sub status =>
      rw [sent_on_silent conn _ (deliver_silent s sub status)]
      exact List.nil_sublist _
  | _ => exact List.nil_sublist _

theorem path_forwards (p : Platform D) (events : List (Step D)) (s : State D) (conn : Conn)
    (path : (broadcaster p).Path .init events s) : (handedTo conn events).Sublist (requests p events) := by
  refine ((broadcaster p).path_history .init
    (fun past s => ThreadSynced s ∧ (handedTo conn past).Sublist (requests p past))
    ⟨synced_empty _ rfl rfl, List.nil_sublist _⟩ (fun past s action t out _ held taken => ?_) events s path).2
  have one := step_forwards p s t action out conn held.1 taken
  refine ⟨synced_step p s t action out held.1 taken, ?_⟩
  rw [requests, List.filterMap_append, handedTo, List.flatMap_append, List.filterMap_eq_flatMap_toList (l := [_]),
    List.flatMap_singleton, List.flatMap_singleton]
  exact held.2.append one

end TradingFeed.Broadcaster
