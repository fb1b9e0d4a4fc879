import TradingFeed.Broadcaster.Batching
import TradingFeed.Broadcaster.Progress

set_option autoImplicit false

namespace TradingFeed.Broadcaster

open TradingFeed.Json TradingFeed.Sockets

variable {D : Type}

def Resubscribes (p : Platform D) (hdl : Hdl) (word : Text) (action : Action) : Prop :=
  ∃ payload request, action = .message hdl payload ∧ load p.fp payload = .ok request ∧
    (request.index "action".toList).asText = "subscribe".toList ∧ channel request = word

def PriceOn (word : Text) : Sent D → Prop
  | .batch _ => word = "broadcast".toList
  | .latestPrice _ => word = "latest-price".toList
  | _ => False

-- Once the task of the unsubscribe message has finished, no later step sends the
-- consumer a price on the channel, unless the consumer has subscribed again.
def UnsubscribeStops (p : Platform D) (s : State D) (hdl : Hdl) (payload word : Text) : Prop :=
  ∀ front back mid t head tail task,
    (broadcaster p).run s (.message hdl payload :: front) = some (mid, head) →
    mid.m_sendFutures[s.m_sendFutures.length]? = some task → task.finished = true →
    (broadcaster p).run mid back = some (t, tail) → (∀ action ∈ front ++ back, ¬Resubscribes p hdl word action) →
    ∀ sent, .send hdl sent ∈ tail.flatten → ¬PriceOn word sent

theorem silent_no_subscribe (p : Platform D) (hdl : Hdl) (word : Text) (action : Action) (silent : Silent action) :
    ¬Resubscribes p hdl word action := by
  rintro ⟨payload, _, message, _⟩
  exact silent hdl payload message

theorem asks_no_subscribe (p : Platform D) (hdl sender : Hdl) (payload word action : Text) (request : JSON D)
    (asks : Asks p payload action request) (other : action ≠ "subscribe".toList) :
    ¬Resubscribes p hdl word (.message sender payload) := by
  rintro ⟨_, again, message, loaded, subscribes, _⟩
  cases message
  cases asks.loaded.symm.trans loaded
  exact other (asks.action.symm.trans subscribes)

theorem reach_registered (p : Platform D) (s : State D) (hdl : Hdl) (sound : s.fault = none) (idle : s.thread = .idle)
    (alive : s.m_server.alive hdl = true) (coherent : Coherent s) (registered : Registered (fun _ => False) s) :
    ∃ t, (broadcaster p).Leads (fun action => Silent action ∨ action = .message hdl clearRequest) s t ∧
      t.thread = .idle ∧ Steady s t ∧ Registered (fun _ => True) t := by
  by_cases stuck : ∃ conn ∈ s.tracked, s.handler conn = none
  · obtain ⟨conn, tracked, missing⟩ := stuck
    obtain ⟨ids, listed, _⟩ := (State.mem_tracked s conn).mp tracked
    have inside : conn.endpoint ∈ s.m_endpoints := Std.TreeMap.mem_iff_isSome_getElem?.mpr (by simp [listed])
    obtain ⟨u, leads, winds, _, settled, _⟩ := settle_all p (everyConn s) s sound coherent
    have absent : u.handler conn = none := by
      cases found : u.handler conn with
      | none => rfl
      | some handler =>
          have known := (winds.known conn).mp (by unfold State.Known; rw [found]; rfl)
          dsimp only [State.Known] at known
          rw [missing] at known
          cases known
    obtain ⟨t, further, rest, empty, steady⟩ := clear_empties p u hdl conn (winds.steady.fault.trans sound)
      (winds.thread.trans idle) (by rw [winds.steady.server]; exact alive)
      (by rw [tracked_same s u winds.endpoints]; exact tracked)
      ((winds.owned conn.endpoint).mpr (registered.owned conn.endpoint inside)) absent
      (fun e member id handler found => by
        rw [winds.endpoints] at member
        have known := (winds.known ⟨e, id⟩).mp (by unfold State.Known; rw [found]; rfl)
        exact settled ⟨e, id⟩ (mem_every_conn s e id member known) handler found)
    exact ⟨t, (broadcaster p).leads_trans _ s u t ((broadcaster p).leads_weaken Silent _ s u (fun _ => Or.inl) leads)
      further, rest, steady_trans s u t winds.steady steady, registered_empty _ t empty⟩
  · refine ⟨s, (broadcaster p).leads_refl _ s, idle, steady_refl s, fun conn tracked _ => ?_, registered.owned⟩
    dsimp only [State.Known]
    cases found : s.handler conn with
    | none => exact absurd ⟨conn, tracked, found⟩ stuck
    | some handler => rfl

theorem open_and_visit (p : Platform D) (s : State D) (conn : Conn) (i : Nat) (sub : Subscription)
    (sound : s.fault = none) (registered : Registered (fun _ => True) s) (tracked : conn ∈ s.tracked)
    (fresh : Fresh s conn) (task : s.m_sendFutures[i]? = some ⟨sub, .launched⟩) :
    ∃ t, (broadcaster p).Leads Silent s t ∧ t.m_sendFutures[i]? = some ⟨sub, .walking []⟩ ∧
      t.m_server = s.m_server ∧ t.m_broadcastArray = s.m_broadcastArray ∧ t.fault = none ∧ t.InForce conn sub := by
  let u := s.updateHandler conn .publishOpen
  let v := u.updateHandler conn .ignoreData
  let w : State D := { v with m_sendFutures := v.m_sendFutures.set i ⟨sub, .walking v.tracked⟩ }
  have opening : u.handler conn = some (.publishOpen (.new conn.id)) := updated_handler s conn _ .publishOpen fresh
  have opened : v.handler conn = some (.onOpen (.new conn.id)) := updated_handler u conn _ .ignoreData opening
  have first : (broadcaster p).Leads Silent s u :=
    silent_leads p s u _ [] (by simp [Silent]) sound (.opened conn (.new conn.id) fresh rfl)
  have second : (broadcaster p).Leads Silent u v :=
    silent_leads p u v _ [] (by simp [Silent]) sound (.silenced conn _ opening rfl)
  have third : (broadcaster p).Leads Silent v w :=
    silent_leads p v w _ [] (by simp [Silent]) sound (.started i sub task)
  obtain ⟨t, visits, finished, server, batch, healthy, forces⟩ := visit_all p i sub v.tracked w sound
    (List.getElem?_set_self (List.getElem?_eq_some_iff.mp task).1)
    (fun other inside => known_update u conn other _ (known_update s conn other _ (registered.known other inside trivial)))
  have front := (broadcaster p).leads_trans Silent s v w ((broadcaster p).leads_trans Silent s u v first second) third
  exact ⟨t, (broadcaster p).leads_trans Silent s w t front visits, finished, server, batch, healthy,
    forces conn ⟨_, opened, rfl⟩ (Or.inr tracked)⟩

theorem reach_in_force (p : Platform D) (s : State D) (hdl : Hdl) (i : Nat) (sub : Subscription) (sound : s.fault = none)
    (idle : s.thread = .idle) (alive : s.m_server.alive hdl = true) (registered : Registered (fun _ => True) s)
    (accepted : p.acceptsUri "ws://b:1".toList = true) (task : s.m_sendFutures[i]? = some ⟨sub, .launched⟩) :
    ∃ t conn, (broadcaster p).Leads (fun action => Silent action ∨ action = .message hdl addRequest) s t ∧
      t.m_sendFutures[i]? = some ⟨sub, .walking []⟩ ∧ t.m_server = s.m_server ∧
      t.m_broadcastArray = s.m_broadcastArray ∧ t.fault = none ∧ t.InForce conn sub := by
  obtain ⟨request, asks, host⟩ : ∃ request, Asks p addRequest "add-trading-aggregator".toList request ∧
      p.acceptsUri (request.index "host".toList).asText = true := ⟨_, asks_add p, accepted⟩
  have taken : step p s (.message hdl addRequest) = some (handleAddAggregator p s hdl request) := by
    apply message_step p s _ hdl addRequest request _ sound alive idle asks.loaded
    exact asks_add_aggregator p s hdl addRequest request asks
  obtain ⟨call, adding, fresh⟩ := add_fresh p s hdl request registered host
  obtain ⟨ready, safe⟩ := add_registered p _ s hdl request registered (Or.inl host)
  have steady := steady_add_aggregator p s hdl request
  obtain ⟨u, done, _⟩ := finish_adding p call.rest _ call ⟨call.endpoint, call.clientId⟩
    (steady.fault.trans sound) adding rfl ready safe fresh (Or.inr rfl)
  have whole := steady_trans s _ u steady done.steady
  have waiting : u.m_sendFutures[i]? = some ⟨sub, .launched⟩ := by
    rw [whole.futures]
    exact task
  obtain ⟨t, visits, finished, server, batch, healthy, force⟩ := open_and_visit p u ⟨call.endpoint, call.clientId⟩ i sub
    (whole.fault.trans sound) done.registered done.tracked done.fresh waiting
  refine ⟨t, ⟨call.endpoint, call.clientId⟩, ?_, finished, server.trans whole.server, batch.trans whole.batch, healthy,
    force⟩
  have silently := (broadcaster p).leads_trans Silent _ u t done.leads visits
  have asked := (broadcaster p).leads_step (fun action => Silent action ∨ action = .message hdl addRequest) s _ _ _
    (Or.inr rfl) taken
  exact (broadcaster p).leads_trans _ s _ t asked
    ((broadcaster p).leads_weaken Silent _ _ t (fun _ => Or.inl) silently)

theorem prices_flow (p : Platform D) (s : State D) (conn : Conn) (sub : Subscription) (sound : s.fault = none)
    (alive : s.m_server.alive sub.hdl = true) (half : HalfFull s) (force : s.InForce conn sub)
    (either : sub.channel = "broadcast".toList ∨ sub.channel = "latest-price".toList) :
    ∃ back t tail sent, (broadcaster p).run s back = some (t, tail) ∧ (∀ action ∈ back, Silent action) ∧
      .send sub.hdl sent ∈ tail.flatten ∧ PriceOn sub.channel sent := by
  rcases either with broadcast | latest
  · obtain ⟨elements, pending, short⟩ := half
    let price : Price D := ⟨conn, priceText, priceValue⟩
    obtain ⟨t, log, ran, sent, _⟩ := broadcast_run p sub broadcast [price, price] s elements pending sound alive
      (by simp [price, force]) (by simp [price, load_price])
    have emitted : ∃ full, Sent.batch full ∈ sentTo sub.hdl log.flatten := by
      rw [sent]
      match elements, short with
      | [], _ => exact ⟨[priceValue, priceValue], by simp [Library.feed, Library.push, price]⟩
      | [held], _ => exact ⟨[held, priceValue], by simp [Library.feed, Library.push, price]⟩
    obtain ⟨full, member⟩ := emitted
    refine ⟨_, t, log, .batch full, ran, by simp [Price.action, Silent], ?_, broadcast⟩
    obtain ⟨output, inside, same⟩ := List.mem_filterMap.mp member
    cases output with
    | send receiver given =>
        simp only [Option.ite_none_right_eq_some, Option.some.injEq] at same
        rw [← same.1, ← same.2]
        exact inside
    | _ => cases same
  · obtain ⟨next, out, delivered⟩ : ∃ next out, deliver sub priceValue s = (next, out) := ⟨_, _, rfl⟩
    have taken := step_received_ok p s conn sub priceText priceValue sound force alive (load_price p.fp)
    have other : sub.channel ≠ "broadcast".toList := by
      rw [latest]
      decide
    have sends : .send sub.hdl (.latestPrice priceValue) ∈ (deliver sub priceValue s).2 := by
      dsimp only [deliver]
      rw [if_neg other, if_pos latest]
      exact List.mem_append_right _ (List.mem_singleton.mpr rfl)
    rw [delivered] at taken sends
    refine ⟨[.received conn priceText], next, [out], .latestPrice priceValue,
      ((broadcaster p).run_single s next _ _).mpr ⟨out, taken, rfl⟩, by simp [Silent], ?_, latest⟩
    rw [List.flatten_singleton]
    exact sends

theorem unsubscribe_never_stops (p : Platform D) (s : State D) (hdl : Hdl) (payload : Text) (request : JSON D)
    (reach : (broadcaster p).Reachable .init s) (asks : Asks p payload "unsubscribe".toList request)
    (either : channel request = "broadcast".toList ∨ channel request = "latest-price".toList)
    (handled : (step p s (.message hdl payload)).isSome = true)
    (accepted : p.acceptsUri "ws://b:1".toList = true) : ¬UnsubscribeStops p s hdl payload (channel request) := by
  intro stops
  obtain ⟨⟨next, out⟩, taken⟩ := Option.isSome_iff_exists.mp handled
  obtain ⟨sound, alive, idle⟩ := step_message p s next hdl payload out taken
  let sub : Subscription := ⟨hdl, channel request⟩
  have done := step_handled p s next hdl payload request out asks.loaded taken
  rw [asks_subscribing p s hdl payload _ request asks (Or.inr rfl)] at done
  cases done
  have registered := reachable_registered p s reach
  have coherent := reachable_coherent p s reach
  obtain ⟨u, first, rest, steady, ready⟩ := reach_registered p (launch s sub) hdl sound idle alive coherent
    ⟨registered.known, registered.owned⟩
  have waiting : u.m_sendFutures[s.m_sendFutures.length]? = some ⟨sub, .launched⟩ := by
    rw [steady.futures]
    simp [launch]
  obtain ⟨mid, conn, second, finished, server, batch, healthy, force⟩ := reach_in_force p u hdl _ sub
    (steady.fault.trans sound) rest (by rw [steady.server]; exact alive) ready accepted waiting
  obtain ⟨elements, pending, short⟩ := reachable_half_full p s reach
  obtain ⟨back, t, tail, sent, flows, quiet, member, price⟩ := prices_flow p mid conn sub healthy
    (by rw [server, steady.server]; exact alive) ⟨elements, (batch.trans steady.batch).trans pending, short⟩ force either
  have clean : ∀ action, Silent action ∨ action = .message hdl clearRequest →
      ¬Resubscribes p hdl (channel request) action := by
    rintro action (silent | rfl)
    · exact silent_no_subscribe p hdl _ action silent
    · exact asks_no_subscribe p hdl hdl clearRequest _ _ _ (asks_clear p) (by decide)
  have clean' : ∀ action, Silent action ∨ action = .message hdl addRequest →
      ¬Resubscribes p hdl (channel request) action := by
    rintro action (silent | rfl)
    · exact silent_no_subscribe p hdl _ action silent
    · exact asks_no_subscribe p hdl hdl addRequest _ _ _ (asks_add p) (by decide)
  obtain ⟨front, head, ran, met⟩ := (broadcaster p).leads_trans _ _ u mid
    ((broadcaster p).leads_weaken _ _ _ u clean first) ((broadcaster p).leads_weaken _ _ u mid clean' second)
  refine stops front back mid t ([] :: head) tail ⟨sub, .walking []⟩
    (((broadcaster p).run_cons s mid _ front _).mpr ⟨_, _, _, taken, ran, rfl⟩) finished rfl flows ?_ sent member price
  intro action inside
  rcases List.mem_append.mp inside with before | after
  · exact met action before
  · exact silent_no_subscribe p hdl _ action (quiet action after)

def unsubscribeRequest : Text := "\x7b\"action\":\"unsubscribe\",\"channel\":\"broadcast\"\x7d".toList

theorem asks_unsubscribe (p : Platform D) :
    Asks p unsubscribeRequest "unsubscribe".toList
      (.object [("action".toList, .string "unsubscribe".toList), ("channel".toList, .string "broadcast".toList)]) :=
  ⟨by cbv, rfl, rfl⟩

theorem unsubscribe_never_stops_subscribed :
    ∃ s log, (broadcaster .plain).run .init subscribedRun = some (s, log) ∧
      ¬UnsubscribeStops .plain s 0 unsubscribeRequest "broadcast".toList := by
  obtain ⟨s, log, ran, subscribed⟩ := subscribed_run
  have handled := message_step .plain s _ 0 unsubscribeRequest _ _ subscribed.sound subscribed.alive subscribed.idle
    (asks_unsubscribe .plain).loaded rfl
  exact ⟨s, log, ran, unsubscribe_never_stops .plain s 0 unsubscribeRequest _ ⟨subscribedRun, log, ran⟩
    (asks_unsubscribe .plain) (Or.inl rfl) (Option.isSome_iff_exists.mpr ⟨_, handled⟩) (by decide)⟩

theorem unsubscribed_still_served :
    ∃ s mid t head log tail, (broadcaster .plain).run .init subscribedRun = some (s, head) ∧
      (broadcaster .plain).run s [.message 0 unsubscribeRequest, .start 1, .visit 1] = some (mid, log) ∧
      mid.m_sendFutures.all Task.finished = true ∧
      (broadcaster .plain).run mid [.received ⟨0, 0⟩ priceText, .received ⟨0, 0⟩ priceText] = some (t, tail) ∧
      Sent.batch [priceValue, priceValue] ∈ sentTo 0 tail.flatten := by
  obtain ⟨s, head, ran, _⟩ := subscribed_run
  obtain ⟨mid, log, after, checked⟩ := (broadcaster .plain).run_check_after .init s subscribedRun
    [.message 0 unsubscribeRequest, .start 1, .visit 1] head
    (fun done => done.1.fault = none ∧ done.1.m_server.alive 0 = true ∧ done.1.m_sendFutures.all Task.finished = true ∧
      done.1.handsTo .plain ⟨0, 0⟩ priceText = some ⟨0, "broadcast".toList⟩ ∧
      nothingBatched done.1 = true) ran (by decide +kernel)
  obtain ⟨sound, alive, finished, handed, shape⟩ := of_decide_eq_true checked
  have empty : Pending mid [] := nothing_batched_checked mid shape
  have force := ((hands_to_some .plain mid ⟨0, 0⟩ priceText _).mp handed).1
  let price : Price Int := ⟨⟨0, 0⟩, priceText, priceValue⟩
  obtain ⟨t, tail, flows, sent, _⟩ := broadcast_run .plain ⟨0, "broadcast".toList⟩ rfl [price, price] mid [] empty sound
    alive (fun other member => by
      simp only [List.mem_cons, List.not_mem_nil, or_false, or_self] at member
      rw [member]
      exact force) (by simp [price, load_price])
  refine ⟨s, mid, t, head, log, tail, ran, after, finished, flows, ?_⟩
  rw [sent]
  simp [Library.feed, Library.push, price]

end TradingFeed.Broadcaster
