import TradingFeed.Broadcaster.Registered

set_option autoImplicit false

namespace TradingFeed.Broadcaster

open TradingFeed.Json TradingFeed.Sockets

variable {D : Type}

def State.Gone (s : State D) (conn : Conn) : Prop :=
  s.endPoints.get conn.endpoint = none ∧ conn.endpoint < s.endPoints.allocated

def Walks (s : State D) : Prop :=
  ∀ sub todo, ⟨sub, .walking todo⟩ ∈ s.m_sendFutures → ∀ conn ∈ todo, s.Known conn ∨ s.Gone conn

def AcceptedHost (p : Platform D) (action : Action) : Prop :=
  ∀ hdl payload request, action = .message hdl payload → load p.fp payload = .ok request →
    (request.index "action".toList).asText = "add-trading-aggregator".toList →
    p.acceptsUri (request.index "host".toList).asText = true

theorem keeps_grows (s t : State D) (grows : Grows s t) (conn : Conn) (held : s.Known conn ∨ s.Gone conn) :
    t.Known conn ∨ t.Gone conn := by
  rcases held with known | gone
  · exact Or.inl (grows_known s t grows conn known)
  · exact Or.inr ⟨grows.absent _ gone.2 gone.1, Nat.lt_of_lt_of_le gone.2 grows.allocated⟩

theorem keeps_delete (s : State D) (e : Nat) (conn : Conn) (held : s.Known conn ∨ s.Gone conn) :
    State.Known { s with endPoints := s.endPoints.delete e } conn ∨
      State.Gone { s with endPoints := s.endPoints.delete e } conn := by
  have below : conn.endpoint < s.endPoints.allocated := by
    rcases held with known | gone
    · obtain ⟨endpoint, found⟩ := Option.isSome_iff_exists.mp (known_owned s conn known)
      exact EndPoints.get_below s.endPoints conn.endpoint endpoint found
    · exact gone.2
  by_cases here : conn.endpoint = e
  · exact Or.inr ⟨by simp [EndPoints.get_delete, here], below⟩
  · rcases held with known | gone
    · apply Or.inl
      dsimp only [State.Known] at known ⊢
      rw [handler_deleted, if_neg here]
      exact known
    · refine Or.inr ⟨?_, below⟩
      rw [EndPoints.get_delete, if_neg here]
      exact gone.1

theorem keeps_update (s : State D) (place conn : Conn) (change : ClientHandler Subscription → ClientHandler Subscription)
    (held : s.Known conn ∨ s.Gone conn) :
    (s.updateHandler place change).Known conn ∨ (s.updateHandler place change).Gone conn := by
  rcases held with known | gone
  · exact Or.inl (known_update s place conn change known)
  · have absent := (get_updated s (s.updateHandler place change) place.endpoint _ rfl conn.endpoint).1
    rw [gone.1] at absent
    exact Or.inr ⟨Option.isNone_iff_eq_none.mp (by simpa using absent), gone.2⟩

theorem keeps_step (p : Platform D) (s t : State D) (action : Action) (out : List (Output D)) (conn : Conn)
    (taken : step p s action = some (t, out)) (held : s.Known conn ∨ s.Gone conn) : t.Known conn ∨ t.Gone conn := by
  obtain ⟨_, transition⟩ := step_transition p s t action out taken
  cases transition with
  | handled hdl payload request => exact keeps_grows s _ (grows_handled p s hdl payload request) conn held
  | added call => exact keeps_grows s _ (grows_wake_adding p s call) conn held
  | deleted e rest => exact keeps_grows s _ (closes_grows _ _ (destroy_closes s rest)) conn held
  | joined e rest => exact keeps_grows _ _ (closes_grows _ _ (destroy_closes _ rest)) conn (keeps_delete s e conn held)
  | installed i sub place => exact keeps_update s place conn _ held
  | opened place => exact keeps_update s place conn _ held
  | silenced place => exact keeps_update s place conn _ held
  | failed place => exact keeps_update s place conn _ held
  | lost place => exact keeps_update s place conn _ held
  | closed place => exact keeps_update s place conn _ held
  | delivered place data handler sub status =>
      exact keeps_grows s _ (grows_same s _ (deliver_registry sub status s).endPoints) conn held
  | _ => exact held

theorem walks_step (p : Platform D) (s t : State D) (action : Action) (out : List (Output D)) (walks : Walks s)
    (known : ∀ conn ∈ s.tracked, s.Known conn) (taken : step p s action = some (t, out)) : Walks t := by
  intro sub todo member conn inside
  apply keeps_step p s t action out conn taken
  rcases step_futures p s t action out taken with same | launched | started | visited
  · rw [same] at member
    exact walks sub todo member conn inside
  · obtain ⟨_, _, tasks, _, appended, phases⟩ := launched
    rw [appended] at member
    rcases List.mem_append.mp member with old | new
    · exact walks sub todo old conn inside
    · cases (phases _ new).1
  · obtain ⟨i, given, _, _, updated⟩ := started
    rw [updated] at member
    rcases List.mem_or_eq_of_mem_set member with old | new
    · exact walks sub todo old conn inside
    · cases new
      exact Or.inl (known conn inside)
  · obtain ⟨i, given, place, rest, _, found, updated⟩ := visited
    rw [updated] at member
    rcases List.mem_or_eq_of_mem_set member with old | new
    · exact walks sub todo old conn inside
    · cases new
      exact walks _ _ (List.mem_of_getElem? found) conn (List.mem_cons_of_mem place inside)

theorem callback_not_null (p : Platform D) (handler : ClientHandler Subscription) (data : Text) (s : State D) :
    clientOnMessage p handler data s ≠ .error .nullHandler := by
  intro raised
  rcases (client_on_message_error p handler data s .nullHandler).mp raised with ⟨_, _, same⟩ | ⟨_, _, unset | called⟩
  · cases same
  · cases unset.2
  · obtain ⟨_, _, _, same⟩ := called
    cases same

theorem step_null (p : Platform D) (s t : State D) (action : Action) (out : List (Output D))
    (taken : step p s action = some (t, out)) (null : t.fault = some .nullHandler) :
    ∃ sub conn todo, ⟨sub, .walking (conn :: todo)⟩ ∈ s.m_sendFutures ∧ Owned s conn.endpoint ∧
      s.handler conn = none := by
  obtain ⟨sound, transition⟩ := step_transition p s t action out taken
  have kept : t.fault = s.fault → False := by
    intro same
    rw [same, sound] at null
    cases null
  cases transition with
  | malformed => cases null
  | handled hdl payload request => exact False.elim (kept (handled_effect p s _ hdl payload request rfl).2.2.1)
  | added call => exact False.elim (kept (steady_wake_adding p s call).fault)
  | deleted e rest => exact False.elim (kept (steady_destroy s rest).fault)
  | joined e rest => exact False.elim (kept (steady_destroy _ rest).fault)
  | dangling => cases null
  | unknown i sub conn todo found there absent => exact ⟨sub, conn, todo, List.mem_of_getElem? found, there, absent⟩
  | delivered conn data handler sub status => exact False.elim (kept (deliver_registry sub status s).fault)
  | escaped conn data handler fault _ _ raised =>
      cases null
      exact absurd raised (callback_not_null p handler data s)
  | _ => exact False.elim (kept rfl)

structure AllConnected (p : Platform D) (s : State D) : Prop where
  registered : Registered (fun _ => True) s ∧ ThreadSafe p (fun _ => True) s
  walks : Walks s
  sound : s.fault ≠ some .nullHandler

theorem all_connected_step (p : Platform D) (s t : State D) (action : Action) (out : List (Output D))
    (held : AllConnected p s) (accepted : AcceptedHost p action) (taken : step p s action = some (t, out)) :
    AllConnected p t := by
  have reliable : ReliableHost p (fun _ => True) action := fun hdl payload request message loaded adds =>
    Or.inl (accepted hdl payload request message loaded adds)
  have known : ∀ conn ∈ s.tracked, s.Known conn := fun conn tracked => held.registered.1.known conn tracked trivial
  refine ⟨registered_step p _ s t action out held.registered reliable taken,
    walks_step p s t action out held.walks known taken, fun null => ?_⟩
  obtain ⟨sub, conn, todo, member, owned, absent⟩ := step_null p s t action out taken null
  rcases held.walks sub (conn :: todo) member conn (by simp) with here | gone
  · dsimp only [State.Known] at here
    rw [absent] at here
    cases here
  · dsimp only [Owned] at owned
    rw [gone.1] at owned
    cases owned

theorem all_connected_init (p : Platform D) : AllConnected p (.init : State D) := by
  refine ⟨registered_init p _, fun sub todo member => ?_, by simp [State.init]⟩
  cases member

theorem tracked_ids_connected (p : Platform D) (actions : List Action) (s : State D) (log : List (List (Output D)))
    (accepted : ∀ action ∈ actions, AcceptedHost p action)
    (ran : (broadcaster p).run .init actions = some (s, log)) :
    (∀ e ids, s.m_endpoints[e]? = some ids →
      ∃ endpoint, s.endPoints.get e = some endpoint ∧ ∀ id ∈ ids, id ∈ endpoint.m_connection_list) ∧
      s.fault ≠ some .nullHandler := by
  have held : AllConnected p s :=
    (broadcaster p).run_invariant (fun _ action => AcceptedHost p action) (AllConnected p)
      (fun s action t out held met taken => all_connected_step p s t action out held met taken)
      actions .init s log (all_connected_init p)
      ((broadcaster p).along_always _ actions .init fun _ action member => accepted action member) ran
  refine ⟨fun e ids listed => ?_, held.sound⟩
  have member : e ∈ s.m_endpoints := Std.TreeMap.mem_iff_isSome_getElem?.mpr (by simp [listed])
  obtain ⟨endpoint, found⟩ := Option.isSome_iff_exists.mp (held.registered.1.owned e member)
  refine ⟨endpoint, found, fun id inside => ?_⟩
  have known := held.registered.1.known ⟨e, id⟩ ((State.mem_tracked s ⟨e, id⟩).mpr ⟨ids, listed, inside⟩) trivial
  dsimp only [State.Known, State.handler] at known
  rw [found] at known
  exact Std.TreeMap.mem_iff_isSome_getElem?.mpr known

theorem tracked_ids_connected_subscribed :
    ∃ s log, (broadcaster .plain).run .init subscribedRun = some (s, log) ∧ s.fault ≠ some .nullHandler := by
  obtain ⟨s, log, ran, _⟩ := subscribed_run
  refine ⟨s, log, ran, (tracked_ids_connected .plain subscribedRun s log ?_ ran).2⟩
  have accepts : Platform.plain.acceptsUri "ws://b:1".toList = true := by decide
  simp only [subscribedRun, List.mem_cons, List.not_mem_nil, or_false, forall_eq_or_imp, forall_eq, AcceptedHost,
    reduceCtorEq, false_implies, implies_true, Action.message.injEq, and_true, true_and]
  constructor
  · rintro _ _ request ⟨_, rfl⟩ loaded _
    cases (asks_add .plain).loaded.symm.trans loaded
    exact accepts
  · rintro _ _ request ⟨_, rfl⟩ loaded adds
    cases (asks_subscribe .plain).loaded.symm.trans loaded
    exact absurd ((asks_subscribe Platform.plain).action.symm.trans adds) (by decide)

-- The library rejects the host, connect returns -1 and -1 is tracked; the next
-- subscribe dereferences a null pointer.
def rejectedRun : List Action :=
  [.connected, .message 0 "\x7b\"action\":\"add-trading-aggregator\",\"host\":\"b\"\x7d".toList, .wake]

theorem rejected_host_tracked :
    ∃ s log endpoint, (broadcaster .plain).run .init rejectedRun = some (s, log) ∧
      s.m_endpoints.toList.map (fun entry => (entry.1, entry.2.toList)) = [(0, [-1])] ∧
      s.endPoints.get 0 = some endpoint ∧ (-1 : Int) ∉ endpoint.m_connection_list ∧
      ((broadcaster .plain).run s [.message 0 subscribeRequest, .start 0, .visit 0]).any
        (fun done => done.1.fault = some .nullHandler) = true := by
  obtain ⟨s, log, ran, checked⟩ := (broadcaster .plain).run_check .init rejectedRun
    (fun done => done.1.m_endpoints.toList.map (fun entry => (entry.1, entry.2.toList)) = [(0, [-1])] ∧
      (done.1.endPoints.get 0).any (fun endpoint => (-1 : Int) ∉ endpoint.m_connection_list) = true ∧
      ((broadcaster .plain).run done.1 [.message 0 subscribeRequest, .start 0, .visit 0]).any
        (fun done => done.1.fault = some .nullHandler) = true) (by decide +kernel)
  obtain ⟨tracked, missing, crashes⟩ := of_decide_eq_true checked
  obtain ⟨endpoint, found, absent⟩ := (Option.any_eq_true _ _).mp missing
  exact ⟨s, log, endpoint, ran, tracked, found, of_decide_eq_true absent, crashes⟩

end TradingFeed.Broadcaster
