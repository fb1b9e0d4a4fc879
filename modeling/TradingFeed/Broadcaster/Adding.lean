import TradingFeed.Broadcaster.Providers

set_option autoImplicit false

namespace TradingFeed.Broadcaster

open TradingFeed.Json TradingFeed.Sockets

variable {D : Type}

def State.AddedOpen (s : State D) : Prop :=
  ∃ call handler, s.thread = .adding call ∧ s.handler ⟨call.endpoint, call.clientId⟩ = some handler ∧
    handler.m_status = .opened

-- `s` is the state in front of the command, `u` the one in which the handler
-- wakes, and `v` and `out` are what it leaves and replies.
structure TracelessAdd (p : Platform D) (host : Text) (s u v : State D) (out : List (Output D)) : Prop where
  rejected : p.acceptsUri host = false →
    v.m_endpoints.keys = s.m_endpoints.keys ∧ v.tracked = s.tracked ∧ v.m_ids.toList = s.m_ids.toList ∧
      ∀ hdl message, .send hdl (.status "processed".toList message) ∉ out
  accepted : p.acceptsUri host = true →
    ∀ hdl word, .send hdl (.status word ("connected to ".toList ++ host)) ∈ out → u.AddedOpen

structure AddCommand (p : Platform D) (s t : State D) (hdl : Hdl) (host : Text) : Prop where
  reach : (broadcaster p).Reachable .init s
  added : ∃ payload request out, load p.fp payload = .ok request ∧
    (request.index "action".toList).asText = "add-trading-aggregator".toList ∧
    (request.index "host".toList).asText = host ∧ step p s (.message hdl payload) = some (t, out)

theorem add_step (p : Platform D) (s t : State D) (hdl : Hdl) (payload : Text) (request : JSON D) (out : List (Output D))
    (loaded : load p.fp payload = .ok request)
    (adds : (request.index "action".toList).asText = "add-trading-aggregator".toList)
    (taken : step p s (.message hdl payload) = some (t, out)) :
    ∃ tasks, handleAddAggregator p { s with m_sendFutures := s.m_sendFutures ++ tasks } hdl request = (t, out) := by
  obtain ⟨tasks, launched, _⟩ := subscribe_part_same p s hdl request
  refine ⟨tasks, ?_⟩
  have handled := step_handled p s t hdl payload request out loaded taken
  rw [launched] at handled
  rw [← handled]
  exact (if_pos adds).symm

theorem connect_on_id (p : Platform D) (s : State D) (e : Nat) (host : Text) (owned : Owned s e) :
    (connectOn p s e host).2 = -1 ↔ p.acceptsUri host = false := by
  obtain ⟨endpoint, found⟩ := Option.isSome_iff_exists.mp owned
  have id : (connectOn p s e host).2 = (endpoint.connect (p.acceptsUri host)).2 := by simp [connectOn, found]
  rw [id]
  exact endpoint.connect_rejected (p.acceptsUri host)

theorem add_client_id (p : Platform D) (s : State D) (hdl : Hdl) (request : JSON D) (call : Adding)
    (owned : ∀ e ∈ s.m_endpoints, Owned s e) (adding : (handleAddAggregator p s hdl request).1.thread = .adding call) :
    call.clientId = -1 ↔ p.acceptsUri (request.index "host".toList).asText = false := by
  dsimp only [handleAddAggregator] at adding
  split at adding
  · cases adding
    exact EndPoint.new.connect_rejected _
  · rename_i e rest keys
    cases adding
    refine connect_on_id p s e _ (owned e ?_)
    rw [← Std.TreeMap.mem_keys, keys]
    exact List.mem_cons_self

structure Undisturbed (s t : State D) : Prop where
  thread : t.thread = s.thread
  endpoints : t.m_endpoints = s.m_endpoints
  ids : t.m_ids = s.m_ids

theorem busy_step (p : Platform D) (s t : State D) (action : Action) (out : List (Output D)) (busy : s.thread ≠ .idle)
    (asleep : action ≠ .wake) (taken : step p s action = some (t, out)) : Undisturbed s t := by
  obtain ⟨_, transition⟩ := step_transition p s t action out taken
  cases transition with
  | connected idle => exact absurd idle busy
  | disconnected _ _ idle => exact absurd idle busy
  | malformed _ _ _ _ idle => exact absurd idle busy
  | handled _ _ _ _ idle => exact absurd idle busy
  | added => exact absurd rfl asleep
  | deleted => exact absurd rfl asleep
  | joined => exact absurd rfl asleep
  | delivered conn data handler sub status =>
      have registry := deliver_registry sub status s
      exact ⟨registry.thread, registry.endpoints, registry.ids⟩
  | _ => exact ⟨rfl, rfl, rfl⟩

structure Sleeps (call : Adding) (s t : State D) : Prop where
  thread : t.thread = .adding call
  endpoints : t.m_endpoints = s.m_endpoints
  ids : t.m_ids = s.m_ids

theorem sleeping_step (p : Platform D) (s t : State D) (action : Action) (out : List (Output D)) (call : Adding)
    (adding : s.thread = .adding call) (asleep : action ≠ .wake) (taken : step p s action = some (t, out)) :
    Sleeps call s t := by
  have busy : s.thread ≠ .idle := by
    rw [adding]
    exact Thread.noConfusion
  have undisturbed := busy_step p s t action out busy asleep taken
  exact ⟨undisturbed.thread.trans adding, undisturbed.endpoints, undisturbed.ids⟩

theorem sleeping_run (p : Platform D) (s t : State D) (actions : List Action) (log : List (List (Output D)))
    (call : Adding) (adding : s.thread = .adding call) (asleep : .wake ∉ actions)
    (ran : (broadcaster p).run s actions = some (t, log)) : Sleeps call s t := by
  refine (broadcaster p).run_invariant (fun _ action => action ≠ .wake) (Sleeps call s) ?_ actions s t log
    ⟨adding, rfl, rfl⟩ ((broadcaster p).along_always _ actions s fun _ action member same => asleep (same ▸ member)) ran
  intro u action v out slept awake taken
  have further := sleeping_step p u v action out call slept.thread awake taken
  exact ⟨further.thread, further.endpoints.trans slept.endpoints, further.ids.trans slept.ids⟩

structure Asleep (p : Platform D) (s t : State D) (hdl : Hdl) (host : Text) (call : Adding) : Prop where
  sleeps : Sleeps call s t
  sender : call.hdl = hdl
  target : call.host = host
  rejected : call.clientId = -1 ↔ p.acceptsUri host = false
  reach : (broadcaster p).Reachable .init t

theorem add_command_asleep (p : Platform D) (s t : State D) (hdl : Hdl) (host : Text) (command : AddCommand p s t hdl host) :
    ∃ call, Asleep p s t hdl host call := by
  obtain ⟨payload, request, out, loaded, adds, rfl, taken⟩ := command.added
  obtain ⟨tasks, handled⟩ := add_step p s t hdl payload request out loaded adds taken
  obtain ⟨objects, call, added, to_, hosted, _⟩ :=
    add_adding p { s with m_sendFutures := s.m_sendFutures ++ tasks } hdl request
  have owned := (reachable_registered p s command.reach).owned
  have identity := add_client_id p { s with m_sendFutures := s.m_sendFutures ++ tasks } hdl request call owned
    (by rw [added])
  have reach := (broadcaster p).reachable_run .init s t [.message hdl payload] [out] command.reach
    (((broadcaster p).run_single s t _ _).mpr ⟨out, taken, rfl⟩)
  cases handled.symm.trans added
  exact ⟨call, ⟨rfl, rfl, rfl⟩, to_, hosted, identity, reach⟩

theorem asleep_run (p : Platform D) (s t u : State D) (hdl : Hdl) (host : Text) (call : Adding) (actions : List Action)
    (log : List (List (Output D))) (asleep : Asleep p s t hdl host call) (still : .wake ∉ actions)
    (ran : (broadcaster p).run t actions = some (u, log)) : Asleep p s u hdl host call := by
  have further := sleeping_run p t u actions log call asleep.sleeps.thread still ran
  refine ⟨⟨further.thread, further.endpoints.trans asleep.sleeps.endpoints, further.ids.trans asleep.sleeps.ids⟩,
    asleep.sender, asleep.target, asleep.rejected, ?_⟩
  exact (broadcaster p).reachable_run .init t u actions log asleep.reach ran

theorem wake_adding_step (p : Platform D) (s t : State D) (call : Adding) (out : List (Output D))
    (adding : s.thread = .adding call) (woke : step p s .wake = some (t, out)) : wakeAdding p s call = (t, out) := by
  obtain ⟨_, transition⟩ := step_transition p s t .wake out woke
  cases transition with
  | added other thread =>
      cases adding.symm.trans thread
      rfl
  | deleted e rest thread => cases adding.symm.trans thread
  | joined e rest endpoint thread => cases adding.symm.trans thread

theorem wake_replies (p : Platform D) (s t : State D) (call : Adding) (out : List (Output D))
    (reach : (broadcaster p).Reachable .init s) (adding : s.thread = .adding call)
    (woke : step p s .wake = some (t, out)) :
    ∃ objects, replyAdded { trackId s call with endPoints := objects } call = (t, out) := by
  have last := (adding_synced s call adding (reachable_synced p s reach)).2.1
  obtain ⟨objects, woken⟩ := wake_adding_last p s call last
  exact ⟨objects, woken.symm.trans (wake_adding_step p s t call out adding woke)⟩

theorem asleep_reply (p : Platform D) (s u v : State D) (hdl : Hdl) (host : Text) (call : Adding)
    (out : List (Output D)) (asleep : Asleep p s u hdl host call) (woke : step p u .wake = some (v, out)) :
    out = [handleError hdl "processed".toList
      (if p.acceptsUri host = true then "connected to ".toList ++ host else "error connecting to ".toList ++ host)] := by
  obtain ⟨objects, woken⟩ := wake_replies p u v call out asleep.reach asleep.sleeps.thread woke
  have replied := congrArg Prod.snd woken
  rw [← asleep.sender, ← asleep.target, ← show _ = out from replied]
  have identity := asleep.rejected
  rw [← asleep.target] at identity
  dsimp only [replyAdded]
  cases accepts : p.acceptsUri call.host with
  | true =>
      have real : call.clientId ≠ -1 := fun rejected => Bool.false_ne_true ((identity.mp rejected).symm.trans accepts)
      rw [if_pos real, if_pos rfl]
  | false => rw [if_neg (not_not_intro (identity.mpr accepts)), if_neg Bool.false_ne_true]

theorem failed_add_leaves_no_trace_iff (p : Platform D) (s t u v : State D) (hdl : Hdl) (host : Text)
    (actions : List Action) (log : List (List (Output D))) (out : List (Output D)) (command : AddCommand p s t hdl host)
    (still : .wake ∉ actions) (ran : (broadcaster p).run t actions = some (u, log))
    (woke : step p u .wake = some (v, out)) :
    TracelessAdd p host s u v out ↔ p.acceptsUri host = true ∧ u.AddedOpen := by
  obtain ⟨call, started⟩ := add_command_asleep p s t hdl host command
  have asleep := asleep_run p s t u hdl host call actions log started still ran
  have replied := asleep_reply p s u v hdl host call out asleep woke
  constructor
  · intro traceless
    cases accepts : p.acceptsUri host with
    | true =>
        refine ⟨rfl, traceless.accepted accepts hdl "processed".toList ?_⟩
        rw [replied, if_pos accepts]
        exact List.mem_singleton.mpr rfl
    | false =>
        refine absurd ?_ ((traceless.rejected accepts).2.2.2 hdl ("error connecting to ".toList ++ host))
        rw [replied, if_neg (by rw [accepts]; exact Bool.false_ne_true)]
        exact List.mem_singleton.mpr rfl
  · rintro ⟨accepts, opened⟩
    refine ⟨fun rejects => ?_, fun _ _ _ _ => opened⟩
    exact absurd (accepts.symm.trans rejects) (fun same => Bool.false_ne_true same.symm)

def joinedState : State Int := { State.init with m_server := Server.accept ⟨[]⟩ }

theorem joined_reachable : (broadcaster .plain).Reachable .init joinedState := ⟨[.connected], [[]], rfl⟩

def addedOpen (s : State D) : Bool :=
  match s.thread with
  | .adding call => (s.handler ⟨call.endpoint, call.clientId⟩).any fun handler => handler.m_status = .opened
  | _ => false

theorem added_open_checked (s : State D) (checked : addedOpen s = true) : s.AddedOpen := by
  dsimp only [addedOpen] at checked
  split at checked
  · rename_i call adding
    obtain ⟨handler, found, opened⟩ := (Option.any_eq_true _ _).mp checked
    exact ⟨call, handler, adding, found, of_decide_eq_true opened⟩
  · cases checked

theorem failed_add_leaves_no_trace_opened :
    ∃ t u v log out, AddCommand .plain joinedState t 0 "ws://b:1".toList ∧
      (broadcaster .plain).run t [.opened ⟨0, 0⟩] = some (u, log) ∧ step .plain u .wake = some (v, out) ∧
      TracelessAdd .plain "ws://b:1".toList joinedState u v out := by
  obtain ⟨u, seen, ran, checked⟩ := (broadcaster .plain).run_check joinedState [.message 0 addRequest, .opened ⟨0, 0⟩]
    (fun done => addedOpen done.1 = true ∧ (step .plain done.1 .wake).isSome = true) (by decide +kernel)
  obtain ⟨opened, wakes⟩ := of_decide_eq_true checked
  obtain ⟨t, first, tail, added, later, _⟩ := ((broadcaster .plain).run_cons _ _ _ _ _).mp ran
  obtain ⟨⟨v, out⟩, woke⟩ := Option.isSome_iff_exists.mp wakes
  have asks := asks_add Platform.plain
  have command : AddCommand .plain joinedState t 0 "ws://b:1".toList :=
    ⟨joined_reachable, addRequest, _, first, asks.loaded, asks.action, rfl, added⟩
  refine ⟨t, u, v, tail, out, command, later, woke, ?_⟩
  exact (failed_add_leaves_no_trace_iff .plain joinedState t u v 0 _ [.opened ⟨0, 0⟩] tail out command (by simp) later
    woke).mpr ⟨by decide, added_open_checked u opened⟩

def rejectedRequest : Text := "\x7b\"action\":\"add-trading-aggregator\",\"host\":\"b\"\x7d".toList

theorem load_rejected (fp : Doubles D) :
    load fp rejectedRequest =
      .ok (.object [("action".toList, .string "add-trading-aggregator".toList), ("host".toList, .string "b".toList)]) := by
  cbv

-- -1 is tracked, in m_ids and in an entry of its own, and the reply is "processed".
theorem rejected_add_leaves_trace :
    ∃ t v out, AddCommand .plain joinedState t 0 "b".toList ∧ step .plain t .wake = some (v, out) ∧
      Platform.plain.acceptsUri "b".toList = false ∧ v.m_ids.toList = [-1] ∧ joinedState.m_ids.toList = [] ∧
      ¬TracelessAdd .plain "b".toList joinedState t v out := by
  obtain ⟨v, log, ran, tracked⟩ := (broadcaster .plain).run_check joinedState [.message 0 rejectedRequest, .wake]
    (fun done => done.1.m_ids.toList = [-1]) (by decide +kernel)
  obtain ⟨t, first, _, added, later, _⟩ := ((broadcaster .plain).run_cons _ _ _ _ _).mp ran
  obtain ⟨out, woke, _⟩ := ((broadcaster .plain).run_single _ _ _ _).mp later
  have rejects : Platform.plain.acceptsUri "b".toList = false := by decide
  have ids : v.m_ids.toList = [-1] := of_decide_eq_true tracked
  refine ⟨t, v, out, ⟨joined_reachable, rejectedRequest, _, first, load_rejected _, rfl, rfl, added⟩, woke, rejects, ids, rfl,
    fun traceless => ?_⟩
  have same := (traceless.rejected rejects).2.2.1
  rw [ids] at same
  cases same

end TradingFeed.Broadcaster
