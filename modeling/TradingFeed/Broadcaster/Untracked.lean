import TradingFeed.Broadcaster.Adding
import TradingFeed.Broadcaster.Progress
import TradingFeed.Broadcaster.TrackedIds
import TradingFeed.Library.Registers

set_option autoImplicit false

namespace TradingFeed.Broadcaster

open TradingFeed.Json TradingFeed.Sockets

variable {D : Type}

def State.TracksAll (s : State D) : Prop := ∀ conn ∈ everyConn s, conn ∈ s.tracked

def countAdds (p : Platform D) (action : Action) (k : Nat) : Nat :=
  match action with
  | .message _ payload =>
      match load p.fp payload with
      | .ok request =>
          if (request.index "action".toList).asText = "add-trading-aggregator".toList then k + 1
          else if (request.index "action".toList).asText = "clear-trading-aggregators".toList then 0
          else k
      | .error _ => k
  | _ => k

def addsSinceClear (p : Platform D) (actions : List Action) : Nat :=
  actions.foldl (fun k action => countAdds p action k) 0

def AddsToEmpty (p : Platform D) (s : State D) (action : Action) : Prop :=
  ∀ hdl payload request, action = .message hdl payload → load p.fp payload = .ok request →
    (request.index "action".toList).asText = "add-trading-aggregator".toList → s.m_endpoints.keys = []

def connKeys (s : State D) (e : Nat) : List Int :=
  match s.endPoints.get e with
  | none => []
  | some endpoint => endpoint.m_connection_list.keys

theorem every_conn_keys (s : State D) :
    everyConn s = s.m_endpoints.keys.flatMap fun e => (connKeys s e).map fun id => ⟨e, id⟩ := by
  refine List.flatMap_congr fun e _ => ?_
  dsimp only [connKeys]
  cases s.endPoints.get e with
  | none => rfl
  | some endpoint => rfl

theorem mem_conn_keys (s : State D) (e : Nat) (id : Int) : id ∈ connKeys s e ↔ s.Known ⟨e, id⟩ := by
  dsimp only [connKeys, State.Known, State.handler]
  cases s.endPoints.get e with
  | none => exact ⟨fun member => absurd member List.not_mem_nil, fun known => absurd known Bool.false_ne_true⟩
  | some endpoint =>
      rw [Std.TreeMap.mem_keys, Option.bind_some]
      exact Std.TreeMap.mem_iff_isSome_getElem?

theorem every_conn_known (s : State D) (conn : Conn) (member : conn ∈ everyConn s) :
    conn.endpoint ∈ s.m_endpoints ∧ s.Known conn := by
  rw [every_conn_keys] at member
  obtain ⟨e, inside, here⟩ := List.mem_flatMap.mp member
  obtain ⟨id, key, rfl⟩ := List.mem_map.mp here
  exact ⟨Std.TreeMap.mem_keys.mp inside, (mem_conn_keys s e id).mp key⟩

theorem conn_keys_update (s : State D) (place : Conn)
    (change : ClientHandler Subscription → ClientHandler Subscription) (e : Nat) :
    connKeys (s.updateHandler place change) e = connKeys s e := by
  dsimp only [connKeys, State.updateHandler]
  rw [EndPoints.get_update]
  by_cases here : e = place.endpoint
  · rw [if_pos here, here]
    cases s.endPoints.get place.endpoint with
    | none => rfl
    | some endpoint => exact Library.keys_same _ _ fun id => Std.TreeMap.mem_modify
  · rw [if_neg here]

structure SameConns (s t : State D) : Prop where
  endpoints : t.m_endpoints = s.m_endpoints
  keys : ∀ e, connKeys t e = connKeys s e

theorem same_conns_objects (s t : State D) (objects : t.endPoints = s.endPoints)
    (endpoints : t.m_endpoints = s.m_endpoints) : SameConns s t :=
  ⟨endpoints, fun e => by dsimp only [connKeys]; rw [objects]⟩

theorem same_conns_update (s t : State D) (place : Conn)
    (change : ClientHandler Subscription → ClientHandler Subscription)
    (objects : t.endPoints = (s.updateHandler place change).endPoints) (endpoints : t.m_endpoints = s.m_endpoints) :
    SameConns s t :=
  ⟨endpoints, fun e => ((same_conns_objects (s.updateHandler place change) t objects endpoints).keys e).trans
    (conn_keys_update s place change e)⟩

theorem every_conn_same (s t : State D) (same : SameConns s t) : everyConn t = everyConn s := by
  rw [every_conn_keys, every_conn_keys, same.endpoints]
  exact List.flatMap_congr fun e _ => by rw [same.keys]

theorem every_conn_nil (s : State D) (empty : s.m_endpoints.keys = []) : everyConn s = [] := by
  rw [every_conn_keys, empty]
  rfl

structure Counted (s : State D) (k : Nat) : Prop where
  tracks : s.TracksAll
  idle : s.thread = .idle → (everyConn s).length = k
  adding : ∀ call, s.thread = .adding call →
    call.first = true ∧ s.m_endpoints.keys = [] ∧ connKeys s call.endpoint = [call.clientId] ∧ k = 1
  joining : ∀ endpoints, s.thread = .joining endpoints → s.m_endpoints = ∅ ∧ k = 0

theorem counted_same (s t : State D) (k : Nat) (same : SameConns s t) (thread : t.thread = s.thread)
    (held : Counted s k) : Counted t k := by
  have conns := every_conn_same s t same
  constructor
  case tracks =>
    intro conn member
    rw [conns] at member
    rw [tracked_same s t same.endpoints]
    exact held.tracks conn member
  case idle =>
    intro idle
    rw [conns]
    exact held.idle (thread.symm.trans idle)
  case adding =>
    intro call adding
    rw [same.endpoints, same.keys]
    exact held.adding call (thread.symm.trans adding)
  case joining =>
    intro endpoints joining
    rw [same.endpoints]
    exact held.joining endpoints (thread.symm.trans joining)

theorem counted_nothing (s : State D) (nothing : everyConn s = []) (still : ∀ call, s.thread ≠ .adding call)
    (cleared : ∀ endpoints, s.thread = .joining endpoints → s.m_endpoints = ∅) : Counted s 0 where
  tracks := by
    intro conn member
    rw [nothing] at member
    cases member
  idle := fun _ => congrArg List.length nothing
  adding := fun call adding => absurd adding (still call)
  joining := fun endpoints joining => ⟨cleared endpoints joining, rfl⟩

theorem counted_destroy (s : State D) (endpoints : List Nat) (cleared : s.m_endpoints = ∅) :
    Counted (destroy s endpoints) 0 := by
  have empty : (destroy s endpoints).m_endpoints = ∅ := (destroy_frame s endpoints).1.trans cleared
  apply counted_nothing _ (every_conn_nil _ (by rw [empty]; rfl))
  · intro call adding
    cases endpoints <;> cases adding
  · exact fun _ _ => empty

theorem counted_add (p : Platform D) (s : State D) (hdl : Hdl) (request : JSON D)
    (accepts : p.acceptsUri (request.index "host".toList).asText = true) (empty : s.m_endpoints.keys = []) :
    Counted (handleAddAggregator p s hdl request).1 1 := by
  dsimp only [handleAddAggregator]
  rw [empty]
  dsimp only
  constructor
  case tracks =>
    intro conn member
    exact absurd member (by rw [every_conn_nil _ (by exact empty)]; exact List.not_mem_nil)
  case idle => exact fun idle => by cases idle
  case adding =>
    intro call adding
    cases adding
    refine ⟨rfl, empty, ?_, rfl⟩
    dsimp only [connKeys]
    rw [EndPoints.get_allocate, if_pos rfl, accepts]
    rfl
  case joining => exact fun _ joining => by cases joining

theorem counted_clear (s : State D) (hdl : Hdl) (tracks : s.TracksAll) : Counted (handleClearAggregator s hdl).1 0 := by
  dsimp only [handleClearAggregator]
  split
  · exact counted_destroy _ _ rfl
  · have closes := close_all_closes s.m_endpoints.toList s
    obtain ⟨objects, closed⟩ := close_all_objects s.m_endpoints.toList s
    rw [closed] at closes ⊢
    constructor
    case tracks =>
      intro conn member
      obtain ⟨inside, known⟩ := every_conn_known _ conn member
      obtain ⟨handler, found⟩ := Option.isSome_iff_exists.mp known
      have shuts := closes.handlers conn
      have here : State.handler { s with endPoints := objects } conn = some handler := found
      rw [here] at shuts
      obtain ⟨before, there, _⟩ := shuts_some _ handler shuts
      refine tracks conn (mem_every_conn s conn.endpoint conn.id inside ?_)
      dsimp only [State.Known]
      rw [there]
      rfl
    case idle => exact fun idle => by cases idle
    case adding => exact fun _ adding => by cases adding
    case joining => exact fun _ joining => by cases joining

theorem counted_wake (p : Platform D) (s : State D) (call : Adding) (k : Nat) (adding : s.thread = .adding call)
    (held : Counted s k) : Counted (wakeAdding p s call).1 k := by
  obtain ⟨first, empty, keys, rfl⟩ := held.adding call adding
  have woken : wakeAdding p s call = replyAdded (trackId s call) call := by
    dsimp only [wakeAdding]
    rw [if_pos first]
  have untracked : s.m_endpoints.size = 0 := by
    rw [← Std.TreeMap.length_keys, empty]
    rfl
  have single : (trackId s call).m_endpoints.keys = [call.endpoint] := by
    refine Library.keys_single _ _ ?_ Std.TreeMap.mem_insert_self
    have absent : call.endpoint ∉ s.m_endpoints := by
      rw [← Std.TreeMap.mem_keys, empty]
      exact List.not_mem_nil
    refine (Std.TreeMap.size_insert (t := s.m_endpoints)).trans ((if_neg absent).trans ?_)
    rw [untracked]
  have conns : everyConn (replyAdded (trackId s call) call).1 = [⟨call.endpoint, call.clientId⟩] := by
    have same : SameConns (trackId s call) (replyAdded (trackId s call) call).1 := same_conns_objects _ _ rfl rfl
    have listed : connKeys (trackId s call) call.endpoint = [call.clientId] := keys
    rw [every_conn_same _ _ same, every_conn_keys, single, List.flatMap_singleton, listed]
    rfl
  rw [woken]
  constructor
  case tracks =>
    intro conn member
    rw [conns] at member
    rw [tracked_same (trackId s call) (replyAdded (trackId s call) call).1 rfl]
    exact (tracked_track_id s call conn).mpr (Or.inr (List.mem_singleton.mp member))
  case idle => exact fun _ => congrArg List.length conns
  case adding => exact fun _ adding => by cases adding
  case joining => exact fun _ joining => by cases joining

theorem counted_handled (p : Platform D) (s : State D) (k : Nat) (hdl : Hdl) (payload : Text) (request : JSON D)
    (idle : s.thread = .idle) (held : Counted s k) (loaded : load p.fp payload = .ok request)
    (accepted : AcceptedHost p (.message hdl payload)) (empty : AddsToEmpty p s (.message hdl payload)) :
    Counted (command p (subscribePart p s hdl request) hdl payload request).1 (countAdds p (.message hdl payload) k) := by
  obtain ⟨tasks, launched, _⟩ := subscribe_part_same p s hdl request
  have ready := counted_same s { s with m_sendFutures := s.m_sendFutures ++ tasks } k (same_conns_objects s _ rfl rfl) rfl
    held
  rw [launched]
  dsimp only [countAdds]
  rw [loaded]
  dsimp only
  rcases command_cases p _ hdl payload request with ⟨asked, adds⟩ | ⟨asked, clears⟩ | ⟨asked, symbols, cleared, other⟩
  · have none_ := empty hdl payload request rfl loaded asked
    have k_zero : k = 0 := by
      rw [← held.idle idle, every_conn_nil s none_]
      rfl
    rw [adds, if_pos asked, k_zero]
    exact counted_add p _ hdl request (accepted hdl payload request rfl loaded asked) none_
  · rw [clears, if_neg (by rw [asked]; decide), if_pos asked]
    exact counted_clear _ hdl ready.tracks
  · rw [other, if_neg asked.1, if_neg asked.2]
    exact counted_same s _ k (same_conns_objects s _ rfl rfl) rfl held

theorem counted_step (p : Platform D) (s t : State D) (k : Nat) (action : Action) (out : List (Output D))
    (held : Counted s k) (accepted : AcceptedHost p action) (empty : AddsToEmpty p s action)
    (taken : step p s action = some (t, out)) : Counted t (countAdds p action k) := by
  obtain ⟨_, transition⟩ := step_transition p s t action out taken
  cases transition with
  | malformed hdl payload fault _ _ raised =>
      dsimp only [countAdds]
      rw [raised]
      exact counted_same s _ k (same_conns_objects s _ rfl rfl) rfl held
  | handled hdl payload request _ idle loaded =>
      exact counted_handled p s k hdl payload request idle held loaded accepted empty
  | added call thread => exact counted_wake p s call k thread held
  | deleted e rest thread =>
      obtain ⟨cleared, rfl⟩ := held.joining _ thread
      exact counted_destroy s rest cleared
  | joined e rest _ thread =>
      obtain ⟨cleared, rfl⟩ := held.joining _ thread
      exact counted_destroy _ rest cleared
  | installed i sub place => exact counted_same s _ k (same_conns_update s _ place _ rfl rfl) rfl held
  | opened place => exact counted_same s _ k (same_conns_update s _ place _ rfl rfl) rfl held
  | silenced place => exact counted_same s _ k (same_conns_update s _ place _ rfl rfl) rfl held
  | failed place => exact counted_same s _ k (same_conns_update s _ place _ rfl rfl) rfl held
  | lost place => exact counted_same s _ k (same_conns_update s _ place _ rfl rfl) rfl held
  | closed place => exact counted_same s _ k (same_conns_update s _ place _ rfl rfl) rfl held
  | delivered conn data handler sub status =>
      have registry := deliver_registry sub status s
      exact counted_same s _ k (same_conns_objects s _ registry.endPoints registry.endpoints) registry.thread held
  | _ => exact counted_same s _ k (same_conns_objects s _ rfl rfl) rfl held

theorem counted_init : Counted (.init : State D) 0 := by
  apply counted_nothing _ (every_conn_nil _ rfl)
  · exact fun _ adding => by cases adding
  · exact fun _ joining => by cases joining

theorem adds_to_empty_tracked (p : Platform D) (actions : List Action) (s : State D) (log : List (List (Output D)))
    (accepted : ∀ action ∈ actions, AcceptedHost p action)
    (empty : (broadcaster p).Along (AddsToEmpty p) .init actions)
    (ran : (broadcaster p).run .init actions = some (s, log)) :
    s.TracksAll ∧ (s.thread = .idle → (everyConn s).length = addsSinceClear p actions) := by
  obtain ⟨k, recorded⟩ :=
    ((broadcaster p).recorded_run (fun _ action k => countAdds p action k) actions .init s 0 log).mp ran
  have counts := (broadcaster p).recorded_fold (countAdds p) actions .init s 0 k log recorded
  have meets : (broadcaster p).Along (fun s action => AcceptedHost p action ∧ AddsToEmpty p s action) .init actions :=
    (broadcaster p).along_and _ _ actions .init
      ((broadcaster p).along_always _ actions .init fun _ action member => accepted action member) empty
  have held : Counted s k :=
    ((broadcaster p).recorded fun _ action k => countAdds p action k).run_invariant
      (fun now action => AcceptedHost p action ∧ AddsToEmpty p now.1 action) (fun now => Counted now.1 now.2)
      (fun now action next out held met taken => by
        obtain ⟨stepped, counted⟩ := ((broadcaster p).recorded_step _ now.1 next.1 now.2 next.2 action out).mp taken
        rw [counted]
        exact counted_step p now.1 next.1 now.2 action out held met.1 met.2 stepped)
      actions (.init, 0) (s, k) log counted_init
      ((broadcaster p).along_recorded _ _ actions .init 0 meets) recorded
  rw [addsSinceClear, ← counts]
  exact ⟨held.tracks, held.idle⟩

theorem loop_leaves_untracked (p : Platform D) (s t : State D) (call : Adding) (out : List (Output D))
    (reach : (broadcaster p).Reachable .init s) (adding : s.thread = .adding call) (looped : call.first = false)
    (accepts : p.acceptsUri call.host = true) (woke : step p s .wake = some (t, out)) : ¬t.TracksAll := by
  intro tracks
  obtain ⟨_, last, _, place⟩ := adding_synced s call adding (reachable_synced p s reach)
  obtain ⟨registered, safe⟩ := reachable_real p (fun id => id ≠ -1) (fun real => real rfl) s reach
  have inside := place looped
  obtain ⟨endpoint, found⟩ := Option.isSome_iff_exists.mp (registered.owned call.endpoint inside)
  have woken : t = (replyAdded (connectOn p (trackId s call) call.endpoint call.host).1 call).1 := by
    have result := congrArg Prod.fst (wake_adding_step p s t call out adding woke)
    dsimp only [wakeAdding] at result
    rw [looped, last, if_neg Bool.false_ne_true] at result
    exact result.symm
  have endpoints : t.m_endpoints = (trackId s call).m_endpoints := by
    rw [woken]
    exact connect_on_endpoints p _ _ _
  have created : t.handler ⟨call.endpoint, endpoint.m_next_id⟩ = some (.new endpoint.m_next_id) := by
    have again := handler_connect_on p (trackId s call) call.endpoint call.host endpoint found
      ⟨call.endpoint, endpoint.m_next_id⟩
    rw [if_pos rfl, accepts, EndPoint.get_connect, if_pos rfl] at again
    rw [woken]
    exact again
  have member : ⟨call.endpoint, endpoint.m_next_id⟩ ∈ everyConn t := by
    refine mem_every_conn t _ _ ?_ (by dsimp only [State.Known]; rw [created]; rfl)
    rw [endpoints]
    exact Std.TreeMap.mem_insert_self
  have tracked := tracks _ member
  rw [tracked_same _ t endpoints, tracked_track_id] at tracked
  have real : endpoint.m_next_id ≠ -1 := by
    have natural := endpoint.natural
    omega
  have known : s.Known ⟨call.endpoint, endpoint.m_next_id⟩ := by
    cases tracked with
    | inl before => exact registered.known _ before real
    | inr same =>
        dsimp only [ThreadSafe] at safe
        rw [adding] at safe
        have id : endpoint.m_next_id = call.clientId := congrArg Conn.id same
        rw [id] at real ⊢
        exact safe.2.1 real
  -- No connection has the id that is given out next.
  obtain ⟨handler, here⟩ := Option.isSome_iff_exists.mp known
  have numbered := endpoint.get_numbered endpoint.m_next_id handler (by simpa [State.handler, found] using here)
  omega

theorem accepted_add (hdl : Hdl) : AcceptedHost .plain (.message hdl addRequest) := by
  rintro _ _ request same loaded _
  cases same
  cases (asks_add .plain).loaded.symm.trans loaded
  decide

def firstAddRun : List Action := [.connected, .message 0 addRequest, .wake]

theorem accepted_first_add : ∀ action ∈ firstAddRun, AcceptedHost .plain action := by
  intro action member
  simp only [firstAddRun, List.mem_cons, List.not_mem_nil, or_false] at member
  obtain rfl | rfl | rfl := member
  · exact fun _ _ _ same => by cases same
  · exact accepted_add 0
  · exact fun _ _ _ same => by cases same

theorem adds_to_empty_tracked_first :
    ∃ s log, (broadcaster .plain).run .init firstAddRun = some (s, log) ∧ s.TracksAll ∧ everyConn s = [⟨0, 0⟩] := by
  obtain ⟨s, log, ran, checked⟩ := (broadcaster .plain).run_check .init firstAddRun
    (fun done => everyConn done.1 = [⟨0, 0⟩]) (by decide +kernel)
  refine ⟨s, log, ran, (adds_to_empty_tracked .plain firstAddRun s log accepted_first_add ?_ ran).1,
    of_decide_eq_true checked⟩
  refine (broadcaster .plain).along_checked (AddsToEmpty .plain) (fun s _ => s.m_endpoints.keys = []) ?_ firstAddRun
    .init (by decide +kernel)
  exact fun s action passes _ _ _ _ _ _ => of_decide_eq_true passes

-- The second command goes through the loop, which connects twice and tracks one id.
def secondAddRun : List Action := firstAddRun ++ [.message 0 addRequest, .wake]

theorem second_add_untracked :
    ∃ s log, (broadcaster .plain).run .init secondAddRun = some (s, log) ∧
      (∀ action ∈ secondAddRun, AcceptedHost .plain action) ∧ ⟨0, 2⟩ ∈ everyConn s ∧ ⟨0, 2⟩ ∉ s.tracked ∧
      (everyConn s).length = 3 ∧ addsSinceClear .plain secondAddRun = 2 ∧ ¬s.TracksAll := by
  obtain ⟨s, log, ran, checked⟩ := (broadcaster .plain).run_check .init secondAddRun
    (fun done => everyConn done.1 = [⟨0, 0⟩, ⟨0, 1⟩, ⟨0, 2⟩] ∧ done.1.tracked = [⟨0, 0⟩, ⟨0, 1⟩]) (by decide +kernel)
  obtain ⟨conns, tracked⟩ := of_decide_eq_true checked
  have there : ⟨0, 2⟩ ∈ everyConn s := by
    rw [conns]
    simp
  have missing : ⟨0, 2⟩ ∉ s.tracked := by
    rw [tracked]
    simp
  refine ⟨s, log, ran, fun action member => ?_, there, missing, by rw [conns]; rfl, by decide +kernel,
    fun tracks => missing (tracks _ there)⟩
  cases List.mem_append.mp member with
  | inl early => exact accepted_first_add action early
  | inr late =>
      simp only [List.mem_cons, List.not_mem_nil, or_false] at late
      obtain rfl | rfl := late
      · exact accepted_add 0
      · exact fun _ _ _ same => by cases same

end TradingFeed.Broadcaster
