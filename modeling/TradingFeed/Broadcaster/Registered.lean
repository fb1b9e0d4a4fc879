import TradingFeed.Broadcaster.Delivery

set_option autoImplicit false

namespace TradingFeed.Broadcaster

open TradingFeed.Json TradingFeed.Sockets

variable {D : Type}

def State.Known (s : State D) (conn : Conn) : Prop := (s.handler conn).isSome = true

def Owned (s : State D) (e : Nat) : Prop := (s.endPoints.get e).isSome = true

-- The two registries against each other: every tracked id that is `real` is the
-- id of a connection, and every tracked EndPoint exists.
structure Registered (real : Int → Prop) (s : State D) : Prop where
  known : ∀ conn ∈ s.tracked, real conn.id → s.Known conn
  owned : ∀ e ∈ s.m_endpoints, Owned s e

-- connect returns a real id: the host is accepted, or -1 does not count as one.
def Reliable (p : Platform D) (real : Int → Prop) (host : Text) : Prop := p.acceptsUri host = true ∨ ¬real (-1)

-- The same for what a sleeping server thread will still insert, and while
-- EndPoints are being deleted nothing is tracked.
def ThreadSafe (p : Platform D) (real : Int → Prop) (s : State D) : Prop :=
  match s.thread with
  | .adding call =>
      Reliable p real call.host ∧ (real call.clientId → s.Known ⟨call.endpoint, call.clientId⟩) ∧
        ∀ e ∈ call.endpoint :: call.rest, Owned s e
  | .joining _ => s.m_endpoints = ∅
  | _ => True

def ReliableHost (p : Platform D) (real : Int → Prop) (action : Action) : Prop :=
  ∀ hdl payload request, action = .message hdl payload → load p.fp payload = .ok request →
    (request.index "action".toList).asText = "add-trading-aggregator".toList →
    Reliable p real (request.index "host".toList).asText

theorem known_owned (s : State D) (conn : Conn) (known : s.Known conn) : Owned s conn.endpoint := by
  dsimp only [State.Known, State.handler] at known
  dsimp only [Owned]
  cases found : s.endPoints.get conn.endpoint with
  | none => simp [found] at known
  | some endpoint => rfl

theorem known_update (s : State D) (place conn : Conn) (change : ClientHandler Subscription → ClientHandler Subscription)
    (known : s.Known conn) : (s.updateHandler place change).Known conn := by
  dsimp only [State.Known] at known ⊢
  rw [State.handler_update]
  split
  · rename_i here
    rw [Option.isSome_map, ← here]
    exact known
  · exact known

theorem owned_update (s : State D) (place : Conn) (change : ClientHandler Subscription → ClientHandler Subscription)
    (e : Nat) (owned : Owned s e) : Owned (s.updateHandler place change) e :=
  (get_updated s (s.updateHandler place change) place.endpoint _ rfl e).1.trans owned

theorem nothing_tracked (s : State D) (cleared : s.m_endpoints = ∅) (conn : Conn) : conn ∉ s.tracked := by
  rw [State.mem_tracked, cleared]
  simp

theorem registered_empty (real : Int → Prop) (s : State D) (cleared : s.m_endpoints = ∅) : Registered real s := by
  refine ⟨fun conn tracked => absurd tracked (nothing_tracked s cleared conn), fun e member => ?_⟩
  rw [cleared] at member
  simp at member

theorem registered_grows (real : Int → Prop) (s t : State D) (registered : Registered real s) (grows : Grows s t)
    (endpoints : t.m_endpoints = s.m_endpoints) : Registered real t := by
  refine ⟨fun conn tracked actual => ?_, fun e member => ?_⟩
  · rw [tracked_same s t endpoints] at tracked
    exact grows_known s t grows conn (registered.known conn tracked actual)
  · rw [endpoints] at member
    exact grows.present e (registered.owned e member)

theorem registered_update (real : Int → Prop) (s : State D) (place : Conn)
    (change : ClientHandler Subscription → ClientHandler Subscription) (registered : Registered real s) :
    Registered real (s.updateHandler place change) :=
  ⟨fun conn tracked actual => known_update s place conn change (registered.known conn tracked actual),
    fun e member => owned_update s place change e (registered.owned e member)⟩

theorem track_registered (real : Int → Prop) (s : State D) (call : Adding) (registered : Registered real s)
    (known : real call.clientId → s.Known ⟨call.endpoint, call.clientId⟩) (owned : Owned s call.endpoint) :
    Registered real (trackId s call) := by
  refine ⟨fun conn tracked actual => ?_, fun e member => ?_⟩
  · rcases (tracked_track_id s call conn).mp tracked with old | rfl
    · exact registered.known conn old actual
    · exact known actual
  · rcases Std.TreeMap.mem_insert.mp member with same | old
    · rw [← Std.LawfulEqCmp.eq_of_compare same]
      exact owned
    · exact registered.owned e old

theorem thread_safe_same (p : Platform D) (real : Int → Prop) (s t : State D) (safe : ThreadSafe p real s)
    (thread : t.thread = s.thread) (endpoints : t.m_endpoints = s.m_endpoints)
    (known : ∀ conn, s.Known conn → t.Known conn) (owned : ∀ e, Owned s e → Owned t e) : ThreadSafe p real t := by
  dsimp only [ThreadSafe] at safe ⊢
  rw [thread]
  split
  · rename_i call adding
    rw [adding] at safe
    exact ⟨safe.1, fun actual => known _ (safe.2.1 actual), fun e member => owned e (safe.2.2 e member)⟩
  · rename_i joining
    rw [joining] at safe
    exact endpoints.trans safe
  · trivial

theorem idle_safe (p : Platform D) (real : Int → Prop) (s : State D) (idle : s.thread = .idle) : ThreadSafe p real s := by
  dsimp only [ThreadSafe]
  rw [idle]
  trivial

theorem destroy_frame (s : State D) (endpoints : List Nat) :
    (destroy s endpoints).m_endpoints = s.m_endpoints ∧
      ((destroy s endpoints).thread = .idle ∨ (destroy s endpoints).thread = .joining endpoints) := by
  cases endpoints with
  | nil => exact ⟨rfl, Or.inl rfl⟩
  | cons e rest => exact ⟨rfl, Or.inr rfl⟩

theorem destroy_registered (p : Platform D) (real : Int → Prop) (s : State D) (endpoints : List Nat)
    (cleared : s.m_endpoints = ∅) :
    Registered real (destroy s endpoints) ∧ ThreadSafe p real (destroy s endpoints) := by
  obtain ⟨same, idle | joining⟩ := destroy_frame s endpoints
  · exact ⟨registered_empty real _ (same.trans cleared), idle_safe p real _ idle⟩
  · refine ⟨registered_empty real _ (same.trans cleared), ?_⟩
    dsimp only [ThreadSafe]
    rw [joining]
    exact same.trans cleared

theorem close_all_endpoints (entries : List (Nat × Std.TreeSet Int)) (s : State D) :
    (closeAll s entries).1.m_endpoints = s.m_endpoints := by
  obtain ⟨objects, closed⟩ := close_all_objects entries s
  rw [closed]

theorem clear_registered (p : Platform D) (real : Int → Prop) (s : State D) (hdl : Hdl) (registered : Registered real s) :
    Registered real (handleClearAggregator s hdl).1 ∧ ThreadSafe p real (handleClearAggregator s hdl).1 := by
  dsimp only [handleClearAggregator]
  split
  · exact destroy_registered p real _ _ rfl
  · have closes := close_all_closes s.m_endpoints.toList s
    have closed : Registered real (closeAll s s.m_endpoints.toList).1 :=
      registered_grows real s _ registered (closes_grows s _ closes) (close_all_endpoints _ s)
    exact ⟨⟨closed.known, closed.owned⟩, trivial⟩

theorem connected_known (p : Platform D) (real : Int → Prop) (endpoint : EndPoint Subscription) (host : Text)
    (reliable : Reliable p real host) (actual : real (endpoint.connect (p.acceptsUri host)).2) :
    ((endpoint.connect (p.acceptsUri host)).1.get_metadata (endpoint.connect (p.acceptsUri host)).2).isSome = true := by
  cases accepts : p.acceptsUri host with
  | true =>
      rw [EndPoint.get_connected]
      rfl
  | false =>
      rw [accepts] at actual
      rcases reliable with accepted | imaginary
      · rw [accepts] at accepted
        cases accepted
      · exact absurd actual imaginary

theorem connect_on_known (p : Platform D) (real : Int → Prop) (s : State D) (e : Nat) (host : Text) (owned : Owned s e)
    (reliable : Reliable p real host) (actual : real (connectOn p s e host).2) :
    (connectOn p s e host).1.Known ⟨e, (connectOn p s e host).2⟩ := by
  obtain ⟨endpoint, found⟩ := Option.isSome_iff_exists.mp owned
  have id : (connectOn p s e host).2 = (endpoint.connect (p.acceptsUri host)).2 := by simp [connectOn, found]
  dsimp only [State.Known]
  rw [handler_connect_on p s e host endpoint found, if_pos rfl, id]
  rw [id] at actual
  exact connected_known p real _ host reliable actual

theorem allocate_known (p : Platform D) (real : Int → Prop) (s : State D) (host : Text) (reliable : Reliable p real host)
    (actual : real ((EndPoint.new : EndPoint Subscription).connect (p.acceptsUri host)).2) (t : State D)
    (same : t.endPoints = s.endPoints.allocate (EndPoint.connect (p.acceptsUri host) .new).1) :
    t.Known ⟨s.endPoints.allocated, ((EndPoint.new : EndPoint Subscription).connect (p.acceptsUri host)).2⟩ := by
  dsimp only [State.Known, State.handler]
  rw [same, EndPoints.get_allocate, if_pos rfl, Option.bind_some]
  exact connected_known p real _ host reliable actual

theorem add_registered (p : Platform D) (real : Int → Prop) (s : State D) (hdl : Hdl) (request : JSON D)
    (registered : Registered real s) (reliable : Reliable p real (request.index "host".toList).asText) :
    Registered real (handleAddAggregator p s hdl request).1 ∧
      ThreadSafe p real (handleAddAggregator p s hdl request).1 := by
  refine ⟨registered_grows real s _ registered (grows_add_aggregator p s hdl request)
    (add_aggregator_endpoints p s hdl request), ?_⟩
  dsimp only [handleAddAggregator]
  split
  · refine ⟨reliable, fun actual => allocate_known p real s _ reliable actual _ rfl, fun e member => ?_⟩
    rw [List.mem_singleton.mp member]
    dsimp only [Owned]
    rw [EndPoints.get_allocate, if_pos rfl]
    rfl
  · rename_i e rest keys
    have inside : ∀ other ∈ e :: rest, Owned s other := by
      intro other member
      rw [← keys, Std.TreeMap.mem_keys] at member
      exact registered.owned other member
    have grows := grows_connect_on p s e (request.index "host".toList).asText
    exact ⟨reliable, connect_on_known p real s e _ (inside e (by simp)) reliable,
      fun other member => grows.present other (inside other member)⟩

theorem wake_adding_registered (p : Platform D) (real : Int → Prop) (s : State D) (call : Adding)
    (registered : Registered real s) (adding : s.thread = .adding call) (safe : ThreadSafe p real s) :
    Registered real (wakeAdding p s call).1 ∧ ThreadSafe p real (wakeAdding p s call).1 := by
  dsimp only [ThreadSafe] at safe
  rw [adding] at safe
  obtain ⟨reliable, known, owned⟩ := safe
  have tracked : Registered real (trackId s call) :=
    track_registered real s call registered known (owned call.endpoint (by simp))
  have grows := grows_connect_on p (trackId s call) call.endpoint call.host
  have again : Registered real (connectOn p (trackId s call) call.endpoint call.host).1 :=
    registered_grows real _ _ tracked grows (connect_on_endpoints p _ _ _)
  dsimp only [wakeAdding]
  split
  · exact ⟨⟨tracked.known, tracked.owned⟩, trivial⟩
  · split
    · exact ⟨⟨again.known, again.owned⟩, trivial⟩
    · rename_i e rest calls
      have there : ∀ other ∈ e :: rest, Owned (connectOn p (trackId s call) call.endpoint call.host).1 other :=
        fun other member => grows.present other (owned other (by rw [calls]; exact List.mem_cons_of_mem _ member))
      have further := grows_connect_on p (connectOn p (trackId s call) call.endpoint call.host).1 e call.host
      have last := registered_grows real _ _ again further (connect_on_endpoints p _ e call.host)
      exact ⟨⟨last.known, last.owned⟩, reliable, connect_on_known p real _ e call.host (there e (by simp)) reliable,
        fun other member => further.present other (there other member)⟩

theorem handled_registered (p : Platform D) (real : Int → Prop) (s : State D) (hdl : Hdl) (payload : Text)
    (request : JSON D) (registered : Registered real s) (idle : s.thread = .idle)
    (loaded : load p.fp payload = .ok request) (reliable : ReliableHost p real (.message hdl payload)) :
    Registered real (command p (subscribePart p s hdl request) hdl payload request).1 ∧
      ThreadSafe p real (command p (subscribePart p s hdl request) hdl payload request).1 := by
  obtain ⟨tasks, launched, _⟩ := subscribe_part_same p s hdl request
  rw [launched]
  have ready : Registered real { s with m_sendFutures := s.m_sendFutures ++ tasks } :=
    registered_grows real s _ registered (grows_same s _ rfl) rfl
  rcases command_cases p _ hdl payload request with ⟨asked, adds⟩ | ⟨_, clears⟩ | ⟨_, symbols, cleared, other⟩
  · rw [adds]
    exact add_registered p real _ hdl request ready (reliable hdl payload request rfl loaded asked)
  · rw [clears]
    exact clear_registered p real _ hdl ready
  · rw [other]
    exact ⟨registered_grows real s _ registered (grows_same s _ rfl) rfl, idle_safe p real _ idle⟩

theorem joining_cleared (p : Platform D) (real : Int → Prop) (s : State D) (endpoints : List Nat)
    (joining : s.thread = .joining endpoints) (safe : ThreadSafe p real s) : s.m_endpoints = ∅ := by
  dsimp only [ThreadSafe] at safe
  rw [joining] at safe
  exact safe

theorem update_registered (p : Platform D) (real : Int → Prop) (s t : State D) (place : Conn)
    (change : ClientHandler Subscription → ClientHandler Subscription) (registered : Registered real s)
    (safe : ThreadSafe p real s) (objects : t.endPoints = (s.updateHandler place change).endPoints)
    (endpoints : t.m_endpoints = s.m_endpoints) (thread : t.thread = s.thread) :
    Registered real t ∧ ThreadSafe p real t := by
  have grows := grows_same (s.updateHandler place change) t objects
  constructor
  · exact registered_grows real _ t (registered_update real s place change registered) grows endpoints
  · apply thread_safe_same p real s t safe thread endpoints
    · exact fun conn known => grows_known _ t grows conn (known_update s place conn change known)
    · exact fun e owned => grows.present e (owned_update s place change e owned)

theorem registered_step (p : Platform D) (real : Int → Prop) (s t : State D) (action : Action) (out : List (Output D))
    (held : Registered real s ∧ ThreadSafe p real s) (reliable : ReliableHost p real action)
    (taken : step p s action = some (t, out)) : Registered real t ∧ ThreadSafe p real t := by
  obtain ⟨registered, safe⟩ := held
  have same : t.endPoints = s.endPoints → t.m_endpoints = s.m_endpoints → t.thread = s.thread →
      Registered real t ∧ ThreadSafe p real t := by
    intro objects endpoints thread
    have grows := grows_same s t objects
    exact ⟨registered_grows real s t registered grows endpoints,
      thread_safe_same p real s t safe thread endpoints (grows_known s t grows) grows.present⟩
  obtain ⟨_, transition⟩ := step_transition p s t action out taken
  cases transition with
  | handled hdl payload request _ idle loaded =>
      exact handled_registered p real s hdl payload request registered idle loaded reliable
  | added call thread => exact wake_adding_registered p real s call registered thread safe
  | deleted e rest thread => exact destroy_registered p real s rest (joining_cleared p real s _ thread safe)
  | joined e rest _ thread => exact destroy_registered p real _ rest (joining_cleared p real s _ thread safe)
  | installed i sub place => exact update_registered p real s _ place _ registered safe rfl rfl rfl
  | opened place => exact update_registered p real s _ place _ registered safe rfl rfl rfl
  | silenced place => exact update_registered p real s _ place _ registered safe rfl rfl rfl
  | failed place => exact update_registered p real s _ place _ registered safe rfl rfl rfl
  | lost place => exact update_registered p real s _ place _ registered safe rfl rfl rfl
  | closed place => exact update_registered p real s _ place _ registered safe rfl rfl rfl
  | delivered place data handler sub status =>
      have registry := deliver_registry sub status s
      exact same registry.endPoints registry.endpoints registry.thread
  | _ => exact same rfl rfl rfl

theorem registered_init (p : Platform D) (real : Int → Prop) :
    Registered real (.init : State D) ∧ ThreadSafe p real (.init : State D) :=
  ⟨registered_empty real _ rfl, trivial⟩

theorem reachable_real (p : Platform D) (real : Int → Prop) (imaginary : ¬real (-1)) (s : State D)
    (reach : (broadcaster p).Reachable .init s) : Registered real s ∧ ThreadSafe p real s :=
  (broadcaster p).reachable_invariant .init (fun s => Registered real s ∧ ThreadSafe p real s) (registered_init p real)
    (fun s action t out held taken =>
      registered_step p real s t action out held (fun _ _ _ _ _ _ => Or.inr imaginary) taken) s reach

theorem reachable_registered (p : Platform D) (s : State D) (reach : (broadcaster p).Reachable .init s) :
    Registered (fun _ => False) s :=
  (reachable_real p (fun _ => False) id s reach).1

end TradingFeed.Broadcaster
