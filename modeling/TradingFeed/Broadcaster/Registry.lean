import TradingFeed.Broadcaster.Frames

set_option autoImplicit false

namespace TradingFeed.Broadcaster

open TradingFeed.Json TradingFeed.Sockets

variable {D : Type}

theorem handler_same (s t : State D) (same : t.endPoints = s.endPoints) (conn : Conn) :
    t.handler conn = s.handler conn := by
  dsimp only [State.handler]
  rw [same]

structure Closes (s t : State D) : Prop where
  handlers : ∀ conn, Shuts (s.handler conn) (t.handler conn)
  present : ∀ e, (t.endPoints.get e).isSome = (s.endPoints.get e).isSome
  allocated : t.endPoints.allocated = s.endPoints.allocated

-- How commands act on the connections: none is lost, open sessions may be asked
-- to close, and what appears has just been created by connect or allocated.
structure Grows (s t : State D) : Prop where
  handlers : ∀ conn, Shuts (s.handler conn) (t.handler conn) ∨
    (s.handler conn = none ∧ t.handler conn = some (.new conn.id))
  present : ∀ e, (s.endPoints.get e).isSome = true → (t.endPoints.get e).isSome = true
  absent : ∀ e, e < s.endPoints.allocated → s.endPoints.get e = none → t.endPoints.get e = none
  allocated : s.endPoints.allocated ≤ t.endPoints.allocated

theorem closes_same (s t : State D) (same : t.endPoints = s.endPoints) : Closes s t :=
  ⟨fun conn => Or.inl (handler_same s t same conn), fun e => by rw [same], by rw [same]⟩

theorem closes_trans (s t u : State D) (first : Closes s t) (second : Closes t u) : Closes s u :=
  ⟨fun conn => shuts_trans _ _ _ (first.handlers conn) (second.handlers conn),
    fun e => (second.present e).trans (first.present e), second.allocated.trans first.allocated⟩

theorem closes_grows (s t : State D) (closes : Closes s t) : Grows s t := by
  refine ⟨fun conn => Or.inl (closes.handlers conn), fun e there => (closes.present e).trans there, ?_,
    Nat.le_of_eq closes.allocated.symm⟩
  intro e _ none
  have absent := closes.present e
  rw [none] at absent
  exact Option.isNone_iff_eq_none.mp (by simpa using absent)

theorem grows_same (s t : State D) (same : t.endPoints = s.endPoints) : Grows s t :=
  closes_grows s t (closes_same s t same)

theorem grows_trans (s t u : State D) (first : Grows s t) (second : Grows t u) : Grows s u := by
  refine ⟨fun conn => ?_, fun e there => second.present e (first.present e there),
    fun e below none => second.absent e (Nat.lt_of_lt_of_le below first.allocated) (first.absent e below none),
    Nat.le_trans first.allocated second.allocated⟩
  rcases first.handlers conn with before | ⟨absent, created⟩
  · rcases second.handlers conn with after | ⟨absent, created⟩
    · exact Or.inl (shuts_trans _ _ _ before after)
    · rw [absent] at before
      rcases before with same | ⟨_, _, _, same⟩
      · exact Or.inr ⟨same.symm, created⟩
      · cases same
  · rcases second.handlers conn with after | ⟨gone, _⟩
    · rw [created] at after
      rcases after with same | ⟨handler, found, opened, _⟩
      · exact Or.inr ⟨absent, same⟩
      · cases found
        simp [ClientHandler.new] at opened
    · rw [created] at gone
      cases gone

theorem grows_known (s t : State D) (grows : Grows s t) (conn : Conn) (known : (s.handler conn).isSome = true) :
    (t.handler conn).isSome = true := by
  rcases grows.handlers conn with same | ⟨none, _⟩
  · rcases same with same | ⟨_, _, _, same⟩ <;> simp [same, known]
  · rw [none] at known
    cases known

theorem get_updated (s t : State D) (e : Nat) (change : EndPoint Subscription → EndPoint Subscription)
    (same : t.endPoints = s.endPoints.update e change) (other : Nat) :
    (t.endPoints.get other).isSome = (s.endPoints.get other).isSome ∧
      t.endPoints.allocated = s.endPoints.allocated := by
  refine ⟨?_, by rw [same]; rfl⟩
  rw [same, EndPoints.get_update]
  split
  · rename_i here
    rw [here, Option.isSome_map]
  · rfl

theorem handler_connect_on (p : Platform D) (s : State D) (e : Nat) (host : Text) (endpoint : EndPoint Subscription)
    (found : s.endPoints.get e = some endpoint) (conn : Conn) :
    (connectOn p s e host).1.handler conn =
      if conn.endpoint = e then (endpoint.connect (p.acceptsUri host)).1.get_metadata conn.id else s.handler conn := by
  by_cases same : conn.endpoint = e
  · simp [connectOn, State.handler, EndPoints.get_update, found, same]
  · simp [connectOn, State.handler, EndPoints.get_update, found, same]

theorem grows_connect_on (p : Platform D) (s : State D) (e : Nat) (host : Text) :
    Grows s (connectOn p s e host).1 := by
  cases found : s.endPoints.get e with
  | none => exact grows_same s _ (by simp [connectOn, found])
  | some endpoint =>
      have updated : (connectOn p s e host).1.endPoints =
          s.endPoints.update e fun _ => (endpoint.connect (p.acceptsUri host)).1 := by
        simp [connectOn, found]
      have present := get_updated s _ e _ updated
      refine ⟨fun conn => ?_, fun other there => (present other).1.trans there, fun other _ none => ?_,
        Nat.le_of_eq (present e).2.symm⟩
      · rw [handler_connect_on p s e host endpoint found]
        by_cases same : conn.endpoint = e
        · have here : s.handler conn = endpoint.get_metadata conn.id := by simp [State.handler, same, found]
          rw [if_pos same, here]
          exact (EndPoint.connect_get endpoint (p.acceptsUri host) conn.id).imp_left Or.inl
        · rw [if_neg same]
          exact Or.inl (shuts_refl _)
      · have absent := (present other).1
        rw [none] at absent
        exact Option.isNone_iff_eq_none.mp (by simpa using absent)

theorem allocate_handlers (s t : State D) (endpoint : EndPoint Subscription)
    (created : ∀ id, endpoint.get_metadata id = none ∨ endpoint.get_metadata id = some (.new id))
    (same : t.endPoints = s.endPoints.allocate endpoint) (conn : Conn) :
    Shuts (s.handler conn) (t.handler conn) ∨ (s.handler conn = none ∧ t.handler conn = some (.new conn.id)) := by
  by_cases fresh : conn.endpoint = s.endPoints.allocated
  · have absent : s.handler conn = none := by
      dsimp only [State.handler]
      cases found : s.endPoints.get conn.endpoint with
      | none => rfl
      | some other =>
          have below := EndPoints.get_below s.endPoints conn.endpoint other found
          omega
    have here : t.handler conn = endpoint.get_metadata conn.id := by
      simp [State.handler, same, EndPoints.get_allocate, fresh]
    rw [absent, here]
    exact (created conn.id).imp Or.inl fun new => ⟨rfl, new⟩
  · refine Or.inl (Or.inl ?_)
    simp [State.handler, same, EndPoints.get_allocate, fresh]

theorem grows_allocate (s t : State D) (endpoint : EndPoint Subscription)
    (created : ∀ id, endpoint.get_metadata id = none ∨ endpoint.get_metadata id = some (.new id))
    (same : t.endPoints = s.endPoints.allocate endpoint) : Grows s t := by
  have get := EndPoints.get_allocate s.endPoints endpoint
  rw [← same] at get
  refine ⟨fun conn => ?_, fun e there => ?_, fun e below none => ?_, ?_⟩
  · exact allocate_handlers s t endpoint created same conn
  · rw [get]
    split
    · rfl
    · exact there
  · rw [get, if_neg (Nat.ne_of_lt below)]
    exact none
  · rw [same]
    exact Nat.le_succ _

theorem grows_add_aggregator (p : Platform D) (s : State D) (hdl : Hdl) (request : JSON D) :
    Grows s (handleAddAggregator p s hdl request).1 := by
  dsimp only [handleAddAggregator]
  split
  · refine grows_allocate s _ _ (fun id => ?_) rfl
    rcases EndPoint.connect_get .new (p.acceptsUri _) id with same | ⟨_, created⟩
    · exact Or.inl (same.trans (EndPoint.get_new id))
    · exact Or.inr created
  · rename_i e rest _
    exact grows_trans s _ _ (grows_connect_on p s e _) (grows_same _ _ rfl)

theorem grows_wake_adding (p : Platform D) (s : State D) (call : Adding) : Grows s (wakeAdding p s call).1 := by
  dsimp only [wakeAdding]
  split
  · exact grows_same s _ rfl
  · have again : Grows s (connectOn p (trackId s call) call.endpoint call.host).1 :=
      grows_trans s _ _ (grows_same s (trackId s call) rfl) (grows_connect_on p _ _ _)
    split
    · exact grows_trans s _ _ again (grows_same _ _ rfl)
    · exact grows_trans s _ _ again (grows_trans _ _ _ (grows_connect_on p _ _ _) (grows_same _ _ rfl))

theorem closes_update (s t : State D) (e : Nat) (change : EndPoint Subscription → EndPoint Subscription)
    (closes : ∀ endpoint, s.endPoints.get e = some endpoint → ∀ id,
      Shuts (endpoint.get_metadata id) ((change endpoint).get_metadata id))
    (same : t.endPoints = s.endPoints.update e change) : Closes s t := by
  have present := get_updated s t e change same
  refine ⟨fun conn => ?_, fun other => (present other).1, (present e).2⟩
  dsimp only [State.handler]
  rw [same, EndPoints.get_update]
  by_cases here : conn.endpoint = e
  · rw [if_pos here, here]
    cases found : s.endPoints.get e with
    | none => exact shuts_refl none
    | some endpoint => exact closes endpoint found conn.id
  · rw [if_neg here]
    exact shuts_refl _

theorem close_ids_shuts (ids : List Int) (endpoint : EndPoint Subscription) (id : Int) :
    Shuts (endpoint.get_metadata id) ((closeIds endpoint ids).1.get_metadata id) := by
  induction ids generalizing endpoint with
  | nil => exact shuts_refl _
  | cons first rest ih =>
      have closed := close_shuts endpoint true first id
      simp only [closeIds]
      split
      · exact closed
      · exact shuts_trans _ _ _ closed (ih _)

theorem close_all_closes (entries : List (Nat × Std.TreeSet Int)) (s : State D) : Closes s (closeAll s entries).1 := by
  induction entries generalizing s with
  | nil => exact closes_same s s rfl
  | cons entry rest ih =>
      obtain ⟨e, ids⟩ := entry
      cases found : s.endPoints.get e with
      | none => simpa only [closeAll, found] using ih s
      | some endpoint =>
          simp only [closeAll, found]
          refine closes_trans s _ _ (closes_update s _ e _ ?_ rfl) (ih _)
          intro other same id
          rw [found] at same
          cases same
          exact close_ids_shuts ids.toList endpoint id

theorem destroy_closes (s : State D) (endpoints : List Nat) : Closes s (destroy s endpoints) := by
  cases endpoints with
  | nil => exact closes_same s _ rfl
  | cons e rest => exact closes_update s _ e _ (fun endpoint _ id => close_open_shuts endpoint id) rfl

theorem clear_aggregator_closes (s : State D) (hdl : Hdl) : Closes s (handleClearAggregator s hdl).1 := by
  have closing := close_all_closes s.m_endpoints.toList s
  dsimp only [handleClearAggregator]
  split
  · exact closes_trans s _ _ closing
      (closes_trans _ _ _ (closes_same _ { (closeAll s s.m_endpoints.toList).1 with m_endpoints := ∅ } rfl)
        (destroy_closes _ s.m_endpoints.keys))
  · exact closes_trans s _ _ closing (closes_same _ _ rfl)

theorem grows_command (p : Platform D) (s : State D) (hdl : Hdl) (payload : Text) (request : JSON D) :
    Grows s (command p s hdl payload request).1 := by
  rcases command_cases p s hdl payload request with ⟨_, adds⟩ | ⟨_, clears⟩ | ⟨_, symbols, cleared, other⟩
  · rw [adds]
    exact grows_add_aggregator p s hdl request
  · rw [clears]
    exact closes_grows s _ (clear_aggregator_closes s hdl)
  · rw [other]
    exact grows_same s _ rfl

theorem grows_handled (p : Platform D) (s : State D) (hdl : Hdl) (payload : Text) (request : JSON D) :
    Grows s (command p (subscribePart p s hdl request) hdl payload request).1 := by
  obtain ⟨tasks, launched, _⟩ := subscribe_part_same p s hdl request
  exact grows_trans s _ _ (grows_same s _ (by rw [launched])) (grows_command p _ hdl payload request)

theorem handler_deleted (s : State D) (e : Nat) (conn : Conn) :
    State.handler { s with endPoints := s.endPoints.delete e } conn =
      if conn.endpoint = e then none else s.handler conn := by
  by_cases here : conn.endpoint = e
  · simp [State.handler, EndPoints.get_delete, here]
  · simp [State.handler, EndPoints.get_delete, here]

theorem connect_on_endpoints (p : Platform D) (s : State D) (e : Nat) (host : Text) :
    (connectOn p s e host).1.m_endpoints = s.m_endpoints := by
  dsimp only [connectOn]
  split <;> rfl

theorem add_aggregator_endpoints (p : Platform D) (s : State D) (hdl : Hdl) (request : JSON D) :
    (handleAddAggregator p s hdl request).1.m_endpoints = s.m_endpoints := by
  dsimp only [handleAddAggregator]
  split
  · rfl
  · exact connect_on_endpoints p s _ _

theorem wake_adding_endpoints (p : Platform D) (s : State D) (call : Adding) :
    (wakeAdding p s call).1.m_endpoints = (trackId s call).m_endpoints := by
  dsimp only [wakeAdding]
  split
  · rfl
  · split
    · exact connect_on_endpoints p _ _ _
    · exact (connect_on_endpoints p _ _ _).trans (connect_on_endpoints p _ _ _)

theorem tracked_same (s t : State D) (same : t.m_endpoints = s.m_endpoints) : t.tracked = s.tracked := by
  dsimp only [State.tracked]
  rw [same]

theorem tracked_track_id (s : State D) (call : Adding) (conn : Conn) :
    conn ∈ (trackId s call).tracked ↔ conn ∈ s.tracked ∨ conn = ⟨call.endpoint, call.clientId⟩ := by
  obtain ⟨e, id⟩ := conn
  rw [State.mem_tracked, State.mem_tracked]
  simp only [trackId, Conn.mk.injEq]
  by_cases same : e = call.endpoint
  · subst same
    have key : compare call.clientId id = .eq ↔ id = call.clientId := by
      rw [Std.LawfulEqCmp.compare_eq_iff_eq, eq_comm]
    cases found : s.m_endpoints[call.endpoint]? with
    | none => simp [Std.TreeSet.mem_insert, key]
    | some ids => simp [Std.TreeSet.mem_insert, key, or_comm]
  · simp [Std.TreeMap.getElem?_insert, same, Ne.symm same]

end TradingFeed.Broadcaster
