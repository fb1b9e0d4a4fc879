import TradingFeed.Broadcaster.Registered
import TradingFeed.Broadcaster.Visits

set_option autoImplicit false

namespace TradingFeed.Broadcaster

open TradingFeed.Json TradingFeed.Sockets

variable {D : Type}

def Silent (action : Action) : Prop := ∀ hdl payload, action ≠ .message hdl payload

-- websocketpp reports on_open and on_fail only of a connection that is connecting.
def CoherentHandler (handler : ClientHandler Subscription) : Prop :=
  (handler.m_status = .connecting → handler.session = .connecting) ∧
    (handler.m_status = .opened → handler.session ≠ .connecting)

def Coherent (s : State D) : Prop := ∀ conn handler, s.handler conn = some handler → CoherentHandler handler

theorem coherent_rule : HandlerRule CoherentHandler where
  new := fun id => ⟨fun _ => rfl, fun opened => by cases opened⟩
  shut := fun handler held opened =>
    ⟨fun connecting => (by rw [held.1 connecting] at opened; cases opened), fun _ => by simp [ClientHandler.shut]⟩
  opened := fun handler _ _ => ⟨fun status => (by cases status), fun _ session => (by cases session)⟩
  silenced := fun handler held _ => held
  failed := fun handler _ _ => ⟨fun status => (by cases status), fun status => (by cases status)⟩
  lost := by
    intro handler _ receives
    have opened := handler.receives_opened receives
    refine ⟨fun connecting => ?_, fun _ => by simp [ClientHandler.lose]⟩
    have connecting' : handler.m_status = .connecting := connecting
    rw [opened] at connecting'
    cases connecting'
  closed := fun handler _ _ _ => ⟨fun status => (by cases status), fun status => (by cases status)⟩
  installed := fun handler sub held => held

theorem coherent_step (p : Platform D) (s t : State D) (action : Action) (out : List (Output D))
    (coherent : Coherent s) (taken : step p s action = some (t, out)) : Coherent t :=
  every_step CoherentHandler coherent_rule p s t action out coherent taken

theorem reachable_coherent (p : Platform D) (s : State D) (reach : (broadcaster p).Reachable .init s) : Coherent s :=
  reachable_every CoherentHandler coherent_rule p s reach

structure Winds (s t : State D) : Prop where
  steady : Steady s t
  endpoints : t.m_endpoints = s.m_endpoints
  thread : t.thread = s.thread
  known : ∀ conn, t.Known conn ↔ s.Known conn
  owned : ∀ e, Owned t e ↔ Owned s e
  settled : ∀ conn handler, s.handler conn = some handler → handler.settled = true →
    ∃ later, t.handler conn = some later ∧ later.settled = true

theorem winds_refl (s : State D) : Winds s s :=
  ⟨steady_refl s, rfl, rfl, fun _ => Iff.rfl, fun _ => Iff.rfl, fun _ handler found settled => ⟨handler, found, settled⟩⟩

theorem winds_trans (s t u : State D) (first : Winds s t) (second : Winds t u) : Winds s u := by
  refine ⟨steady_trans s t u first.steady second.steady, second.endpoints.trans first.endpoints,
    second.thread.trans first.thread, fun conn => (second.known conn).trans (first.known conn),
    fun e => (second.owned e).trans (first.owned e), fun conn handler found settled => ?_⟩
  obtain ⟨later, after, still⟩ := first.settled conn handler found settled
  exact second.settled conn later after still

theorem winds_update (s : State D) (place : Conn) (handler : ClientHandler Subscription)
    (change : ClientHandler Subscription → ClientHandler Subscription) (found : s.handler place = some handler)
    (unsettled : handler.settled = false) : Winds s (s.updateHandler place change) := by
  refine ⟨steady_update s place change, rfl, rfl, fun conn => ?_, fun e => ?_, fun conn other before settled => ?_⟩
  · dsimp only [State.Known]
    rw [State.handler_update]
    split
    · rename_i here
      rw [here, Option.isSome_map]
    · exact Iff.rfl
  · dsimp only [Owned]
    rw [(get_updated s (s.updateHandler place change) place.endpoint _ rfl e).1]
  · by_cases here : conn = place
    · rw [here, found] at before
      cases before
      rw [unsettled] at settled
      cases settled
    · exact ⟨other, by rw [State.handler_update, if_neg here]; exact before, settled⟩

theorem silent_leads (p : Platform D) (s t : State D) (action : Action) (out : List (Output D)) (silent : Silent action)
    (sound : s.fault = none) (transition : Transition p s action t out) : (broadcaster p).Leads Silent s t :=
  (broadcaster p).leads_step Silent s t action out silent (transition_step p s t action out sound transition)

theorem updated_handler (s : State D) (place : Conn) (handler : ClientHandler Subscription)
    (change : ClientHandler Subscription → ClientHandler Subscription) (found : s.handler place = some handler) :
    (s.updateHandler place change).handler place = some (change handler) := by
  rw [State.handler_update, if_pos rfl, found]
  rfl

structure Settles (p : Platform D) (place : Conn) (s t : State D) : Prop where
  leads : (broadcaster p).Leads Silent s t
  winds : Winds s t
  coherent : Coherent t
  ended : ∃ later, t.handler place = some later ∧ later.settled = true
  elsewhere : ∀ conn, conn ≠ place → t.handler conn = s.handler conn

theorem settles_event (p : Platform D) (s : State D) (action : Action) (place : Conn)
    (handler : ClientHandler Subscription) (change : ClientHandler Subscription → ClientHandler Subscription)
    (sound : s.fault = none) (coherent : Coherent s) (found : s.handler place = some handler)
    (unsettled : handler.settled = false) (settled : (change handler).settled = true) (silent : Silent action)
    (transition : Transition p s action (s.updateHandler place change) []) :
    Settles p place s (s.updateHandler place change) where
  leads := silent_leads p s _ action [] silent sound transition
  winds := winds_update s place handler change found unsettled
  coherent := coherent_step p s _ action [] coherent (transition_step p s _ action [] sound transition)
  ended := ⟨change handler, updated_handler s place handler change found, settled⟩
  elsewhere := fun conn different => by rw [State.handler_update, if_neg different]

theorem settles_closed (p : Platform D) (s : State D) (place : Conn) (handler : ClientHandler Subscription)
    (sound : s.fault = none) (coherent : Coherent s) (found : s.handler place = some handler)
    (status : handler.m_status = .opened) (session : handler.session = .closed) : ∃ t, Settles p place s t := by
  have unsettled : handler.settled = false := by simp [ClientHandler.settled, status]
  exact ⟨_, settles_event p s (.closed place) place handler .onClose sound coherent found unsettled rfl (by simp [Silent])
    (.closed place handler found status session)⟩

theorem settles_behind (p : Platform D) (s t : State D) (action : Action) (place : Conn)
    (handler : ClientHandler Subscription) (change : ClientHandler Subscription → ClientHandler Subscription)
    (sound : s.fault = none) (found : s.handler place = some handler) (unsettled : handler.settled = false)
    (silent : Silent action) (transition : Transition p s action (s.updateHandler place change) [])
    (behind : Settles p place (s.updateHandler place change) t) : Settles p place s t where
  leads := (broadcaster p).leads_trans Silent s _ t (silent_leads p s _ action [] silent sound transition) behind.leads
  winds := winds_trans s _ t (winds_update s place handler change found unsettled) behind.winds
  coherent := behind.coherent
  ended := behind.ended
  elsewhere := fun conn different => (behind.elsewhere conn different).trans (by rw [State.handler_update, if_neg different])

theorem settles_lost (p : Platform D) (s : State D) (place : Conn) (handler : ClientHandler Subscription)
    (sound : s.fault = none) (coherent : Coherent s) (found : s.handler place = some handler)
    (receives : handler.receives = true) : ∃ t, Settles p place s t := by
  have status := handler.receives_opened receives
  have unsettled : handler.settled = false := by simp [ClientHandler.settled, status]
  have lost := Transition.lost (p := p) place handler found receives
  have still := coherent_step p s _ _ [] coherent (transition_step p s _ _ [] sound lost)
  obtain ⟨t, closed⟩ := settles_closed p (s.updateHandler place .lose) place handler.lose sound still
    (updated_handler s place handler .lose found) status rfl
  exact ⟨t, settles_behind p s t _ place handler .lose sound found unsettled (by simp [Silent]) lost closed⟩

theorem settles_opened (p : Platform D) (s : State D) (place : Conn) (handler : ClientHandler Subscription)
    (sound : s.fault = none) (coherent : Coherent s) (found : s.handler place = some handler)
    (status : handler.m_status = .opened) (returned : handler.opening = false) : ∃ t, Settles p place s t := by
  cases session : handler.session with
  | connecting => exact absurd session ((coherent place handler found).2 status)
  | closed => exact settles_closed p s place handler sound coherent found status session
  | opened =>
      exact settles_lost p s place handler sound coherent found (by simp [ClientHandler.receives, status, returned, session])
  | closing =>
      exact settles_lost p s place handler sound coherent found (by simp [ClientHandler.receives, status, returned, session])

theorem settle_one (p : Platform D) (s : State D) (place : Conn) (handler : ClientHandler Subscription)
    (sound : s.fault = none) (coherent : Coherent s) (found : s.handler place = some handler) :
    ∃ t, Settles p place s t := by
  have stays : handler.settled = true → ∃ t, Settles p place s t := fun settled =>
    ⟨s, (broadcaster p).leads_refl Silent s, winds_refl s, coherent, ⟨handler, found, settled⟩, fun _ _ => rfl⟩
  cases status : handler.m_status with
  | connecting =>
      have connecting : handler.session = .connecting := (coherent place handler found).1 status
      have unsettled : handler.settled = false := by simp [ClientHandler.settled, status]
      exact ⟨_, settles_event p s (.failed place) place handler .onFail sound coherent found unsettled rfl
        (by simp [Silent]) (.failed place handler found connecting)⟩
  | failed => exact stays (by simp [ClientHandler.settled, status])
  | closed => exact stays (by simp [ClientHandler.settled, status])
  | opened =>
      cases opening : handler.opening with
      | false => exact settles_opened p s place handler sound coherent found status opening
      | true =>
          have unsettled : handler.settled = false := by simp [ClientHandler.settled, status]
          have silenced := Transition.silenced (p := p) place handler found opening
          have still := coherent_step p s _ _ [] coherent (transition_step p s _ _ [] sound silenced)
          obtain ⟨t, behind⟩ := settles_opened p (s.updateHandler place .ignoreData) place handler.ignoreData sound still
            (updated_handler s place handler .ignoreData found) status rfl
          exact ⟨t, settles_behind p s t _ place handler .ignoreData sound found unsettled (by simp [Silent]) silenced behind⟩

def everyConn (s : State D) : List Conn :=
  s.m_endpoints.keys.flatMap fun e =>
    match s.endPoints.get e with
    | none => []
    | some endpoint => endpoint.m_connection_list.keys.map fun id => ⟨e, id⟩

theorem mem_every_conn (s : State D) (e : Nat) (id : Int) (member : e ∈ s.m_endpoints) (known : s.Known ⟨e, id⟩) :
    ⟨e, id⟩ ∈ everyConn s := by
  refine List.mem_flatMap.mpr ⟨e, Std.TreeMap.mem_keys.mpr member, ?_⟩
  dsimp only [State.Known, State.handler] at known
  cases found : s.endPoints.get e with
  | none => simp [found] at known
  | some endpoint =>
      simp only [found, Option.bind_some] at known
      refine List.mem_map.mpr ⟨id, Std.TreeMap.mem_keys.mpr ?_, rfl⟩
      exact Std.TreeMap.mem_iff_isSome_getElem?.mpr known

theorem settle_all (p : Platform D) (conns : List Conn) (s : State D) (sound : s.fault = none) (coherent : Coherent s) :
    ∃ t, (broadcaster p).Leads Silent s t ∧ Winds s t ∧ Coherent t ∧
      (∀ conn ∈ conns, ∀ handler, t.handler conn = some handler → handler.settled = true) ∧
      ∀ conn, conn ∉ conns → t.handler conn = s.handler conn := by
  induction conns generalizing s with
  | nil => exact ⟨s, (broadcaster p).leads_refl Silent s, winds_refl s, coherent, by simp, fun _ _ => rfl⟩
  | cons place rest ih =>
      cases found : s.handler place with
      | none =>
          obtain ⟨t, leads, winds, last, settled, elsewhere⟩ := ih s sound coherent
          refine ⟨t, leads, winds, last, fun conn member handler here => ?_,
            fun conn apart => elsewhere conn (List.not_mem_of_not_mem_cons apart)⟩
          rcases List.mem_cons.mp member with rfl | other
          · have known := (winds.known conn).mp (by unfold State.Known; rw [here]; rfl)
            dsimp only [State.Known] at known
            rw [found] at known
            cases known
          · exact settled conn other handler here
      | some handler =>
          obtain ⟨u, first⟩ := settle_one p s place handler sound coherent found
          obtain ⟨later, here, ended⟩ := first.ended
          obtain ⟨t, leads, further, last, settled, elsewhere⟩ := ih u (first.winds.steady.fault.trans sound) first.coherent
          refine ⟨t, (broadcaster p).leads_trans Silent s u t first.leads leads, winds_trans s u t first.winds further,
            last, ?_, fun conn apart => (elsewhere conn (List.not_mem_of_not_mem_cons apart)).trans
              (first.elsewhere conn (List.ne_of_not_mem_cons apart))⟩
          intro conn member other there
          rcases List.mem_cons.mp member with rfl | more
          · obtain ⟨final, same, still⟩ := further.settled conn later here ended
            rw [there] at same
            cases same
            exact still
          · exact settled conn more other there

theorem join_one (p : Platform D) (e : Nat) (rest : List Nat) (s : State D) (joining : s.thread = .joining (e :: rest))
    (settled : ∀ id handler, s.handler ⟨e, id⟩ = some handler → handler.settled = true) :
    ∃ u, Transition p s .wake (destroy u rest) [] ∧ u.m_endpoints = s.m_endpoints ∧ Steady s u ∧
      ∀ conn, u.handler conn = if conn.endpoint = e then none else s.handler conn := by
  cases found : s.endPoints.get e with
  | none =>
      refine ⟨s, .deleted e rest joining found, rfl, steady_refl s, fun conn => ?_⟩
      split
      · rename_i here
        dsimp only [State.handler]
        rw [here, found]
        rfl
      · rfl
  | some endpoint =>
      have ended : (endpoint.m_connection_list.toList.all fun entry => entry.2.settled) = true := by
        refine List.all_eq_true.mpr fun entry member => settled entry.1 entry.2 ?_
        dsimp only [State.handler]
        rw [found]
        exact Std.TreeMap.mem_toList_iff_getElem?_eq_some.mp member
      exact ⟨_, .joined e rest endpoint joining found ended, rfl, steady_kept s _ _ _ _, handler_deleted s e⟩

theorem join_all (p : Platform D) (endpoints : List Nat) (s : State D) (sound : s.fault = none)
    (settled : ∀ e ∈ endpoints, ∀ id handler, s.handler ⟨e, id⟩ = some handler → handler.settled = true) :
    ∃ t, (broadcaster p).Leads Silent (destroy s endpoints) t ∧ t.thread = .idle ∧ t.m_endpoints = s.m_endpoints ∧
      Steady s t := by
  induction endpoints generalizing s with
  | nil =>
      exact ⟨destroy s [], (broadcaster p).leads_refl Silent _, rfl, (destroy_frame s []).1, steady_destroy s []⟩
  | cons e rest ih =>
      have still : ∀ other ∈ e :: rest, ∀ id handler, (destroy s (e :: rest)).handler ⟨other, id⟩ = some handler →
          handler.settled = true := by
        intro other member id handler found
        have shuts := (destroy_closes s (e :: rest)).handlers ⟨other, id⟩
        rw [found] at shuts
        obtain ⟨before, held, status, _⟩ := shuts_some _ handler shuts
        have ended := settled other member id before held
        dsimp only [ClientHandler.settled] at ended ⊢
        rw [status]
        exact ended
      obtain ⟨u, joined, endpoints, steady, handlers⟩ := join_one p e rest (destroy s (e :: rest)) rfl (still e (by simp))
      obtain ⟨t, leads, idle, same, further⟩ := ih u (steady.fault.trans sound) (by
        intro other member id handler found
        rw [handlers] at found
        split at found
        · cases found
        · exact still other (List.mem_cons_of_mem e member) id handler found)
      have healthy : (destroy s (e :: rest)).fault = none := sound
      have first := silent_leads p _ _ .wake [] (by simp [Silent]) healthy joined
      exact ⟨t, (broadcaster p).leads_trans Silent _ _ t first leads, idle, same.trans endpoints,
        steady_trans s _ t (steady_destroy s (e :: rest)) (steady_trans _ u t steady further)⟩

-- close reports a success for an id without connection, so clearing ends at once.
theorem close_ids_reports (ids : List Int) (endpoint : EndPoint Subscription) (id : Int) (member : id ∈ ids)
    (missing : endpoint.get_metadata id = none) : (closeIds endpoint ids).2 = true := by
  induction ids generalizing endpoint with
  | nil => cases member
  | cons first rest ih =>
      simp only [closeIds]
      split
      · assumption
      · rename_i refused
        rcases List.mem_cons.mp member with rfl | later
        · exact absurd (by simp [EndPoint.close, missing]) refused
        · have shuts := close_shuts endpoint true first id
          rw [missing] at shuts
          exact ih _ later (shuts_none _ shuts)

theorem close_all_reports (entries : List (Nat × Std.TreeSet Int compare)) (s : State D) (e : Nat)
    (ids : Std.TreeSet Int compare) (id : Int) (entry : (e, ids) ∈ entries) (member : id ∈ ids) (owned : Owned s e)
    (missing : s.handler ⟨e, id⟩ = none) :
    (closeAll s entries).2 = true := by
  induction entries generalizing s with
  | nil => cases entry
  | cons first rest ih =>
      obtain ⟨f, given⟩ := first
      cases found : s.endPoints.get f with
      | none =>
          simp only [closeAll, found]
          rcases List.mem_cons.mp entry with same | later
          · cases same
            dsimp only [Owned] at owned
            rw [found] at owned
            cases owned
          · exact ih s later owned missing
      | some endpoint =>
          simp only [closeAll, found, Bool.or_eq_true]
          rcases List.mem_cons.mp entry with same | later
          · cases same
            have absent : endpoint.get_metadata id = none := by simpa [State.handler, found] using missing
            exact Or.inl (close_ids_reports _ endpoint id (Std.TreeSet.mem_toList.mpr member) absent)
          · have closes : Closes s { s with endPoints := s.endPoints.update f fun _ => (closeIds endpoint given.toList).1 } := by
              refine closes_update s _ f _ (fun other same number => ?_) rfl
              rw [found] at same
              cases same
              exact close_ids_shuts given.toList endpoint number
            have shuts := closes.handlers ⟨e, id⟩
            rw [missing] at shuts
            exact Or.inr (ih _ later ((closes.present e).trans owned) (shuts_none _ shuts))

theorem clear_empties (p : Platform D) (s : State D) (hdl : Hdl) (conn : Conn) (sound : s.fault = none)
    (idle : s.thread = .idle) (alive : s.m_server.alive hdl = true) (tracked : conn ∈ s.tracked)
    (owned : Owned s conn.endpoint) (missing : s.handler conn = none)
    (settled : ∀ e ∈ s.m_endpoints, ∀ id handler, s.handler ⟨e, id⟩ = some handler → handler.settled = true) :
    ∃ t, (broadcaster p).Leads (fun action => Silent action ∨ action = .message hdl clearRequest) s t ∧
      t.thread = .idle ∧ t.m_endpoints = ∅ ∧ Steady s t := by
  obtain ⟨ids, listed, member⟩ := (State.mem_tracked s conn).mp tracked
  have reports : (closeAll s s.m_endpoints.toList).2 = true :=
    close_all_reports _ s conn.endpoint ids conn.id (Std.TreeMap.mem_toList_iff_getElem?_eq_some.mpr listed) member owned
      missing
  have closes := close_all_closes s.m_endpoints.toList s
  have steady : Steady s { (closeAll s s.m_endpoints.toList).1 with m_endpoints := ∅ } :=
    steady_trans s _ _ (steady_close_all s.m_endpoints.toList s) (steady_kept _ _ ∅ _ _)
  obtain ⟨t, leads, rest, empty, further⟩ := join_all p s.m_endpoints.keys
    { (closeAll s s.m_endpoints.toList).1 with m_endpoints := ∅ } (steady.fault.trans sound) (by
      intro e inside id handler found
      have shuts := closes.handlers ⟨e, id⟩
      have same : (closeAll s s.m_endpoints.toList).1.handler ⟨e, id⟩ = some handler := found
      rw [same] at shuts
      obtain ⟨before, held, status, _⟩ := shuts_some _ handler shuts
      have ended := settled e (Std.TreeMap.mem_keys.mp inside) id before held
      dsimp only [ClientHandler.settled] at ended ⊢
      rw [status]
      exact ended)
  have taken : step p s (.message hdl clearRequest) =
      some (destroy { (closeAll s s.m_endpoints.toList).1 with m_endpoints := ∅ } s.m_endpoints.keys,
        [handleError hdl "processed".toList []]) := by
    apply message_step p s _ hdl clearRequest _ _ sound alive idle (asks_clear p).loaded
    rw [asks_clear_aggregators p s hdl clearRequest _ (asks_clear p)]
    simp only [handleClearAggregator, reports, if_true]
  refine ⟨t, (broadcaster p).leads_trans _ s _ t ((broadcaster p).leads_step _ s _ _ _ (Or.inr rfl) taken)
    ((broadcaster p).leads_weaken Silent _ _ t (fun _ => Or.inl) leads), rest, empty, steady_trans s _ t steady further⟩

def Fresh (s : State D) (conn : Conn) : Prop := s.handler conn = some (.new conn.id)

theorem fresh_grows (s t : State D) (grows : Grows s t) (conn : Conn) (fresh : Fresh s conn) : Fresh t conn := by
  dsimp only [Fresh] at fresh ⊢
  rcases grows.handlers conn with same | ⟨_, created⟩
  · rw [fresh] at same
    rcases same with same | ⟨handler, found, opened, _⟩
    · exact same
    · cases found
      cases opened
  · exact created

theorem wake_adding_thread (p : Platform D) (s : State D) (call : Adding) :
    (wakeAdding p s call).1.thread = .idle ∨
      ∃ next e, call.rest = e :: next.rest ∧ (wakeAdding p s call).1.thread = .adding next := by
  dsimp only [wakeAdding]
  split
  · exact Or.inl rfl
  · split
    · exact Or.inl rfl
    · rename_i e rest calls
      exact Or.inr ⟨_, e, calls, rfl⟩

structure Added (p : Platform D) (conn : Conn) (s t : State D) : Prop where
  leads : (broadcaster p).Leads Silent s t
  steady : Steady s t
  registered : Registered (fun _ => True) t
  safe : ThreadSafe p (fun _ => True) t
  tracked : conn ∈ t.tracked
  fresh : Fresh t conn

theorem added_trans (p : Platform D) (conn : Conn) (s t u : State D) (first : Added p conn s t)
    (second : Added p conn t u) : Added p conn s u :=
  ⟨(broadcaster p).leads_trans Silent s t u first.leads second.leads, steady_trans s t u first.steady second.steady,
    second.registered, second.safe, second.tracked, second.fresh⟩

theorem wake_added (p : Platform D) (s : State D) (call : Adding) (conn : Conn) (sound : s.fault = none)
    (adding : s.thread = .adding call) (registered : Registered (fun _ => True) s)
    (safe : ThreadSafe p (fun _ => True) s) (fresh : Fresh s conn)
    (place : conn ∈ s.tracked ∨ conn = ⟨call.endpoint, call.clientId⟩) : Added p conn s (wakeAdding p s call).1 := by
  obtain ⟨again, still⟩ := wake_adding_registered p _ s call registered adding safe
  refine ⟨silent_leads p s _ .wake _ (by simp [Silent]) sound (.added call adding), steady_wake_adding p s call, again,
    still, ?_, fresh_grows s _ (grows_wake_adding p s call) conn fresh⟩
  rw [tracked_same (trackId s call) _ (wake_adding_endpoints p s call)]
  exact (tracked_track_id s call conn).mpr place

theorem finish_adding (p : Platform D) (rest : List Nat) (s : State D) (call : Adding) (conn : Conn)
    (sound : s.fault = none) (adding : s.thread = .adding call) (remaining : call.rest = rest)
    (registered : Registered (fun _ => True) s) (safe : ThreadSafe p (fun _ => True) s) (fresh : Fresh s conn)
    (place : conn ∈ s.tracked ∨ conn = ⟨call.endpoint, call.clientId⟩) :
    ∃ t, Added p conn s t ∧ t.thread = .idle := by
  induction rest generalizing s call with
  | nil =>
      have added := wake_added p s call conn sound adding registered safe fresh place
      rcases wake_adding_thread p s call with idle | ⟨_, _, more, _⟩
      · exact ⟨_, added, idle⟩
      · rw [remaining] at more
        cases more
  | cons e rest ih =>
      have added := wake_added p s call conn sound adding registered safe fresh place
      rcases wake_adding_thread p s call with idle | ⟨next, _, more, waiting⟩
      · exact ⟨_, added, idle⟩
      · rw [remaining] at more
        obtain ⟨t, further, idle⟩ := ih _ next (added.steady.fault.trans sound) waiting (List.cons.inj more).2.symm
          added.registered added.safe added.fresh (Or.inl added.tracked)
        exact ⟨t, added_trans p conn s _ t added further, idle⟩

theorem connect_on_fresh (p : Platform D) (s : State D) (e : Nat) (host : Text) (owned : Owned s e)
    (accepted : p.acceptsUri host = true) : Fresh (connectOn p s e host).1 ⟨e, (connectOn p s e host).2⟩ := by
  obtain ⟨endpoint, found⟩ := Option.isSome_iff_exists.mp owned
  have id : (connectOn p s e host).2 = (endpoint.connect true).2 := by simp [connectOn, found, accepted]
  dsimp only [Fresh]
  rw [handler_connect_on p s e host endpoint found, if_pos rfl, id, accepted, EndPoint.get_connected]

theorem add_fresh (p : Platform D) (s : State D) (hdl : Hdl) (request : JSON D)
    (registered : Registered (fun _ => True) s)
    (accepted : p.acceptsUri (request.index "host".toList).asText = true) :
    ∃ call, (handleAddAggregator p s hdl request).1.thread = .adding call ∧
      Fresh (handleAddAggregator p s hdl request).1 ⟨call.endpoint, call.clientId⟩ := by
  dsimp only [handleAddAggregator]
  split
  · refine ⟨_, rfl, ?_⟩
    dsimp only [Fresh, State.handler]
    simp only [EndPoints.get_allocate, if_pos, Option.bind_some, accepted, EndPoint.get_connected]
  · rename_i e rest keys
    have owned : Owned s e := registered.owned e (by rw [← Std.TreeMap.mem_keys, keys]; simp)
    exact ⟨_, rfl, connect_on_fresh p s e _ owned accepted⟩

theorem visit_all (p : Platform D) (i : Nat) (sub : Subscription) (todo : List Conn) (s : State D)
    (sound : s.fault = none) (task : s.m_sendFutures[i]? = some ⟨sub, .walking todo⟩)
    (known : ∀ conn ∈ todo, s.Known conn) :
    ∃ t, (broadcaster p).Leads Silent s t ∧ t.m_sendFutures[i]? = some ⟨sub, .walking []⟩ ∧
      t.m_server = s.m_server ∧ t.m_broadcastArray = s.m_broadcastArray ∧ t.fault = none ∧
      ∀ conn, s.Receives conn → s.InForce conn sub ∨ conn ∈ todo → t.InForce conn sub := by
  induction todo generalizing s with
  | nil =>
      refine ⟨s, (broadcaster p).leads_refl Silent s, task, rfl, rfl, sound, fun conn _ either => ?_⟩
      exact either.resolve_right (by simp)
  | cons place todo ih =>
      obtain ⟨u, result⟩ : ∃ u : State D, { s.updateHandler place (.onDataReceived sub) with
          m_sendFutures := s.m_sendFutures.set i ⟨sub, .walking todo⟩ } = u := ⟨_, rfl⟩
      have first : (broadcaster p).Leads Silent s u := by
        rw [← result]
        exact silent_leads p s _ (.visit i) [] (by simp [Silent]) sound
          (.installed i sub place todo task (known place (by simp)))
      have objects : u.endPoints = (s.updateHandler place (.onDataReceived sub)).endPoints := by rw [← result]
      obtain ⟨t, leads, finished, server, batch, healthy, forces⟩ := ih u (by rw [← result]; exact sound)
        (by rw [← result]; exact List.getElem?_set_self (List.getElem?_eq_some_iff.mp task).1)
        (fun conn member => grows_known _ u (grows_same _ u objects) conn
          (known_update s place conn _ (known conn (List.mem_cons_of_mem place member))))
      refine ⟨t, (broadcaster p).leads_trans Silent s u t first leads, finished, server.trans (by rw [← result]; rfl),
        batch.trans (by rw [← result]; rfl), healthy, fun conn receives either => ?_⟩
      have open_ : u.Receives conn := install_receives s u place conn sub objects receives
      by_cases here : conn = place
      · subst here
        have force := installed_in_force s conn sub receives
        exact forces conn open_ (Or.inl ((in_force_same _ u conn sub objects).mpr force))
      · apply forces conn open_
        rcases either with force | member
        · have kept := installed_elsewhere s place conn sub here
          have after := (in_force_shuts s (s.updateHandler place (.onDataReceived sub)) conn sub (Or.inl kept)).mpr force
          exact Or.inl ((in_force_same _ u conn sub objects).mpr after)
        · exact Or.inr ((List.mem_cons.mp member).resolve_left here)

end TradingFeed.Broadcaster
