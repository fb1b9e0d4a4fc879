import TradingFeed.Broadcaster.FanOut
import TradingFeed.Broadcaster.Progress

set_option autoImplicit false

namespace TradingFeed.Broadcaster

open TradingFeed.Json TradingFeed.Sockets

variable {D : Type}

def Matched (handler : ClientHandler Subscription) : Prop :=
  match handler.m_status with
  | .connecting => handler.session = .connecting
  | .opened => handler.session ≠ .connecting
  | .failed => handler.session = .closed
  | .closed => handler.session = .closed

-- The destructor of the EndPoint has closed what it closes and joins the thread.
def State.Joins (s : State D) (e : Nat) : Prop := ∃ rest, s.thread = .joining (e :: rest)

-- In every state of every run behind the reply, once the destructor of an
-- EndPoint has got to its join: close has been initiated on what was Open, and
-- what was Connecting is not Open, so that no later close is needed.
def LeavesNoneOpen (p : Platform D) (s t : State D) : Prop :=
  ∀ actions u log e id handler later, (broadcaster p).run t actions = some (u, log) → e ∈ s.m_endpoints → u.Joins e →
    s.handler ⟨e, id⟩ = some handler → u.handler ⟨e, id⟩ = some later →
    (handler.m_status = .opened → later.session = .closing ∨ later.session = .closed) ∧
      (handler.m_status = .connecting → ¬(later.m_status = .opened ∧ later.session = .opened))

def Ending (handler : ClientHandler Subscription) : Prop := handler.session = .closing ∨ handler.session = .closed

theorem matched_rule : HandlerRule Matched where
  new := fun id => rfl
  shut := by
    intro handler held opened
    dsimp only [Matched, ClientHandler.shut] at held ⊢
    cases status : handler.m_status <;> simp_all
  opened := fun handler _ _ => by simp [Matched, ClientHandler.publishOpen]
  silenced := fun handler held _ => held
  failed := fun handler _ _ => rfl
  lost := by
    intro handler _ receives
    have opened := handler.receives_opened receives
    simp [Matched, ClientHandler.lose, opened]
  closed := fun handler _ _ session => session
  installed := fun handler sub held => held

theorem matched_coherent (handler : ClientHandler Subscription) (held : Matched handler) : CoherentHandler handler := by
  dsimp only [Matched] at held
  constructor
  · intro status
    rw [status] at held
    exact held
  · intro status
    rw [status] at held
    exact held

theorem reachable_matched (p : Platform D) (s : State D) (reach : (broadcaster p).Reachable .init s) : s.Every Matched :=
  reachable_every Matched matched_rule p s reach

theorem absent_step (p : Platform D) (s t : State D) (action : Action) (out : List (Output D)) (e : Nat)
    (taken : Transition p s action t out) (below : e < s.endPoints.allocated) (absent : s.endPoints.get e = none) :
    e < t.endPoints.allocated ∧ t.endPoints.get e = none := by
  have grown (u : State D) (grows : Grows s u) : e < u.endPoints.allocated ∧ u.endPoints.get e = none :=
    ⟨Nat.lt_of_lt_of_le below grows.allocated, grows.absent e below absent⟩
  have updated (place : Conn) (change : ClientHandler Subscription → ClientHandler Subscription) :
      e < (s.updateHandler place change).endPoints.allocated ∧ (s.updateHandler place change).endPoints.get e = none := by
    have present := (get_updated s (s.updateHandler place change) place.endpoint _ rfl e).1
    rw [absent] at present
    exact ⟨below, Option.isNone_iff_eq_none.mp (by simpa using present)⟩
  cases taken with
  | handled hdl payload request => exact grown _ (grows_handled p s hdl payload request)
  | added call => exact grown _ (grows_wake_adding p s call)
  | deleted head rest => exact grown _ (closes_grows _ _ (destroy_closes s rest))
  | joined head rest =>
      have grows := closes_grows _ _ (destroy_closes { s with endPoints := s.endPoints.delete head } rest)
      refine ⟨Nat.lt_of_lt_of_le below grows.allocated, grows.absent e below ?_⟩
      dsimp only
      rw [EndPoints.get_delete]
      split
      · rfl
      · exact absent
  | installed i sub place => exact updated place _
  | opened place => exact updated place _
  | silenced place => exact updated place _
  | failed place => exact updated place _
  | lost place => exact updated place _
  | closed place => exact updated place _
  | delivered place data handler sub status => exact grown _ (grows_same s _ (deliver_registry sub status s).endPoints)
  | _ => exact ⟨below, absent⟩

def Proceeds (handler later : ClientHandler Subscription) : Prop :=
  later.session = handler.session ∨ later.session = .closed ∨ handler.session = .connecting

theorem joining_step (p : Platform D) (s t : State D) (action : Action) (out : List (Output D)) (head : Nat)
    (rest : List Nat) (thread : s.thread = .joining (head :: rest)) (taken : Transition p s action t out) :
    (∃ u, t = destroy u rest ∧ u.endPoints.get head = none ∧ u.endPoints.allocated = s.endPoints.allocated ∧
        ∀ conn, u.handler conn = if conn.endpoint = head then none else s.handler conn) ∨
      (t.thread = s.thread ∧ t.endPoints.allocated = s.endPoints.allocated ∧
        ∀ conn later, t.handler conn = some later → ∃ handler, s.handler conn = some handler ∧ Proceeds handler later) := by
  have same (u : State D) (objects : u.endPoints = s.endPoints) (conn : Conn) (later : ClientHandler Subscription)
      (found : u.handler conn = some later) : ∃ handler, s.handler conn = some handler ∧ Proceeds handler later := by
    rw [handler_same s u objects] at found
    exact ⟨later, found, Or.inl rfl⟩
  have updated (place : Conn) (given : ClientHandler Subscription)
      (change : ClientHandler Subscription → ClientHandler Subscription) (here : s.handler place = some given)
      (proceeds : Proceeds given (change given)) (conn : Conn) (later : ClientHandler Subscription)
      (found : (s.updateHandler place change).handler conn = some later) :
      ∃ handler, s.handler conn = some handler ∧ Proceeds handler later := by
    rw [State.handler_update] at found
    split at found
    · rename_i there
      rw [here] at found
      cases found
      exact ⟨given, there ▸ here, proceeds⟩
    · exact ⟨later, found, Or.inl rfl⟩
  cases taken with
  | deleted e others here absent =>
      rw [thread] at here
      cases here
      refine Or.inl ⟨s, rfl, absent, rfl, fun conn => ?_⟩
      split
      · rename_i gone
        dsimp only [State.handler]
        rw [gone, absent]
        rfl
      · rfl
  | joined e others endpoint here found =>
      rw [thread] at here
      cases here
      exact Or.inl ⟨_, rfl, by simp [EndPoints.get_delete], rfl, handler_deleted s head⟩
  | started i sub found => exact Or.inr ⟨rfl, rfl, same _ rfl⟩
  | installed i sub place todo found known =>
      obtain ⟨handler, here⟩ := Option.isSome_iff_exists.mp known
      exact Or.inr ⟨rfl, rfl, updated place handler _ here (Or.inl rfl)⟩
  | opened place handler found session => exact Or.inr ⟨rfl, rfl, updated place handler _ found (Or.inr (Or.inr session))⟩
  | silenced place handler found => exact Or.inr ⟨rfl, rfl, updated place handler _ found (Or.inl rfl)⟩
  | failed place handler found session => exact Or.inr ⟨rfl, rfl, updated place handler _ found (Or.inr (Or.inl rfl))⟩
  | lost place handler found => exact Or.inr ⟨rfl, rfl, updated place handler _ found (Or.inr (Or.inl rfl))⟩
  | closed place handler found => exact Or.inr ⟨rfl, rfl, updated place handler _ found (Or.inl rfl)⟩
  | delivered place data handler sub status =>
      have registry := deliver_registry sub status s
      exact Or.inr ⟨registry.thread, by rw [registry.endPoints], same _ registry.endPoints⟩
  | dangling => exact Or.inr ⟨rfl, rfl, same _ rfl⟩
  | unknown => exact Or.inr ⟨rfl, rfl, same _ rfl⟩
  | ignored => exact Or.inr ⟨rfl, rfl, same _ rfl⟩
  | escaped => exact Or.inr ⟨rfl, rfl, same _ rfl⟩
  | _ => simp_all

theorem destroy_ending (s : State D) (e : Nat) (rest : List Nat) (id : Int) (later : ClientHandler Subscription)
    (matched : s.Every Matched)
    (settled : ∀ handler, s.handler ⟨e, id⟩ = some handler → handler.session ≠ .connecting)
    (found : (destroy s (e :: rest)).handler ⟨e, id⟩ = some later) : Ending later := by
  dsimp only [State.handler, destroy] at found
  rw [EndPoints.get_update, if_pos rfl] at found
  cases object : s.endPoints.get e with
  | none =>
      rw [object] at found
      cases found
  | some endpoint =>
      rw [object] at found
      obtain ⟨handler, before, closed⟩ := Option.map_eq_some_iff.mp ((get_close_open endpoint id).symm.trans found)
      have here : s.handler ⟨e, id⟩ = some handler := by simpa [State.handler, object] using before
      have status := matched ⟨e, id⟩ handler here
      have session := settled handler here
      split at closed
      · rw [← closed]
        exact Or.inl rfl
      · rename_i unopened
        rw [← closed]
        cases live : handler.session with
        | connecting => exact absurd live session
        | closing => exact Or.inl live
        | closed => exact Or.inr live
        | opened =>
            -- Only a handler with the status Open has an open session.
            dsimp only [Matched] at status
            cases word : handler.m_status <;> simp_all

inductive Fate (e : Nat) (s : State D) : Prop where
  | deleted (gone : s.endPoints.get e = none)
  | closing (rest : List Nat) (thread : s.thread = .joining (e :: rest))
      (ending : ∀ id handler, s.handler ⟨e, id⟩ = some handler → Ending handler)
  | queued (head : Nat) (rest : List Nat) (thread : s.thread = .joining (head :: rest)) (waits : e ∈ rest)
      (apart : e ≠ head) (settled : ∀ id handler, s.handler ⟨e, id⟩ = some handler → handler.session ≠ .connecting)

structure Doomed (e : Nat) (s : State D) : Prop where
  below : e < s.endPoints.allocated
  matched : s.Every Matched
  fate : Fate e s

theorem destroy_fate (s : State D) (e : Nat) (endpoints : List Nat) (matched : s.Every Matched) (waits : e ∈ endpoints)
    (settled : ∀ id handler, s.handler ⟨e, id⟩ = some handler → handler.session ≠ .connecting) :
    Fate e (destroy s endpoints) := by
  cases endpoints with
  | nil => cases waits
  | cons head rest =>
      by_cases first : e = head
      · subst first
        exact .closing rest rfl fun id later found => destroy_ending s e rest id later matched (settled id) found
      · refine .queued head rest rfl ((List.mem_cons.mp waits).resolve_left first) first fun id later found => ?_
        have shuts := (destroy_closes s (head :: rest)).handlers ⟨e, id⟩
        rw [found] at shuts
        rcases shuts with same | ⟨handler, before, opened, same⟩
        · exact settled id later same.symm
        · cases same
          simp [ClientHandler.shut]

theorem doomed_step (p : Platform D) (s t : State D) (action : Action) (out : List (Output D)) (e : Nat)
    (doomed : Doomed e s) (taken : step p s action = some (t, out)) : Doomed e t := by
  have transition := (step_transition p s t action out taken).2
  have matched := every_step Matched matched_rule p s t action out doomed.matched taken
  cases doomed.fate with
  | deleted gone =>
      obtain ⟨below, absent⟩ := absent_step p s t action out e transition doomed.below gone
      exact ⟨below, matched, .deleted absent⟩
  | closing rest thread ending =>
      rcases joining_step p s t action out e rest thread transition with
        ⟨u, rfl, gone, same, _⟩ | ⟨same, allocated, sessions⟩
      · have closes := destroy_closes u rest
        have absent := closes.present e
        rw [gone] at absent
        refine ⟨by rw [closes.allocated, same]; exact doomed.below, matched, .deleted ?_⟩
        exact Option.isNone_iff_eq_none.mp (by simpa using absent)
      · refine ⟨by rw [allocated]; exact doomed.below, matched, .closing rest (same.trans thread) fun id later found => ?_⟩
        obtain ⟨handler, before, session⟩ := sessions ⟨e, id⟩ later found
        have ended := ending id handler before
        dsimp only [Ending] at ended ⊢
        rcases session with kept | closed | connecting
        · rw [kept]
          exact ended
        · exact Or.inr closed
        · simp [connecting] at ended
  | queued head rest thread waits apart settled =>
      rcases joining_step p s t action out head rest thread transition with
        ⟨u, rfl, gone, same, handlers⟩ | ⟨same, allocated, sessions⟩
      · have kept (conn : Conn) (handler : ClientHandler Subscription) (found : u.handler conn = some handler) :
            s.handler conn = some handler := by
          rw [handlers] at found
          split at found
          · cases found
          · exact found
        refine ⟨by rw [(destroy_closes u rest).allocated, same]; exact doomed.below, matched, ?_⟩
        exact destroy_fate u e rest (fun conn handler found => doomed.matched conn handler (kept conn handler found)) waits
          fun id handler found => settled id handler (kept ⟨e, id⟩ handler found)
      · refine ⟨by rw [allocated]; exact doomed.below, matched,
          .queued head rest (same.trans thread) waits apart fun id later found => ?_⟩
        obtain ⟨handler, before, session⟩ := sessions ⟨e, id⟩ later found
        have idle := settled id handler before
        rcases session with kept | closed | connecting
        · rw [kept]
          exact idle
        · simp [closed]
        · exact absurd connecting idle

theorem join_front (p : Platform D) (front rest : List Nat) (e : Nat) (s : State D) (sound : s.fault = none)
    (thread : s.thread = .joining (front ++ e :: rest)) (apart : e ∉ front)
    (settled : ∀ f ∈ front, ∀ id handler, s.handler ⟨f, id⟩ = some handler → handler.settled = true) :
    ∃ u, (broadcaster p).Leads Silent s u ∧ u.Joins e ∧ u.fault = none ∧
      ∀ id handler, s.handler ⟨e, id⟩ = some handler → handler.session = .connecting →
        u.handler ⟨e, id⟩ = some handler := by
  induction front generalizing s with
  | nil => exact ⟨s, (broadcaster p).leads_refl Silent s, ⟨rest, thread⟩, sound, fun id handler found _ => found⟩
  | cons f front ih =>
      have different : e ≠ f := List.ne_of_not_mem_cons apart
      obtain ⟨u, joined, _, steady, handlers⟩ := join_one p f (front ++ e :: rest) s thread (settled f (by simp))
      obtain ⟨t, destroyed⟩ : ∃ t, destroy u (front ++ e :: rest) = t := ⟨_, rfl⟩
      have closes := destroy_closes u (front ++ e :: rest)
      have next : t.thread = .joining (front ++ e :: rest) := by
        rw [← destroyed]
        cases front <;> rfl
      rw [destroyed] at joined closes
      have healthy : t.fault = none := by
        rw [← destroyed]
        exact (steady_destroy u _).fault.trans (steady.fault.trans sound)
      obtain ⟨v, leads, joins, well, keeps⟩ := ih t healthy next (List.not_mem_of_not_mem_cons apart) (by
        intro g member id handler found
        have shuts := closes.handlers ⟨g, id⟩
        rw [found] at shuts
        obtain ⟨before, held, status, _⟩ := shuts_some _ handler shuts
        rw [handlers] at held
        split at held
        · cases held
        · have ended := settled g (List.mem_cons_of_mem f member) id before held
          dsimp only [ClientHandler.settled] at ended ⊢
          rw [status]
          exact ended)
      have first := silent_leads p s t .wake [] (by simp [Silent]) sound joined
      refine ⟨v, (broadcaster p).leads_trans Silent s t v first leads, joins, well, fun id handler found connecting => ?_⟩
      apply keeps id handler _ connecting
      have shuts := closes.handlers ⟨e, id⟩
      rw [handlers, if_neg different, found] at shuts
      exact shuts_connecting handler _ shuts connecting

theorem matched_settled (handler : ClientHandler Subscription) (matched : Matched handler)
    (status : handler.m_status ≠ .connecting) : handler.session ≠ .connecting := by
  intro session
  dsimp only [Matched] at matched
  cases word : handler.m_status <;> simp_all

theorem clear_replied (s t : State D) (hdl : Hdl) (given : List (Output D)) (nonempty : given ≠ [])
    (replied : handleClearAggregator s hdl = (t, given)) :
    ∃ closed, Closes s closed ∧ closed.fault = s.fault ∧ t = destroy closed s.m_endpoints.keys := by
  dsimp only [handleClearAggregator] at replied
  split at replied
  · cases replied
    exact ⟨{ (closeAll s s.m_endpoints.toList).1 with m_endpoints := ∅ },
      closes_trans s _ _ (close_all_closes s.m_endpoints.toList s) (closes_same _ _ rfl),
      (steady_close_all s.m_endpoints.toList s).fault, rfl⟩
  · cases replied
    exact absurd rfl nonempty

theorem closes_status (s t : State D) (closes : Closes s t) (conn : Conn) (later : ClientHandler Subscription)
    (found : t.handler conn = some later) :
    ∃ handler, s.handler conn = some handler ∧ later.m_status = handler.m_status := by
  have shuts := closes.handlers conn
  rw [found] at shuts
  obtain ⟨handler, before, status, _⟩ := shuts_some _ later shuts
  exact ⟨handler, before, status⟩

theorem cleared_doomed (s closed : State D) (e : Nat) (matched : s.Every Matched) (owned : Owned s e)
    (member : e ∈ s.m_endpoints) (closes : Closes s closed)
    (idle : ∀ id handler, s.handler ⟨e, id⟩ = some handler → handler.m_status ≠ .connecting) :
    Doomed e (destroy closed s.m_endpoints.keys) where
  below := by
    obtain ⟨endpoint, found⟩ := Option.isSome_iff_exists.mp owned
    rw [(destroy_closes closed s.m_endpoints.keys).allocated, closes.allocated]
    exact s.endPoints.get_below e endpoint found
  matched := every_grows Matched matched_rule s _
    (closes_grows s _ (closes_trans s closed _ closes (destroy_closes closed _))) matched
  fate := by
    have still := every_grows Matched matched_rule s closed (closes_grows s closed closes) matched
    refine destroy_fate closed e s.m_endpoints.keys still (Std.TreeMap.mem_keys.mpr member) fun id later found => ?_
    obtain ⟨handler, before, status⟩ := closes_status s closed closes ⟨e, id⟩ later found
    exact matched_settled later (still ⟨e, id⟩ later found) (by rw [status]; exact idle id handler before)

theorem doomed_leaves (p : Platform D) (s t : State D) (doomed : ∀ e ∈ s.m_endpoints, Doomed e t) :
    LeavesNoneOpen p s t := by
  intro actions u log e id handler later ran member ⟨rest, joins⟩ _ found
  have kept := (broadcaster p).run_invariant (fun _ _ => True) (Doomed e)
    (fun s a t out held _ taken => doomed_step p s t a out e held taken) actions t u log (doomed e member)
    ((broadcaster p).along_always _ actions t fun _ _ _ => trivial) ran
  have ending : Ending later := by
    cases kept.fate with
    | deleted gone => simp [State.handler, gone] at found
    | closing others thread ending => exact ending id later found
    | queued head others thread waits apart settled =>
        rw [joins] at thread
        cases thread
        exact absurd rfl apart
  refine ⟨fun _ => ending, fun _ opened => ?_⟩
  rcases ending with closing | closed
  · rw [opened.2] at closing
    cases closing
  · rw [opened.2] at closed
    cases closed

theorem connecting_opens (p : Platform D) (s closed : State D) (place : Conn) (handler : ClientHandler Subscription)
    (sound : s.fault = none) (matched : s.Every Matched) (member : place.endpoint ∈ s.m_endpoints)
    (closes : Closes s closed) (healthy : closed.fault = s.fault) (found : s.handler place = some handler)
    (connecting : handler.session = .connecting) :
    ∃ u, (broadcaster p).Leads Silent (destroy closed s.m_endpoints.keys) u ∧ u.Joins place.endpoint ∧
      u.handler place = some handler.publishOpen := by
  obtain ⟨e, id⟩ := place
  obtain ⟨t, destroyed⟩ : ∃ t, destroy closed s.m_endpoints.keys = t := ⟨_, rfl⟩
  have shut : Closes s t := by
    rw [← destroyed]
    exact closes_trans s closed _ closes (destroy_closes closed _)
  have steady : t.fault = none := by
    rw [← destroyed]
    exact (steady_destroy closed _).fault.trans (healthy.trans sound)
  have here : t.handler ⟨e, id⟩ = some handler := by
    have shuts := shut.handlers ⟨e, id⟩
    rw [found] at shuts
    exact shuts_connecting handler _ shuts connecting
  obtain ⟨front, rest, keys, apart⟩ := List.eq_append_cons_of_mem (Std.TreeMap.mem_keys.mpr member)
  have thread : t.thread = .joining (front ++ e :: rest) := by
    rw [← destroyed, keys]
    cases front <;> rfl
  have coherent : Coherent t := fun conn later there =>
    matched_coherent later (every_grows Matched matched_rule s t (closes_grows s t shut) matched conn later there)
  -- The connections of the other EndPoints come to their end first.
  obtain ⟨w, ends, winds, _, settled, elsewhere⟩ :=
    settle_all p ((everyConn s).filter fun conn => conn.endpoint ≠ e) t steady coherent
  obtain ⟨u, joined, ⟨others, joins⟩, well, keeps⟩ := join_front p front rest e w (winds.steady.fault.trans steady)
    (winds.thread.trans thread) apart (by
      intro f inside number later there
      refine settled ⟨f, number⟩ (List.mem_filter.mpr ⟨?_, ?_⟩) later there
      · have known : t.Known ⟨f, number⟩ := (winds.known _).mp (by dsimp only [State.Known]; rw [there]; rfl)
        obtain ⟨former, after⟩ := Option.isSome_iff_exists.mp known
        obtain ⟨earlier, before, _⟩ := closes_status s t shut ⟨f, number⟩ former after
        refine mem_every_conn s f number (Std.TreeMap.mem_keys.mp ?_) (by dsimp only [State.Known]; rw [before]; rfl)
        rw [keys]
        exact List.mem_append_left _ inside
      · exact decide_eq_true fun same => apart (same ▸ inside))
  have waits : u.handler ⟨e, id⟩ = some handler :=
    keeps id handler ((elsewhere ⟨e, id⟩ (by simp)).trans here) connecting
  have opens := silent_leads p u _ _ [] (by simp [Silent]) well
    (Transition.opened (p := p) ⟨e, id⟩ handler waits connecting)
  rw [destroyed]
  exact ⟨u.updateHandler ⟨e, id⟩ .publishOpen,
    (broadcaster p).leads_trans Silent t u _ ((broadcaster p).leads_trans Silent t w u ends joined) opens,
    ⟨others, joins⟩, updated_handler u ⟨e, id⟩ handler .publishOpen waits⟩

theorem clear_leaves_none_open_iff (p : Platform D) (s t : State D) (hdl : Hdl) (sound : s.fault = none)
    (matched : s.Every Matched) (owned : ∀ e ∈ s.m_endpoints, Owned s e)
    (replied : handleClearAggregator s hdl = (t, [handleError hdl "processed".toList []])) :
    LeavesNoneOpen p s t ↔
      ∀ e ∈ s.m_endpoints, ∀ id handler, s.handler ⟨e, id⟩ = some handler → handler.m_status ≠ .connecting := by
  obtain ⟨closed, closes, healthy, rfl⟩ := clear_replied s t hdl _ (by simp) replied
  constructor
  · intro leaves e member id handler found status
    have connecting := (matched_coherent handler (matched ⟨e, id⟩ handler found)).1 status
    obtain ⟨u, ⟨actions, log, ran, _⟩, joins, opened⟩ :=
      connecting_opens p s closed ⟨e, id⟩ handler sound matched member closes healthy found connecting
    exact (leaves actions u log e id handler handler.publishOpen ran member joins found opened).2 status ⟨rfl, rfl⟩
  · intro idle
    exact doomed_leaves p s _ fun e member => cleared_doomed s closed e matched (owned e member) member closes (idle e member)

def joinsFirst (s : State D) (e : Nat) : Bool :=
  match s.thread with
  | .joining (f :: _) => f == e
  | _ => false

theorem joins_checked (s : State D) (e : Nat) (checked : joinsFirst s e = true) : s.Joins e := by
  dsimp only [joinsFirst] at checked
  split at checked
  · rename_i f rest thread
    rw [eq_of_beq checked] at thread
    exact ⟨rest, thread⟩
  · cases checked

theorem reply_checked (s : State D) (hdl : Hdl) (reports : (closeAll s s.m_endpoints.toList).2 = true) :
    handleClearAggregator s hdl = ((handleClearAggregator s hdl).1, [handleError hdl "processed".toList []]) := by
  simp only [handleClearAggregator, reports, if_true]

theorem clear_leaves_none_open_iff_opened :
    ∃ s log, (broadcaster .plain).run .init openedRun = some (s, log) ∧
      LeavesNoneOpen .plain s (handleClearAggregator s 0).1 := by
  obtain ⟨s, log, ran, checked⟩ := (broadcaster .plain).run_check .init openedRun
    (fun done => done.1.fault = none ∧ (closeAll done.1 done.1.m_endpoints.toList).2 = true ∧
      (everyConn done.1).all (fun conn => (done.1.handler conn).all fun handler => handler.m_status ≠ .connecting) = true)
    (by decide +kernel)
  obtain ⟨sound, reports, idle⟩ := of_decide_eq_true checked
  have reach : (broadcaster .plain).Reachable .init s := ⟨openedRun, log, ran⟩
  refine ⟨s, log, ran, (clear_leaves_none_open_iff .plain s _ 0 sound (reachable_matched .plain s reach)
    (reachable_registered .plain s reach).owned (reply_checked s 0 reports)).mpr fun e member id handler found => ?_⟩
  have known : s.Known ⟨e, id⟩ := by
    dsimp only [State.Known]
    rw [found]
    rfl
  have status := List.all_eq_true.mp idle ⟨e, id⟩ (mem_every_conn s e id member known)
  rw [found] at status
  exact of_decide_eq_true status

-- The loop of handle_add_aggregator connects a second and a third time.
def connectingRun : List Action := openedRun ++ [.message 0 addRequest, .wake]

theorem connecting_outlives_clear :
    ∃ s log, (broadcaster .plain).run .init connectingRun = some (s, log) ∧ s.thread = .idle ∧
      handleClearAggregator s 0 = ((handleClearAggregator s 0).1, [handleError 0 "processed".toList []]) ∧
      ¬LeavesNoneOpen .plain s (handleClearAggregator s 0).1 := by
  obtain ⟨s, log, ran, checked⟩ := (broadcaster .plain).run_check .init connectingRun
    (fun done => done.1.thread.isIdle = true ∧
      (closeAll done.1 done.1.m_endpoints.toList).2 = true ∧ 0 ∈ done.1.m_endpoints ∧
      (done.1.handler ⟨0, 1⟩).any (fun handler => handler.m_status = .connecting) = true ∧
      ((broadcaster .plain).run (handleClearAggregator done.1 0).1 [.opened ⟨0, 1⟩]).any (fun last =>
        joinsFirst last.1 0 && (last.1.handler ⟨0, 1⟩).any fun handler =>
          handler.m_status = .opened && handler.session = .opened) = true) (by decide +kernel)
  obtain ⟨thread, reports, member, connecting, opens⟩ := of_decide_eq_true checked
  refine ⟨s, log, ran, idle_checked _ thread, reply_checked s 0 reports, fun leaves => ?_⟩
  obtain ⟨handler, found, status⟩ := (Option.any_eq_true _ _).mp connecting
  obtain ⟨u, last, after, now⟩ := (broadcaster .plain).run_check _ _ _ opens
  obtain ⟨joins, live⟩ := Bool.and_eq_true_iff.mp now
  obtain ⟨later, there, opened⟩ := (Option.any_eq_true _ _).mp live
  simp only [Bool.and_eq_true, decide_eq_true_eq] at opened
  exact (leaves [.opened ⟨0, 1⟩] u last 0 1 handler later after member (joins_checked u 0 joins) found there).2
    (of_decide_eq_true status) opened

end TradingFeed.Broadcaster
