import TradingFeed.Aggregator.Connections

set_option autoImplicit false

namespace TradingFeed.Aggregator

open TradingFeed.Json TradingFeed.Sockets

variable {D : Type}

-- The calls of EndPoint::close that the latest handler has made, in their order,
-- with what they have reported.
def noteClose (s : State) (action : Action) (calls : List (Int × Bool)) : List (Int × Bool) :=
  match action with
  | .message _ _ => []
  | .disconnected _ => []
  | .wake =>
      match s.thread with
      | .clearing _ _ (id :: _) => calls ++ [(id, (s.m_endpoint.close false id).2)]
      | _ => calls
  | _ => calls

def State.Closing (s : State) : Prop := ∃ hdl gone todo, s.thread = .clearing hdl gone todo

-- `calls` are those made up to the end of the step. Once the closing loop is
-- over, close has been called on every id that the list held.
structure ForgetsClosed (s t : State) (calls : List (Int × Bool)) : Prop where
  removed : ∀ id ∈ s.m_client_ids, id ∉ t.m_client_ids → (id, true) ∈ calls
  reached : s.Closing → ¬t.Closing → ∀ id ∈ s.m_client_ids, id ∈ calls.map Prod.fst

def ClosesSucceed (s : State) (action : Action) : Prop :=
  ∀ hdl gone id todo, action = .wake → s.thread = .clearing hdl gone (id :: todo) →
    (s.m_endpoint.close false id).2 = true

def ClosedSoFar (s : State) (calls : List (Int × Bool)) : Prop :=
  ∀ hdl gone todo, s.thread = .clearing hdl gone todo →
    s.m_client_ids = calls.map Prod.fst ++ todo ∧ ∀ call ∈ calls, call.2 = true

theorem not_closing (s : State) (calls : List (Int × Bool)) (other : ∀ hdl gone todo, s.thread ≠ .clearing hdl gone todo) :
    ClosedSoFar s calls := fun hdl gone todo thread => absurd thread (other hdl gone todo)

theorem unclosed_fails (s : State) (id : Int)
    (unclosed : ∀ handler, s.handler id = some handler → handler.session ≠ .opened) :
    (s.m_endpoint.close false id).2 = false := by
  dsimp only [EndPoint.close]
  cases found : s.m_endpoint.get_metadata id with
  | none => rfl
  | some handler =>
      dsimp only
      rw [if_neg (unclosed handler found)]

theorem opened_closes (s : State) (id : Int) (handler : ClientHandler Hdl) (found : s.handler id = some handler)
    (session : handler.session = .opened) : (s.m_endpoint.close false id).2 = true := by
  have known : s.m_endpoint.get_metadata id = some handler := found
  dsimp only [EndPoint.close]
  rw [known]
  dsimp only
  rw [if_pos session]

theorem note_close (s : State) (hdl : Hdl) (gone : Bool) (id : Int) (todo : List Int) (calls : List (Int × Bool))
    (thread : s.thread = .clearing hdl gone (id :: todo)) :
    noteClose s .wake calls = calls ++ [(id, (s.m_endpoint.close false id).2)] := by
  dsimp only [noteClose]
  rw [thread]

theorem closed_so_far_step (p : Platform D) (s t : State) (action : Action) (out : List (Output D))
    (calls : List (Int × Bool)) (held : ClosedSoFar s calls) (succeeds : ClosesSucceed s action)
    (taken : Transition p s action t out) : ClosedSoFar t (noteClose s action calls) := by
  cases taken with
  | disconnected hdl idle =>
      intro _ _ _ thread
      cases thread
      exact ⟨rfl, fun _ member => absurd member List.not_mem_nil⟩
  | clearProviders hdl payload request idle =>
      intro _ _ _ thread
      cases thread
      exact ⟨rfl, fun _ member => absurd member List.not_mem_nil⟩
  | closedOne hdl gone id todo thread =>
      intro _ _ _ later
      cases later
      obtain ⟨ids, succeeded⟩ := held hdl gone (id :: todo) thread
      have reports := succeeds hdl gone id todo rfl thread
      rw [note_close s hdl gone id todo calls thread]
      refine ⟨?_, fun call member => ?_⟩
      · rw [List.map_append, List.append_assoc]
        exact ids
      · cases List.mem_append.mp member with
        | inl earlier => exact succeeded call earlier
        | inr last =>
            rw [List.mem_singleton.mp last]
            exact reports
  | stuck hdl gone id todo thread unclosed =>
      have reports := succeeds hdl gone id todo rfl thread
      exact absurd ((unclosed_fails s id unclosed).symm.trans reports) Bool.false_ne_true
  | addProvider => exact not_closing _ _ fun _ _ _ => Thread.noConfusion
  | ready => exact not_closing _ _ fun _ _ _ => Thread.noConfusion
  | replied => exact not_closing _ _ fun _ _ _ => Thread.noConfusion
  | launched => exact not_closing _ _ fun _ _ _ => Thread.noConfusion
  | cleared => exact not_closing _ _ fun _ _ _ => Thread.noConfusion
  | connected idle => exact not_closing _ _ fun _ _ _ clearing => by cases idle.symm.trans clearing
  | otherMessage _ _ _ _ idle => exact not_closing _ _ fun _ _ _ clearing => by cases idle.symm.trans clearing
  | malformed _ _ _ idle => exact not_closing _ _ fun _ _ _ clearing => by cases idle.symm.trans clearing
  | polled _ _ _ polling => exact not_closing _ _ fun _ _ _ clearing => by cases polling.symm.trans clearing
  | _ => exact held

theorem forgets_closed_step (p : Platform D) (s t : State) (action : Action) (out : List (Output D))
    (calls : List (Int × Bool)) (held : ClosedSoFar s calls) (succeeds : ClosesSucceed s action)
    (taken : Transition p s action t out) : ForgetsClosed s t (noteClose s action calls) := by
  have kept : ∀ now, (∀ id ∈ s.m_client_ids, id ∈ t.m_client_ids) → (s.Closing → t.Closing) → ForgetsClosed s t now :=
    fun _ stays closing => ⟨fun id member gone => absurd (stays id member) gone,
      fun before after => absurd (closing before) after⟩
  cases taken with
  | ready => exact kept _ (fun id member => List.mem_append_left _ member) fun ⟨_, _, _, clearing⟩ => by simp_all
  | closedOne hdl gone id todo => exact kept _ (fun _ member => member) fun _ => ⟨hdl, gone, todo, rfl⟩
  | stuck hdl gone id todo thread unclosed =>
      have reports := succeeds hdl gone id todo rfl thread
      exact absurd ((unclosed_fails s id unclosed).symm.trans reports) Bool.false_ne_true
  | cleared hdl gone thread =>
      obtain ⟨ids, succeeded⟩ := held hdl gone [] thread
      have called (id : Int) (member : id ∈ s.m_client_ids) : (id, true) ∈ noteClose s .wake calls := by
        rw [ids, List.append_nil] at member
        obtain ⟨call, before, rfl⟩ := List.mem_map.mp member
        dsimp only [noteClose]
        rw [thread, ← succeeded call before]
        exact before
      exact ⟨fun id member _ => called id member, fun _ _ id member => List.mem_map.mpr ⟨(id, true), called id member, rfl⟩⟩
  | disconnected hdl => exact kept _ (fun _ member => member) fun _ => ⟨hdl, true, _, rfl⟩
  | clearProviders hdl => exact kept _ (fun _ member => member) fun _ => ⟨hdl, false, _, rfl⟩
  | addProvider _ _ _ idle => exact kept _ (fun _ member => member) fun ⟨_, _, _, clearing⟩ => by cases idle.symm.trans clearing
  | replied _ _ _ thread => exact kept _ (fun _ member => member) fun ⟨_, _, _, clearing⟩ => by cases thread.symm.trans clearing
  | launched _ _ thread => exact kept _ (fun _ member => member) fun ⟨_, _, _, clearing⟩ => by cases thread.symm.trans clearing
  | _ => exact kept _ (fun _ member => member) id

theorem clear_forgets_closed (p : Platform D) (start s t : State) (actions : List Action) (action : Action)
    (calls : List (Int × Bool)) (log : List (List (Output D))) (out : List (Output D)) (idle : start.thread = .idle)
    (succeeds : (aggregator p).Along ClosesSucceed start (actions ++ [action]))
    (ran : ((aggregator p).recorded noteClose).run (start, []) actions = some ((s, calls), log))
    (taken : step p s action = some (t, out)) : ForgetsClosed s t (noteClose s action calls) := by
  obtain ⟨before, here⟩ := (aggregator p).along_snoc ClosesSucceed start s actions action log succeeds
    (((aggregator p).recorded_run noteClose actions start s [] log).mpr ⟨calls, ran⟩)
  have held : ClosedSoFar s calls :=
    ((aggregator p).recorded noteClose).run_invariant (fun now action => ClosesSucceed now.1 action)
      (fun now => ClosedSoFar now.1 now.2)
      (fun now action next out held met taken => by
        obtain ⟨stepped, noted⟩ := ((aggregator p).recorded_step noteClose now.1 next.1 now.2 next.2 action out).mp taken
        rw [noted]
        exact closed_so_far_step p now.1 next.1 action out now.2 held met (step_transition p _ _ _ _ stepped).2)
      actions (start, []) (s, calls) log (not_closing start [] fun _ _ _ clearing => by cases idle.symm.trans clearing)
      ((aggregator p).along_recorded noteClose ClosesSucceed actions start [] before) ran
  exact forgets_closed_step p s t action out calls held here (step_transition p s t action out taken).2

theorem failing_close_forgets (p : Platform D) (s t : State) (hdl : Hdl) (gone : Bool) (id : Int) (todo : List Int)
    (calls : List (Int × Bool)) (out : List (Output D)) (thread : s.thread = .clearing hdl gone (id :: todo))
    (listed : id ∈ s.m_client_ids) (first : (id, true) ∉ calls) (fails : (s.m_endpoint.close false id).2 = false)
    (taken : step p s .wake = some (t, out)) : ¬ForgetsClosed s t (noteClose s .wake calls) := by
  intro forgets
  have emptied : t.m_client_ids = [] := by
    obtain ⟨_, transition⟩ := step_transition p s t .wake out taken
    cases transition with
    | stuck => rfl
    | cleared => rfl
    | closedOne other _ given rest here handler found session =>
        cases thread.symm.trans here
        exact absurd (fails.symm.trans (opened_closes s id handler found session)) Bool.false_ne_true
    | polled _ _ _ here => cases thread.symm.trans here
    | ready _ _ _ _ here => cases thread.symm.trans here
    | replied _ _ _ here => cases thread.symm.trans here
    | launched _ _ here => cases thread.symm.trans here
  have noted := note_close s hdl gone id todo calls thread
  rw [fails] at noted
  have called := forgets.removed id listed (by rw [emptied]; exact List.not_mem_nil)
  rw [noted] at called
  cases List.mem_append.mp called with
  | inl earlier => exact first earlier
  | inr last => cases List.mem_singleton.mp last

def clearingRun : List Action := addedRun ++ [.message 0 clearProvidersRequest, .wake]

theorem clear_forgets_closed_one :
    ∃ s t log out, ((aggregator .plain).recorded noteClose).run (.init, []) clearingRun = some ((s, [(0, true)]), log) ∧
      step .plain s .wake = some (t, out) ∧ s.m_client_ids = [0] ∧ ForgetsClosed s t (noteClose s .wake [(0, true)]) := by
  obtain ⟨⟨s, calls⟩, log, ran, checked⟩ := ((aggregator .plain).recorded noteClose).run_check (.init, []) clearingRun
    (fun done => done.1.2 = [(0, true)] ∧ done.1.1.m_client_ids = [0] ∧ (step .plain done.1.1 .wake).isSome = true)
    (by decide +kernel)
  obtain ⟨rfl, ids, wakes⟩ := of_decide_eq_true checked
  obtain ⟨⟨t, out⟩, taken⟩ := Option.isSome_iff_exists.mp wakes
  refine ⟨s, t, log, out, ran, taken, ids, clear_forgets_closed .plain .init s t clearingRun .wake _ log out rfl ?_ ran taken⟩
  refine (aggregator .plain).along_checked ClosesSucceed
    (fun s _ => match s.thread with
      | .clearing _ _ (id :: _) => (s.m_endpoint.close false id).2
      | _ => true) (fun s action passes hdl gone id todo _ thread => ?_) (clearingRun ++ [.wake]) .init (by decide +kernel)
  rw [thread] at passes
  exact passes

-- The first of two providers has gone away on its own. Its close fails, and the
-- second one is forgotten while its connection is open.
def goneRun : List Action :=
  addedRun ++ [.message 0 providerRequest, .opened 1, .silenced 1, .wake, .wake, .wake, .lost 0,
    .message 0 clearProvidersRequest]

theorem clear_forgets_open :
    ∃ s t log out, ((aggregator .plain).recorded noteClose).run (.init, []) goneRun = some ((s, []), log) ∧
      step .plain s .wake = some (t, out) ∧ s.m_client_ids = [0, 1] ∧ t.m_client_ids = [] ∧
      noteClose s .wake [] = [(0, false)] ∧ (t.handler 1).map ClientHandler.session = some .opened ∧
      ¬ForgetsClosed s t (noteClose s .wake []) := by
  obtain ⟨⟨s, calls⟩, log, ran, checked⟩ := ((aggregator .plain).recorded noteClose).run_check (.init, []) goneRun
    (fun done => done.1.2 = [] ∧ done.1.1.m_client_ids = [0, 1] ∧ noteClose done.1.1 .wake [] = [(0, false)] ∧
      (step .plain done.1.1 .wake).any (fun next => next.1.m_client_ids = [] ∧
        (next.1.handler 1).map ClientHandler.session = some .opened) = true) (by decide +kernel)
  obtain ⟨rfl, ids, noted, after⟩ := of_decide_eq_true checked
  obtain ⟨⟨t, out⟩, taken, now⟩ := (Option.any_eq_true _ _).mp after
  obtain ⟨emptied, opened⟩ := of_decide_eq_true now
  refine ⟨s, t, log, out, ran, taken, ids, emptied, noted, opened, fun forgets => ?_⟩
  have called := forgets.removed 1 (by rw [ids]; simp) (by rw [emptied]; simp)
  rw [noted] at called
  simp at called

end TradingFeed.Aggregator
