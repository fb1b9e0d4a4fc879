import TradingFeed.Aggregator.Connections

set_option autoImplicit false

namespace TradingFeed.Aggregator

open TradingFeed.Json TradingFeed.Sockets

variable {D : Type}

-- Whatever the other threads do meanwhile, each step of handle_clear_provider
-- that the disconnect runs touches connections of the consumer alone: those of
-- another one keep their session and their callback and stay in m_client_ids.
def SparesOthers (p : Platform D) (s : State) (hdl : Hdl) : Prop :=
  ∀ actions u log todo v out, (aggregator p).run s (.disconnected hdl :: actions) = some (u, log) →
    u.thread = .clearing hdl true todo → step p u .wake = some (v, out) →
    (∀ id, v.handler id ≠ u.handler id → id ∈ s.recorded hdl) ∧
    ∀ other, other ≠ hdl → ∀ id ∈ s.recorded other,
      v.handler id = u.handler id ∧ (id ∈ s.m_client_ids → id ∈ v.m_client_ids)

inductive TearingDown (hdl : Hdl) (ids : List Int) (s : State) : Prop where
  | closing (todo : List Int) (thread : s.thread = .clearing hdl true todo) (within : ∀ id ∈ todo, id ∈ ids)
      (alive : s.m_server.alive hdl = true)
  | stuck (thread : s.thread = .waiting)
  | ended (dead : s.m_server.alive hdl = false) (known : hdl < s.m_server.connections.length)

section

variable (p : Platform D) (s t : State) (action : Action) (out : List (Output D)) (hdl : Hdl) (ids : List Int)

theorem gone_stays (taken : Transition p s action t out) (dead : s.m_server.alive hdl = false)
    (known : hdl < s.m_server.connections.length) :
    t.m_server.alive hdl = false ∧ hdl < t.m_server.connections.length := by
  cases taken with
  | connected =>
      refine ⟨?_, by simpa [Server.accept] using Nat.lt_succ_of_lt known⟩
      rw [Server.alive_accept, dead]
      simpa using Nat.ne_of_lt known
  | cleared other gone =>
      cases gone with
      | false => exact ⟨dead, known⟩
      | true => exact ⟨by simp [Server.alive_drop, dead], by simpa [Server.drop] using known⟩
  | _ => exact ⟨dead, known⟩

theorem tearing_down_step (held : TearingDown hdl ids s) (taken : Transition p s action t out) :
    TearingDown hdl ids t := by
  cases held with
  | closing todo thread within alive =>
      cases taken with
      | closedOne other gone id rest here =>
          rw [thread] at here
          cases here
          exact .closing rest rfl (fun id member => within id (by simp [member])) alive
      | stuck => exact .stuck rfl
      | cleared other gone here =>
          rw [thread] at here
          cases here
          exact .ended (by simp [Server.alive_drop]) (by simpa [Server.drop] using s.m_server.alive_known hdl alive)
      | _ => first | exact .closing todo thread within alive | simp_all
  | stuck thread =>
      cases taken with
      | _ => first | exact .stuck thread | simp_all
  | ended dead known =>
      obtain ⟨still, below⟩ := gone_stays p s t action out hdl taken dead known
      exact .ended still below

end

theorem teardown_within (p : Platform D) (s u : State) (hdl : Hdl) (actions : List Action) (todo : List Int)
    (log : List (List (Output D))) (reach : (aggregator p).Reachable .init s)
    (ran : (aggregator p).run s (.disconnected hdl :: actions) = some (u, log))
    (thread : u.thread = .clearing hdl true todo) : ∀ id ∈ todo, id ∈ s.m_client_ids := by
  have owned := reachable_owned p u ((aggregator p).reachable_run .init s u _ log reach ran)
  obtain ⟨t, out, tail, taken, later, _⟩ := ((aggregator p).run_cons s u _ actions log).mp ran
  have start : TearingDown hdl s.m_client_ids t := by
    obtain ⟨_, transition⟩ := step_transition p s t (.disconnected hdl) out taken
    cases transition with
    | disconnected _ _ alive => exact .closing s.m_client_ids rfl (fun _ member => member) alive
  have held : TearingDown hdl s.m_client_ids u :=
    (aggregator p).run_invariant (fun _ _ => True) (TearingDown hdl s.m_client_ids)
      (fun s a t out held _ taken => tearing_down_step p s t a out hdl _ held (step_transition p s t a out taken).2)
      actions t u tail start ((aggregator p).along_always _ actions t fun _ _ _ => trivial) later
  cases held with
  | closing rest here within =>
      cases thread.symm.trans here
      exact within
  | stuck here => cases thread.symm.trans here
  | ended dead =>
      rw [owned.busy hdl (by rw [thread]; rfl)] at dead
      cases dead

theorem teardown_step (p : Platform D) (u v : State) (hdl : Hdl) (todo : List Int) (out : List (Output D))
    (thread : u.thread = .clearing hdl true todo) (taken : step p u .wake = some (v, out)) (changed : Int)
    (differs : v.handler changed ≠ u.handler changed) : changed ∈ todo := by
  obtain ⟨_, transition⟩ := step_transition p u v .wake out taken
  cases transition with
  | closedOne other gone id rest here =>
      rw [thread] at here
      cases here
      by_cases same : changed = id
      · exact List.mem_cons.mpr (Or.inl same)
      · have kept : (u.updateHandler id .shut).handler changed = u.handler changed := by
          rw [State.handler_update, if_neg same]
        exact absurd kept differs
  | stuck => exact absurd rfl differs
  | cleared => exact absurd rfl differs
  | _ => simp_all

theorem teardown_ends (p : Platform D) (todo : List Int) (u : State) (hdl : Hdl) (sound : u.fault = none)
    (thread : u.thread = .clearing hdl true todo) :
    ∃ actions w v log rest out, (aggregator p).run u actions = some (w, log) ∧ w.thread = .clearing hdl true rest ∧
      step p w .wake = some (v, out) ∧ v.m_client_ids = [] := by
  have woken (w : State) (rest : List Int) (sound : w.fault = none) (thread : w.thread = .clearing hdl true rest) :
      step p w .wake = some (clearNext w hdl true rest) := by
    simp [step, sound, wake, thread]
  induction todo generalizing u with
  | nil => exact ⟨[], u, _, [], [], _, rfl, thread, woken u [] sound thread, rfl⟩
  | cons id rest ih =>
      by_cases closes : (u.m_endpoint.close false id).2 = true
      · have taken := woken u (id :: rest) sound thread
        simp only [clearNext, closes, if_true] at taken
        obtain ⟨actions, w, v, log, left, out, ran, ends⟩ :=
          ih { u with m_endpoint := (u.m_endpoint.close false id).1, thread := .clearing hdl true rest } sound rfl
        exact ⟨.wake :: actions, w, v, [] :: log, left, out,
          ((aggregator p).run_cons u w .wake actions _).mpr ⟨_, [], log, taken, ran, rfl⟩, ends⟩
      · have dropped : (clearNext u hdl true (id :: rest) : State × List (Output D)).1.m_client_ids = [] := by
          simp only [clearNext, if_neg closes]
        exact ⟨[], u, _, [], id :: rest, _, rfl, thread, woken u (id :: rest) sound thread, dropped⟩

theorem disconnect_spares_iff (p : Platform D) (s t : State) (hdl : Hdl) (out : List (Output D))
    (reach : (aggregator p).Reachable .init s) (taken : step p s (.disconnected hdl) = some (t, out)) :
    SparesOthers p s hdl ↔ ∀ id ∈ s.m_client_ids, id ∈ s.recorded hdl := by
  have recorded := reachable_recorded p s reach
  constructor
  · intro spares id member
    obtain ⟨_, other, mine⟩ := recorded.clients id member
    by_contra foreign
    have different : other ≠ hdl := by
      rintro rfl
      exact foreign mine
    have begun : t.thread = .clearing hdl true s.m_client_ids ∧ t.fault = none := by
      obtain ⟨sound, transition⟩ := step_transition p s t _ out taken
      cases transition with
      | disconnected => exact ⟨rfl, sound⟩
    obtain ⟨actions, w, v, log, rest, last, ran, thread, ends, dropped⟩ :=
      teardown_ends p s.m_client_ids t hdl begun.2 begun.1
    have stays := ((spares actions w (out :: log) rest v last
      (((aggregator p).run_cons s w _ actions _).mpr ⟨t, out, log, taken, ran, rfl⟩) thread ends).2
        other different id mine).2 member
    rw [dropped] at stays
    cases stays
  · intro owned actions u log todo v last ran thread ends
    have within := teardown_within p s u hdl actions todo log reach ran thread
    have closes := teardown_step p u v hdl todo last thread ends
    refine ⟨fun id differs => owned id (within id (closes id differs)), fun other different id mine => ?_⟩
    -- No id of another consumer is among those to be closed.
    have foreign : id ∉ s.m_client_ids := fun member =>
      different (recorded.owner other hdl id (recorded.clients id member).1 mine (owned id member))
    refine ⟨?_, fun member => absurd member foreign⟩
    by_contra differs
    exact foreign (within id (closes id differs))

theorem disconnect_spares_iff_only :
    ∃ s log, (aggregator .plain).run .init addedRun = some (s, log) ∧ s.m_client_ids = [0] ∧ SparesOthers .plain s 0 := by
  obtain ⟨s, log, ran, checked⟩ := (aggregator .plain).run_check .init addedRun
    (fun done => done.1.m_client_ids = [0] ∧ 0 ∈ done.1.recorded 0) (by decide +kernel)
  obtain ⟨ids, mine⟩ := of_decide_eq_true checked
  obtain ⟨t, last, left, _⟩ := (aggregator .plain).run_check_after .init s addedRun [.disconnected 0] log
    (fun _ => true) ran (by decide +kernel)
  obtain ⟨out, taken, _⟩ := ((aggregator .plain).run_single s t (.disconnected 0) last).mp left
  refine ⟨s, log, ran, ids, (disconnect_spares_iff .plain s t 0 out ⟨addedRun, log, ran⟩ taken).mpr fun id member => ?_⟩
  rw [ids] at member
  rw [List.mem_singleton.mp member]
  exact mine

def servedRun : List Action := .connected :: addedRun ++ [.start 0, .install 0]

def leftRun : List Action := servedRun ++ [.disconnected 1]

theorem disconnect_cuts_other :
    ∃ s log, (aggregator .plain).run .init servedRun = some (s, log) ∧ 0 ∈ s.m_client_ids ∧ 0 ∈ s.recorded 0 ∧
      s.slot 0 = some (.call 0) ∧ s.m_server.alive 1 = true ∧ ¬SparesOthers .plain s 1 := by
  obtain ⟨s, log, ran, checked⟩ := (aggregator .plain).run_check .init servedRun
    (fun done => 0 ∈ done.1.m_client_ids ∧ 0 ∈ done.1.recorded 0 ∧ done.1.slot 0 = some (.call 0) ∧
      done.1.m_server.alive 1 = true) (by decide +kernel)
  obtain ⟨ids, mine, slot, alive⟩ := of_decide_eq_true checked
  obtain ⟨u, begun, left, before⟩ := (aggregator .plain).run_check_after .init s servedRun [.disconnected 1] log
    (fun done => done.1.thread = .clearing 1 true [0] ∧ (done.1.handler 0).map ClientHandler.session = some .opened)
    ran (by decide +kernel)
  obtain ⟨thread, opened⟩ := of_decide_eq_true before
  have both : (aggregator .plain).run .init leftRun = some (u, log ++ begun) :=
    (aggregator .plain).run_trans .init s u servedRun [.disconnected 1] log begun ran left
  obtain ⟨v, last, woken, after⟩ := (aggregator .plain).run_check_after .init u leftRun [.wake] (log ++ begun)
    (fun done => (done.1.handler 0).map ClientHandler.session = some .closing) both (by decide +kernel)
  have closing := of_decide_eq_true after
  obtain ⟨out, taken, _⟩ := ((aggregator .plain).run_single u v .wake last).mp woken
  refine ⟨s, log, ran, ids, mine, slot, alive, fun spares => ?_⟩
  have same := ((spares [] u begun [0] v out left thread taken).2 0 (by decide) 0 mine).1
  rw [same, opened] at closing
  cases closing

end TradingFeed.Aggregator
