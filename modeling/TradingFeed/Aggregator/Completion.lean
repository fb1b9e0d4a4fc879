import Mathlib.Data.Nat.Find
import TradingFeed.Aggregator.Transitions
import TradingFeed.Library.Interference

set_option autoImplicit false

namespace TradingFeed.Aggregator

open TradingFeed.Json TradingFeed.Sockets

variable {D : Type}

-- What the other threads have made of m_endpoint by the time of a wake.
def shared (world : Nat → EndPoint Hdl) (n : Nat) (s : State) : State := { s with m_endpoint := world n }

-- The server thread on its own, with m_endpoint as the other threads leave it.
def handle (world : Nat → EndPoint Hdl) (n : Nat) (s : State) : State × List (List (Output D)) :=
  Library.drive wake (shared world) n s

def replyWord (reply : JSON D) : Text := (reply.index "status".toList).asText

def clientId (p : Platform D) (s : State) (request : JSON D) : Int :=
  (s.m_endpoint.connect (p.acceptsUri (request.index "host".toList).asText)).2

def ReadsOpen (world : Nat → EndPoint Hdl) (id : Int) (n : Nat) : Prop :=
  ((world n).get_metadata id).map ClientHandler.m_status = some .opened

-- handle_add_provider leaves its wait loop after finitely many polls and replies
-- once, "processed" only of a connection that has reached Open.
def AddCompletes (p : Platform D) (world : Nat → EndPoint Hdl) (s : State) (hdl : Hdl) (request : JSON D) : Prop :=
  ∃ (n : Nat) (t : State) (log : List (List (Output D))) (reply : JSON D),
    handle world n (handleAddProvider p s hdl request).1 = (t, log) ∧ t.thread = .idle ∧
    log.flatten = [.send hdl reply] ∧
    (replyWord reply = "processed".toList → ∃ k, ReadsOpen world (clientId p s request) k) ∧
    ((¬∃ k, ReadsOpen world (clientId p s request) k) → replyWord reply = "not processed".toList)

theorem handle_step (world : Nat → EndPoint Hdl) (n : Nat) (s t u : State) (log : List (List (Output D)))
    (out : List (Output D)) (before : handle world n s = (t, log)) (taken : wake (shared world n t) = some (u, out)) :
    handle world (n + 1) s = (u, log ++ [out]) := by
  have here : Library.drive wake (shared world) n s = (t, log) := before
  have stepped := Library.drive_step wake (shared world) n s u out (by rw [here]; exact taken)
  rw [here] at stepped
  exact stepped

theorem poll_open (world : Nat → EndPoint Hdl) (n : Nat) (s : State) (hdl : Hdl) (host : Text) (id : Int)
    (thread : s.thread = .polling hdl host id) (opened : ReadsOpen world id n) :
    wake (shared world n s) = some
      ({ shared world n s with m_client_ids := s.m_client_ids ++ [id], thread := .acknowledging hdl host id },
        ([] : List (Output D))) := by
  dsimp only [wake, shared]
  rw [thread]
  dsimp only [poll]
  exact congrArg (fun t => some (t, [])) (if_pos opened)

theorem poll_waits (world : Nat → EndPoint Hdl) (n : Nat) (s : State) (hdl : Hdl) (host : Text) (id : Int)
    (thread : s.thread = .polling hdl host id) (unread : ¬ReadsOpen world id n) :
    wake (shared world n s) = some (shared world n s, ([] : List (Output D))) := by
  dsimp only [wake, shared]
  rw [thread]
  dsimp only [poll]
  exact congrArg (fun t => some (t, [])) (if_neg unread)

def Inside (action : Action) : Prop :=
  action ≠ .connected ∧ (∀ hdl, action ≠ .disconnected hdl) ∧ ∀ hdl payload, action ≠ .message hdl payload

structure Agrees (s t : State) : Prop where
  thread : s.thread = t.thread
  ids : s.m_client_ids = t.m_client_ids
  server : s.m_server = t.m_server

theorem inside_agrees (p : Platform D) (s t u : State) (action : Action) (out : List (Output D)) (agrees : Agrees s t)
    (inside : Inside action) (other : action ≠ .wake) (taken : step p t action = some (u, out)) : Agrees s u := by
  obtain ⟨_, transition⟩ := step_transition p t u action out taken
  have kept : ∀ v : State, v.thread = t.thread → v.m_client_ids = t.m_client_ids → v.m_server = t.m_server →
      Agrees s v := fun v thread ids server =>
    ⟨agrees.thread.trans thread.symm, agrees.ids.trans ids.symm, agrees.server.trans server.symm⟩
  cases transition with
  | connected => exact absurd rfl inside.1
  | disconnected hdl => exact absurd rfl (inside.2.1 hdl)
  | addProvider hdl payload => exact absurd rfl (inside.2.2 hdl payload)
  | clearProviders hdl payload => exact absurd rfl (inside.2.2 hdl payload)
  | otherMessage hdl payload => exact absurd rfl (inside.2.2 hdl payload)
  | malformed hdl payload => exact absurd rfl (inside.2.2 hdl payload)
  | polled => exact absurd rfl other
  | ready => exact absurd rfl other
  | replied => exact absurd rfl other
  | launched => exact absurd rfl other
  | closedOne => exact absurd rfl other
  | stuck => exact absurd rfl other
  | cleared => exact absurd rfl other
  | _ => exact kept _ rfl rfl rfl

theorem wake_agrees (world : Nat → EndPoint Hdl) (n : Nat) (s t u : State) (out : List (Output D)) (agrees : Agrees s t)
    (present : world n = t.m_endpoint) (woke : wake t = some (u, out)) :
    ∃ v, wake (shared world n s) = some (v, out) ∧ Agrees v u := by
  obtain ⟨thread, ids, server⟩ := agrees
  cases here : t.thread with
  | polling hdl host id =>
      have polls : some (poll t hdl host id, []) = some (u, out) := by
        dsimp only [wake] at woke
        rw [here] at woke
        exact woke
      dsimp only [poll] at polls
      by_cases opened : ReadsOpen world id n
      · have reads : (t.handler id).map ClientHandler.m_status = some .opened := by
          rw [ReadsOpen, present] at opened
          exact opened
        rw [if_pos reads] at polls
        cases polls
        exact ⟨_, poll_open world n s hdl host id (thread.trans here) opened, rfl, congrArg (· ++ [id]) ids, server⟩
      · have unread : (t.handler id).map ClientHandler.m_status ≠ some .opened := by
          rw [ReadsOpen, present] at opened
          exact opened
        rw [if_neg unread] at polls
        cases polls
        exact ⟨_, poll_waits world n s hdl host id (thread.trans here) opened, thread, ids, server⟩
  | clearing hdl gone todo =>
      dsimp only [wake, shared] at woke ⊢
      rw [thread, present]
      rw [here] at woke ⊢
      cases todo with
      | nil =>
          cases woke
          refine ⟨_, rfl, rfl, rfl, ?_⟩
          dsimp only
          rw [server]
      | cons id todo =>
          dsimp only [clearNext] at woke ⊢
          cases closes : (t.m_endpoint.close false id).2 with
          | true =>
              rw [closes, if_pos rfl] at woke
              cases woke
              exact ⟨_, rfl, rfl, ids, server⟩
          | false =>
              rw [closes, if_neg Bool.false_ne_true] at woke
              cases woke
              exact ⟨_, rfl, rfl, rfl, server⟩
  | acknowledging hdl host id =>
      dsimp only [wake, shared] at woke ⊢
      rw [thread]
      rw [here] at woke ⊢
      cases woke
      exact ⟨_, rfl, rfl, ids, server⟩
  | launching hdl id =>
      dsimp only [wake, shared] at woke ⊢
      rw [thread]
      rw [here] at woke ⊢
      cases woke
      exact ⟨_, rfl, rfl, ids, server⟩
  | idle =>
      dsimp only [wake] at woke
      rw [here] at woke
      cases woke
  | waiting =>
      dsimp only [wake] at woke
      rw [here] at woke
      cases woke

theorem run_handled (p : Platform D) (actions : List Action) (s t : State) (log : List (List (Output D)))
    (inside : ∀ action ∈ actions, Inside action) (ran : (aggregator p).run s actions = some (t, log)) :
    ∃ world n u replies, handle world n s = (u, replies) ∧ Agrees u t ∧ replies.Sublist log := by
  refine (aggregator p).run_history s (fun past head t => (∀ action ∈ past, Inside action) →
    ∃ world n u replies, handle world n s = (u, replies) ∧ Agrees u t ∧ replies.Sublist head) (fun _ => ?_)
    (fun front head mid action t out _ held taken inside => ?_) actions t log ran inside
  · exact ⟨fun _ => .new, 0, s, [], rfl, ⟨rfl, rfl, rfl⟩, List.Sublist.refl []⟩
  · obtain ⟨world, n, u, replies, handled, agrees, within⟩ :=
      held fun earlier member => inside earlier (List.mem_append_left _ member)
    by_cases woke : action = .wake
    · subst woke
      have worlds : handle (fun k => if k < n then world k else mid.m_endpoint) n s = (u, replies) := by
        rw [← handled]
        exact Library.drive_congr _ _ _ n s fun k less => funext fun v => by simp only [shared, if_pos less]
      have woken : wake mid = some (t, out) := by
        dsimp only [aggregator, step] at taken
        split at taken
        · cases taken
        · exact taken
      obtain ⟨v, next, further⟩ := wake_agrees (fun k => if k < n then world k else mid.m_endpoint) n u mid t out agrees
        (if_neg (Nat.lt_irrefl n)) woken
      exact ⟨_, n + 1, v, _, handle_step _ n s u v replies out worlds next, further,
        within.append (List.Sublist.refl [out])⟩
    · exact ⟨world, n, u, replies, handled,
        inside_agrees p u mid t action out agrees (inside action (by simp)) woke taken,
        within.trans (List.sublist_append_left head [out])⟩

theorem keeps_polling (world : Nat → EndPoint Hdl) (s : State) (hdl : Hdl) (host : Text) (id : Int)
    (thread : s.thread = .polling hdl host id) (n : Nat) (unread : ∀ k < n, ¬ReadsOpen world id k) :
    ∃ t log, handle world n s = (t, log) ∧ t.thread = .polling hdl host id ∧
      log.flatten = ([] : List (Output D)) := by
  induction n with
  | zero => exact ⟨s, [], rfl, thread, rfl⟩
  | succ n ih =>
      obtain ⟨t, log, before, polling, silent⟩ := ih fun k less => unread k (Nat.lt_succ_of_lt less)
      have waits := poll_waits (D := D) world n t hdl host id polling (unread n (Nat.lt_succ_self n))
      refine ⟨_, _, handle_step world n s t _ log _ before waits, polling, ?_⟩
      rw [List.flatten_append, silent]
      rfl

theorem opened_replies (world : Nat → EndPoint Hdl) (s : State) (hdl : Hdl) (host : Text) (id : Int)
    (thread : s.thread = .polling hdl host id) (n : Nat) (unread : ∀ k < n, ¬ReadsOpen world id k)
    (opened : ReadsOpen world id n) :
    ∃ t log, handle world (n + 3) s = (t, log) ∧ t.thread = .idle ∧
      log.flatten = ([.send hdl (providerReply host id)] : List (Output D)) := by
  obtain ⟨t, log, before, polling, silent⟩ := keeps_polling (D := D) world s hdl host id thread n unread
  have first := handle_step world n s t _ log _ before (poll_open world n t hdl host id polling opened)
  have second := handle_step world (n + 1) s _ _ _ _ first rfl
  have third := handle_step world (n + 2) s _ _ _ _ second rfl
  refine ⟨_, _, third, rfl, ?_⟩
  simp only [List.flatten_append, silent]
  rfl

theorem unknown_unread (world : Nat → EndPoint Hdl) (n : Nat) : ¬ReadsOpen world (-1) n := by
  intro opened
  obtain ⟨handler, found, _⟩ := Option.map_eq_some_iff.mp opened
  have numbered := (world n).get_numbered (-1) handler found
  omega

theorem add_polls (p : Platform D) (s : State) (hdl : Hdl) (request : JSON D) :
    (handleAddProvider p s hdl request).1.thread =
      .polling hdl ((request.index "host".toList).dump p.fp) (clientId p s request) := rfl

theorem add_completes_iff (p : Platform D) (world : Nat → EndPoint Hdl) (s : State) (hdl : Hdl) (request : JSON D) :
    AddCompletes p world s hdl request ↔
      p.acceptsUri (request.index "host".toList).asText = true ∧ ∃ k, ReadsOpen world (clientId p s request) k := by
  constructor
  · rintro ⟨n, t, log, reply, handled, idle, _⟩
    by_cases opened : ∃ k, ReadsOpen world (clientId p s request) k
    · refine ⟨?_, opened⟩
      cases accepts : p.acceptsUri (request.index "host".toList).asText with
      | true => rfl
      | false =>
          obtain ⟨k, reads⟩ := opened
          have rejected := (s.m_endpoint.connect_rejected _).mpr accepts
          dsimp only [clientId] at reads
          rw [rejected] at reads
          exact absurd reads (unknown_unread world k)
    · obtain ⟨u, seen, same, polling, _⟩ := keeps_polling (D := D) world _ hdl _ _ (add_polls p s hdl request) n
        fun k _ reads => opened ⟨k, reads⟩
      cases handled.symm.trans same
      cases idle.symm.trans polling
  · rintro ⟨accepts, opened⟩
    classical
    have unread : ∀ k < Nat.find opened, ¬ReadsOpen world (clientId p s request) k := fun k less => Nat.find_min opened less
    obtain ⟨t, log, handled, idle, replied⟩ :=
      opened_replies (D := D) world _ hdl _ _ (add_polls p s hdl request) (Nat.find opened) unread (Nat.find_spec opened)
    exact ⟨_, t, log, _, handled, idle, replied, fun _ => opened, fun never => absurd opened never⟩

-- The provider refuses the connection: the status is "Failed" at every poll.
def refusedWorld (_ : Nat) : EndPoint Hdl := (EndPoint.new.connect true).1.update 0 .onFail

def hostRequest : JSON Int := .object [("host".toList, .string "ws://p:1".toList)]

theorem refused_provider_polls :
    Platform.plain.acceptsUri "ws://p:1".toList = true ∧
      (∀ n, ((refusedWorld n).get_metadata 0).map ClientHandler.m_status = some .failed) ∧
      ¬AddCompletes .plain refusedWorld .init 0 hostRequest := by
  refine ⟨by decide, fun _ => rfl, ?_⟩
  rintro ⟨n, t, log, _, handled, idle, _⟩
  obtain ⟨u, seen, same, polling, _⟩ := keeps_polling (D := Int) refusedWorld _ 0 _ _ (add_polls .plain .init 0 hostRequest)
    n fun k _ reads => by cases reads
  cases handled.symm.trans same
  cases idle.symm.trans polling

def AllClose (world : Nat → EndPoint Hdl) (ids : List Int) : Prop :=
  ∀ i id, ids[i]? = some id → ((world i).close false id).2 = true

-- handle_clear_provider returns after finitely many steps and replies once, with
-- the reply that tells of its closes.
def ClearCompletes (D : Type) (world : Nat → EndPoint Hdl) (s : State) (hdl : Hdl) (gone : Bool) : Prop :=
  ∃ (n : Nat) (t : State) (log : List (List (Output D))) (reply : JSON D),
    handle world n (handleClearProvider s hdl gone) = (t, log) ∧ t.thread = .idle ∧ log.flatten = [.send hdl reply] ∧
    (replyWord reply = "procceed".toList ↔ AllClose world s.m_client_ids) ∧
    (¬AllClose world s.m_client_ids → replyWord reply = "not procceed".toList)

theorem close_next (world : Nat → EndPoint Hdl) (n : Nat) (s : State) (hdl : Hdl) (gone : Bool) (ids : List Int) (id : Int)
    (thread : s.thread = .clearing hdl gone (ids.drop n)) (here : ids[n]? = some id) :
    wake (shared world n s) = some
      (if ((world n).close false id).2 = true then
        ({ shared world n s with
            m_endpoint := ((world n).close false id).1, thread := .clearing hdl gone (ids.drop (n + 1)) },
          ([] : List (Output D)))
      else
        ({ shared world n s with m_endpoint := ((world n).close false id).1, m_client_ids := [], thread := .waiting },
          [])) := by
  obtain ⟨bound, same⟩ := List.getElem?_eq_some_iff.mp here
  rw [List.drop_eq_getElem_cons bound, same] at thread
  dsimp only [wake, shared]
  rw [thread]
  rfl

theorem closes_front (world : Nat → EndPoint Hdl) (s : State) (hdl : Hdl) (gone : Bool) (ids : List Int)
    (thread : s.thread = .clearing hdl gone ids) (closes : AllClose world ids) (n : Nat) (within : n ≤ ids.length) :
    ∃ t log, handle world n s = (t, log) ∧ t.thread = .clearing hdl gone (ids.drop n) ∧
      log.flatten = ([] : List (Output D)) := by
  induction n with
  | zero => exact ⟨s, [], rfl, thread, rfl⟩
  | succ n ih =>
      obtain ⟨t, log, before, clearing, silent⟩ := ih (Nat.le_of_succ_le within)
      have here : ids[n]? = some ids[n] := List.getElem?_eq_getElem within
      have closed := close_next (D := D) world n t hdl gone ids ids[n] clearing here
      rw [if_pos (closes n _ here)] at closed
      refine ⟨_, _, handle_step world n s t _ log _ before closed, rfl, ?_⟩
      rw [List.flatten_append, silent]
      rfl

theorem failing_close_waits (world : Nat → EndPoint Hdl) (s : State) (hdl : Hdl) (gone : Bool) (ids : List Int) (i : Nat)
    (id : Int) (thread : s.thread = .clearing hdl gone ids) (here : ids[i]? = some id)
    (fails : ((world i).close false id).2 = false) (n : Nat) :
    (handle (D := D) world n s).1.thread = .waiting ∨
      n ≤ i ∧ (handle (D := D) world n s).1.thread = .clearing hdl gone (ids.drop n) := by
  refine Library.drive_invariant wake (shared world)
    (fun n t _ => t.thread = .waiting ∨ n ≤ i ∧ t.thread = .clearing hdl gone (ids.drop n)) s
    (Or.inr ⟨Nat.zero_le i, thread⟩) ?_ ?_ n
  · intro n t _ u out held taken
    cases held with
    | inl waits =>
        dsimp only [wake, shared] at taken
        rw [waits] at taken
        cases taken
    | inr clearing =>
        obtain ⟨before, clearing⟩ := clearing
        have bound : n < ids.length := Nat.lt_of_le_of_lt before (List.getElem?_eq_some_iff.mp here).1
        have next := List.getElem?_eq_getElem bound
        have closed := close_next (D := D) world n t hdl gone ids ids[n] clearing next
        have result := Option.some.inj (taken.symm.trans closed)
        cases reports : ((world n).close false ids[n]).2 with
        | false =>
            rw [reports, if_neg Bool.false_ne_true] at result
            exact Or.inl (congrArg (fun done => done.1.thread) result)
        | true =>
            rw [reports, if_pos rfl] at result
            refine Or.inr ⟨Nat.lt_of_le_of_ne before fun same => ?_, congrArg (fun done => done.1.thread) result⟩
            subst same
            cases next.symm.trans here
            exact Bool.false_ne_true (fails.symm.trans reports)
  · intro n t _ held ended
    cases held with
    | inl waits => exact Or.inl waits
    | inr clearing =>
        obtain ⟨before, clearing⟩ := clearing
        have bound : n < ids.length := Nat.lt_of_le_of_lt before (List.getElem?_eq_some_iff.mp here).1
        have closed := close_next (D := D) world n t hdl gone ids ids[n] clearing (List.getElem?_eq_getElem bound)
        cases closed.symm.trans ended

theorem clear_completes_iff_all_close (world : Nat → EndPoint Hdl) (s : State) (hdl : Hdl) (gone : Bool) :
    ClearCompletes D world s hdl gone ↔ AllClose world s.m_client_ids := by
  constructor
  · rintro ⟨n, t, log, _, handled, idle, _⟩ i id here
    cases reports : ((world i).close false id).2 with
    | true => rfl
    | false =>
        have stays := failing_close_waits (D := D) world (handleClearProvider s hdl gone) hdl gone s.m_client_ids i id rfl
          here reports n
        rw [handled, idle] at stays
        cases stays with
        | inl waits => cases waits
        | inr clearing => cases clearing.2
  · intro closes
    obtain ⟨t, log, before, clearing, silent⟩ := closes_front (D := D) world (handleClearProvider s hdl gone) hdl gone
      s.m_client_ids rfl closes s.m_client_ids.length (Nat.le_refl _)
    rw [List.drop_length] at clearing
    have last : wake (D := D) (shared world s.m_client_ids.length t) =
        some (clearNext (shared world s.m_client_ids.length t) hdl gone []) := by
      dsimp only [wake, shared]
      rw [clearing]
    refine ⟨_, _, _, statusObject "procceed".toList [], handle_step world _ _ t _ log _ before last, rfl, ?_,
      ⟨fun _ => closes, fun _ => rfl⟩, fun fails => absurd closes fails⟩
    rw [List.flatten_append, silent]
    rfl

-- The one provider has gone away on its own, so that its close reports an error.
def lostWorld (_ : Nat) : EndPoint Hdl := (EndPoint.new.connect true).1.update 0 fun handler => handler.onOpen.lose

def oneProvider : State := { State.init with m_client_ids := [0] }

theorem lost_provider_waits :
    ((lostWorld 0).close false 0).2 = false ∧ ¬ClearCompletes Int lostWorld oneProvider 0 false := by
  refine ⟨rfl, ?_⟩
  rintro ⟨n, t, log, _, handled, idle, _⟩
  have stays := failing_close_waits (D := Int) lostWorld (handleClearProvider oneProvider 0 false) 0 false [0] 0 0 rfl rfl
    rfl n
  rw [handled, idle] at stays
  cases stays with
  | inl waits => cases waits
  | inr clearing => cases clearing.2

end TradingFeed.Aggregator
