import TradingFeed.Broadcaster.Delivery

set_option autoImplicit false

namespace TradingFeed.Broadcaster

open TradingFeed.Json TradingFeed.Sockets

variable {D : Type}

-- A consumer is attached as long as a callback in force or a task that still has
-- connections to visit carries its handle. on_close_Connection undoes neither.
def State.Attached (s : State D) (hdl : Hdl) : Prop :=
  (∃ conn sub, s.InForce conn sub ∧ sub.hdl = hdl) ∨
    ∃ task ∈ s.m_sendFutures, task.finished = false ∧ task.sub.hdl = hdl

def DropsDetached (s : State D) (action : Action) : Prop := ∀ hdl, action = .disconnected hdl → ¬s.Attached hdl

def AttachedAlive (s : State D) : Prop := ∀ hdl, s.Attached hdl → s.m_server.alive hdl = true

theorem step_alive (p : Platform D) (s t : State D) (action : Action) (out : List (Output D)) (hdl : Hdl)
    (taken : step p s action = some (t, out)) (alive : s.m_server.alive hdl = true)
    (stays : action ≠ .disconnected hdl) : t.m_server.alive hdl = true := by
  rw [step_server p s t action out taken]
  cases action with
  | connected => simp [Server.alive_accept, alive]
  | disconnected other =>
      have different : hdl ≠ other := fun same => stays (by rw [same])
      simp [Server.alive_drop, alive, different]
  | _ => exact alive

theorem step_attached (p : Platform D) (s t : State D) (action : Action) (out : List (Output D)) (hdl : Hdl)
    (taken : step p s action = some (t, out)) (attached : t.Attached hdl) :
    s.Attached hdl ∨ ∃ payload, action = .message hdl payload := by
  rcases attached with ⟨conn, sub, force, rfl⟩ | ⟨task, member, unfinished, rfl⟩
  · rcases step_in_force p s t action out conn sub taken force with before | ⟨i, todo, _, found, _⟩
    · exact Or.inl (Or.inl ⟨conn, sub, before, rfl⟩)
    · exact Or.inl (Or.inr ⟨_, List.mem_of_getElem? found, rfl, rfl⟩)
  · rcases step_unfinished p s t action out task taken member unfinished with ⟨old, member, unfinished, same⟩ | new
    · exact Or.inl (Or.inr ⟨old, member, unfinished, by rw [same]⟩)
    · obtain ⟨hdl, payload, message, rfl⟩ := new
      exact Or.inr ⟨payload, message⟩

theorem attached_alive_step (p : Platform D) (s t : State D) (action : Action) (out : List (Output D))
    (alive : AttachedAlive s) (drops : DropsDetached s action) (taken : step p s action = some (t, out)) :
    AttachedAlive t := by
  intro hdl attached
  rcases step_attached p s t action out hdl taken attached with before | ⟨payload, rfl⟩
  · exact step_alive p s t action out hdl taken (alive hdl before) fun dropped => drops hdl dropped before
  · obtain ⟨_, connected, _⟩ := step_message p s t hdl payload out taken
    exact step_alive p s t _ out hdl taken connected (by simp)

theorem attached_alive_init : AttachedAlive (.init : State D) := by
  rintro hdl (⟨conn, sub, ⟨handler, found, _⟩, _⟩ | ⟨task, member, _⟩)
  · simp [State.handler, State.init, EndPoints.empty, EndPoints.get] at found
  · cases member

theorem callback_consumer_alive (p : Platform D) (actions : List Action) (s : State D) (log : List (List (Output D)))
    (ran : (broadcaster p).run .init actions = some (s, log))
    (drops : (broadcaster p).Along DropsDetached .init actions) (conn : Conn) (data : Text) (sub : Subscription)
    (handed : s.handsTo p conn data = some sub) : s.m_server.alive sub.hdl = true := by
  have alive : AttachedAlive s :=
    (broadcaster p).run_invariant DropsDetached AttachedAlive
      (fun s a t out held drops taken => attached_alive_step p s t a out held drops taken)
      actions .init s log attached_alive_init drops ran
  exact alive sub.hdl (Or.inl ⟨conn, sub, ((hands_to_some p s conn data sub).mp handed).1, rfl⟩)

theorem silent_drops (p : Platform D) (actions : List Action) (s : State D)
    (silent : ∀ hdl, .disconnected hdl ∈ actions → ∀ payload, .message hdl payload ∉ actions)
    (detached : ∀ hdl, .disconnected hdl ∈ actions → ¬s.Attached hdl) :
    (broadcaster p).Along DropsDetached s actions := by
  induction actions generalizing s with
  | nil => trivial
  | cons action rest ih =>
      refine ⟨fun hdl dropped => detached hdl (dropped ▸ List.mem_cons_self), fun next out taken => ?_⟩
      refine ih next (fun hdl drops payload asks => ?_) fun hdl drops attached => ?_
      · exact silent hdl (List.mem_cons_of_mem _ drops) payload (List.mem_cons_of_mem _ asks)
      · rcases step_attached p s next action out hdl taken attached with before | ⟨payload, rfl⟩
        · exact detached hdl (List.mem_cons_of_mem _ drops) before
        · exact silent hdl (List.mem_cons_of_mem _ drops) payload List.mem_cons_self

theorem callback_consumer_alive_subscribed :
    ∃ s log, (broadcaster .plain).run .init (.connected :: subscribedRun ++ [.disconnected 1]) = some (s, log) ∧
      s.m_server.alive 1 = false ∧ s.m_server.alive 0 = true := by
  obtain ⟨s, log, ran, checked⟩ := (broadcaster .plain).run_check .init (.connected :: subscribedRun ++ [.disconnected 1])
    (fun done => done.1.handsTo .plain ⟨0, 0⟩ priceText = some ⟨0, "broadcast".toList⟩ ∧ done.1.m_server.alive 1 = false)
    (by decide +kernel)
  obtain ⟨handed, gone⟩ := of_decide_eq_true checked
  have drops : (broadcaster .plain).Along DropsDetached .init (.connected :: subscribedRun ++ [.disconnected 1]) :=
    silent_drops .plain _ .init (by simp [subscribedRun]) fun hdl _ attached => by
      have alive := attached_alive_init hdl attached
      cases alive
  exact ⟨s, log, ran, gone, callback_consumer_alive .plain _ s log ran drops ⟨0, 0⟩ priceText _ handed⟩

theorem vanished_consumer_called :
    ∃ s log, (broadcaster .plain).run .init (subscribedRun ++ [.disconnected 0]) = some (s, log) ∧
      s.handsTo .plain ⟨0, 0⟩ priceText = some ⟨0, "broadcast".toList⟩ ∧ s.m_server.alive 0 = false ∧
      (step .plain s (.received ⟨0, 0⟩ priceText)).any (fun done => done.1.fault = some .badConnection) = true := by
  obtain ⟨s, log, ran, checked⟩ := (broadcaster .plain).run_check .init (subscribedRun ++ [.disconnected 0])
    (fun done => done.1.handsTo .plain ⟨0, 0⟩ priceText = some ⟨0, "broadcast".toList⟩ ∧
      done.1.m_server.alive 0 = false ∧
      (step .plain done.1 (.received ⟨0, 0⟩ priceText)).any (fun next => next.1.fault = some .badConnection) = true)
    (by decide +kernel)
  exact ⟨s, log, ran, of_decide_eq_true checked⟩

end TradingFeed.Broadcaster
