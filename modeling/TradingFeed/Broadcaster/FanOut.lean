import TradingFeed.Broadcaster.Visits

set_option autoImplicit false

namespace TradingFeed.Broadcaster

open TradingFeed.Json TradingFeed.Sockets

variable {D : Type}

-- Consumers connect and subscribe, tasks run and aggregators send; the set of
-- connections and what they are does not change.
def FanStep (p : Platform D) : Action → Prop
  | .message _ payload => ∃ request, Asks p payload "subscribe".toList request ∧
      channel request ∈ ["broadcast".toList, "latest-price".toList]
  | .connected | .start _ | .visit _ | .received _ _ => True
  | _ => False

def subscribers (actions : List Action) : List Hdl :=
  actions.filterMap fun action =>
    match action with
    | .message hdl _ => some hdl
    | _ => none

def Served (p : Platform D) (conns : List Conn) (s : State D) (hdl : Hdl) : Prop :=
  ∀ later t log, (∀ action ∈ later, OnlyReceived action) → (broadcaster p).run s later = some (t, log) →
    ∀ conn ∈ conns, ∀ data json, load p.fp data = .ok json →
      ∃ sub, t.handsTo p conn data = some sub ∧ sub.hdl = hdl

theorem fan_step_arriving (p : Platform D) (hdl : Hdl) (actions : List Action)
    (fan : ∀ action ∈ actions, FanStep p action) (only : ∀ other ∈ subscribers actions, other = hdl)
    (action : Action) (member : action ∈ actions) :
    Arriving p (fun sub => sub.hdl = hdl) action ∧ action ≠ .wake := by
  have step := fan action member
  cases action with
  | message other payload =>
      obtain ⟨request, asks, _⟩ := step
      have same : other = hdl := only other (List.mem_filterMap.mpr ⟨_, member, rfl⟩)
      exact ⟨Or.inr ⟨request, asks, same⟩, by simp⟩
  | connected => exact ⟨trivial, by simp⟩
  | start task => exact ⟨trivial, by simp⟩
  | visit task => exact ⟨trivial, by simp⟩
  | received conn data => exact ⟨trivial, by simp⟩
  | _ => exact False.elim step

theorem one_consumer_served (p : Platform D) (s t : State D) (conns : List Conn) (actions : List Action)
    (log : List (List (Output D))) (hdl : Hdl) (settled : ∀ task ∈ s.m_sendFutures, task.finished = true)
    (opened : ∀ conn ∈ conns, conn ∈ s.tracked ∧ s.Receives conn) (fan : ∀ action ∈ actions, FanStep p action)
    (ran : (broadcaster p).run s actions = some (t, log))
    (finished : ∀ task ∈ t.m_sendFutures, task.finished = true) (subscribed : hdl ∈ subscribers actions)
    (only : ∀ other ∈ subscribers actions, other = hdl) : Served p conns t hdl := by
  intro later u more received arrived conn member data json loaded
  let good : Subscription → Prop := fun sub => sub.hdl = hdl
  have steps := fan_step_arriving p hdl actions fan only
  obtain ⟨action, here, isMessage⟩ := List.mem_filterMap.mp subscribed
  obtain ⟨front, back, rfl⟩ := List.append_of_mem here
  obtain ⟨c, head, tail, before, rest, rfl⟩ := ((broadcaster p).run_append s t front (action :: back) log).mp ran
  obtain ⟨next, out, after, taken, behind, rfl⟩ := ((broadcaster p).run_cons c t action back tail).mp rest
  have start : Standing good conn s :=
    ⟨fun task task_ unfinished => absurd (settled task task_) (by rw [unfinished]; simp), (opened conn member).1,
      (opened conn member).2⟩
  -- Up to the first subscribe message the connection just stays as it is.
  have standing : Standing good conn c :=
    (broadcaster p).run_invariant (fun _ action => Arriving p good action ∧ action ≠ .wake) (Standing good conn)
      (fun s action t out held met taken =>
        standing_step p s t good action out conn (fun wake => absurd wake met.2) met.1 held taken)
      front s c head start
      ((broadcaster p).along_always _ front s fun _ action inside => steps action (by simp [inside])) before
  have carried : Carried good c.m_sendFutures.length conn next := by
    cases action with
    | message _ payload =>
        cases isMessage
        obtain ⟨request, asks, _⟩ := fan _ here
        have done := step_handled p c next hdl payload request out asks.loaded taken
        rw [asks_subscribing p c hdl payload _ request asks (Or.inl rfl)] at done
        cases done
        exact launch_carried c good ⟨hdl, channel request⟩ conn standing rfl
    | _ => cases isMessage
  have last : Carried good c.m_sendFutures.length conn t :=
    (broadcaster p).run_invariant (fun _ action => Arriving p good action ∧ action ≠ .wake)
      (Carried good c.m_sendFutures.length conn)
      (fun s action t out held met taken =>
        carried_step p s t good action out _ conn (fun wake => absurd wake met.2) met.1 held taken)
      back next t after carried
      ((broadcaster p).along_always _ back next fun _ action inside => steps action (by simp [inside])) behind
  obtain ⟨sub, mine, force⟩ := carried_finished t good _ conn last finished
  have still := in_force_later p t u later more conn sub received arrived force
  exact ⟨sub, (hands_to_some p u conn data sub).mpr ⟨still, json, loaded⟩, mine⟩

theorem fan_out_iff (p : Platform D) (s t : State D) (conns : List Conn) (actions : List Action)
    (log : List (List (Output D))) (settled : ∀ task ∈ s.m_sendFutures, task.finished = true)
    (opened : ∀ conn ∈ conns, conn ∈ s.tracked ∧ s.Receives conn) (fan : ∀ action ∈ actions, FanStep p action)
    (ran : (broadcaster p).run s actions = some (t, log))
    (finished : ∀ task ∈ t.m_sendFutures, task.finished = true) :
    (∀ hdl ∈ subscribers actions, Served p conns t hdl) ↔
      (conns = [] ∨ ∀ first ∈ subscribers actions, ∀ second ∈ subscribers actions, first = second) := by
  constructor
  · intro served
    cases conns with
    | nil => exact Or.inl rfl
    | cons conn rest =>
        refine Or.inr fun first one second other => ?_
        obtain ⟨sub, handed, mine⟩ := served first one [] t [] (by simp) rfl conn (by simp) priceText priceValue
          (load_price p.fp)
        obtain ⟨_, again, yours⟩ := served second other [] t [] (by simp) rfl conn (by simp) priceText priceValue
          (load_price p.fp)
        rw [handed] at again
        cases again
        exact mine.symm.trans yours
  · rintro (rfl | same) hdl subscribed
    · exact fun _ _ _ _ _ conn member => absurd member (by simp)
    · exact one_consumer_served p s t conns actions log hdl settled opened fan ran finished subscribed
        fun other also => same other also hdl subscribed

def openedRun : List Action := [.connected, .connected, .message 0 addRequest, .wake, .opened ⟨0, 0⟩, .silenced ⟨0, 0⟩]

theorem opened_run :
    ∃ s log, (broadcaster .plain).run .init openedRun = some (s, log) ∧ s.m_sendFutures.isEmpty = true ∧
      (⟨0, 0⟩ : Conn) ∈ s.tracked ∧ s.Receives ⟨0, 0⟩ := by
  obtain ⟨s, log, ran, checked⟩ := (broadcaster .plain).run_check .init openedRun
    (fun done => done.1.m_sendFutures.isEmpty = true ∧ (⟨0, 0⟩ : Conn) ∈ done.1.tracked ∧
      (done.1.handler ⟨0, 0⟩).any (fun handler => handler.receives) = true) (by decide +kernel)
  obtain ⟨none, tracked, receives⟩ := of_decide_eq_true checked
  exact ⟨s, log, ran, none, tracked, (Option.any_eq_true _ _).mp receives⟩

theorem fan_out_iff_one :
    ∃ s t log, (broadcaster .plain).run s [.message 0 subscribeRequest, .start 0, .visit 0] = some (t, log) ∧
      ∀ hdl ∈ [0], Served .plain [⟨0, 0⟩] t hdl := by
  obtain ⟨s, head, opened, none, tracked, receives⟩ := opened_run
  obtain ⟨t, log, ran, finished⟩ := (broadcaster .plain).run_check_after .init s openedRun
    [.message 0 subscribeRequest, .start 0, .visit 0] head (fun done => done.1.m_sendFutures.all Task.finished) opened
    (by decide +kernel)
  refine ⟨s, t, log, ran, (fan_out_iff .plain s t [⟨0, 0⟩] _ log ?_ ?_ ?_ ran ?_).mpr (Or.inr ?_)⟩
  · simp [List.isEmpty_iff.mp none]
  · exact fun conn member => by
      rw [List.mem_singleton.mp member]
      exact ⟨tracked, receives⟩
  · simp only [List.mem_cons, List.not_mem_nil, or_false, forall_eq_or_imp, forall_eq, FanStep, and_true]
    exact ⟨_, asks_subscribe .plain, by decide⟩
  · exact List.all_eq_true.mp finished
  · simp [subscribers]

def displacingRun : List Action :=
  [.message 0 subscribeRequest, .start 0, .visit 0, .message 1 subscribeRequest, .start 1, .visit 1]

theorem second_subscriber_displaces :
    ∃ s t head log, (broadcaster .plain).run .init openedRun = some (s, head) ∧
      (⟨0, 0⟩ : Conn) ∈ s.tracked ∧ s.Receives ⟨0, 0⟩ ∧
      (broadcaster .plain).run s displacingRun = some (t, log) ∧ t.m_sendFutures.all Task.finished = true ∧
      t.m_server.alive 0 = true ∧ ¬Served .plain [⟨0, 0⟩] t 0 := by
  obtain ⟨s, head, opened, _, tracked, receives⟩ := opened_run
  obtain ⟨t, log, ran, checked⟩ := (broadcaster .plain).run_check_after .init s openedRun displacingRun head
    (fun done => done.1.m_sendFutures.all Task.finished = true ∧ done.1.m_server.alive 0 = true ∧
      done.1.handsTo .plain ⟨0, 0⟩ priceText = some ⟨1, "broadcast".toList⟩) opened (by decide +kernel)
  obtain ⟨finished, alive, handed⟩ := of_decide_eq_true checked
  refine ⟨s, t, head, log, opened, tracked, receives, ran, finished, alive, fun served => ?_⟩
  obtain ⟨sub, again, mine⟩ := served [] t [] (by simp) rfl ⟨0, 0⟩ (by simp) priceText priceValue (load_price _)
  rw [handed] at again
  cases again
  cases mine

end TradingFeed.Broadcaster
