import TradingFeed.Broadcaster.Visits

set_option autoImplicit false

namespace TradingFeed.Broadcaster

open TradingFeed.Json TradingFeed.Sockets

variable {D : Type}

-- A moment from which a task will visit what is tracked and open: the consumer's
-- subscribe message, or the start of a task, which copies the id sets.
def Copies (p : Platform D) (hdl : Hdl) (action : Action) : Prop :=
  (∃ i, action = .start i) ∨ ∃ payload request, action = .message hdl payload ∧ Asks p payload "subscribe".toList request

def StartsWithout (conn : Conn) (s : State D) (action : Action) : Prop := ∀ i, action = .start i → conn ∉ s.tracked

structure Unvisited (conn : Conn) (s : State D) : Prop where
  silent : ∀ sub, ¬s.InForce conn sub
  walks : ∀ sub todo, ⟨sub, .walking todo⟩ ∈ s.m_sendFutures → conn ∉ todo

theorem unvisited_step (p : Platform D) (s t : State D) (action : Action) (out : List (Output D)) (conn : Conn)
    (unvisited : Unvisited conn s) (without : StartsWithout conn s action) (taken : step p s action = some (t, out)) :
    Unvisited conn t := by
  constructor
  · intro sub force
    rcases step_in_force p s t action out conn sub taken force with before | ⟨i, todo, _, found, _⟩
    · exact unvisited.silent sub before
    · exact unvisited.walks sub (conn :: todo) (List.mem_of_getElem? found) (by simp)
  · intro sub todo member
    rcases step_futures p s t action out taken with same | launched | started | visited
    · rw [same] at member
      exact unvisited.walks sub todo member
    · obtain ⟨_, _, tasks, _, appended, phases⟩ := launched
      rw [appended] at member
      rcases List.mem_append.mp member with old | new
      · exact unvisited.walks sub todo old
      · cases (phases _ new).1
    · obtain ⟨i, given, start, _, updated⟩ := started
      rw [updated] at member
      rcases List.mem_or_eq_of_mem_set member with old | new
      · exact unvisited.walks sub todo old
      · cases new
        exact without i start
    · obtain ⟨i, given, place, rest, _, found, updated⟩ := visited
      rw [updated] at member
      rcases List.mem_or_eq_of_mem_set member with old | new
      · exact unvisited.walks sub todo old
      · cases new
        exact fun inside => unvisited.walks _ (place :: todo) (List.mem_of_getElem? found)
          (List.mem_cons_of_mem place inside)

theorem unvisited_init (conn : Conn) : Unvisited conn (.init : State D) := by
  constructor
  · rintro sub ⟨handler, found, _⟩
    simp [State.handler, State.init, EndPoints.empty, EndPoints.get] at found
  · intro sub todo member
    cases member

theorem copies_carried (p : Platform D) (s t : State D) (hdl : Hdl) (channel_ : Text) (action : Action)
    (out : List (Output D)) (conn : Conn) (copies : Copies p hdl action)
    (arriving : Arriving p (· = ⟨hdl, channel_⟩) action) (standing : Standing (· = ⟨hdl, channel_⟩) conn s)
    (taken : step p s action = some (t, out)) : ∃ i, Carried (· = ⟨hdl, channel_⟩) i conn t := by
  rcases copies with ⟨i, rfl⟩ | ⟨payload, request, rfl, asks⟩
  · have standing' := standing_step p s t _ _ out conn (fun wake => by cases wake) arriving standing taken
    obtain ⟨_, transition⟩ := step_transition p s t _ out taken
    cases transition with
    | started _ sub found =>
        refine ⟨i, standing', Or.inr ⟨⟨sub, .walking s.tracked⟩, ?_, standing.tracked⟩⟩
        exact List.getElem?_set_self (List.getElem?_eq_some_iff.mp found).1
  · have done := step_handled p s t hdl payload request out asks.loaded taken
    rw [asks_subscribing p s hdl payload _ request asks (Or.inl rfl)] at done
    cases done
    refine ⟨_, launch_carried s _ ⟨hdl, channel request⟩ conn standing ?_⟩
    rcases arriving with ⟨other, adds⟩ | ⟨other, subscribes, given⟩
    · cases asks.loaded.symm.trans adds.loaded
      have clash := asks.action.symm.trans adds.action
      exact absurd clash (by decide)
    · cases asks.loaded.symm.trans subscribes.loaded
      exact given

theorem arrival_order (p : Platform D) (hdl : Hdl) (channel_ : Text) (actions : List Action) (t : State D)
    (log : List (List (Output D))) (arriving : ∀ action ∈ actions, Arriving p (· = ⟨hdl, channel_⟩) action)
    (ran : (broadcaster p).run .init actions = some (t, log))
    (finished : ∀ task ∈ t.m_sendFutures, task.finished = true) :
    (∀ front action back c head conn data json, actions = front ++ action :: back →
        (broadcaster p).run .init front = some (c, head) → Copies p hdl action → conn ∈ c.tracked → c.Receives conn →
        load p.fp data = .ok json → t.handsTo p conn data = some ⟨hdl, channel_⟩) ∧
      ∀ conn data, (broadcaster p).Along (StartsWithout conn) .init actions → t.handsTo p conn data = none := by
  constructor
  · rintro front action back c head conn data json rfl before copies tracked receives loaded
    let met : State D → Action → Prop := fun _ action => Arriving p (· = ⟨hdl, channel_⟩) action
    let quiet : State D → Prop := fun s =>
      Calm s ∧ ∀ task ∈ s.m_sendFutures, task.finished = false → task.sub = ⟨hdl, channel_⟩
    have keeps : ∀ s action t out, quiet s → met s action → step p s action = some (t, out) → quiet t :=
      fun s action t out held met taken =>
        ⟨calm_step p s t _ action out held.1 met taken, subs_step p s t _ action out met taken held.2⟩
    obtain ⟨other, _, tail, first, rest, rfl⟩ := ((broadcaster p).run_append _ t front (action :: back) log).mp ran
    rw [before] at first
    cases first
    obtain ⟨next, out, after, taken, behind, rfl⟩ := ((broadcaster p).run_cons c t action back tail).mp rest
    have calm : quiet c :=
      (broadcaster p).run_invariant met quiet keeps front .init c head
        ⟨fun endpoints => by simp [State.init], fun task member => by cases member⟩
        ((broadcaster p).along_always met front .init fun _ other inside => arriving other (by simp [inside])) before
    obtain ⟨i, carried⟩ := copies_carried p c next hdl channel_ action out conn copies (arriving action (by simp))
      ⟨calm.2, tracked, receives⟩ taken
    have next_calm := keeps c action next out calm (arriving action (by simp)) taken
    have last : quiet t ∧ Carried (· = ⟨hdl, channel_⟩) i conn t :=
      (broadcaster p).run_invariant met (fun s => quiet s ∧ Carried (· = ⟨hdl, channel_⟩) i conn s)
        (fun s action t out held met taken => ⟨keeps s action t out held.1 met taken,
          carried_step p s t _ action out i conn (fun _ => held.1.1) met held.2 taken⟩)
        back next t after ⟨next_calm, carried⟩
        ((broadcaster p).along_always met back next fun _ other inside => arriving other (by simp [inside])) behind
    obtain ⟨sub, rfl, force⟩ := carried_finished t _ i conn last.2 finished
    exact (hands_to_some p t conn data _).mpr ⟨force, json, loaded⟩
  · intro conn data without
    have unvisited : Unvisited conn t :=
      (broadcaster p).run_invariant (StartsWithout conn) (Unvisited conn)
        (fun s action t out held met taken => unvisited_step p s t action out conn held met taken)
        actions .init t log (unvisited_init conn) without ran
    cases handed : t.handsTo p conn data with
    | none => rfl
    | some sub => exact absurd ((hands_to_some p t conn data sub).mp handed).1 (unvisited.silent sub)

theorem arrival_order_subscribed :
    ∃ s log, (broadcaster .plain).run .init subscribedRun = some (s, log) ∧
      s.handsTo .plain ⟨0, 0⟩ priceText = some ⟨0, "broadcast".toList⟩ := by
  obtain ⟨c, head, before, checked⟩ := (broadcaster .plain).run_check .init
    [.connected, .message 0 addRequest, .wake, .opened ⟨0, 0⟩, .silenced ⟨0, 0⟩]
    (fun done => (⟨0, 0⟩ : Conn) ∈ done.1.tracked ∧
      (done.1.handler ⟨0, 0⟩).any (fun handler => handler.receives) = true) (by decide +kernel)
  obtain ⟨tracked, receives⟩ := of_decide_eq_true checked
  obtain ⟨s, log, ran, subscribed⟩ := subscribed_run
  have arriving : ∀ action ∈ subscribedRun, Arriving .plain (· = ⟨0, "broadcast".toList⟩) action := by
    simp only [subscribedRun, List.mem_cons, List.not_mem_nil, or_false, forall_eq_or_imp, forall_eq, Arriving,
      and_true, true_and]
    exact ⟨Or.inl ⟨_, asks_add .plain⟩, Or.inr ⟨_, asks_subscribe .plain, rfl⟩⟩
  refine ⟨s, log, ran, (arrival_order .plain 0 "broadcast".toList subscribedRun s log arriving ran
    (List.all_eq_true.mp subscribed.finished)).1 _ (.message 0 subscribeRequest) _ c head ⟨0, 0⟩ priceText priceValue
      rfl before (Or.inr ⟨_, _, rfl, asks_subscribe .plain⟩) tracked ?_ (load_price _)⟩
  exact (Option.any_eq_true _ _).mp receives

def lateRun : List Action :=
  [.connected, .message 0 subscribeRequest, .start 0, .message 0 addRequest, .wake, .opened ⟨0, 0⟩, .silenced ⟨0, 0⟩]

theorem late_aggregator_undelivered :
    ∃ s log, (broadcaster .plain).run .init lateRun = some (s, log) ∧ s.fault = none ∧
      s.m_sendFutures.all Task.finished = true ∧ (⟨0, 0⟩ : Conn) ∈ s.tracked ∧ s.Receives ⟨0, 0⟩ ∧
      s.handsTo .plain ⟨0, 0⟩ priceText = none := by
  obtain ⟨s, log, ran, checked⟩ := (broadcaster .plain).run_check .init lateRun
    (fun done => done.1.fault = none ∧ done.1.m_sendFutures.all Task.finished = true ∧
      (⟨0, 0⟩ : Conn) ∈ done.1.tracked ∧ (done.1.handler ⟨0, 0⟩).any (fun handler => handler.receives) = true ∧
      done.1.handsTo .plain ⟨0, 0⟩ priceText = none) (by decide +kernel)
  obtain ⟨sound, finished, tracked, receives, silent⟩ := of_decide_eq_true checked
  exact ⟨s, log, ran, sound, finished, tracked, (Option.any_eq_true _ _).mp receives, silent⟩

end TradingFeed.Broadcaster
