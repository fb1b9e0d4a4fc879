import TradingFeed.Aggregator.Settled
import TradingFeed.Feed.Prices

set_option autoImplicit false

namespace TradingFeed.Feed

open TradingFeed.Json TradingFeed.Sockets TradingFeed.Common Library

variable {P A D : Type} [DecidableEq P] [DecidableEq A]

-- Nothing is on its way from a provider to the broadcaster.
structure Quiet (wiring : Wiring P A) (g : A) (id : Int) (hdl : Hdl) (s : State P A D) : Prop where
  quotes : s.2 (.quotes (wiring.provider g id).1 (wiring.provider g id).2) = []
  replies : s.2 (.replies g hdl) = []

section

variable (p : Platform D) (wiring : Wiring P A) (mid final : State P A D) (events : List (FeedStep P A D))
  (path : (feed p wiring).Path mid events final) (g : A) (id : Int) (hdl : Hdl)

include path

theorem segment_path : (parts p).Path mid.1 (events.map innerEvent) final.1 := wired_path _ _ _ _ _ path

theorem quotes_taken (start : Quiet wiring g id hdl mid) (stop : Quiet wiring g id hdl final) :
    dataOn id (aggregatorSteps g (events.map innerEvent)) =
      (DataProvider.published (wiring.provider g id).2
        (providerSteps (wiring.provider g id).1 (events.map innerEvent))).map fun message => message.toJson p.fp := by
  have inner := segment_path p wiring mid final events path
  have flow := wired_fifo _ _ _ _ _ (.quotes (wiring.provider g id).1 (wiring.provider g id).2) path
  rw [start.quotes, stop.quotes, List.nil_append, List.append_nil, given_quotes p wiring _ _ _ inner,
    taken_quotes p wiring _ _ _ inner] at flow
  exact flow.symm

theorem replies_taken (start : Quiet wiring g id hdl mid) (stop : Quiet wiring g id hdl final) (conn : Broadcaster.Conn)
    (leads : wiring.aggregator conn = (g, hdl)) :
    dataFrom conn (broadcasterSteps (events.map innerEvent)) =
      (Aggregator.responses hdl (aggregatorSteps g (events.map innerEvent))).map fun response => response.2.dump p.fp := by
  have inner := segment_path p wiring mid final events path
  have flow := wired_fifo _ _ _ _ _ (.replies g hdl) path
  have taken := taken_replies p wiring _ _ _ inner conn
  rw [leads] at taken
  rw [start.replies, stop.replies, List.nil_append, List.append_nil, given_replies p wiring _ _ _ inner, taken] at flow
  exact flow.symm

theorem arrived_responses (start : Quiet wiring g id hdl mid) (stop : Quiet wiring g id hdl final) (conn : Broadcaster.Conn)
    (leads : wiring.aggregator conn = (g, hdl)) :
    under conn ((broadcasterSteps (events.map innerEvent)).filterMap (Broadcaster.arrival p)) =
      (loaded p.fp (Aggregator.responses hdl (aggregatorSteps g (events.map innerEvent)))).map Prod.snd := by
  rw [arrivals_from, replies_taken p wiring mid final events path g id hdl start stop conn leads, List.filterMap_map, loaded,
    List.map_filterMap]
  refine List.filterMap_congr fun response _ => ?_
  dsimp only [Function.comp_apply]
  cases (load p.fp (response.2.dump p.fp)).toOption <;> rfl

theorem forwarded_messages (reach : (Aggregator.aggregator p).Reachable .init (mid.1.2.1 g))
    (settled : Aggregator.Settled id hdl (mid.1.2.1 g))
    (open_ : ∀ step ∈ aggregatorSteps g (events.map innerEvent), Aggregator.Opened id step.before)
    (sound : (final.1.2.1 g).fault = none) (start : Quiet wiring g id hdl mid) (stop : Quiet wiring g id hdl final) :
    Aggregator.fromSource id (loaded p.fp (Aggregator.responses hdl (aggregatorSteps g (events.map innerEvent)))) =
      (DataProvider.published (wiring.provider g id).2
        (providerSteps (wiring.provider g id).1 (events.map innerEvent))).filterMap (relayed p.fp) := by
  have inner := segment_path p wiring mid final events path
  have forwards := Aggregator.path_settled p _ _ _ id hdl reach settled (aggregator_path p _ _ _ inner g) open_ sound
  rw [Aggregator.fromSource, loaded_source]
  change (Aggregator.fromSource id _).filterMap _ = _
  rw [forwards, arrivals_data, quotes_taken p wiring mid final events path g id hdl start stop, relayed_texts]

end

section

variable (p : Platform D) (wiring : Wiring P A) (boot : P → Nat → Int64) (mid final : State P A D)
  (past events : List (FeedStep P A D)) (before : (feed p wiring).Path (init p boot) past mid)
  (path : (feed p wiring).Path mid events final)
  (finite : ∀ provider, ∀ message ∈ DataProvider.messages p.fp (boot provider), p.fp.Finite message.m_price)

include before path finite

theorem published_finite (provider : P) (hdl : Hdl) :
    ∀ message ∈ DataProvider.published hdl (providerSteps provider (events.map innerEvent)), p.fp.Finite message.m_price := by
  have whole := System.path_append _ _ _ _ _ _ before path
  obtain ⟨clock, _, _, rounds⟩ := DataProvider.sound_rounds p.fp (boot provider) _ _ hdl
    (DataProvider.path_sound _ _ _ (provider_path p _ _ _ (inner_path p wiring boot _ _ whole) provider))
  intro message member
  refine rounds_finite p.fp _ _ _ (finite provider) rounds message ?_
  rw [List.map_append, providerSteps, List.filterMap_append, List.filterMap_append, DataProvider.published, List.flatMap_append]
  exact List.mem_append_right _ member

-- Nothing is lost in normal operation: what the batches hold is what the broadcast
-- callbacks got, what came from this connection is what the aggregator sent there,
-- and of that the part of one provider is a copy of each of its messages.
theorem quiet_delivers (g : A) (id : Int) (hdl : Hdl) (conn : Broadcaster.Conn) (leads : wiring.aggregator conn = (g, hdl))
    (settled : Aggregator.Settled id hdl (mid.1.2.1 g))
    (open_ : ∀ step ∈ aggregatorSteps g (events.map innerEvent), Aggregator.Opened id step.before)
    (attached : ∀ step ∈ broadcasterSteps (events.map innerEvent), Broadcaster.Attached conn step.before)
    (sound : (final.1.2.1 g).fault = none ∧ final.1.2.2.fault = none) (start : Quiet wiring g id hdl mid)
    (stop : Quiet wiring g id hdl final) :
    ∃ held pending : List (JSON D),
      mid.1.2.2.m_broadcastArray = .array held ∧ final.1.2.2.m_broadcastArray = .array pending ∧
      (Broadcaster.batches (broadcasterSteps (events.map innerEvent))).flatten ++ pending =
        held ++ (Broadcaster.collected p (broadcasterSteps (events.map innerEvent))).map Prod.snd ∧
      under conn (Broadcaster.collected p (broadcasterSteps (events.map innerEvent))) =
        (loaded p.fp (Aggregator.responses hdl (aggregatorSteps g (events.map innerEvent)))).map Prod.snd ∧
      List.Forall₂ (Copy p.fp)
        (DataProvider.published (wiring.provider g id).2
          (providerSteps (wiring.provider g id).1 (events.map innerEvent)))
        (Aggregator.fromSource id
          (loaded p.fp (Aggregator.responses hdl (aggregatorSteps g (events.map innerEvent))))) := by
  have earlier := inner_path p wiring boot _ _ before
  have inner := segment_path p wiring mid final events path
  obtain ⟨held, pending, first, last, whole⟩ := Broadcaster.segment_accounts p _ _ _ _ (broadcaster_path p _ _ _ earlier)
    (broadcaster_path p _ _ _ inner)
  have collects := Broadcaster.path_attached p _ _ _ conn (broadcaster_path p _ _ _ inner) attached sound.2
  have forwards := forwarded_messages p wiring mid final events path g id hdl
    (System.path_reachable _ _ _ _ (aggregator_path p _ _ _ earlier g)) settled open_ sound.1 start stop
  have printed := published_finite p wiring boot mid final past events before path finite (wiring.provider g id).1
    (wiring.provider g id).2
  refine ⟨held, pending, first, last, whole, ?_, ?_⟩
  · rw [collects]
    exact arrived_responses p wiring mid final events path g id hdl start stop conn leads
  · rw [forwards, published_relayed p.fp _ printed, List.forall₂_map_right_iff, List.forall₂_same]
    exact fun message member => twice_copy p.fp message (printed message member)

end

def attachedCheck (step : Broadcaster.Step Int) : Bool :=
  (step.before.handler ⟨0, 0⟩).any fun handler =>
    handler.session = .opened ∧ handler.dataReceivedSignal = .call ⟨0, "broadcast".toList⟩

def openCheck (step : Aggregator.Step Int) : Bool :=
  (step.before.handler 0).map ClientHandler.session = some .opened

def quietCheck (s : State (Broadcaster.Conn × Int) Broadcaster.Conn Int) : Bool :=
  s.2 (.quotes (⟨0, 0⟩, 0) 0) = [] ∧ s.2 (.replies ⟨0, 0⟩ 0) = []

def settledCheck (a : Aggregator.State) : Bool := a.slot 0 = some (.call 0) ∧ a.opening ≠ some 0

def soundCheck (s : State (Broadcaster.Conn × Int) Broadcaster.Conn Int) : Bool :=
  (s.1.2.1 ⟨0, 0⟩).fault = none ∧ s.1.2.2.fault = none

def steadyCheck (s : State (Broadcaster.Conn × Int) Broadcaster.Conn Int) : Bool :=
  quietCheck s && settledCheck (s.1.2.1 ⟨0, 0⟩) &&
    (aggregatorSteps ⟨0, 0⟩ (((feed Broadcaster.microPlatform apart).trace s twoQuotes).map innerEvent)).all openCheck &&
    (broadcasterSteps (((feed Broadcaster.microPlatform apart).trace s twoQuotes).map innerEvent)).all attachedCheck &&
    ((feed Broadcaster.microPlatform apart).run s twoQuotes).any fun done => quietCheck done.1 && soundCheck done.1

theorem quiet_checked (s : State (Broadcaster.Conn × Int) Broadcaster.Conn Int) (passes : quietCheck s = true) :
    Quiet apart ⟨0, 0⟩ 0 0 s := by
  obtain ⟨quotes, replies⟩ := of_decide_eq_true passes
  exact ⟨quotes, replies⟩

theorem settled_checked (a : Aggregator.State) (passes : settledCheck a = true) : Aggregator.Settled 0 0 a := by
  obtain ⟨slot, silent⟩ := of_decide_eq_true passes
  exact ⟨slot, silent⟩

theorem opened_checked (step : Aggregator.Step Int) (passes : openCheck step = true) : Aggregator.Opened 0 step.before := by
  have session := of_decide_eq_true passes
  exact session

theorem attached_checked (step : Broadcaster.Step Int) (passes : attachedCheck step = true) :
    Broadcaster.Attached ⟨0, 0⟩ step.before := by
  obtain ⟨handler, found, holds⟩ := (Option.any_eq_true _ _).mp passes
  obtain ⟨session, slot⟩ := of_decide_eq_true holds
  exact ⟨handler, _, found, session, slot, rfl⟩

theorem quiet_delivers_two : ∃ (past events : List (FeedStep (Broadcaster.Conn × Int) Broadcaster.Conn Int)),
    past.map Event.action = connectedRun ∧ events.map Event.action = twoQuotes ∧
    under ⟨0, 0⟩ (Broadcaster.collected Broadcaster.microPlatform (broadcasterSteps (events.map innerEvent))) =
      (loaded Doubles.micro
        (Aggregator.responses 0 (aggregatorSteps (⟨0, 0⟩ : Broadcaster.Conn) (events.map innerEvent)))).map Prod.snd ∧
    List.Forall₂ (Copy Doubles.micro)
      (DataProvider.published 0 (providerSteps (⟨0, 0⟩, 0) (events.map innerEvent)))
      (Aggregator.fromSource 0 (loaded Doubles.micro
        (Aggregator.responses 0 (aggregatorSteps (⟨0, 0⟩ : Broadcaster.Conn) (events.map innerEvent))))) := by
  obtain ⟨mid, log, ran, passes⟩ := (feed Broadcaster.microPlatform apart).run_check
    (init Broadcaster.microPlatform fun _ _ => 0) connectedRun (fun done => steadyCheck done.1) (by decide +kernel)
  simp only [steadyCheck, Bool.and_eq_true] at passes
  obtain ⟨⟨⟨⟨start, settled⟩, opened⟩, attached⟩, behind⟩ := passes
  obtain ⟨final, later, second, passes⟩ := (feed Broadcaster.microPlatform apart).run_check mid twoQuotes _ behind
  obtain ⟨stop, sound⟩ := Bool.and_eq_true_iff.mp passes
  obtain ⟨past, before, actions, _⟩ := (feed Broadcaster.microPlatform apart).run_path _ mid connectedRun log ran
  have path := (feed Broadcaster.microPlatform apart).trace_path mid final twoQuotes later second
  have seen := (feed Broadcaster.microPlatform apart).trace_seen mid final twoQuotes later second
  obtain ⟨_, _, _, _, _, tagged, copies⟩ := quiet_delivers Broadcaster.microPlatform apart (fun _ _ => 0)
    mid final past _ before path (fun _ message _ => micro_finite message.m_price)
    ⟨0, 0⟩ 0 0 ⟨0, 0⟩ rfl (settled_checked _ settled)
    (fun step member => opened_checked step (List.all_eq_true.mp opened step member))
    (fun step member => attached_checked step (List.all_eq_true.mp attached step member)) (of_decide_eq_true sound)
    (quiet_checked mid start) (quiet_checked final stop)
  exact ⟨past, _, actions, seen.1, tagged, copies⟩

end TradingFeed.Feed
