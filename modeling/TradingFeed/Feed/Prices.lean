import TradingFeed.Feed.Origins
import TradingFeed.Relay

set_option autoImplicit false

namespace TradingFeed.Feed

open TradingFeed.Json TradingFeed.Sockets TradingFeed.Common Library

variable {D : Type}

def twiceReloaded (fp : Doubles D) (message : DataProviderMessage D) : JSON D :=
  reloaded fp (reloaded fp message.toJsonObject)

theorem twice_copy (fp : Doubles D) (message : DataProviderMessage D) (finite : fp.Finite message.m_price) :
    Copy fp message (twiceReloaded fp message) :=
  copy_reloaded fp message _ (copy_reloaded fp message _ (message_copy fp message finite))

theorem relayed_finite (fp : Doubles D) (message : DataProviderMessage D) (finite : fp.Finite message.m_price) :
    relayed fp message = some (twiceReloaded fp message) := by
  have first := message_copy fp message finite
  have second := copy_reloaded fp message _ first
  have text : load fp (message.toJson fp) = .ok (reloaded fp message.toJsonObject) := copy_loads fp message _ first
  dsimp only [relayed]
  rw [text]
  change (load fp ((reloaded fp message.toJsonObject).dump fp)).toOption = _
  rw [copy_loads fp message _ second]
  rfl

theorem published_relayed (fp : Doubles D) (messages : List (DataProviderMessage D))
    (finite : ∀ message ∈ messages, fp.Finite message.m_price) :
    messages.filterMap (relayed fp) = messages.map (twiceReloaded fp) := by
  refine (List.filterMap_congr fun message member => ?_).trans
    (congrFun (List.filterMap_eq_map (f := twiceReloaded fp)) _)
  exact relayed_finite fp message (finite message member)

theorem rounds_finite (fp : Doubles D) (created : List (TimedMessage D)) (clock : List Int64)
    (sent : List (DataProviderMessage D)) (finite : ∀ message ∈ created, fp.Finite message.m_price)
    (rounds : DataProvider.Rounds created clock sent) : ∀ message ∈ sent, fp.Finite message.m_price := by
  intro message member
  obtain ⟨j, low, here⟩ := List.mem_iff_getElem.mp member
  have inside : j < clock.length := rounds.1 ▸ low
  obtain ⟨base, based, same⟩ := rounds.2 j clock[j] (List.getElem?_eq_getElem inside)
  rw [List.getElem?_eq_getElem low, here] at same
  cases same
  exact finite base (List.mem_of_getElem? based)

section

variable {P A : Type} [DecidableEq P] [DecidableEq A] (p : Platform D) (wiring : Wiring P A) (boot : P → Nat → Int64)
  (final : State P A D) (events : List (FeedStep P A D))
  (path : (feed p wiring).Path (init p boot) events final)
  (finite : ∀ provider, ∀ message ∈ DataProvider.messages p.fp (boot provider), p.fp.Finite message.m_price)

include path finite

theorem quotes_follow (values : List (JSON D)) (origins : List (Origin P A × JSON D))
    (originated : Originated p (events.map innerEvent) values origins) (provider : P) (hdl : Hdl) :
    ∃ clock sent kept, clock.Sublist (DataProvider.readings (providerSteps provider (events.map innerEvent))) ∧
      clock.length ≤ 500 ∧ DataProvider.Rounds (DataProvider.messages p.fp (boot provider)) clock sent ∧
      kept.Sublist sent ∧ List.Forall₂ (Copy p.fp) kept (under (.provider provider hdl) origins) := by
  have inner := inner_path p wiring boot final events path
  obtain ⟨clock, read, bound, rounds⟩ := DataProvider.sound_rounds p.fp (boot provider) _ _ hdl
    (DataProvider.path_sound _ _ _ (provider_path p _ _ _ inner provider))
  have printed := rounds_finite p.fp _ _ _ (finite provider) rounds
  have among := originated.quotes provider hdl
  rw [published_relayed p.fp _ printed] at among
  obtain ⟨kept, inside, same⟩ := List.sublist_map_iff.mp among
  refine ⟨clock, _, kept, read, bound, rounds, inside, ?_⟩
  rw [same, List.forall₂_map_right_iff, List.forall₂_same]
  exact fun message member => twice_copy p.fp message (printed message (inside.subset member))

theorem batches_follow_rounds :
    ∃ (pending : List (JSON D)) (origins : List (Origin P A × JSON D)), final.1.2.2.m_broadcastArray = .array pending ∧
      Originated p (events.map innerEvent)
        ((Broadcaster.batches (broadcasterSteps (events.map innerEvent))).flatten ++ pending) origins ∧
      ∀ provider hdl, ∃ clock sent kept,
        clock.Sublist (DataProvider.readings (providerSteps provider (events.map innerEvent))) ∧ clock.length ≤ 500 ∧
        DataProvider.Rounds (DataProvider.messages p.fp (boot provider)) clock sent ∧ kept.Sublist sent ∧
        List.Forall₂ (Copy p.fp) kept (under (.provider provider hdl) origins) := by
  have inner := inner_path p wiring boot final events path
  obtain ⟨pending, held, _, all⟩ := Broadcaster.path_pending p _ _ (broadcaster_path p _ _ _ inner)
  obtain ⟨origins, originated⟩ := arrived_originated p wiring boot final events path _ (Broadcaster.collected_sublist p _)
  rw [← all] at originated
  exact ⟨pending, origins, held, originated, quotes_follow p wiring boot final events path finite _ origins originated⟩

end

theorem batches_follow_rounds_quoted : ∃ (events : List (FeedStep (Broadcaster.Conn × Int) Broadcaster.Conn Int))
    (pending : List (JSON Int)) (origins : List (Origin (Broadcaster.Conn × Int) Broadcaster.Conn × JSON Int)),
    events.map Event.action = quotedRun ∧
    Originated Broadcaster.microPlatform (events.map innerEvent)
      ((Broadcaster.batches (broadcasterSteps (events.map innerEvent))).flatten ++ pending) origins ∧
    ∃ clock sent kept, clock.length ≤ 500 ∧
      DataProvider.Rounds (DataProvider.messages Doubles.micro fun _ => 0) clock sent ∧ kept.Sublist sent ∧
      List.Forall₂ (Copy Doubles.micro) kept (under (.provider (⟨0, 0⟩, 0) 0) origins) := by
  obtain ⟨events, final, path, actions⟩ := quoted_path
  obtain ⟨pending, origins, _, originated, each⟩ := batches_follow_rounds Broadcaster.microPlatform apart (fun _ _ => 0)
    final events path (fun _ message _ => micro_finite message.m_price)
  obtain ⟨clock, sent, kept, _, bound, rounds, inside, copies⟩ := each (⟨0, 0⟩, 0) 0
  exact ⟨events, pending, origins, actions, originated, clock, sent, kept, bound, rounds, inside, copies⟩

end TradingFeed.Feed
