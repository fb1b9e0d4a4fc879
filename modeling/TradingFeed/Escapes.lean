import TradingFeed.Aggregator.Transitions
import TradingFeed.Broadcaster.Transitions

set_option autoImplicit false

namespace TradingFeed

open TradingFeed.Json TradingFeed.Sockets

variable {D : Type}

-- No exception leaves a handler that is given the payload: the message handlers
-- of the two servers, in any state, and the two data callbacks while the consumer
-- they captured is connected. A handler that waits raises nothing afterwards.
structure NoEscape (p : Platform D) (payload : Text) : Prop where
  aggregator : ∀ (s : Aggregator.State) (hdl : Hdl), ∃ result, Aggregator.onMessage p s hdl payload = .ok result
  forwarding : ∀ (s : Aggregator.State) (hdl : Hdl), s.m_server.alive hdl = true →
    ∃ out, Aggregator.forward p s hdl payload = .ok out
  broadcaster : ∀ (s : Broadcaster.State D) (hdl : Hdl), ∃ result, Broadcaster.onMessage p s hdl payload = .ok result
  client : ∀ (s : Broadcaster.State D) (handler : ClientHandler Broadcaster.Subscription),
    handler.dataReceivedSignal ≠ .unset →
      (∀ sub, handler.dataReceivedSignal = .call sub → s.m_server.alive sub.hdl = true) →
        ∃ result, Broadcaster.clientOnMessage p handler payload s = .ok result
  aggregatorWaits : ∀ (s t : Aggregator.State) (out : List (Aggregator.Output D)),
    Aggregator.step p s .wake = some (t, out) → t.fault = none
  broadcasterWaits : ∀ (s t : Broadcaster.State D) (out : List (Broadcaster.Output D)),
    Broadcaster.step p s .wake = some (t, out) → t.fault = none

theorem aggregator_wake_sound (p : Platform D) (s t : Aggregator.State) (out : List (Aggregator.Output D))
    (taken : Aggregator.step p s .wake = some (t, out)) : t.fault = none := by
  obtain ⟨sound, moved⟩ := Aggregator.step_transition p s t .wake out taken
  cases moved <;> exact sound

theorem broadcaster_wake_sound (p : Platform D) (s t : Broadcaster.State D) (out : List (Broadcaster.Output D))
    (taken : Broadcaster.step p s .wake = some (t, out)) : t.fault = none := by
  obtain ⟨sound, moved⟩ := Broadcaster.step_transition p s t .wake out taken
  cases moved with
  | added call => exact (Broadcaster.steady_wake_adding p s call).fault.trans sound
  | deleted e rest => exact (Broadcaster.steady_destroy s rest).fault.trans sound
  | joined e rest => exact (Broadcaster.steady_destroy _ rest).fault.trans sound

theorem no_escape_of_load (p : Platform D) (payload : Text) (json : JSON D) (loaded : load p.fp payload = .ok json) :
    NoEscape p payload where
  aggregator s hdl := by
    refine ⟨Aggregator.command p s hdl json, ?_⟩
    dsimp only [Aggregator.onMessage]
    rw [(load_text_ok p payload json).mpr loaded]
    rfl
  forwarding s hdl alive := by
    refine ⟨[.send hdl json], ?_⟩
    dsimp only [Aggregator.forward]
    rw [if_pos alive, (load_text_ok p payload json).mpr loaded]
    rfl
  broadcaster s hdl := by
    refine ⟨Broadcaster.command p (Broadcaster.subscribePart p s hdl json) hdl payload json, ?_⟩
    dsimp only [Broadcaster.onMessage]
    rw [(load_text_ok p payload json).mpr loaded]
    rfl
  client s handler ready connected := by
    cases slot : handler.dataReceivedSignal with
    | unset => exact absurd slot ready
    | ignore =>
        exact ⟨(s, []), (Broadcaster.client_on_message_ok p handler payload s _).mpr ⟨json, loaded, Or.inl ⟨slot, rfl⟩⟩⟩
    | call sub =>
        exact ⟨_, (Broadcaster.client_on_message_ok p handler payload s _).mpr
          ⟨json, loaded, Or.inr ⟨sub, slot, connected sub slot, rfl⟩⟩⟩
  aggregatorWaits := aggregator_wake_sound p
  broadcasterWaits := broadcaster_wake_sound p

theorem load_of_no_escape (p : Platform D) (payload : Text) (safe : NoEscape p payload) :
    ∃ json, load p.fp payload = .ok json := by
  obtain ⟨result, returned⟩ := safe.aggregator .init 0
  dsimp only [Aggregator.onMessage, loadText] at returned
  cases loaded : load p.fp payload with
  | ok json => exact ⟨json, rfl⟩
  | error fault =>
      rw [loaded] at returned
      cases returned

theorem no_escape_iff (p : Platform D) (payload : Text) (inside : load p.fp payload ≠ .error .pastEnd) :
    NoEscape p payload ↔ ∀ token, Reaches payload token → token.Converts p.fp := by
  constructor
  · intro safe
    exact (load_ok_iff p.fp payload inside).mp (load_of_no_escape p payload safe)
  · intro converts
    obtain ⟨json, loaded⟩ := (load_ok_iff p.fp payload inside).mpr converts
    exact no_escape_of_load p payload json loaded

def wholeText : Text := "\x7b\"price\":105\x7d".toList

theorem load_whole : load Platform.plain.fp wholeText = .ok (.object [("price".toList, .integral 105)]) :=
  load_same _ _ _ (by decide +kernel)

theorem no_escape_iff_whole : NoEscape .plain wholeText := by
  have loaded := load_whole
  exact (no_escape_iff .plain wholeText (by rw [loaded]; simp)).mpr (load_converts Platform.plain.fp wholeText _ loaded)

-- An exponent of one digit: the digit is skipped and nothing is left for stol.
def exponentText : Text := "\x7b\"price\":1e5\x7d".toList

theorem load_exponent : load Platform.plain.fp exponentText = .error .invalidArgument :=
  load_same _ _ _ (by decide +kernel)

theorem exponent_escapes :
    load Platform.plain.fp exponentText ≠ .error .pastEnd ∧ ¬NoEscape .plain exponentText ∧
      Aggregator.onMessage .plain .init 0 exponentText = .error (.load .invalidArgument) ∧
      Aggregator.forward .plain { Aggregator.State.init with m_server := ⟨[true]⟩ } 0 exponentText =
        .error (.load .invalidArgument) ∧
      Broadcaster.onMessage .plain .init 0 exponentText = .error (.load .invalidArgument) ∧
      Broadcaster.clientOnMessage .plain (ClientHandler.new 0).onOpen exponentText .init =
        .error (.load .invalidArgument) := by
  have raised := load_exponent
  have text : loadText .plain exponentText = .error (.load .invalidArgument) := by
    dsimp only [loadText]
    rw [raised]
  refine ⟨by rw [raised]; simp, fun safe => ?_, ?_, ?_, ?_, ?_⟩
  · obtain ⟨json, loaded⟩ := load_of_no_escape .plain exponentText safe
    rw [raised] at loaded
    cases loaded
  · dsimp only [Aggregator.onMessage]
    rw [text]
    rfl
  · dsimp only [Aggregator.forward]
    rw [text]
    rfl
  · dsimp only [Broadcaster.onMessage]
    rw [text]
    rfl
  · dsimp only [Broadcaster.clientOnMessage]
    rw [text]
    rfl

end TradingFeed
