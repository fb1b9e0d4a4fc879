import TradingFeed.Aggregator.Acknowledged
import TradingFeed.Broadcaster.Batching
import TradingFeed.Broadcaster.LatestPrice
import TradingFeed.Common.DataProviderMessage

set_option autoImplicit false

namespace TradingFeed

open TradingFeed.Json TradingFeed.Sockets TradingFeed.Common

variable {D : Type}

structure Forwarding (a : Aggregator.State) (id : Int) (hdl : Hdl) : Prop where
  sound : a.fault = none
  free : a.opening = none
  slot : ∃ handler, a.handler id = some handler ∧ handler.receives = true ∧ handler.dataReceivedSignal = .call hdl
  alive : a.m_server.alive hdl = true

structure Broadcasting (s : Broadcaster.State D) (conn : Broadcaster.Conn) (sub : Broadcaster.Subscription) : Prop where
  sound : s.fault = none
  force : s.InForce conn sub
  alive : s.m_server.alive sub.hdl = true
  channel : sub.channel = "broadcast".toList

def Relayed (fp : Doubles D) (m1 m2 : DataProviderMessage D) (text : Text) : Prop :=
  ∃ first second, load fp text = .ok (.array [first, second]) ∧
    printed fp first = printed fp m1.toJsonObject ∧ printed fp second = printed fp m2.toJsonObject

-- A value that came out of Load, after any number of dumps.
structure Copy (fp : Doubles D) (message : DataProviderMessage D) (json : JSON D) : Prop where
  printed : printed fp json = printed fp message.toJsonObject
  ordered : Ordered json
  printable : Printable fp json

section

variable (fp : Doubles D) (message : DataProviderMessage D) (json : JSON D)

theorem message_copy (finite : fp.Finite message.m_price) : Copy fp message message.toJsonObject :=
  ⟨rfl, message_ordered message, message_printable fp message finite⟩

theorem copy_reloaded (copy : Copy fp message json) : Copy fp message (reloaded fp json) := by
  have kept := reload_keeps fp json copy.ordered copy.printable
  exact ⟨kept.printed.trans copy.printed, kept.ordered, kept.printable⟩

theorem copy_no_number (copy : Copy fp message json) : ¬Number json := by
  have object := copy.printed
  intro number
  cases json with
  | floating d => cases object
  | integral n => cases object
  | _ => exact number

theorem copy_loads (copy : Copy fp message json) : load fp (json.dump fp) = .ok (reloaded fp json) :=
  load_dump fp json copy.printable (copy_no_number fp message json copy)

end

theorem batch_relayed (fp : Doubles D) (m1 m2 : DataProviderMessage D) (first second : JSON D)
    (one : Copy fp m1 first) (other : Copy fp m2 second) :
    Relayed fp m1 m2 ((Broadcaster.Sent.batch [first, second]).text fp) := by
  have printable : Printable fp (.array [first, second]) := ⟨one.printable, other.printable, trivial⟩
  exact ⟨reloaded fp first, reloaded fp second, load_dump fp _ printable (fun number => number),
    (copy_reloaded fp m1 first one).printed, (copy_reloaded fp m2 second other).printed⟩

theorem forwarding_step (p : Platform D) (a : Aggregator.State) (id : Int) (hdl : Hdl) (data : Text) (response : JSON D)
    (forwarding : Forwarding a id hdl) (loaded : load p.fp data = .ok response) :
    Aggregator.step p a (.received id data) = some (a, [.send hdl response]) := by
  obtain ⟨handler, found, receives, slot⟩ := forwarding.slot
  have sent : Aggregator.clientOnMessage p a handler data = .ok [.send hdl response] := by
    simp only [Aggregator.clientOnMessage, Aggregator.emitDataReceived, slot, Aggregator.forward, forwarding.alive, if_true,
      (load_text_ok p data response).mpr loaded, Except.map]
  simp [Aggregator.step, Aggregator.receive, forwarding.sound, forwarding.free, found, receives, sent]

theorem broadcasting_step (p : Platform D) (s : Broadcaster.State D) (conn : Broadcaster.Conn)
    (sub : Broadcaster.Subscription) (data : Text) (status : JSON D) (elements : List (JSON D))
    (broadcasting : Broadcasting s conn sub) (pending : Broadcaster.Pending s elements)
    (loaded : load p.fp data = .ok status) :
    ∃ t out, Broadcaster.step p s (.received conn data) = some (t, out) ∧
      Broadcaster.Pending t (Library.push 2 elements status).1 ∧
      Broadcaster.sentTo sub.hdl out = (Library.push 2 elements status).2.map .batch := by
  obtain ⟨kept, sent⟩ := Broadcaster.deliver_broadcast sub status s elements broadcasting.channel pending
  exact ⟨_, _, Broadcaster.step_received_ok p s conn sub data status broadcasting.sound broadcasting.force
    broadcasting.alive loaded, kept, sent⟩

theorem relay_transparent (p : Platform D) (m1 m2 : DataProviderMessage D) (finite1 : p.fp.Finite m1.m_price)
    (finite2 : p.fp.Finite m2.m_price) (a1 a2 : Aggregator.State) (id1 id2 : Int) (hdl1 hdl2 : Hdl)
    (forwarding1 : Forwarding a1 id1 hdl1) (forwarding2 : Forwarding a2 id2 hdl2) (s : Broadcaster.State D)
    (conn1 conn2 : Broadcaster.Conn) (sub1 sub2 : Broadcaster.Subscription) (broadcasting : Broadcasting s conn1 sub1)
    (empty : s.m_broadcastArray = .array []) :
    ∃ response1 response2 t out,
      Aggregator.step p a1 (.received id1 (m1.toJson p.fp)) = some (a1, [.send hdl1 response1]) ∧
      Aggregator.step p a2 (.received id2 (m2.toJson p.fp)) = some (a2, [.send hdl2 response2]) ∧
      Broadcaster.step p s (.received conn1 (response1.dump p.fp)) = some (t, out) ∧
      Broadcaster.sentTo sub1.hdl out = [] ∧
      ∀ u, u.m_broadcastArray = t.m_broadcastArray → Broadcasting u conn2 sub2 →
        ∃ v last sent, Broadcaster.step p u (.received conn2 (response2.dump p.fp)) = some (v, last) ∧
          Broadcaster.sentTo sub2.hdl last = [sent] ∧ v.m_broadcastArray = .array [] ∧
          Relayed p.fp m1 m2 (sent.text p.fp) := by
  have one := message_copy p.fp m1 finite1
  have other := message_copy p.fp m2 finite2
  have one' := copy_reloaded p.fp m1 _ one
  have other' := copy_reloaded p.fp m2 _ other
  obtain ⟨t, out, taken, pending, silent⟩ := broadcasting_step p s conn1 sub1 _ _ [] broadcasting empty
    (copy_loads p.fp m1 _ one')
  refine ⟨_, _, t, out, forwarding_step p a1 id1 hdl1 _ _ forwarding1 (copy_loads p.fp m1 _ one),
    forwarding_step p a2 id2 hdl2 _ _ forwarding2 (copy_loads p.fp m2 _ other), taken, silent, ?_⟩
  intro u same again
  obtain ⟨v, last, second, emptied, sent⟩ := broadcasting_step p u conn2 sub2 _ _ _ again (same.trans pending)
    (copy_loads p.fp m2 _ other')
  exact ⟨v, last, _, second, sent, emptied, batch_relayed p.fp m1 m2 _ _ (copy_reloaded p.fp m1 _ one')
    (copy_reloaded p.fp m2 _ other')⟩

def controlMessage : DataProviderMessage Int where
  m_symbol := "\"TS\\LA\x01\n".toList
  m_symbolName := "Tesla\t\x7b\x7d".toList
  m_price := -250500000
  m_quantity := -3
  m_timestamp := 18446744073709551615

def plainMessage : DataProviderMessage Int where
  m_symbol := "AMZN".toList
  m_symbolName := []
  m_price := 31
  m_quantity := 2147483647
  m_timestamp := 7

theorem micro_forwarding : ∃ a, Forwarding a 0 0 := by
  obtain ⟨a, _, _, checked⟩ := (Aggregator.aggregator Broadcaster.microPlatform).run_check .init
    (Aggregator.repliedRun ++ [.wake, .start 0, .install 0])
    (fun done => done.1.fault = none ∧ done.1.opening = none ∧ done.1.m_server.alive 0 = true ∧
      (done.1.handler 0).any (fun handler => handler.receives && handler.dataReceivedSignal = .call 0) = true)
    (by decide +kernel)
  obtain ⟨sound, free, alive, slot⟩ := of_decide_eq_true checked
  obtain ⟨handler, found, ready⟩ := (Option.any_eq_true _ _).mp slot
  simp only [Bool.and_eq_true, decide_eq_true_eq] at ready
  exact ⟨a, sound, free, ⟨handler, found, ready⟩, alive⟩

theorem micro_broadcasting :
    ∃ s : Broadcaster.State Int, Broadcasting s ⟨0, 0⟩ ⟨0, "broadcast".toList⟩ ∧ s.m_broadcastArray = .array [] := by
  obtain ⟨s, _, _, checked⟩ := (Broadcaster.broadcaster Broadcaster.microPlatform).run_check .init
    Broadcaster.subscribedRun
    (fun done => done.1.fault = none ∧ done.1.m_server.alive 0 = true ∧
      done.1.handsTo Broadcaster.microPlatform ⟨0, 0⟩ Broadcaster.priceText = some ⟨0, "broadcast".toList⟩ ∧
      Broadcaster.nothingBatched done.1 = true) (by decide +kernel)
  obtain ⟨sound, alive, handed, empty⟩ := of_decide_eq_true checked
  have force := ((Broadcaster.hands_to_some _ s _ _ _).mp handed).1
  exact ⟨s, ⟨sound, force, alive, rfl⟩, Broadcaster.nothing_batched_checked s empty⟩

theorem relay_transparent_control :
    ∃ u v data last sent, Broadcaster.step Broadcaster.microPlatform u (.received ⟨0, 0⟩ data) = some (v, last) ∧
      Broadcaster.sentTo 0 last = [sent] ∧
      Relayed Broadcaster.microPlatform.fp controlMessage plainMessage (sent.text Broadcaster.microPlatform.fp) := by
  obtain ⟨a, forwarding⟩ := micro_forwarding
  obtain ⟨s, broadcasting, empty⟩ := micro_broadcasting
  obtain ⟨_, _, t, _, _, _, _, _, next⟩ := relay_transparent Broadcaster.microPlatform controlMessage plainMessage
    (micro_finite _) (micro_finite _) a a 0 0 0 0 forwarding forwarding s ⟨0, 0⟩ ⟨0, 0⟩ _ ⟨0, "broadcast".toList⟩
    broadcasting empty
  let u : Broadcaster.State Int := { s with m_broadcastArray := t.m_broadcastArray }
  have again : Broadcasting u ⟨0, 0⟩ ⟨0, "broadcast".toList⟩ := ⟨broadcasting.sound,
    (Broadcaster.in_force_same s u ⟨0, 0⟩ _ rfl).mpr broadcasting.force, broadcasting.alive, rfl⟩
  obtain ⟨v, last, sent, taken, one, _, relayed⟩ := next u rfl again
  exact ⟨u, v, _, last, sent, taken, one, relayed⟩

end TradingFeed
