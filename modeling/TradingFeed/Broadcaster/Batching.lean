import TradingFeed.Broadcaster.Delivery
import TradingFeed.Library.Batches

set_option autoImplicit false

namespace TradingFeed.Broadcaster

open TradingFeed.Json TradingFeed.Sockets

variable {D : Type}

def sentTo (hdl : Hdl) (outputs : List (Output D)) : List (Sent D) :=
  outputs.filterMap fun output =>
    match output with
    | .send receiver sent => if receiver = hdl then some sent else none
    | _ => none

def Pending (s : State D) (elements : List (JSON D)) : Prop := s.m_broadcastArray = .array elements

theorem sent_to_append (hdl : Hdl) (front back : List (Output D)) :
    sentTo hdl (front ++ back) = sentTo hdl front ++ sentTo hdl back := by
  dsimp only [sentTo]
  exact List.filterMap_append

theorem sent_to_repost (hdl : Hdl) (s : State D) : sentTo hdl (repost s).2 = [] := by
  dsimp only [repost, sentTo]
  split <;> simp

theorem batch_push (s : State D) (hdl : Hdl) (response : JSON D) (elements : List (JSON D))
    (pending : Pending s elements) :
    Pending (batch s hdl response).1 (Library.push 2 elements response).1 ∧
      (batch s hdl response).2 = (Library.push 2 elements response).2.map fun full => .send hdl (.batch full) := by
  have appended : s.m_broadcastArray.append response = .array (elements ++ [response]) := by
    rw [pending]
    rfl
  by_cases full : (elements ++ [response]).length = 2
  · have size : (JSON.array (elements ++ [response])).size = 2 := by simp only [JSON.size, full]; rfl
    unfold batch Library.push
    rw [appended]
    dsimp only
    rw [if_pos size, if_pos full]
    exact ⟨rfl, rfl⟩
  · have size : (JSON.array (elements ++ [response])).size ≠ 2 := by
      simp only [JSON.size]
      omega
    unfold batch Library.push
    rw [appended]
    dsimp only
    rw [if_neg size, if_neg full]
    exact ⟨rfl, rfl⟩

theorem deliver_broadcast (sub : Subscription) (status : JSON D) (s : State D) (elements : List (JSON D))
    (channel : sub.channel = "broadcast".toList) (pending : Pending s elements) :
    Pending (deliver sub status s).1 (Library.push 2 elements status).1 ∧
      sentTo sub.hdl (deliver sub status s).2 = (Library.push 2 elements status).2.map Sent.batch := by
  have posted : Pending (repost s).1 elements := (repost_batch s).trans pending
  obtain ⟨after, outputs⟩ := batch_push (repost s).1 sub.hdl status elements posted
  dsimp only [deliver]
  rw [if_pos channel]
  refine ⟨after, ?_⟩
  dsimp only
  rw [sent_to_append, sent_to_repost, List.nil_append, outputs]
  simp [sentTo]

theorem deliver_pending (sub : Subscription) (status : JSON D) (s : State D) (elements : List (JSON D))
    (pending : Pending s elements) :
    Pending (deliver sub status s).1 elements ∨
      Pending (deliver sub status s).1 (Library.push 2 elements status).1 := by
  have posted : Pending (repost s).1 elements := (repost_batch s).trans pending
  dsimp only [deliver]
  split
  · exact Or.inr (batch_push (repost s).1 sub.hdl status elements posted).1
  · split
    · exact Or.inl posted
    · split
      · exact Or.inl pending
      · split <;> exact Or.inl pending

def HalfFull (s : State D) : Prop := ∃ elements, Pending s elements ∧ elements.length < 2

theorem half_full_step (p : Platform D) (s t : State D) (action : Action) (out : List (Output D))
    (half : HalfFull s) (taken : step p s action = some (t, out)) : HalfFull t := by
  obtain ⟨elements, pending, short⟩ := half
  rcases step_batch p s t action out taken with same | ⟨sub, status, rfl⟩
  · exact ⟨elements, same.trans pending, short⟩
  · rcases deliver_pending sub status s elements pending with kept | pushed
    · exact ⟨elements, kept, short⟩
    · exact ⟨_, pushed, Library.push_short 2 elements status short⟩

theorem reachable_half_full (p : Platform D) (s : State D) (reach : (broadcaster p).Reachable .init s) : HalfFull s :=
  (broadcaster p).reachable_invariant .init HalfFull ⟨[], rfl, Nat.zero_lt_two⟩
    (fun s action t out half taken => half_full_step p s t action out half taken) s reach

-- One message of an aggregator as a run meets it: where it arrives, its text and
-- what JSON::Load makes of it.
structure Price (D : Type) where
  conn : Conn
  data : Text
  value : JSON D

def Price.action (price : Price D) : Action := .received price.conn price.data

theorem broadcast_run (p : Platform D) (sub : Subscription) (channel : sub.channel = "broadcast".toList)
    (prices : List (Price D)) (s : State D) (elements : List (JSON D)) (pending : Pending s elements)
    (sound : s.fault = none) (alive : s.m_server.alive sub.hdl = true)
    (force : ∀ price ∈ prices, s.InForce price.conn sub)
    (loaded : ∀ price ∈ prices, load p.fp price.data = .ok price.value) :
    ∃ t log, (broadcaster p).run s (prices.map Price.action) = some (t, log) ∧
      sentTo sub.hdl log.flatten = (Library.feed 2 elements (prices.map Price.value)).2.map Sent.batch ∧
      Pending t (Library.feed 2 elements (prices.map Price.value)).1 := by
  induction prices generalizing s elements with
  | nil => exact ⟨s, [], rfl, rfl, pending⟩
  | cons price prices ih =>
      obtain ⟨next, out, delivered⟩ : ∃ next out, deliver sub price.value s = (next, out) := ⟨_, _, rfl⟩
      have taken : step p s price.action = some (next, out) := by
        rw [← delivered]
        exact step_received_ok p s price.conn sub price.data price.value sound (force price (by simp)) alive
          (loaded price (by simp))
      have registry := deliver_registry sub price.value s
      have pushed := deliver_broadcast sub price.value s elements channel pending
      rw [delivered] at registry pushed
      obtain ⟨t, log, ran, sent, last⟩ := ih next _ pushed.1 (registry.fault.trans sound)
        (by rw [registry.server]; exact alive)
        (fun other member => (in_force_same s next other.conn sub registry.endPoints).mpr (force other (by simp [member])))
        (fun other member => loaded other (by simp [member]))
      refine ⟨t, out :: log, ((broadcaster p).run_cons s t _ _ _).mpr ⟨next, out, log, taken, ran, rfl⟩, ?_, last⟩
      rw [List.flatten_cons, sent_to_append, pushed.2, sent]
      simp [Library.feed]

theorem half_full_array (s : State D) (half : HalfFull s) :
    ∃ elements, s.m_broadcastArray = .array elements ∧ elements.length ≤ 1 := by
  obtain ⟨elements, pending, short⟩ := half
  exact ⟨elements, pending, Nat.le_of_lt_succ short⟩

theorem pair_slice (prices : List (Price D)) (k : Nat) (first second : Price D) (one : prices[2 * k]? = some first)
    (other : prices[2 * k + 1]? = some second) :
    ((prices.map Price.value).drop (k * 2)).take 2 = [first.value, second.value] := by
  have here : (prices.drop (2 * k))[0]? = some first := by simpa using one
  have next : (prices.drop (2 * k))[1]? = some second := by simpa using other
  rw [← List.map_drop, ← List.map_take, Nat.mul_comm k 2]
  match tail : prices.drop (2 * k) with
  | [] => simp [tail] at here
  | [_] => simp [tail] at next
  | a :: b :: rest =>
      rw [tail] at here next
      cases here
      cases next
      rfl

theorem broadcast_batches (p : Platform D) :
    (∀ s, (broadcaster p).Reachable .init s →
      ∃ elements, s.m_broadcastArray = .array elements ∧ elements.length ≤ 1) ∧
    ∀ (s : State D) (hdl : Hdl) (prices : List (Price D)), s.fault = none → s.m_server.alive hdl = true →
      s.m_broadcastArray = .array [] → (∀ conn ∈ s.tracked, s.InForce conn ⟨hdl, "broadcast".toList⟩) →
      (∀ price ∈ prices, price.conn ∈ s.tracked ∧ load p.fp price.data = .ok price.value) →
      ∃ t log, (broadcaster p).run s (prices.map Price.action) = some (t, log) ∧
        (sentTo hdl log.flatten).length = prices.length / 2 ∧
        (∀ k first second, prices[2 * k]? = some first → prices[2 * k + 1]? = some second →
          (sentTo hdl log.flatten)[k]? = some (.batch [first.value, second.value])) ∧
        (prices.length % 2 = 0 → t.m_broadcastArray = .array []) ∧
        ∀ last, prices.length % 2 = 1 → prices.getLast? = some last → t.m_broadcastArray = .array [last.value] := by
  refine ⟨fun s reach => half_full_array s (reachable_half_full p s reach), ?_⟩
  intro s hdl prices sound alive empty force given
  obtain ⟨t, log, ran, sent, pending⟩ := broadcast_run p ⟨hdl, "broadcast".toList⟩ rfl prices s [] empty sound alive
    (fun price member => force price.conn (given price member).1) fun price member => (given price member).2
  obtain ⟨blocks, rest⟩ := Library.feed_blocks 2 (prices.map Price.value) Nat.zero_lt_two
  rw [blocks, List.map_map, List.length_map] at sent
  rw [rest, List.length_map] at pending
  have whole := Nat.div_add_mod prices.length 2
  refine ⟨t, log, ran, by rw [sent]; simp, ?_, ?_, ?_⟩
  · intro k first second one other
    have inside : 2 * k + 1 < prices.length := (List.getElem?_eq_some_iff.mp other).1
    rw [sent, List.getElem?_map, List.getElem?_range (by omega), Option.map_some, Function.comp,
      pair_slice prices k first second one other]
  · intro even
    have all : prices.length / 2 * 2 = prices.length := by omega
    have none : (prices.map Price.value).drop prices.length = [] := List.drop_eq_nil_of_le (by simp)
    rw [all, none] at pending
    exact pending
  · intro last odd final
    obtain ⟨front, rfl⟩ := List.getLast?_eq_some_iff.mp final
    have all : (front ++ [last]).length / 2 * 2 = front.length := by
      simp only [List.length_append, List.length_singleton] at odd ⊢
      omega
    have remaining : ((front ++ [last]).map Price.value).drop front.length = [last.value] := by simp
    rw [all, remaining] at pending
    exact pending

theorem broadcast_batches_three :
    ∃ s t log, (broadcaster .plain).Reachable .init s ∧ s.m_broadcastArray = .array [] ∧
      (broadcaster .plain).run s (List.replicate 3 (.received ⟨0, 0⟩ priceText)) = some (t, log) ∧
      (sentTo 0 log.flatten).length = 1 := by
  obtain ⟨s, log, ran, subscribed⟩ := subscribed_run
  let price : Price Int := ⟨⟨0, 0⟩, priceText, priceValue⟩
  obtain ⟨t, sent, followed, count, _⟩ := (broadcast_batches .plain).2 s 0 (List.replicate 3 price) subscribed.sound
    subscribed.alive subscribed.empty
    (fun conn member => by
      rw [subscribed.tracked] at member
      rw [List.mem_singleton.mp member]
      exact subscribed.force)
    (fun other member => by
      rw [(List.mem_replicate.mp member).2, subscribed.tracked]
      exact ⟨List.mem_singleton.mpr rfl, load_price _⟩)
  exact ⟨s, t, sent, ⟨subscribedRun, log, ran⟩, subscribed.empty, followed, count.trans (by simp)⟩

end TradingFeed.Broadcaster
