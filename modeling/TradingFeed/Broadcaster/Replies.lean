import TradingFeed.Broadcaster.Delivery

set_option autoImplicit false

namespace TradingFeed.Broadcaster

open TradingFeed.Json TradingFeed.Sockets

variable {D : Type}

structure ForwardsReply (p : Platform D) (hdl : Hdl) (status : JSON D) (s t : State D) (out : List (Output D)) :
    Prop where
  forwarded : ∃ sent, out = [.send hdl sent] ∧ sent.text p.fp = status.dump p.fp
  unbatched : t.m_broadcastArray = s.m_broadcastArray
  unpriced : .send hdl (.latestPrice status) ∉ out

-- deliver tests these channels before it looks at the status.
def testedChannels : List Text := ["broadcast".toList, "latest-price".toList, "unsubscribe".toList]

theorem escape_char_nonempty (c : Char) : escapeChar c ≠ [] := by
  dsimp only [escapeChar]
  split <;> simp

theorem escape_nonempty (text : Text) (given : text ≠ []) : jsonEscape text ≠ [] := by
  cases text with
  | nil => exact absurd rfl given
  | cons c rest =>
      dsimp only [jsonEscape]
      simp [List.flatMap_cons, escape_char_nonempty c]

theorem batch_changes (s : State D) (hdl : Hdl) (response : JSON D) :
    (batch s hdl response).1.m_broadcastArray ≠ s.m_broadcastArray := by
  dsimp only [batch]
  split
  · rename_i full
    intro same
    rw [← same] at full
    simp [JSON.append, JSON.elements, JSON.size] at full
  · intro same
    have lengths := congrArg (fun json => json.elements.length) same
    simp [JSON.append, JSON.elements] at lengths

theorem deliver_broadcast_changes (sub : Subscription) (status : JSON D) (s : State D)
    (channel : sub.channel = "broadcast".toList) :
    (deliver sub status s).1.m_broadcastArray ≠ s.m_broadcastArray := by
  dsimp only [deliver]
  rw [if_pos channel]
  dsimp only
  rw [← repost_batch s]
  exact batch_changes (repost s).1 sub.hdl status

theorem deliver_untested (sub : Subscription) (status : JSON D) (s : State D)
    (untested : sub.channel ∉ testedChannels) (reply : (status.index "status".toList).asText ≠ []) :
    deliver sub status s = (s, [.send sub.hdl (.reply status)]) := by
  simp only [testedChannels, List.mem_cons, List.not_mem_nil, or_false, not_or] at untested
  dsimp only [deliver]
  rw [if_neg untested.1, if_neg untested.2.1, if_neg untested.2.2, if_pos reply]

theorem deliver_tested (p : Platform D) (sub : Subscription) (status : JSON D) (s : State D)
    (tested : sub.channel ∈ testedChannels) :
    ¬ForwardsReply p sub.hdl status s (deliver sub status s).1 (deliver sub status s).2 := by
  intro forwards
  by_cases broadcast : sub.channel = "broadcast".toList
  · exact deliver_broadcast_changes sub status s broadcast forwards.unbatched
  · by_cases latest : sub.channel = "latest-price".toList
    · have priced : .send sub.hdl (.latestPrice status) ∈ (deliver sub status s).2 := by
        dsimp only [deliver]
        rw [if_neg broadcast, if_pos latest]
        simp
      exact forwards.unpriced priced
    · simp only [testedChannels, List.mem_cons, List.not_mem_nil, or_false] at tested
      have unsubscribe := (tested.resolve_left broadcast).resolve_left latest
      obtain ⟨sent, only, _⟩ := forwards.forwarded
      dsimp only [deliver] at only
      rw [if_neg broadcast, if_neg latest, if_pos unsubscribe] at only
      simp at only

theorem reply_forwarded_iff (p : Platform D) (s : State D) (conn : Conn) (sub : Subscription) (data text : Text)
    (status : JSON D) (sound : s.fault = none) (force : s.InForce conn sub)
    (alive : s.m_server.alive sub.hdl = true) (loaded : load p.fp data = .ok status)
    (reply : status.index "status".toList = .string text) (given : text ≠ []) :
    (∃ t out, step p s (.received conn data) = some (t, out) ∧ ForwardsReply p sub.hdl status s t out) ↔
      sub.channel ∉ testedChannels := by
  have taken := step_received_ok p s conn sub data status sound force alive loaded
  constructor
  · rintro ⟨t, out, stepped, forwards⟩ tested
    rw [taken] at stepped
    have same := Option.some.inj stepped
    apply deliver_tested p sub status s tested
    rw [same]
    exact forwards
  · intro untested
    have nonempty : (status.index "status".toList).asText ≠ [] := by
      rw [reply]
      exact escape_nonempty text given
    rw [deliver_untested sub status s untested nonempty] at taken
    exact ⟨s, _, taken, ⟨.reply status, rfl, rfl⟩, rfl, by simp⟩

def replyText : Text := "\x7b\"status\":\"processed\"\x7d".toList

def replyValue : JSON D := .object [("status".toList, .string "processed".toList)]

theorem load_reply (fp : Doubles D) : load fp replyText = .ok replyValue := by cbv

-- A subscription to the channel "status" is one that replies get through on.
def statusRun : List Action :=
  [.connected, .message 0 addRequest, .wake, .opened ⟨0, 0⟩, .silenced ⟨0, 0⟩,
    .message 0 "\x7b\"action\":\"subscribe\",\"channel\":\"status\"\x7d".toList, .start 0, .visit 0]

theorem reply_forwarded_status :
    ∃ s log, (broadcaster .plain).run .init statusRun = some (s, log) ∧
      ∃ t out, step .plain s (.received ⟨0, 0⟩ replyText) = some (t, out) ∧
        ForwardsReply .plain 0 replyValue s t out := by
  obtain ⟨s, log, ran, checked⟩ := (broadcaster .plain).run_check .init statusRun
    (fun done => done.1.fault = none ∧ done.1.m_server.alive 0 = true ∧
      done.1.handsTo .plain ⟨0, 0⟩ replyText = some ⟨0, "status".toList⟩) (by decide +kernel)
  obtain ⟨sound, alive, handed⟩ := of_decide_eq_true checked
  have force := ((hands_to_some .plain s ⟨0, 0⟩ replyText _).mp handed).1
  exact ⟨s, log, ran, (reply_forwarded_iff .plain s ⟨0, 0⟩ ⟨0, "status".toList⟩ replyText "processed".toList replyValue
    sound force alive (load_reply _) rfl (by decide)).mpr (by decide)⟩

theorem reply_batched :
    ∃ s log, (broadcaster .plain).run .init subscribedRun = some (s, log) ∧ s.fault = none ∧
      s.InForce ⟨0, 0⟩ ⟨0, "broadcast".toList⟩ ∧ s.m_server.alive 0 = true ∧
      ¬∃ t out, step .plain s (.received ⟨0, 0⟩ replyText) = some (t, out) ∧
        ForwardsReply .plain 0 replyValue s t out := by
  obtain ⟨s, log, ran, subscribed⟩ := subscribed_run
  refine ⟨s, log, ran, subscribed.sound, subscribed.force, subscribed.alive, ?_⟩
  rintro ⟨t, out, stepped, forwards⟩
  rw [step_received_ok .plain s ⟨0, 0⟩ _ replyText replyValue subscribed.sound subscribed.force subscribed.alive
    (load_reply _)] at stepped
  have changes := deliver_broadcast_changes ⟨0, "broadcast".toList⟩ replyValue s rfl
  rw [Option.some.inj stepped] at changes
  exact changes forwards.unbatched

end TradingFeed.Broadcaster
