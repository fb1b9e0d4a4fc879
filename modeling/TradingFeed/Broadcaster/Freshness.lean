import TradingFeed.Broadcaster.Batching
import TradingFeed.Broadcaster.Repost

set_option autoImplicit false

namespace TradingFeed.Broadcaster

open TradingFeed.Json TradingFeed.Sockets

variable {D : Type}

def appended (p : Platform D) (s : State D) (action : Action) : Option (JSON D) :=
  match action with
  | .received _ data => if callbackOn p s action = some "broadcast".toList then (load p.fp data).toOption else none
  | _ => none

def installs (s : State D) : Action → Option Hdl
  | .visit i =>
      match s.m_sendFutures[i]? with
      | some ⟨sub, .walking (conn :: _)⟩ =>
          if sub.channel = "broadcast".toList ∧ (s.handler conn).isSome = true then some sub.hdl else none
      | _ => none
  | _ => none

structure Arrival (D : Type) where
  step : Nat
  value : JSON D

-- The past of a run: the number of its steps, the arrivals of the elements that
-- m_broadcastArray holds, and for each consumer the step that has last installed
-- a broadcast callback of its on some connection.
structure History (D : Type) where
  now : Nat
  batch : List (Arrival D)
  installed : Hdl → Option Nat

def History.start : History D := ⟨0, [], fun _ => none⟩

def History.note (p : Platform D) (s : State D) (action : Action) (past : History D) : History D where
  now := past.now + 1
  batch :=
    match appended p s action with
    | some value => (Library.push 2 past.batch ⟨past.now, value⟩).1
    | none => past.batch
  installed := fun hdl => if installs s action = some hdl then some past.now else past.installed hdl

def recordedBroadcaster (p : Platform D) : Library.System (State D × History D) Action (List (Output D)) :=
  (broadcaster p).recorded (History.note p)

-- Every element of a broadcast array that the step sends arrived after the step
-- that last installed a broadcast callback of the receiver.
def SendsFresh (p : Platform D) (s : State D) (past : History D) (action : Action) : Prop :=
  ∀ t out hdl elements, step p s action = some (t, out) → .send hdl (.batch elements) ∈ out →
    ∃ arrivals since, elements = arrivals.map Arrival.value ∧
      (∃ value, appended p s action = some value ∧ arrivals = past.batch ++ [⟨past.now, value⟩]) ∧
      past.installed hdl = some since ∧ ∀ arrival ∈ arrivals, since < arrival.step

def InstallsOnEmpty (s : State D) (action : Action) : Prop :=
  ∀ hdl, installs s action = some hdl → s.m_broadcastArray.size = 0

theorem answers_unbatched (outputs : List (Output D)) (answers : ∀ output ∈ outputs, isAnswer output = true)
    (hdl : Hdl) (elements : List (JSON D)) : .send hdl (.batch elements) ∉ outputs := by
  intro member
  cases answers _ member

theorem deliver_unbatched (sub : Subscription) (status : JSON D) (s : State D)
    (other : sub.channel ≠ "broadcast".toList) :
    (deliver sub status s).1.m_broadcastArray = s.m_broadcastArray ∧
      ∀ hdl elements, .send hdl (.batch elements) ∉ (deliver sub status s).2 := by
  dsimp only [deliver]
  rw [if_neg other]
  split
  · refine ⟨repost_batch s, fun hdl elements member => ?_⟩
    rw [repost_outputs] at member
    simp at member
  · split
    · exact ⟨rfl, by simp⟩
    · split <;> exact ⟨rfl, by simp⟩

theorem deliver_sends (sub : Subscription) (status : JSON D) (s : State D) (hdl : Hdl) (elements pending : List (JSON D))
    (channel : sub.channel = "broadcast".toList) (held : Pending s pending)
    (sent : .send hdl (.batch elements) ∈ (deliver sub status s).2) :
    hdl = sub.hdl ∧ elements = pending ++ [status] := by
  have posted : Pending (repost s).1 pending := (repost_batch s).trans held
  obtain ⟨_, outputs⟩ := batch_push (repost s).1 sub.hdl status pending posted
  dsimp only [deliver] at sent
  rw [if_pos channel] at sent
  rcases List.mem_append.mp sent with early | late
  · rw [repost_outputs] at early
    simp at early
  · rw [outputs] at late
    obtain ⟨full, member, same⟩ := List.mem_map.mp late
    cases same
    dsimp only [Library.push] at member
    split at member
    · exact ⟨rfl, List.mem_singleton.mp member⟩
    · cases member

theorem deliver_completes (sub : Subscription) (status first : JSON D) (s : State D)
    (channel : sub.channel = "broadcast".toList) (held : Pending s [first]) :
    .send sub.hdl (.batch [first, status]) ∈ (deliver sub status s).2 := by
  have sent := (deliver_broadcast sub status s [first] channel held).2
  have member : Sent.batch [first, status] ∈ sentTo sub.hdl (deliver sub status s).2 := by
    rw [sent]
    exact List.mem_singleton.mpr rfl
  obtain ⟨output, among, same⟩ := List.mem_filterMap.mp member
  cases output with
  | send receiver given =>
      obtain ⟨rfl, rfl⟩ : receiver = sub.hdl ∧ given = .batch [first, status] := by simpa using same
      exact among
  | _ => cases same

theorem step_appends (p : Platform D) (s t : State D) (action : Action) (out : List (Output D))
    (taken : step p s action = some (t, out)) :
    (appended p s action = none ∧ t.m_broadcastArray = s.m_broadcastArray ∧
        ∀ hdl elements, .send hdl (.batch elements) ∉ out) ∨
      ∃ conn data sub value, action = .received conn data ∧ s.InForce conn sub ∧ sub.channel = "broadcast".toList ∧
        appended p s action = some value ∧ deliver sub value s = (t, out) := by
  obtain ⟨_, transition⟩ := step_transition p s t action out taken
  cases transition with
  | handled hdl payload request =>
      exact Or.inl ⟨rfl, (handled_effect p s _ hdl payload request rfl).2.1,
        answers_unbatched _ (command_answers p _ hdl payload request)⟩
  | added call => exact Or.inl ⟨rfl, (steady_wake_adding p s call).batch, answers_unbatched _ (wake_adding_answers p s call)⟩
  | deleted e rest => exact Or.inl ⟨rfl, (steady_destroy s rest).batch, by simp⟩
  | joined e rest => exact Or.inl ⟨rfl, (steady_destroy _ rest).batch, by simp⟩
  | ignored conn data handler status found receives slot =>
      have silent := callback_on_ignored p s conn data handler found slot
      exact Or.inl ⟨by simp [appended, silent], rfl, by simp⟩
  | escaped conn data handler fault found receives raised =>
      have silent := callback_on_escaped p s conn data handler fault found raised
      exact Or.inl ⟨by simp [appended, silent], rfl, by simp⟩
  | delivered conn data handler sub status found receives slot alive loaded =>
      have called := callback_on_delivered p s conn data handler sub status found receives slot alive loaded
      by_cases channel : sub.channel = "broadcast".toList
      · have value : appended p s (.received conn data) = some status := by
          simp only [appended, called, channel, if_true, loaded]
          rfl
        exact Or.inr ⟨conn, data, sub, status, rfl, ⟨handler, found, receives, slot⟩, channel, value, rfl⟩
      · obtain ⟨same, unbatched⟩ := deliver_unbatched sub status s channel
        refine Or.inl ⟨?_, same, unbatched⟩
        simp only [appended, called, Option.some.injEq, if_neg channel]
  | _ => exact Or.inl ⟨rfl, rfl, by simp⟩

theorem step_installs (p : Platform D) (s t : State D) (action : Action) (out : List (Output D)) (conn : Conn)
    (hdl : Hdl) (taken : step p s action = some (t, out)) (force : t.InForce conn ⟨hdl, "broadcast".toList⟩) :
    s.InForce conn ⟨hdl, "broadcast".toList⟩ ∨ installs s action = some hdl := by
  rcases step_in_force p s t action out conn _ taken force with before | ⟨i, todo, rfl, found, known⟩
  · exact Or.inl before
  · exact Or.inr (by simp [installs, found, known])

structure Traced (s : State D) (past : History D) : Prop where
  holds : Pending s (past.batch.map Arrival.value)
  short : past.batch.length < 2
  force : ∀ conn hdl, s.InForce conn ⟨hdl, "broadcast".toList⟩ → (past.installed hdl).isSome = true
  earlier : ∀ hdl since, past.installed hdl = some since → since < past.now
  arrived : ∀ arrival ∈ past.batch, arrival.step < past.now

def BatchFresh (past : History D) : Prop :=
  ∀ hdl since, past.installed hdl = some since → ∀ arrival ∈ past.batch, since < arrival.step

theorem traced_init : Traced .init (.start : History D) where
  holds := rfl
  short := Nat.zero_lt_two
  force := by
    rintro conn hdl ⟨handler, found, _⟩
    simp [State.handler, State.init, EndPoints.empty, EndPoints.get] at found
  earlier := by simp [History.start]
  arrived := by simp [History.start]

section

variable (p : Platform D) (s t : State D) (past : History D) (action : Action) (out : List (Output D))

theorem note_unappended (none : appended p s action = none) : (History.note p s action past).batch = past.batch := by
  dsimp only [History.note]
  rw [none]

theorem note_appended (value : JSON D) (appends : appended p s action = some value) :
    (History.note p s action past).batch = (Library.push 2 past.batch ⟨past.now, value⟩).1 := by
  dsimp only [History.note]
  rw [appends]

theorem note_batch (arrival : Arrival D) (member : arrival ∈ (History.note p s action past).batch) :
    arrival ∈ past.batch ∨ arrival.step = past.now := by
  cases appends : appended p s action with
  | none =>
      rw [note_unappended p s past action appends] at member
      exact Or.inl member
  | some value =>
      rw [note_appended p s past action value appends] at member
      exact (Library.push_member 2 _ _ arrival member).imp_right fun same => by rw [same]

theorem traced_holds (traced : Traced s past) (taken : step p s action = some (t, out)) :
    Pending t ((History.note p s action past).batch.map Arrival.value) := by
  rcases step_appends p s t action out taken with ⟨none, same, _⟩ | ⟨conn, data, sub, value, _, _, channel, appends, done⟩
  · rw [note_unappended p s past action none]
    exact same.trans traced.holds
  · rw [note_appended p s past action value appends, ← Library.push_map]
    have pushed := (deliver_broadcast sub value s _ channel traced.holds).1
    rw [done] at pushed
    exact pushed

theorem traced_step (traced : Traced s past) (taken : step p s action = some (t, out)) :
    Traced t (History.note p s action past) where
  holds := traced_holds p s t past action out traced taken
  short := by
    cases appends : appended p s action with
    | none =>
        rw [note_unappended p s past action appends]
        exact traced.short
    | some value =>
        rw [note_appended p s past action value appends]
        exact Library.push_short 2 _ _ traced.short
  force := by
    intro conn hdl force
    dsimp only [History.note]
    rcases step_installs p s t action out conn hdl taken force with old | now
    · split
      · rfl
      · exact traced.force conn hdl old
    · rw [if_pos now]
      rfl
  earlier := by
    intro hdl since installed
    dsimp only [History.note] at installed ⊢
    split at installed
    · cases installed
      exact Nat.lt_succ_self _
    · exact Nat.lt_succ_of_lt (traced.earlier hdl since installed)
  arrived := by
    intro arrival member
    rcases note_batch p s past action arrival member with old | new
    · exact Nat.lt_succ_of_lt (traced.arrived arrival old)
    · rw [new]
      exact Nat.lt_succ_self _

theorem fresh_step (traced : Traced s past) (fresh : BatchFresh past) (met : InstallsOnEmpty s action) :
    BatchFresh (History.note p s action past) := by
  intro hdl since installed arrival member
  dsimp only [History.note] at installed
  by_cases now : installs s action = some hdl
  · have none : appended p s action = none := by
      cases action with
      | received => cases now
      | _ => rfl
    rw [note_unappended p s past action none] at member
    have empty := met hdl now
    rw [traced.holds] at empty
    simp only [JSON.size, List.length_map, Int.natCast_eq_zero, List.length_eq_zero_iff] at empty
    rw [empty] at member
    cases member
  · rw [if_neg now] at installed
    rcases note_batch p s past action arrival member with old | new
    · exact fresh hdl since installed arrival old
    · rw [new]
      exact traced.earlier hdl since installed

theorem fresh_sends (traced : Traced s past) (fresh : BatchFresh past) : SendsFresh p s past action := by
  intro t out hdl elements taken sent
  rcases step_appends p s t action out taken with ⟨_, _, unbatched⟩ | ⟨conn, data, sub, value, _, force, channel, appends, done⟩
  · exact absurd sent (unbatched hdl elements)
  · have member : .send hdl (.batch elements) ∈ (deliver sub value s).2 := by
      rw [done]
      exact sent
    obtain ⟨rfl, rfl⟩ := deliver_sends sub value s hdl elements _ channel traced.holds member
    rw [show sub = ⟨sub.hdl, "broadcast".toList⟩ from by rw [← channel]] at force
    obtain ⟨since, installed⟩ := Option.isSome_iff_exists.mp (traced.force conn sub.hdl force)
    refine ⟨past.batch ++ [⟨past.now, value⟩], since, by simp, ⟨value, appends, rfl⟩, installed, fun arrival among => ?_⟩
    rcases List.mem_append.mp among with old | new
    · exact fresh sub.hdl since installed arrival old
    · rw [List.mem_singleton.mp new]
      exact traced.earlier sub.hdl since installed

end

theorem recorded_traced (p : Platform D) (s : State D) (past : History D)
    (reach : (recordedBroadcaster p).Reachable (.init, .start) (s, past)) : Traced s past := by
  refine (recordedBroadcaster p).reachable_invariant (.init, .start) (fun now => Traced now.1 now.2) traced_init
    (fun (s, past) action (t, after) out traced taken => ?_) (s, past) reach
  obtain ⟨stepped, rfl⟩ := ((broadcaster p).recorded_step (History.note p) s t past after action out).mp taken
  exact traced_step p s t past action out traced stepped

theorem broadcast_sends_fresh (p : Platform D) (actions : List Action) (s : State D) (past : History D)
    (log : List (List (Output D))) (met : (broadcaster p).Along InstallsOnEmpty .init actions)
    (ran : (recordedBroadcaster p).run (.init, .start) actions = some ((s, past), log)) (action : Action) :
    SendsFresh p s past action := by
  have held : Traced s past ∧ BatchFresh past := by
    refine (recordedBroadcaster p).run_invariant (fun now action => InstallsOnEmpty now.1 action)
      (fun now => Traced now.1 now.2 ∧ BatchFresh now.2) (fun (s, past) action (t, after) out held met taken => ?_)
      actions (.init, .start) (s, past) log ⟨traced_init, by simp [BatchFresh, History.start]⟩
      ((broadcaster p).along_recorded (History.note p) InstallsOnEmpty actions .init .start met) ran
    obtain ⟨stepped, rfl⟩ := ((broadcaster p).recorded_step (History.note p) s t past after action out).mp taken
    exact ⟨traced_step p s t past action out held.1 stepped, fresh_step p s past action held.1 held.2 met⟩
  exact fresh_sends p s past action held.1 held.2

def halfRun : List Action := subscribedRun ++ [.received ⟨0, 0⟩ priceText]

theorem broadcast_sends_fresh_half :
    ∃ s past log, (recordedBroadcaster .plain).run (.init, .start) halfRun = some ((s, past), log) ∧
      SendsFresh .plain s past (.received ⟨0, 0⟩ priceText) := by
  obtain ⟨⟨s, past⟩, log, ran, _⟩ := (recordedBroadcaster .plain).run_check (.init, .start) halfRun (fun _ => true)
    (by decide +kernel)
  have met : (broadcaster .plain).Along InstallsOnEmpty .init halfRun := by
    refine (broadcaster .plain).along_checked InstallsOnEmpty
      (fun s action => (installs s action).isNone || s.m_broadcastArray.size = 0) (fun s action passes hdl now => ?_)
      halfRun .init (by decide +kernel)
    rw [now] at passes
    exact of_decide_eq_true passes
  exact ⟨s, past, log, ran, broadcast_sends_fresh .plain halfRun s past log met ran _⟩

theorem stale_install_leaks (p : Platform D) (s : State D) (past : History D) (i : Nat) (hdl : Hdl) (conn : Conn)
    (todo : List Conn) (reach : (recordedBroadcaster p).Reachable (.init, .start) (s, past)) (sound : s.fault = none)
    (found : s.m_sendFutures[i]? = some ⟨⟨hdl, "broadcast".toList⟩, .walking (conn :: todo)⟩)
    (receives : s.Receives conn) (alive : s.m_server.alive hdl = true) (half : s.m_broadcastArray.size ≠ 0) :
    ∃ t, step p s (.visit i) = some (t, []) ∧ ∀ data value, load p.fp data = .ok value →
      ¬SendsFresh p t (History.note p s (.visit i) past) (.received conn data) := by
  let sub : Subscription := ⟨hdl, "broadcast".toList⟩
  let t : State D :=
    { s.updateHandler conn (.onDataReceived sub) with m_sendFutures := s.m_sendFutures.set i ⟨sub, .walking todo⟩ }
  have known : (s.handler conn).isSome = true := by
    obtain ⟨handler, here, _⟩ := receives
    rw [here]
    rfl
  have visited : step p s (.visit i) = some (t, []) :=
    transition_step p s t _ [] sound (.installed i sub conn todo found known)
  have traced := recorded_traced p s past reach
  have after := traced_step p s t past _ [] traced visited
  have force : t.InForce conn sub := installed_in_force s conn sub receives
  obtain ⟨first, single⟩ : ∃ first, past.batch = [first] := by
    apply List.length_eq_one_iff.mp
    have short := traced.short
    rw [traced.holds] at half
    simp only [JSON.size, List.length_map, ne_eq, Int.natCast_eq_zero] at half
    omega
  refine ⟨t, visited, fun data value loaded fresh => ?_⟩
  have pending : Pending t [first.value] := by
    have holds := traced.holds
    rw [single] at holds
    exact holds
  obtain ⟨arrivals, since, _, ⟨_, _, rfl⟩, installed, later⟩ :=
    fresh _ _ hdl [first.value, value] (step_received_ok p t conn sub data value sound force alive loaded)
      (deliver_completes sub value first.value t rfl pending)
  have now : (History.note p s (.visit i) past).installed hdl = some past.now := by
    simp [History.note, installs, found, known]
  cases now.symm.trans installed
  have order := later first (by simp [History.note, appended, single])
  have before := traced.arrived first (by simp [single])
  omega

def secondRun : List Action :=
  [.connected, .connected, .message 0 addRequest, .wake, .opened ⟨0, 0⟩, .silenced ⟨0, 0⟩, .message 0 subscribeRequest,
    .start 0, .visit 0, .received ⟨0, 0⟩ priceText, .message 1 subscribeRequest, .start 1]

theorem earlier_price_leaks :
    ∃ t past log, (recordedBroadcaster .plain).run (.init, .start) (secondRun ++ [.visit 1]) = some ((t, past), log) ∧
      ¬SendsFresh .plain t past (.received ⟨0, 0⟩ priceText) := by
  obtain ⟨⟨s, past⟩, log, ran, checked⟩ := (recordedBroadcaster .plain).run_check (.init, .start) secondRun
    (fun done => done.1.1.fault = none ∧ done.1.1.m_server.alive 1 = true ∧ done.1.1.m_broadcastArray.size ≠ 0 ∧
      (done.1.1.handler ⟨0, 0⟩).any (fun handler => handler.receives) = true ∧
      done.1.1.m_sendFutures[1]? = some ⟨⟨1, "broadcast".toList⟩, .walking [⟨0, 0⟩]⟩) (by decide +kernel)
  obtain ⟨sound, alive, half, receives, found⟩ := of_decide_eq_true checked
  obtain ⟨t, visited, leaks⟩ := stale_install_leaks .plain s past 1 1 ⟨0, 0⟩ [] ⟨secondRun, log, ran⟩ sound found
    ((Option.any_eq_true _ _).mp receives) alive half
  refine ⟨t, _, log ++ [[]], ?_, leaks priceText priceValue (load_price _)⟩
  refine (recordedBroadcaster .plain).run_trans _ (s, past) _ secondRun [.visit 1] log [[]] ran ?_
  refine ((recordedBroadcaster .plain).run_single _ _ _ _).mpr ⟨[], ?_, rfl⟩
  exact ((broadcaster .plain).recorded_step _ s t past _ _ []).mpr ⟨visited, rfl⟩

end TradingFeed.Broadcaster
