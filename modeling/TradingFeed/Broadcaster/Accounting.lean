import TradingFeed.Broadcaster.Freshness
import TradingFeed.Library.Paths
import TradingFeed.Library.Tagged

set_option autoImplicit false

namespace TradingFeed.Broadcaster

open TradingFeed.Json TradingFeed.Sockets Library

variable {D : Type}

abbrev Step (D : Type) := Event (State D) Action (List (Output D))

def batchesIn (outputs : List (Output D)) : List (List (JSON D)) :=
  outputs.filterMap fun | .send _ (.batch elements) => some elements | _ => none

def batches (events : List (Step D)) : List (List (JSON D)) := events.flatMap fun event => batchesIn event.out

-- What a connection delivers to JSON::Load, and what of it a broadcast callback
-- gets, each with the connection it has come from.
def arrival (p : Platform D) (event : Step D) : Option (Conn × JSON D) :=
  match event.action with
  | .received conn data => (load p.fp data).toOption.map fun value => (conn, value)
  | _ => none

def collect (p : Platform D) (event : Step D) : Option (Conn × JSON D) :=
  match event.action with
  | .received conn _ => (appended p event.before event.action).map fun value => (conn, value)
  | _ => none

def collected (p : Platform D) (events : List (Step D)) : List (Conn × JSON D) := events.filterMap (collect p)

theorem collect_arrival (p : Platform D) (event : Step D) (item : Conn × JSON D) (here : collect p event = some item) :
    arrival p event = some item := by
  obtain ⟨s, action, out⟩ := event
  cases action with
  | received conn data =>
      dsimp only [collect, appended, arrival] at here ⊢
      split at here
      · exact here
      · cases here
  | _ => cases here

theorem collected_sublist (p : Platform D) (events : List (Step D)) :
    (collected p events).Sublist (events.filterMap (arrival p)) := by
  induction events with
  | nil => exact List.nil_sublist _
  | cons event rest ih =>
      cases here : collect p event with
      | none =>
          rw [collected, List.filterMap_cons_none here]
          exact ih.trans ((List.sublist_cons_self event rest).filterMap _)
      | some item =>
          rw [collected, List.filterMap_cons_some here, List.filterMap_cons_some (collect_arrival p event item here)]
          exact ih.cons_cons item

theorem unbatched_none (outputs : List (Output D)) (none_ : ∀ hdl elements, .send hdl (.batch elements) ∉ outputs) :
    batchesIn outputs = [] := by
  refine List.filterMap_eq_nil_iff.mpr fun output member => ?_
  cases output with
  | send hdl sent =>
      cases sent with
      | batch elements => exact absurd member (none_ hdl elements)
      | _ => rfl
  | _ => rfl

theorem deliver_batches (sub : Subscription) (value : JSON D) (s : State D) (pending : List (JSON D))
    (channel : sub.channel = "broadcast".toList) (held : Pending s pending) :
    batchesIn (deliver sub value s).2 = (push 2 pending value).2 := by
  have posted : Pending (repost s).1 pending := (repost_batch s).trans held
  have outputs := (batch_push (repost s).1 sub.hdl value pending posted).2
  have silent : batchesIn (repost s).2 = [] := by
    rw [repost_outputs]
    exact unbatched_none _ fun hdl elements member => by simp at member
  have whole : (deliver sub value s).2 = (repost s).2 ++ (batch (repost s).1 sub.hdl value).2 := by
    dsimp only [deliver]
    rw [if_pos channel]
  rw [whole, batchesIn, List.filterMap_append]
  change batchesIn (repost s).2 ++ batchesIn _ = _
  rw [silent, outputs, batchesIn, List.filterMap_map]
  simp

-- The batches of a run are the full ones of an abstract buffer that is fed with
-- what the broadcast callbacks get, and m_broadcastArray is what it holds then.
structure Accounted (p : Platform D) (events : List (Step D)) (s : State D) : Prop where
  sent : batches events = (feed 2 [] ((collected p events).map Prod.snd)).2
  held : Pending s (feed 2 [] ((collected p events).map Prod.snd)).1

theorem accounted_step (p : Platform D) (past : List (Step D)) (s t : State D) (action : Action) (out : List (Output D))
    (accounted : Accounted p past s) (taken : step p s action = some (t, out)) :
    Accounted p (past ++ [⟨s, action, out⟩]) t := by
  have sent : batches (past ++ [⟨s, action, out⟩]) = batches past ++ batchesIn out := by simp [batches]
  rcases step_appends p s t action out taken with
    ⟨none_, same, silent⟩ | ⟨conn, data, sub, value, rfl, _, channel, appends, done⟩
  · have nothing : collect p ⟨s, action, out⟩ = none := by
      cases action with
      | received conn data =>
          dsimp only [collect]
          rw [none_]
          rfl
      | _ => rfl
    have still : collected p (past ++ [⟨s, action, out⟩]) = collected p past := by
      simp [collected, nothing]
    constructor
    · rw [sent, unbatched_none out silent, still, List.append_nil]
      exact accounted.sent
    · rw [still]
      exact same.trans accounted.held
  · have one : collect p ⟨s, .received conn data, out⟩ = some (conn, value) := by
      dsimp only [collect]
      rw [appends]
      rfl
    have more : (collected p (past ++ [⟨s, .received conn data, out⟩])).map Prod.snd =
        (collected p past).map Prod.snd ++ [value] := by
      simp [collected, one]
    have pushed := deliver_broadcast sub value s _ channel accounted.held
    have outputs := deliver_batches sub value s _ channel accounted.held
    rw [done] at pushed outputs
    constructor
    · rw [sent, more, feed_snoc, outputs, accounted.sent]
    · rw [more, feed_snoc]
      exact pushed.1

theorem path_accounted (p : Platform D) (events : List (Step D)) (s : State D)
    (path : (broadcaster p).Path .init events s) : Accounted p events s :=
  (broadcaster p).path_history .init (Accounted p) ⟨rfl, rfl⟩
    (fun past s action t out _ accounted taken => accounted_step p past s t action out accounted taken) events s path

theorem path_pending (p : Platform D) (events : List (Step D)) (s : State D)
    (path : (broadcaster p).Path .init events s) : ∃ pending, s.m_broadcastArray = .array pending ∧ pending.length < 2 ∧
      (batches events).flatten ++ pending = (collected p events).map Prod.snd := by
  obtain ⟨sent, held⟩ := path_accounted p events s path
  refine ⟨_, held, feed_short 2 _ [] Nat.zero_lt_two, ?_⟩
  rw [sent]
  exact feed_keeps 2 _ []

theorem broadcast_accounts (p : Platform D) (events : List (Step D)) (s : State D)
    (path : (broadcaster p).Path .init events s) :
    (collected p events).Sublist (events.filterMap (arrival p)) ∧ (∀ batch ∈ batches events, batch.length = 2) ∧
      ∃ pending, s.m_broadcastArray = .array pending ∧ pending.length < 2 ∧
        (batches events).flatten ++ pending = (collected p events).map Prod.snd := by
  refine ⟨collected_sublist p events, fun batch member => ?_, path_pending p events s path⟩
  rw [(path_accounted p events s path).sent] at member
  exact feed_emits 2 _ [] batch member

theorem broadcast_accounts_three : ∃ (events : List (Step Int)) (s : State Int) (pending : List (JSON Int)),
    events.map Event.action = subscribedRun ++ List.replicate 3 (.received ⟨0, 0⟩ priceText) ∧
      s.m_broadcastArray = .array pending ∧
      (batches events).flatten ++ pending = (collected .plain events).map Prod.snd := by
  obtain ⟨s, log, ran, _⟩ := (broadcaster .plain).run_check .init
    (subscribedRun ++ List.replicate 3 (.received ⟨0, 0⟩ priceText)) (fun _ => true) (by decide +kernel)
  obtain ⟨events, path, actions, _⟩ := (broadcaster .plain).run_path _ s _ log ran
  obtain ⟨_, _, pending, held, _, whole⟩ := broadcast_accounts .plain events s path
  exact ⟨events, s, pending, actions, held, whole⟩

theorem segment_accounts (p : Platform D) (past events : List (Step D)) (s t : State D)
    (before : (broadcaster p).Path .init past s) (path : (broadcaster p).Path s events t) :
    ∃ held pending, s.m_broadcastArray = .array held ∧ t.m_broadcastArray = .array pending ∧
      (batches events).flatten ++ pending = held ++ (collected p events).map Prod.snd := by
  obtain ⟨held, first, _, early⟩ := path_pending p past s before
  obtain ⟨pending, last, _, whole⟩ := path_pending p (past ++ events) t ((broadcaster p).path_append _ s t _ _ before path)
  refine ⟨held, pending, first, last, ?_⟩
  have split : (batches (past ++ events)).flatten = (batches past).flatten ++ (batches events).flatten := by simp [batches]
  have more : collected p (past ++ events) = collected p past ++ collected p events := List.filterMap_append
  rw [split, more, List.map_append, ← early, List.append_assoc, List.append_assoc] at whole
  exact List.append_cancel_left whole

def Attached (conn : Conn) (s : State D) : Prop :=
  ∃ handler sub, s.handler conn = some handler ∧ handler.session = .opened ∧ handler.dataReceivedSignal = .call sub ∧
    sub.channel = "broadcast".toList

theorem attached_collects (p : Platform D) (s t : State D) (action : Action) (out : List (Output D)) (conn : Conn)
    (attached : Attached conn s) (taken : step p s action = some (t, out)) (sound : t.fault = none) :
    under conn (collect p ⟨s, action, out⟩).toList = under conn (arrival p ⟨s, action, out⟩).toList := by
  obtain ⟨holder, sub, here, _, slot, channel⟩ := attached
  obtain ⟨_, transition⟩ := step_transition p s t action out taken
  cases transition with
  | ignored other data handler status found receives ignores loaded =>
      have apart : other ≠ conn := by
        rintro rfl
        rw [found] at here
        cases here
        rw [ignores] at slot
        cases slot
      have silent := callback_on_ignored p s other data handler found ignores
      simp [collect, appended, silent, arrival, loaded, Except.toOption, under, apart]
  | delivered other data handler given status found receives calls alive loaded =>
      have called := callback_on_delivered p s other data handler given status found receives calls alive loaded
      by_cases same : other = conn
      · subst other
        rw [found] at here
        cases here
        rw [calls] at slot
        cases slot
        simp [collect, appended, called, channel, arrival, loaded, Except.toOption]
      · have apart : under conn (arrival p ⟨s, .received other data, (deliver given status s).2⟩).toList = [] := by
          simp [arrival, loaded, Except.toOption, under, same]
        rw [apart]
        refine under_absent conn _ fun pair member => ?_
        obtain ⟨value, _, rfl⟩ := Option.map_eq_some_iff.mp (Option.mem_toList.mp member)
        exact same
  | escaped => cases sound
  | _ => rfl

theorem path_attached (p : Platform D) (events : List (Step D)) (s t : State D) (conn : Conn)
    (path : (broadcaster p).Path s events t) (attached : ∀ event ∈ events, Attached conn event.before)
    (sound : t.fault = none) : under conn (collected p events) = under conn (events.filterMap (arrival p)) := by
  induction path with
  | stop s => rfl
  | step s next t action out rest taken later ih =>
      have live := (broadcaster p).path_needed (fun s => s.fault = none)
        (fun s action t out taken => (step_transition p s t action out taken).1) next t rest later sound
      have first := attached_collects p s next action out conn (attached _ List.mem_cons_self) taken live
      have behind := ih (fun event member => attached event (List.mem_cons_of_mem _ member)) sound
      rw [collected, List.filterMap_eq_flatMap_toList] at behind ⊢
      rw [List.filterMap_eq_flatMap_toList] at behind ⊢
      rw [List.flatMap_cons, List.flatMap_cons, under_append, under_append, first, behind]

-- The values that the texts on the latest-price channel are made of, and the same
-- with the connection whose message a step handles.
def latestIn (outputs : List (Output D)) : List (JSON D) :=
  outputs.filterMap fun | .send _ (.latestPrice response) => some response | _ => none

def latestFrom (event : Step D) : List (Conn × JSON D) :=
  match event.action with
  | .received conn _ => (latestIn event.out).map fun value => (conn, value)
  | _ => []

theorem latest_none (outputs : List (Output D)) (none_ : ∀ hdl response, .send hdl (.latestPrice response) ∉ outputs) :
    latestIn outputs = [] := by
  refine List.filterMap_eq_nil_iff.mpr fun output member => ?_
  cases output with
  | send hdl sent =>
      cases sent with
      | latestPrice response => exact absurd member (none_ hdl response)
      | _ => rfl
  | _ => rfl

theorem deliver_latest (sub : Subscription) (status : JSON D) (s : State D) :
    latestIn (deliver sub status s).2 = [] ∨ latestIn (deliver sub status s).2 = [status] := by
  have silent : latestIn (repost s).2 = [] := by
    rw [repost_outputs]
    exact latest_none _ fun hdl response member => by simp at member
  dsimp only [deliver]
  split
  · left
    dsimp only [batch]
    split <;> simpa [latestIn] using silent
  · split
    · right
      simpa [latestIn] using silent
    · split
      · exact Or.inl rfl
      · split <;> exact Or.inl rfl

theorem step_latest (p : Platform D) (s t : State D) (action : Action) (out : List (Output D))
    (taken : step p s action = some (t, out)) :
    (latestFrom ⟨s, action, out⟩).map Prod.snd = latestIn out ∧
      (latestFrom ⟨s, action, out⟩).Sublist (arrival p ⟨s, action, out⟩).toList := by
  have answered (answers : ∀ output ∈ out, isAnswer output = true) : latestIn out = [] :=
    latest_none out fun hdl response member => by cases answers _ member
  have nothing (other : ∀ conn data, action ≠ .received conn data) (none_ : latestIn out = []) :
      (latestFrom ⟨s, action, out⟩).map Prod.snd = latestIn out ∧
        (latestFrom ⟨s, action, out⟩).Sublist (arrival p ⟨s, action, out⟩).toList := by
    have empty : latestFrom ⟨s, action, out⟩ = [] := by
      cases action with
      | received conn data => exact absurd rfl (other conn data)
      | _ => rfl
    rw [empty, none_]
    exact ⟨rfl, List.nil_sublist _⟩
  obtain ⟨_, transition⟩ := step_transition p s t action out taken
  cases transition with
  | handled hdl payload request => exact nothing (by simp) (answered (command_answers p _ hdl payload request))
  | added call => exact nothing (by simp) (answered (wake_adding_answers p s call))
  | ignored conn data => exact ⟨rfl, List.nil_sublist _⟩
  | escaped conn data => exact ⟨rfl, List.nil_sublist _⟩
  | delivered conn data handler sub status found receives slot alive loaded =>
      have read : arrival p ⟨s, .received conn data, (deliver sub status s).2⟩ = some (conn, status) := by
        dsimp only [arrival]
        rw [loaded]
        rfl
      refine ⟨by simp [latestFrom, Function.comp_def], ?_⟩
      rw [read]
      dsimp only [latestFrom]
      rcases deliver_latest sub status s with empty | one
      · rw [empty]
        exact List.nil_sublist _
      · rw [one]
        exact List.Sublist.refl _
  | _ => exact nothing (by simp) rfl

theorem path_latest (p : Platform D) (events : List (Step D)) (s t : State D)
    (path : (broadcaster p).Path s events t) :
    (events.flatMap latestFrom).map Prod.snd = (events.flatMap fun event => latestIn event.out) ∧
      (events.flatMap latestFrom).Sublist (events.filterMap (arrival p)) := by
  induction path with
  | stop s => exact ⟨rfl, List.nil_sublist _⟩
  | step s next t action out rest taken _ ih =>
      obtain ⟨values, arrived⟩ := step_latest p s next action out taken
      rw [List.filterMap_eq_flatMap_toList] at ih ⊢
      constructor
      · rw [List.flatMap_cons, List.map_append, values, ih.1]
        rfl
      · exact arrived.append ih.2

end TradingFeed.Broadcaster
