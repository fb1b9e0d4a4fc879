import TradingFeed.Aggregator.Connections

set_option autoImplicit false

namespace TradingFeed.Aggregator

open TradingFeed.Json TradingFeed.Sockets

variable {D : Type}

def Acknowledges (p : Platform D) (s s' : State) (hdl : Hdl) (id : Int) : Prop :=
  ∃ host, s.thread = .acknowledging hdl host id ∧
    step p s .wake = some (s', [.send hdl (statusObject "processed".toList ("connecting to ".toList ++ host))])

-- Every message that the connection delivers in the run goes to the consumer in
-- one send, and the step that delivers it does nothing else.
def ForwardsAll (p : Platform D) (hdl : Hdl) (id : Int) (actions : List Action) (log : List (List (Output D))) :
    Prop :=
  ∀ (i : Nat) (data : Text), actions[i]? = some (.received id data) →
    ∃ response, load p.fp data = .ok response ∧ log[i]? = some [.send hdl response]

def installs (task : Nat) (id : Int) (installed : Bool) : Action → Bool
  | .install other => if other = task then true else installed
  | .silenced other => if other = id then false else installed
  | _ => installed

-- The task has installed its callback, and on_open has not written the default
-- callback over it.
def InstallStands (task : Nat) (id : Int) (past : List Action) : Prop :=
  past.foldl (installs task id) false = true

structure Acknowledged (task : Nat) (hdl : Hdl) (id : Int) (installed : Bool) (s : State) : Prop where
  alive : s.m_server.alive hdl = true
  stays : ∀ todo, s.thread ≠ .clearing hdl true todo
  launched : (s.thread = .launching hdl id ∧ s.tasks.length = task) ∨ s.tasks[task]? = some (hdl, id)
  slot : if installed then s.slot id = some (.call hdl) else s.slot id = some .unset ∨ s.slot id = some .ignore

section

variable (p : Platform D) (s t : State) (action : Action) (out : List (Output D))
variable (task : Nat) (hdl : Hdl) (id : Int) (installed : Bool)

theorem acknowledged_known (held : Acknowledged task hdl id installed s) : s.slot id ≠ none := by
  have slot := held.slot
  cases installed with
  | true =>
      rw [if_pos rfl] at slot
      simp [slot]
  | false =>
      rw [if_neg (by decide)] at slot
      rcases slot with unset | ignored
      · simp [unset]
      · simp [ignored]

theorem acknowledged_alive (held : Acknowledged task hdl id installed s) (taken : Transition p s action t out) :
    t.m_server.alive hdl = true := by
  cases taken with
  | connected =>
      rw [Server.alive_accept, held.alive]
      rfl
  | cleared other gone thread =>
      cases gone with
      | false => exact held.alive
      | true =>
          have different : hdl ≠ other := by
            intro same
            subst other
            exact held.stays [] thread
          simp [Server.alive_drop, held.alive, different]
  | _ => exact held.alive

theorem acknowledged_stays (held : Acknowledged task hdl id installed s) (taken : Transition p s action t out)
    (remains : action ≠ .disconnected hdl) (todo : List Int) : t.thread ≠ .clearing hdl true todo := by
  cases taken with
  | disconnected other =>
      intro same
      cases same
      exact remains rfl
  | closedOne other gone first rest thread =>
      intro same
      cases same
      exact held.stays _ thread
  | addProvider => exact fun same => by cases same
  | clearProviders => exact fun same => by cases same
  | ready => exact fun same => by cases same
  | replied => exact fun same => by cases same
  | launched => exact fun same => by cases same
  | stuck => exact fun same => by cases same
  | cleared => exact fun same => by cases same
  | _ => exact held.stays todo

theorem acknowledged_launched (held : Acknowledged task hdl id installed s) (taken : Transition p s action t out) :
    (t.thread = .launching hdl id ∧ t.tasks.length = task) ∨ t.tasks[task]? = some (hdl, id) := by
  rcases held.launched with ⟨thread, length⟩ | found
  · rcases transition_tasks p s t action out taken with same | ⟨other, fresh, launching, _, grown⟩
    · left
      rw [same]
      refine ⟨?_, length⟩
      -- The server thread is busy, so it does nothing but launch the task.
      cases taken with
      | launched other fresh launching =>
          have longer := congrArg List.length same
          simp [State.tasks] at longer
      | _ => first | exact thread | simp_all
    · right
      rw [thread] at launching
      cases launching
      rw [grown, ← length, List.getElem?_concat_length]
  · right
    rcases transition_tasks p s t action out taken with same | ⟨_, _, _, _, grown⟩
    · rw [same]
      exact found
    · obtain ⟨within, _⟩ := List.getElem?_eq_some_iff.mp found
      rw [grown, List.getElem?_append_left within]
      exact found

theorem task_found (i : Nat) (phase : Phase) (found : s.m_sendFutures[i]? = some ⟨hdl, id, phase⟩) :
    s.tasks[i]? = some (hdl, id) := by
  dsimp only [State.tasks]
  rw [List.getElem?_map, found]
  rfl

theorem acknowledged_only (owned : Owned s) (held : Acknowledged task hdl id installed s) (i : Nat) (other : Hdl)
    (found : s.tasks[i]? = some (other, id)) : i = task ∧ other = hdl := by
  rcases held.launched with ⟨thread, _⟩ | mine
  · exact absurd rfl (owned.fresh id (by rw [thread]; rfl) (other, id) (List.mem_of_getElem? found))
  · have ids : ∀ {j : Nat} {h : Hdl}, s.tasks[j]? = some (h, id) → (s.tasks.map Prod.snd)[j]? = some id := by
      intro j h here
      rw [List.getElem?_map, here]
      rfl
    obtain ⟨within, _⟩ := List.getElem?_eq_some_iff.mp (ids found)
    have same : i = task := (List.getElem?_inj within owned.distinct).mp ((ids found).trans (ids mine).symm)
    subst same
    rw [mine] at found
    cases found
    exact ⟨rfl, rfl⟩

theorem slot_silenced (taken : Transition p s (.silenced id) t out) (known : s.slot id ≠ none) :
    t.slot id = some .ignore := by
  cases taken with
  | silenced other opening =>
      change (s.updateHandler id .ignoreData).slot id = _
      rw [State.slot_update, if_pos rfl]
      cases found : s.handler id with
      | none => exact absurd (by unfold State.slot; rw [found]; rfl) known
      | some handler => rfl

theorem slot_installed (taken : Transition p s (.install task) t out) (found : s.tasks[task]? = some (hdl, id))
    (known : s.slot id ≠ none) : t.slot id = some (.call hdl) := by
  cases taken with
  | installed _ other fresh handler resolved present =>
      rw [task_found s other fresh task .resolved resolved] at found
      cases found
      change (s.updateHandler id (.onDataReceived hdl)).slot id = _
      rw [State.slot_update, if_pos rfl, present]
      rfl
  | unknown _ other fresh resolved missing =>
      rw [task_found s other fresh task .resolved resolved] at found
      cases found
      exact absurd (by unfold State.slot; rw [missing]; rfl) known

theorem acknowledged_slot (owned : Owned s) (held : Acknowledged task hdl id installed s)
    (taken : Transition p s action t out) :
    if installs task id installed action then t.slot id = some (.call hdl)
    else t.slot id = some .unset ∨ t.slot id = some .ignore := by
  have known := acknowledged_known s task hdl id installed held
  have kept (silent : action ≠ .silenced id) (other : action ≠ .install task) :
      installs task id installed action = installed ∧ t.slot id = s.slot id := by
    constructor
    · cases action with
      | install i => exact if_neg fun same => other (by rw [same])
      | silenced i => exact if_neg fun same => silent (by rw [same])
      | _ => rfl
    · rcases transition_slot p s t action out id taken with same | ⟨missing, _⟩ | ⟨silenced, _⟩ | ⟨i, h, install, found, _⟩
      · exact same
      · exact absurd missing known
      · exact absurd silenced silent
      · obtain ⟨rfl, _⟩ := acknowledged_only s task hdl id installed owned held i h (task_found s h id i .resolved found)
        exact absurd install other
  by_cases silent : action = .silenced id
  · subst silent
    simp only [installs, if_true]
    exact Or.inr (slot_silenced p s t out id taken known)
  · by_cases install : action = .install task
    · subst install
      simp only [installs, if_true]
      rcases held.launched with ⟨_, length⟩ | mine
      · have absent : s.tasks[task]? = none := List.getElem?_eq_none (Nat.le_of_eq length)
        cases taken with
        | installed _ h i handler resolved => simp [task_found s h i task .resolved resolved] at absent
        | unknown _ h i resolved => simp [task_found s h i task .resolved resolved] at absent
      · exact slot_installed p s t out task hdl id taken mine known
    · obtain ⟨same, slot⟩ := kept silent install
      rw [same, slot]
      exact held.slot

theorem acknowledged_step (owned : Owned s) (held : Acknowledged task hdl id installed s)
    (taken : Transition p s action t out) (remains : action ≠ .disconnected hdl) :
    Acknowledged task hdl id (installs task id installed action) t where
  alive := acknowledged_alive p s t action out task hdl id installed held taken
  stays := acknowledged_stays p s t action out task hdl id installed held taken remains
  launched := acknowledged_launched p s t action out task hdl id installed held taken
  slot := acknowledged_slot p s t action out task hdl id installed owned held taken

theorem acknowledged_run (actions : List Action) (log : List (List (Output D))) (owned : Owned s)
    (held : Acknowledged task hdl id installed s) (ran : (aggregator p).run s actions = some (t, log))
    (remains : ∀ action ∈ actions, action ≠ .disconnected hdl) :
    Acknowledged task hdl id (actions.foldl (installs task id) installed) t := by
  induction actions generalizing s installed log with
  | nil =>
      obtain ⟨rfl, _⟩ := ((aggregator p).run_nil s t log).mp ran
      exact held
  | cons action rest ih =>
      obtain ⟨next, out, tail, taken, later, _⟩ := ((aggregator p).run_cons s t action rest log).mp ran
      have moved := (step_transition p s next action out taken).2
      exact ih next (installs task id installed action) tail (owned_step p s next action out owned moved)
        (acknowledged_step p s next action out task hdl id installed owned held moved (remains action (by simp))) later
        fun other member => remains other (by simp [member])

theorem acknowledged_start (s' : State) (owned : Owned s) (replied : Acknowledges p s s' hdl id) :
    Owned s' ∧ Acknowledged s.m_sendFutures.length hdl id false s' := by
  obtain ⟨host, thread, taken⟩ := replied
  have moved := (step_transition p s s' .wake _ taken).2
  refine ⟨owned_step p s s' .wake _ owned moved, ?_⟩
  clear taken
  generalize [Output.send hdl (statusObject "processed".toList ("connecting to ".toList ++ host) : JSON D)] = out at moved
  have known : s.slot id ≠ none := owned.seen id (by rw [thread]; rfl)
  have uncalled : ∀ other, s.slot id ≠ some (.call other) := fun other called =>
    owned.fresh id (by rw [thread]; rfl) _ (owned.called id other called) rfl
  cases moved with
  | replied other host id acknowledging =>
      rw [thread] at acknowledging
      cases acknowledging
      refine ⟨owned.busy hdl (by rw [thread]; rfl), fun todo => by simp, Or.inl ⟨rfl, ?_⟩, ?_⟩
      · simp [State.tasks]
      · change s.slot id = some .unset ∨ s.slot id = some .ignore
        cases slot : s.slot id with
        | none => exact absurd slot known
        | some value =>
            cases value with
            | unset => exact Or.inl rfl
            | ignore => exact Or.inr rfl
            | call other => exact absurd slot (uncalled other)
  | _ => simp_all

theorem delivered_iff (data : Text) (held : Acknowledged task hdl id installed s)
    (taken : Transition p s (.received id data) t out) :
    (∃ response, load p.fp data = .ok response ∧ out = [.send hdl response]) ↔
      installed = true ∧ ∃ response, load p.fp data = .ok response := by
  have slot := held.slot
  cases taken with
  | ignored _ _ handler free found receives ignored =>
      rw [s.slot_of id handler found, ignored] at slot
      cases installed with
      | true => simp at slot
      | false => simp
  | forwarded _ _ handler other response free found receives called alive loaded =>
      rw [s.slot_of id handler found, called] at slot
      cases installed with
      | true =>
          simp only [if_true, Option.some.injEq, Slot.call.injEq] at slot
          subst other
          exact ⟨fun _ => ⟨rfl, response, loaded⟩, fun _ => ⟨response, loaded, rfl⟩⟩
      | false => simp at slot
  | escaped _ _ handler fault free found receives raised =>
      rw [s.slot_of id handler found] at slot
      constructor
      · rintro ⟨_, _, nothing⟩
        cases nothing
      · rintro ⟨rfl, response, loaded⟩
        simp only [if_true, Option.some.injEq] at slot
        simp [clientOnMessage, emitDataReceived, slot, forward, held.alive, loadText, loaded, Except.map] at raised

end

theorem acknowledged_forwarded_iff (p : Platform D) (s s' t : State) (hdl : Hdl) (id : Int) (actions : List Action)
    (log : List (List (Output D))) (reach : (aggregator p).Reachable .init s) (replied : Acknowledges p s s' hdl id)
    (ran : (aggregator p).run s' actions = some (t, log)) (stays : ∀ action ∈ actions, action ≠ .disconnected hdl) :
    ForwardsAll p hdl id actions log ↔
      ∀ (i : Nat) (data : Text), actions[i]? = some (.received id data) →
        InstallStands s.m_sendFutures.length id (actions.take i) ∧ ∃ response, load p.fp data = .ok response := by
  obtain ⟨owned, start⟩ := acknowledged_start p s hdl id s' (reachable_owned p s reach) replied
  have each (i : Nat) (data : Text) (delivered : actions[i]? = some (.received id data)) :
      (∃ response, load p.fp data = .ok response ∧ log[i]? = some [.send hdl response]) ↔
        InstallStands s.m_sendFutures.length id (actions.take i) ∧ ∃ response, load p.fp data = .ok response := by
    obtain ⟨mid, head, next, out, before, taken, logged⟩ :=
      (aggregator p).run_at s' t (.received id data) actions log i ran delivered
    have held := acknowledged_run p s' mid s.m_sendFutures.length hdl id false (actions.take i) head owned start before
      fun action member => stays action (List.mem_of_mem_take member)
    have moved := (step_transition p mid next (.received id data) out taken).2
    simp only [logged, Option.some.injEq]
    exact delivered_iff p mid next out _ hdl id _ data held moved
  exact forall_congr' fun i => forall_congr' fun data => forall_congr' fun delivered => each i data delivered

theorem step_acknowledging (p : Platform D) (s : State) (hdl : Hdl) (host : Text) (id : Int) (sound : s.fault = none)
    (thread : s.thread = .acknowledging hdl host id) (accepted : id ≠ -1) :
    Acknowledges p s (acknowledge s hdl host id : State × List (Output D)).1 hdl id := by
  have woken : wake s = some (acknowledge s hdl host id : State × List (Output D)) := by
    dsimp only [wake]
    rw [thread]
  have processed : (providerReply host id : JSON D) =
      statusObject "processed".toList ("connecting to ".toList ++ host) := if_pos accepted
  refine ⟨host, thread, ?_⟩
  dsimp only [step]
  rw [if_neg (by simp [sound]), ← processed]
  exact woken

def polledRun : List Action := [.connected, .message 0 providerRequest, .opened 0, .silenced 0, .wake]

def repliedRun : List Action := polledRun ++ [.wake]

theorem polled_run :
    ∃ s s' head log, (aggregator .plain).run .init polledRun = some (s, head) ∧ s.m_sendFutures.length = 0 ∧
      Acknowledges .plain s s' 0 0 ∧ (aggregator .plain).run .init repliedRun = some (s', log) := by
  obtain ⟨s, head, ran, checked⟩ := (aggregator .plain).run_check .init polledRun
    (fun done => done.1.fault = none ∧ done.1.m_sendFutures.length = 0 ∧
      done.1.thread = .acknowledging 0 "\"ws://p:1\"".toList 0) (by decide +kernel)
  obtain ⟨sound, futures, thread⟩ := of_decide_eq_true checked
  have replied := step_acknowledging .plain s 0 _ 0 sound thread (by decide)
  obtain ⟨_, _, taken⟩ := id replied
  exact ⟨s, _, head, _, ran, futures, replied, (aggregator .plain).run_trans .init s _ polledRun [.wake] head _ ran
    (((aggregator .plain).run_single s _ .wake _).mpr ⟨_, taken, rfl⟩)⟩

def installedRun : List Action := [.wake, .start 0, .install 0, .received 0 quoteText]

theorem acknowledged_forwarded_iff_installed :
    ∃ s s' t log, (aggregator .plain).Reachable .init s ∧ Acknowledges .plain s s' 0 0 ∧
      (aggregator .plain).run s' installedRun = some (t, log) ∧ ForwardsAll .plain 0 0 installedRun log := by
  obtain ⟨s, s', head, before, ran, futures, replied, after⟩ := polled_run
  obtain ⟨t, log, finish, _⟩ := (aggregator .plain).run_check_after .init s' repliedRun installedRun before
    (fun _ => true) after (by decide +kernel)
  refine ⟨s, s', t, log, ⟨polledRun, head, ran⟩, replied, finish, ?_⟩
  refine (acknowledged_forwarded_iff .plain s s' t 0 0 installedRun log ⟨polledRun, head, ran⟩ replied finish
    (by simp [installedRun])).mpr fun i data delivered => ?_
  rw [futures]
  match i with
  | 0 => cases delivered
  | 1 => cases delivered
  | 2 => cases delivered
  | 3 =>
      cases delivered
      exact ⟨rfl, _, load_quote _⟩
  | _ + 4 => cases delivered

theorem acknowledged_message_lost :
    ∃ s s' t log, (aggregator .plain).Reachable .init s ∧ Acknowledges .plain s s' 0 0 ∧
      (aggregator .plain).run s' [.received 0 quoteText] = some (t, log) ∧
      ¬ForwardsAll .plain 0 0 [.received 0 quoteText] log := by
  obtain ⟨s, s', head, before, ran, _, replied, after⟩ := polled_run
  obtain ⟨t, log, finish, nothing⟩ := (aggregator .plain).run_check_after .init s' repliedRun
    [.received 0 quoteText] before (fun done => (done.2[0]?.map List.length) = some 0) after (by decide +kernel)
  refine ⟨s, s', t, log, ⟨polledRun, head, ran⟩, replied, finish, fun forwards => ?_⟩
  obtain ⟨response, _, sent⟩ := forwards 0 quoteText rfl
  simp [sent] at nothing

-- on_open publishes Open before it writes the slot: here its default callback
-- comes last and stays, and the message is dropped.
example : ((aggregator .plain).run .init [.connected, .message 0 providerRequest, .opened 0, .wake, .wake, .wake, .start 0,
    .install 0, .silenced 0, .received 0 quoteText]).any (fun done => done.2.getLast?.map List.length = some 0) = true := by
  decide +kernel

end TradingFeed.Aggregator
