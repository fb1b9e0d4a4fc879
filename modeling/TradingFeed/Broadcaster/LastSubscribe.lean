import TradingFeed.Broadcaster.FanOut
import TradingFeed.Broadcaster.Progress

set_option autoImplicit false

namespace TradingFeed.Broadcaster

open TradingFeed.Json TradingFeed.Sockets

variable {D : Type}

-- Consumers come, go and subscribe, tasks run and aggregators send; the
-- aggregator connections stay as they are.
def SubscribeStep (p : Platform D) : Action → Prop
  | .message _ payload =>
      ∃ request, load p.fp payload = .ok request ∧ (request.index "action".toList).asText = "subscribe".toList
  | .connected | .disconnected _ | .start _ | .visit _ | .received _ _ => True
  | _ => False

def subscriptions (p : Platform D) (hdl : Hdl) (request : JSON D) : List Subscription :=
  (if (request.index "status".toList).asText ≠ [] then
      [⟨hdl, ((request.indexed "action".toList).indexed "status".toList).dump p.fp⟩]
    else []) ++ [⟨hdl, channel request⟩]

def launches (p : Platform D) : Action → List Subscription
  | .message hdl payload =>
      match load p.fp payload with
      | .ok request => subscriptions p hdl request
      | .error _ => []
  | _ => []

def visits (i : Nat) : List Action → Nat
  | [] => 0
  | .visit j :: past => visits i past + if j = i then 1 else 0
  | _ :: past => visits i past

-- The tasks that have visited a connection, both lists with the latest first: a
-- task walks over the tracked connections in their order.
def visitors (tracked : List Conn) (conn : Conn) : List Action → List Nat
  | [] => []
  | .visit i :: past =>
      if tracked[visits i past]? = some conn then i :: visitors tracked conn past else visitors tracked conn past
  | _ :: past => visitors tracked conn past

def State.subs (s : State D) : List Subscription := s.m_sendFutures.map Task.sub

def VisitedLast (p : Platform D) (s : State D) (actions : List Action) (sub : Subscription) (conn : Conn) : Prop :=
  ∃ i, (visitors s.tracked conn actions.reverse).head? = some i ∧ (s.subs ++ actions.flatMap (launches p))[i]? = some sub

theorem visits_mem_visitors (tracked : List Conn) (conn : Conn) (i k : Nat) (past : List Action)
    (before : k < visits i past) (here : tracked[k]? = some conn) : i ∈ visitors tracked conn past := by
  induction past with
  | nil => cases before
  | cons action past ih =>
      cases action with
      | visit j =>
          dsimp only [visits] at before
          dsimp only [visitors]
          by_cases earlier : k < visits i past
          · split
            · exact List.mem_cons_of_mem j (ih earlier)
            · exact ih earlier
          · split at before
            · rename_i same
              have now : visits i past = k := by omega
              subst same
              rw [now, if_pos here]
              exact List.mem_cons_self
            · omega
      | _ => exact ih before

theorem subscribe_launches (p : Platform D) (s : State D) (hdl : Hdl) (payload : Text) (request : JSON D)
    (subscribes : (request.index "action".toList).asText = "subscribe".toList) :
    command p (subscribePart p s hdl request) hdl payload request =
      ({ s with m_sendFutures := s.m_sendFutures ++ (subscriptions p hdl request).map fun sub => ⟨sub, .launched⟩ }, []) := by
  rw [command_other p _ hdl payload request (by rw [subscribes]; decide)]
  dsimp only [subscribePart, subscriptions, channel]
  rw [if_pos (Or.inl subscribes)]
  split <;> simp [launch]

-- What a run of the tasks has done so far: `old` are the callbacks of the tasks
-- that had ended before it.
structure Scheduled (p : Platform D) (tracked : List Conn) (old : List Subscription) (s : State D)
    (past : List Action) : Prop where
  same : s.tracked = tracked
  subs : s.subs = old ++ past.reverse.flatMap (launches p)
  unborn : ∀ i, s.m_sendFutures.length ≤ i → visits i past = 0
  walks : ∀ (i : Nat) (task : Task), s.m_sendFutures[i]? = some task → (i < old.length ∧ task.finished = true) ∨
    (task.remaining tracked = tracked.drop (visits i past) ∧ (task.phase = .launched → visits i past = 0))
  receives : ∀ conn ∈ tracked, s.Receives conn
  installed : ∀ conn ∈ tracked, ∀ i, (visitors tracked conn past).head? = some i →
    ∃ sub, s.subs[i]? = some sub ∧ s.InForce conn sub

theorem scheduled_kept (p : Platform D) (tracked : List Conn) (old : List Subscription) (s t : State D)
    (past : List Action) (action : Action) (scheduled : Scheduled p tracked old s past)
    (endpoints : t.m_endpoints = s.m_endpoints) (futures : t.m_sendFutures = s.m_sendFutures)
    (objects : t.endPoints = s.endPoints) (silent : Silent action) (still : ∀ i, action ≠ .visit i) :
    Scheduled p tracked old t (action :: past) := by
  have sameVisits : ∀ i, visits i (action :: past) = visits i past := by
    cases action with
    | visit i => exact absurd rfl (still i)
    | _ => exact fun i => rfl
  have sameVisitors : ∀ conn, visitors tracked conn (action :: past) = visitors tracked conn past := by
    cases action with
    | visit i => exact absurd rfl (still i)
    | _ => exact fun i => rfl
  have launchesNone : launches p action = [] := by
    cases action with
    | message hdl payload => exact absurd rfl (silent hdl payload)
    | _ => rfl
  have subs : t.subs = s.subs := congrArg (List.map Task.sub) futures
  constructor
  case same =>
    exact (tracked_same s t endpoints).trans scheduled.same
  case subs =>
    simp [subs, scheduled.subs, launchesNone]
  case unborn =>
    intro i beyond
    rw [sameVisits]
    exact scheduled.unborn i (by rw [← futures]; exact beyond)
  case walks =>
    intro i task found
    rw [sameVisits]
    exact scheduled.walks i task (by rw [← futures]; exact found)
  case receives =>
    intro conn member
    exact receives_shuts s t conn (Or.inl (handler_same s t objects conn)) (scheduled.receives conn member)
  case installed =>
    intro conn member i latest
    rw [sameVisitors] at latest
    obtain ⟨sub, found, force⟩ := scheduled.installed conn member i latest
    exact ⟨sub, by rw [subs]; exact found, (in_force_same s t conn sub objects).mpr force⟩

theorem scheduled_launched (p : Platform D) (tracked : List Conn) (old : List Subscription) (s : State D)
    (past : List Action) (hdl : Hdl) (payload : Text) (request : JSON D) (scheduled : Scheduled p tracked old s past)
    (loaded : load p.fp payload = .ok request) :
    Scheduled p tracked old
      { s with m_sendFutures := s.m_sendFutures ++ (subscriptions p hdl request).map fun sub => ⟨sub, .launched⟩ }
      (.message hdl payload :: past) := by
  constructor
  case same =>
    exact scheduled.same
  case subs =>
    have carried : ((subscriptions p hdl request).map fun sub => (⟨sub, .launched⟩ : Task)).map Task.sub =
        subscriptions p hdl request := by
      rw [List.map_map]
      exact List.map_id _
    have subs := scheduled.subs
    dsimp only [State.subs] at subs ⊢
    rw [List.map_append, carried, subs]
    simp [launches, loaded]
  case unborn =>
    intro i beyond
    exact scheduled.unborn i (Nat.le_trans (by simp) beyond)
  case walks =>
    intro i task found
    rcases Nat.lt_or_ge i s.m_sendFutures.length with known | fresh
    · rw [List.getElem?_append_left known] at found
      exact scheduled.walks i task found
    · have unvisited : visits i (.message hdl payload :: past) = 0 := scheduled.unborn i fresh
      rw [List.getElem?_append_right fresh, List.getElem?_map] at found
      obtain ⟨sub, _, rfl⟩ := Option.map_eq_some_iff.mp found
      exact Or.inr ⟨by rw [unvisited]; rfl, fun _ => unvisited⟩
  case receives =>
    exact scheduled.receives
  case installed =>
    intro conn member i latest
    obtain ⟨sub, found, force⟩ := scheduled.installed conn member i latest
    refine ⟨sub, ?_, force⟩
    have known := (List.getElem?_eq_some_iff.mp found).1
    dsimp only [State.subs] at found known ⊢
    rw [List.map_append, List.getElem?_append_left known]
    exact found

theorem subs_set (s : State D) (i : Nat) (sub : Subscription) (before after : Phase)
    (found : s.m_sendFutures[i]? = some ⟨sub, before⟩) :
    (s.m_sendFutures.set i ⟨sub, after⟩).map Task.sub = s.subs := by
  obtain ⟨known, here⟩ := List.getElem?_eq_some_iff.mp found
  have bound : i < (s.m_sendFutures.map Task.sub).length := by simpa using known
  have own : sub = (s.m_sendFutures.map Task.sub)[i] := by simp [here]
  rw [List.map_set]
  dsimp only
  rw [own]
  exact List.set_getElem_self bound

theorem scheduled_started (p : Platform D) (tracked : List Conn) (old : List Subscription) (s : State D)
    (past : List Action) (i : Nat) (sub : Subscription) (scheduled : Scheduled p tracked old s past)
    (found : s.m_sendFutures[i]? = some ⟨sub, .launched⟩) :
    Scheduled p tracked old { s with m_sendFutures := s.m_sendFutures.set i ⟨sub, .walking s.tracked⟩ }
      (.start i :: past) := by
  have subs := subs_set s i sub .launched (.walking s.tracked) found
  constructor
  case same =>
    exact scheduled.same
  case subs =>
    exact subs.trans (scheduled.subs.trans (by simp [launches]))
  case unborn =>
    intro j beyond
    exact scheduled.unborn j (by simpa using beyond)
  case walks =>
    intro j task here
    by_cases own : i = j
    · subst own
      have unvisited : visits i past = 0 := by
        rcases scheduled.walks i _ found with ⟨_, ended⟩ | ⟨_, unvisited⟩
        · cases ended
        · exact unvisited rfl
      dsimp only at here
      rw [List.getElem?_set_self (List.getElem?_eq_some_iff.mp found).1] at here
      cases here
      have none : visits i (.start i :: past) = 0 := unvisited
      exact Or.inr ⟨by rw [none]; exact scheduled.same, fun phase => by cases phase⟩
    · dsimp only at here
      rw [List.getElem?_set_ne own] at here
      exact scheduled.walks j task here
  case receives =>
    exact scheduled.receives
  case installed =>
    intro conn member j latest
    obtain ⟨other, there, force⟩ := scheduled.installed conn member j latest
    refine ⟨other, ?_, force⟩
    dsimp only [State.subs] at subs there ⊢
    rw [subs]
    exact there

theorem walking_place (p : Platform D) (tracked : List Conn) (old : List Subscription) (s : State D)
    (past : List Action) (i : Nat) (sub : Subscription) (place : Conn) (todo : List Conn)
    (scheduled : Scheduled p tracked old s past)
    (found : s.m_sendFutures[i]? = some ⟨sub, .walking (place :: todo)⟩) :
    tracked[visits i past]? = some place ∧ todo = tracked.drop (visits i past + 1) := by
  rcases scheduled.walks i _ found with ⟨_, ended⟩ | ⟨left, _⟩
  · cases ended
  · have left' : place :: todo = tracked.drop (visits i past) := left
    constructor
    · rw [← List.head?_drop, ← left']
      rfl
    · rw [← List.tail_drop, ← left']
      rfl

theorem scheduled_installed (p : Platform D) (tracked : List Conn) (old : List Subscription) (s : State D)
    (past : List Action) (i : Nat) (sub : Subscription) (place : Conn) (todo : List Conn)
    (scheduled : Scheduled p tracked old s past)
    (found : s.m_sendFutures[i]? = some ⟨sub, .walking (place :: todo)⟩) :
    Scheduled p tracked old
      { s.updateHandler place (.onDataReceived sub) with m_sendFutures := s.m_sendFutures.set i ⟨sub, .walking todo⟩ }
      (.visit i :: past) := by
  have subs := subs_set s i sub (.walking (place :: todo)) (.walking todo) found
  have known := (List.getElem?_eq_some_iff.mp found).1
  obtain ⟨here, left⟩ := walking_place p tracked old s past i sub place todo scheduled found
  have others : ∀ j, j ≠ i → visits j (.visit i :: past) = visits j past := fun j other => by
    simp [visits, Ne.symm other]
  have own : visits i (.visit i :: past) = visits i past + 1 := by simp [visits]
  constructor
  case same =>
    exact scheduled.same
  case subs =>
    exact subs.trans (scheduled.subs.trans (by simp [launches]))
  case unborn =>
    intro j beyond
    have beyond' : s.m_sendFutures.length ≤ j := by simpa using beyond
    rw [others j (by omega)]
    exact scheduled.unborn j beyond'
  case walks =>
    intro j task there
    dsimp only at there
    by_cases same : i = j
    · subst same
      rw [List.getElem?_set_self known] at there
      cases there
      exact Or.inr ⟨by rw [own]; exact left, fun phase => by cases phase⟩
    · rw [List.getElem?_set_ne same] at there
      rw [others j (Ne.symm same)]
      exact scheduled.walks j task there
  case receives =>
    intro conn member
    exact install_receives s _ place conn sub rfl (scheduled.receives conn member)
  case installed =>
    intro conn member j latest
    dsimp only [visitors] at latest
    rw [here] at latest
    by_cases same : conn = place
    · subst same
      rw [if_pos rfl] at latest
      cases latest
      refine ⟨sub, ?_, (in_force_same _ _ conn sub rfl).mpr (installed_in_force s conn sub (scheduled.receives conn member))⟩
      dsimp only [State.subs] at subs ⊢
      rw [subs, List.getElem?_map, found]
      rfl
    · rw [if_neg fun equal => same (Option.some.inj equal).symm] at latest
      obtain ⟨other, there, force⟩ := scheduled.installed conn member j latest
      refine ⟨other, ?_, ?_⟩
      · dsimp only [State.subs] at subs there ⊢
        rw [subs]
        exact there
      · exact (in_force_shuts s _ conn other (Or.inl (installed_elsewhere s place conn sub same))).mpr force

theorem scheduled_step (p : Platform D) (tracked : List Conn) (old : List Subscription) (s t : State D)
    (past : List Action) (action : Action) (out : List (Output D)) (scheduled : Scheduled p tracked old s past)
    (subscribes : SubscribeStep p action) (taken : step p s action = some (t, out)) :
    Scheduled p tracked old t (action :: past) := by
  obtain ⟨_, transition⟩ := step_transition p s t action out taken
  have reached (i : Nat) (sub : Subscription) (place : Conn) (todo : List Conn)
      (found : s.m_sendFutures[i]? = some ⟨sub, .walking (place :: todo)⟩) : ∃ handler, s.handler place = some handler := by
    have here := (walking_place p tracked old s past i sub place todo scheduled found).1
    obtain ⟨handler, known, _⟩ := scheduled.receives place (List.mem_of_getElem? here)
    exact ⟨handler, known⟩
  cases transition with
  | connected => exact scheduled_kept p tracked old s _ past _ scheduled rfl rfl rfl (by simp [Silent]) (by simp)
  | disconnected => exact scheduled_kept p tracked old s _ past _ scheduled rfl rfl rfl (by simp [Silent]) (by simp)
  | malformed hdl payload fault _ _ raised =>
      obtain ⟨request, loaded, _⟩ := subscribes
      rw [raised] at loaded
      cases loaded
  | handled hdl payload request _ _ loaded =>
      obtain ⟨other, again, action⟩ := subscribes
      cases loaded.symm.trans again
      rw [subscribe_launches p s hdl payload request action]
      exact scheduled_launched p tracked old s past hdl payload request scheduled loaded
  | started i sub found => exact scheduled_started p tracked old s past i sub scheduled found
  | installed i sub place todo found => exact scheduled_installed p tracked old s past i sub place todo scheduled found
  | dangling i sub place todo found gone =>
      obtain ⟨handler, known⟩ := reached i sub place todo found
      simp [State.handler, gone] at known
  | unknown i sub place todo found _ absent =>
      obtain ⟨handler, known⟩ := reached i sub place todo found
      rw [absent] at known
      cases known
  | ignored => exact scheduled_kept p tracked old s _ past _ scheduled rfl rfl rfl (by simp [Silent]) (by simp)
  | delivered place data handler sub status =>
      have registry := deliver_registry sub status s
      exact scheduled_kept p tracked old s _ past _ scheduled registry.endpoints registry.futures registry.endPoints
        (by simp [Silent]) (by simp)
  | escaped => exact scheduled_kept p tracked old s _ past _ scheduled rfl rfl rfl (by simp [Silent]) (by simp)
  | _ => exact False.elim subscribes

theorem scheduled_start (p : Platform D) (s : State D) (settled : ∀ task ∈ s.m_sendFutures, task.finished = true)
    (opened : ∀ conn ∈ s.tracked, s.Receives conn) : Scheduled p s.tracked s.subs s [] where
  same := rfl
  subs := by simp
  unborn := fun _ _ => rfl
  walks := fun i task found =>
    Or.inl ⟨by simpa [State.subs] using (List.getElem?_eq_some_iff.mp found).1, settled task (List.mem_of_getElem? found)⟩
  receives := opened
  installed := fun conn member i latest => by cases latest

theorem scheduled_run (p : Platform D) (s t : State D) (actions : List Action) (log : List (List (Output D)))
    (settled : ∀ task ∈ s.m_sendFutures, task.finished = true) (opened : ∀ conn ∈ s.tracked, s.Receives conn)
    (subscribes : ∀ action ∈ actions, SubscribeStep p action) (ran : (broadcaster p).run s actions = some (t, log)) :
    Scheduled p s.tracked s.subs t actions.reverse := by
  let note : State D → Action → List Action → List Action := fun _ action past => action :: past
  obtain ⟨past, followed⟩ := ((broadcaster p).recorded_run note actions s t [] log).mp ran
  have trace := (broadcaster p).recorded_trace actions s t [] past log followed
  have met := (broadcaster p).along_recorded note (fun _ action => SubscribeStep p action) actions s []
    ((broadcaster p).along_always _ actions s fun _ action member => subscribes action member)
  have scheduled : Scheduled p s.tracked s.subs t past := by
    refine ((broadcaster p).recorded note).run_invariant (fun _ action => SubscribeStep p action)
      (fun now => Scheduled p s.tracked s.subs now.1 now.2) ?_ actions (s, []) (t, past) log
      (scheduled_start p s settled opened) met followed
    rintro ⟨u, before⟩ action ⟨v, after⟩ out held met taken
    obtain ⟨stepped, rfl⟩ := ((broadcaster p).recorded_step note u v before after action out).mp taken
    exact scheduled_step p s.tracked s.subs u v before action out held met stepped
  rw [trace, List.append_nil] at scheduled
  exact scheduled

theorem in_force_unique (s : State D) (conn : Conn) (first second : Subscription) (one : s.InForce conn first)
    (other : s.InForce conn second) : first = second := by
  obtain ⟨handler, found, _, slot⟩ := one
  obtain ⟨_, again, _, same⟩ := other
  rw [found] at again
  cases again
  rw [slot] at same
  exact Slot.call.inj same

theorem latest_launched (p : Platform D) (front back : List Action) (hdl : Hdl) (payload : Text) (request : JSON D)
    (last : ∀ action ∈ back, Silent action) (loaded : load p.fp payload = .ok request) :
    ((front ++ .message hdl payload :: back).flatMap (launches p)).getLast? = some ⟨hdl, channel request⟩ := by
  have none : back.flatMap (launches p) = [] := by
    refine List.flatMap_eq_nil_iff.mpr fun action member => ?_
    cases action with
    | message other given => exact absurd rfl (last _ member other given)
    | _ => rfl
  have own : launches p (.message hdl payload) = subscriptions p hdl request := by
    dsimp only [launches]
    rw [loaded]
  rw [List.flatMap_append, List.flatMap_cons, none, own, List.append_nil]
  dsimp only [subscriptions]
  rw [← List.append_assoc]
  exact List.getLast?_concat

theorem finished_visitor (p : Platform D) (tracked : List Conn) (old : List Subscription) (t : State D)
    (past : List Action) (conn : Conn) (scheduled : Scheduled p tracked old t past)
    (finished : ∀ task ∈ t.m_sendFutures, task.finished = true) (more : old.length < t.m_sendFutures.length)
    (member : conn ∈ tracked) : ∃ i, (visitors tracked conn past).head? = some i := by
  obtain ⟨k, bound, here⟩ := List.getElem_of_mem member
  have found : t.m_sendFutures[old.length]? = some t.m_sendFutures[old.length] := List.getElem?_eq_getElem more
  have visited : k < visits old.length past := by
    rcases scheduled.walks _ _ found with ⟨early, _⟩ | ⟨left, _⟩
    · exact absurd early (Nat.lt_irrefl _)
    · rw [finished_remaining _ (finished _ (List.mem_of_getElem? found)) tracked] at left
      have all := List.drop_eq_nil_iff.mp left.symm
      omega
  have mine := visits_mem_visitors tracked conn old.length k past visited
    ((List.getElem?_eq_getElem bound).trans (congrArg some here))
  cases inside : visitors tracked conn past with
  | nil =>
      rw [inside] at mine
      cases mine
  | cons i rest => exact ⟨i, rfl⟩

theorem last_subscribe_wins_iff (p : Platform D) (s t : State D) (front back : List Action) (hdl : Hdl)
    (payload : Text) (request : JSON D) (log : List (List (Output D)))
    (settled : ∀ task ∈ s.m_sendFutures, task.finished = true) (opened : ∀ conn ∈ s.tracked, s.Receives conn)
    (subscribes : ∀ action ∈ front ++ .message hdl payload :: back, SubscribeStep p action)
    (last : ∀ action ∈ back, Silent action) (loaded : load p.fp payload = .ok request)
    (ran : (broadcaster p).run s (front ++ .message hdl payload :: back) = some (t, log))
    (finished : ∀ task ∈ t.m_sendFutures, task.finished = true) :
    (∀ conn ∈ t.tracked, t.InForce conn ⟨hdl, channel request⟩) ↔
      ∀ conn ∈ s.tracked, VisitedLast p s (front ++ .message hdl payload :: back) ⟨hdl, channel request⟩ conn := by
  have scheduled := scheduled_run p s t _ log settled opened subscribes ran
  have subs := scheduled.subs
  rw [List.reverse_reverse] at subs
  have more : s.subs.length < t.m_sendFutures.length := by
    have nonempty := List.mem_of_getLast? (latest_launched p front back hdl payload request last loaded)
    have positive := List.length_pos_of_mem nonempty
    have length := congrArg List.length subs
    simp only [State.subs, List.length_map, List.length_append] at length positive ⊢
    omega
  rw [scheduled.same]
  constructor
  · intro wins conn member
    obtain ⟨i, latest⟩ := finished_visitor p _ _ t _ conn scheduled finished more member
    obtain ⟨sub, found, force⟩ := scheduled.installed conn member i latest
    rw [in_force_unique t conn sub _ force (wins conn member), subs] at found
    exact ⟨i, latest, found⟩
  · intro visited conn member
    obtain ⟨i, latest, given⟩ := visited conn member
    obtain ⟨sub, found, force⟩ := scheduled.installed conn member i latest
    rw [subs, given] at found
    cases found
    exact force

theorem opened_tracks (s : State Int) (log : List (List (Output Int)))
    (ran : (broadcaster .plain).run .init openedRun = some (s, log)) : s.tracked = [⟨0, 0⟩] := by
  obtain ⟨t, again, other, checked⟩ := (broadcaster .plain).run_check .init openedRun
    (fun done => done.1.tracked = [⟨0, 0⟩]) (by decide +kernel)
  cases other.symm.trans ran
  exact of_decide_eq_true checked

theorem last_subscribe_wins_iff_displacing :
    ∃ s t log, (broadcaster .plain).run s displacingRun = some (t, log) ∧
      ∀ conn ∈ t.tracked, t.InForce conn ⟨1, "broadcast".toList⟩ := by
  obtain ⟨s, head, opened, none, _, receives⟩ := opened_run
  have tracked := opened_tracks s head opened
  obtain ⟨t, log, ran, finished⟩ := (broadcaster .plain).run_check_after .init s openedRun displacingRun head
    (fun done => done.1.m_sendFutures.all Task.finished) opened (by decide +kernel)
  have tasks : s.m_sendFutures = [] := List.isEmpty_iff.mp none
  refine ⟨s, t, log, ran, (last_subscribe_wins_iff .plain s t [.message 0 subscribeRequest, .start 0, .visit 0]
    [.start 1, .visit 1] 1 subscribeRequest _ log ?_ ?_ ?_ (by simp [Silent]) (asks_subscribe .plain).loaded ran
    (List.all_eq_true.mp finished)).mpr ?_⟩
  · simp [tasks]
  · rw [tracked]
    exact fun conn member => List.mem_singleton.mp member ▸ receives
  · simp only [List.cons_append, List.nil_append, List.mem_cons, List.not_mem_nil, or_false, forall_eq_or_imp,
      forall_eq, SubscribeStep, and_true, true_and]
    have subscribe : ∃ request, load Platform.plain.fp subscribeRequest = .ok request ∧
        (request.index "action".toList).asText = "subscribe".toList :=
      ⟨_, (asks_subscribe .plain).loaded, (asks_subscribe .plain).action⟩
    exact ⟨subscribe, subscribe⟩
  · intro conn member
    rw [tracked] at member
    cases List.mem_singleton.mp member
    refine ⟨1, ?_, ?_⟩
    · rw [tracked]
      rfl
    · simp only [State.subs, tasks]
      decide +kernel

-- The task of the first consumer sleeps until the other one is done.
def overtakenRun : List Action :=
  [.message 0 subscribeRequest, .message 1 subscribeRequest, .start 0, .start 1, .visit 1, .visit 0]

theorem first_subscribe_wins :
    ∃ s t head log, (broadcaster .plain).run .init openedRun = some (s, head) ∧ s.tracked = [⟨0, 0⟩] ∧
      s.Receives ⟨0, 0⟩ ∧ (broadcaster .plain).run s overtakenRun = some (t, log) ∧
      t.m_sendFutures.all Task.finished = true ∧ t.InForce ⟨0, 0⟩ ⟨0, "broadcast".toList⟩ ∧
      ¬t.InForce ⟨0, 0⟩ ⟨1, "broadcast".toList⟩ := by
  obtain ⟨s, head, opened, _, _, receives⟩ := opened_run
  obtain ⟨t, log, ran, checked⟩ := (broadcaster .plain).run_check_after .init s openedRun overtakenRun head
    (fun done => done.1.m_sendFutures.all Task.finished = true ∧
      done.1.handsTo .plain ⟨0, 0⟩ priceText = some ⟨0, "broadcast".toList⟩) opened (by decide +kernel)
  obtain ⟨finished, handed⟩ := of_decide_eq_true checked
  have force := ((hands_to_some .plain t ⟨0, 0⟩ priceText _).mp handed).1
  refine ⟨s, t, head, log, opened, opened_tracks s head opened, receives, ran, finished, force, fun other => ?_⟩
  cases in_force_unique t ⟨0, 0⟩ _ _ force other

end TradingFeed.Broadcaster
