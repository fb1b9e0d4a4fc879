import TradingFeed.Broadcaster.Registry
import TradingFeed.Broadcaster.Requests

set_option autoImplicit false

namespace TradingFeed.Broadcaster

open TradingFeed.Json TradingFeed.Sockets

variable {D : Type}

def State.InForce (s : State D) (conn : Conn) (sub : Subscription) : Prop :=
  ∃ handler, s.handler conn = some handler ∧ handler.receives = true ∧ handler.dataReceivedSignal = .call sub

-- The callback that runs on `data`, a message of the connection: ClientHandler
-- loads the text once before it emits it, and drops it when that throws.
def State.handsTo (p : Platform D) (s : State D) (conn : Conn) (data : Text) : Option Subscription :=
  match s.handler conn, loadText p data with
  | some handler, .ok _ =>
      match handler.dataReceivedSignal with
      | .call sub => if handler.receives then some sub else none
      | _ => none
  | _, _ => none

def State.Receives (s : State D) (conn : Conn) : Prop :=
  ∃ handler, s.handler conn = some handler ∧ handler.receives = true

-- The connections a task has still to visit; it copies the tracked ones when it starts.
def Task.remaining (tracked : List Conn) (task : Task) : List Conn :=
  match task.phase with
  | .launched => tracked
  | .walking todo => todo

def Task.finished (task : Task) : Bool :=
  match task.phase with
  | .walking [] => true
  | _ => false

theorem hands_to_some (p : Platform D) (s : State D) (conn : Conn) (data : Text) (sub : Subscription) :
    s.handsTo p conn data = some sub ↔ s.InForce conn sub ∧ ∃ json, load p.fp data = .ok json := by
  dsimp only [State.handsTo, State.InForce, loadText]
  cases found : s.handler conn with
  | none => simp
  | some handler =>
      cases load p.fp data with
      | error fault => simp
      | ok json => cases slot : handler.dataReceivedSignal <;> simp [slot]

theorem in_force_shuts (s t : State D) (conn : Conn) (sub : Subscription)
    (shuts : Shuts (s.handler conn) (t.handler conn)) : t.InForce conn sub ↔ s.InForce conn sub := by
  constructor
  · rintro ⟨later, found, receives, slot⟩
    rw [found] at shuts
    obtain ⟨handler, before, _, sameSlot, sameReceives⟩ := shuts_some _ later shuts
    exact ⟨handler, before, by rw [← sameReceives, receives], by rw [← sameSlot, slot]⟩
  · rintro ⟨handler, found, receives, slot⟩
    rw [found] at shuts
    obtain ⟨later, after, _, sameSlot, sameReceives⟩ := shuts_from handler _ shuts
    exact ⟨later, after, by rw [sameReceives, receives], by rw [sameSlot, slot]⟩

theorem in_force_same (s t : State D) (conn : Conn) (sub : Subscription) (same : t.endPoints = s.endPoints) :
    t.InForce conn sub ↔ s.InForce conn sub :=
  in_force_shuts s t conn sub (Or.inl (handler_same s t same conn))

theorem in_force_receives (s : State D) (conn : Conn) (sub : Subscription) (force : s.InForce conn sub) :
    s.Receives conn := by
  obtain ⟨handler, found, receives, _⟩ := force
  exact ⟨handler, found, receives⟩

theorem receives_shuts (s t : State D) (conn : Conn) (shuts : Shuts (s.handler conn) (t.handler conn))
    (receives : s.Receives conn) : t.Receives conn := by
  obtain ⟨handler, found, open_⟩ := receives
  rw [found] at shuts
  obtain ⟨later, after, _, _, same⟩ := shuts_from handler _ shuts
  exact ⟨later, after, same.trans open_⟩

theorem finished_remaining (task : Task) (finished : task.finished = true) (tracked : List Conn) :
    task.remaining tracked = [] := by
  obtain ⟨sub, phase⟩ := task
  cases phase with
  | launched => cases finished
  | walking todo =>
      cases todo with
      | nil => rfl
      | cons conn todo => cases finished

theorem installed_in_force (s : State D) (conn : Conn) (sub : Subscription) (receives : s.Receives conn) :
    (s.updateHandler conn (.onDataReceived sub)).InForce conn sub := by
  obtain ⟨handler, found, open_⟩ := receives
  refine ⟨handler.onDataReceived sub, ?_, open_, rfl⟩
  rw [State.handler_update, if_pos rfl, found]
  rfl

theorem installed_elsewhere (s : State D) (conn other : Conn) (sub : Subscription) (different : other ≠ conn) :
    (s.updateHandler conn (.onDataReceived sub)).handler other = s.handler other := by
  rw [State.handler_update, if_neg different]

theorem step_received_ok (p : Platform D) (s : State D) (conn : Conn) (sub : Subscription) (data : Text)
    (status : JSON D) (sound : s.fault = none) (force : s.InForce conn sub)
    (alive : s.m_server.alive sub.hdl = true) (loaded : load p.fp data = .ok status) :
    step p s (.received conn data) = some (deliver sub status s) := by
  obtain ⟨handler, found, receives, slot⟩ := force
  apply transition_step p s _ _ _ sound
  exact .delivered conn data handler sub status found receives slot alive loaded

theorem in_force_update (s : State D) (conn other : Conn) (sub : Subscription)
    (change : ClientHandler Subscription → ClientHandler Subscription)
    (quits : ∀ handler, ¬((change handler).receives = true ∧ (change handler).dataReceivedSignal = .call sub))
    (force : (s.updateHandler conn change).InForce other sub) : s.InForce other sub := by
  obtain ⟨handler, found, receives, slot⟩ := force
  rw [State.handler_update] at found
  by_cases same : other = conn
  · rw [if_pos same] at found
    obtain ⟨before, _, rfl⟩ := Option.map_eq_some_iff.mp found
    exact absurd ⟨receives, slot⟩ (quits before)
  · rw [if_neg same] at found
    exact ⟨handler, found, receives, slot⟩

theorem installed_back (s : State D) (place conn : Conn) (given sub : Subscription)
    (force : (s.updateHandler place (.onDataReceived given)).InForce conn sub) :
    s.InForce conn sub ∨ (conn = place ∧ sub = given) := by
  obtain ⟨handler, found, receives, slot⟩ := force
  rw [State.handler_update] at found
  by_cases same : conn = place
  · rw [if_pos same] at found
    obtain ⟨before, _, rfl⟩ := Option.map_eq_some_iff.mp found
    exact Or.inr ⟨same, (Slot.call.inj slot).symm⟩
  · rw [if_neg same] at found
    exact Or.inl ⟨handler, found, receives, slot⟩

theorem grows_in_force (s t : State D) (conn : Conn) (sub : Subscription) (grows : Grows s t)
    (force : t.InForce conn sub) : s.InForce conn sub := by
  rcases grows.handlers conn with shuts | ⟨_, created⟩
  · exact (in_force_shuts s t conn sub shuts).mp force
  · obtain ⟨handler, found, receives, _⟩ := force
    rw [created] at found
    cases found
    simp [ClientHandler.new, ClientHandler.receives] at receives

theorem deleted_in_force (s : State D) (e : Nat) (conn : Conn) (sub : Subscription)
    (force : State.InForce { s with endPoints := s.endPoints.delete e } conn sub) : s.InForce conn sub := by
  obtain ⟨handler, found, receives, slot⟩ := force
  rw [handler_deleted] at found
  split at found
  · cases found
  · exact ⟨handler, found, receives, slot⟩

theorem step_in_force (p : Platform D) (s t : State D) (action : Action) (out : List (Output D)) (conn : Conn)
    (sub : Subscription) (taken : step p s action = some (t, out)) (force : t.InForce conn sub) :
    s.InForce conn sub ∨ ∃ i todo, action = .visit i ∧ s.m_sendFutures[i]? = some ⟨sub, .walking (conn :: todo)⟩ ∧
      (s.handler conn).isSome = true := by
  obtain ⟨_, transition⟩ := step_transition p s t action out taken
  cases transition with
  | handled hdl payload request => exact Or.inl (grows_in_force s _ conn sub (grows_handled p s hdl payload request) force)
  | added call => exact Or.inl (grows_in_force s _ conn sub (grows_wake_adding p s call) force)
  | deleted e rest => exact Or.inl (grows_in_force s _ conn sub (closes_grows _ _ (destroy_closes s rest)) force)
  | joined e rest =>
      apply Or.inl
      apply deleted_in_force s e conn sub
      exact grows_in_force _ _ conn sub (closes_grows _ _ (destroy_closes _ rest)) force
  | installed i given place todo found known =>
      rcases installed_back s place conn given sub force with before | ⟨rfl, rfl⟩
      · exact Or.inl before
      · exact Or.inr ⟨i, todo, rfl, found, known⟩
  | opened place =>
      exact Or.inl (in_force_update s place conn sub _ (by simp [ClientHandler.publishOpen, ClientHandler.receives]) force)
  | silenced place => exact Or.inl (in_force_update s place conn sub _ (by simp [ClientHandler.ignoreData]) force)
  | failed place =>
      exact Or.inl (in_force_update s place conn sub _ (by simp [ClientHandler.onFail, ClientHandler.receives]) force)
  | lost place =>
      exact Or.inl (in_force_update s place conn sub _ (by simp [ClientHandler.lose, ClientHandler.receives]) force)
  | closed place =>
      exact Or.inl (in_force_update s place conn sub _ (by simp [ClientHandler.onClose, ClientHandler.receives]) force)
  | delivered place data handler other status =>
      exact Or.inl ((in_force_same s _ conn sub (deliver_registry other status s).endPoints).mp force)
  | _ => exact Or.inl force

theorem step_unfinished (p : Platform D) (s t : State D) (action : Action) (out : List (Output D)) (task : Task)
    (taken : step p s action = some (t, out)) (member : task ∈ t.m_sendFutures) (unfinished : task.finished = false) :
    (∃ old ∈ s.m_sendFutures, old.finished = false ∧ old.sub = task.sub) ∨
      ∃ hdl payload, action = .message hdl payload ∧ task.sub.hdl = hdl := by
  rcases step_futures p s t action out taken with same | launched | started | visited
  · rw [same] at member
    exact Or.inl ⟨task, member, unfinished, rfl⟩
  · obtain ⟨hdl, payload, tasks, message, appended, carry⟩ := launched
    rw [appended] at member
    rcases List.mem_append.mp member with old | new
    · exact Or.inl ⟨task, old, unfinished, rfl⟩
    · exact Or.inr ⟨hdl, payload, message, (carry task new).2⟩
  · obtain ⟨i, sub, _, found, updated⟩ := started
    rw [updated] at member
    rcases List.mem_or_eq_of_mem_set member with old | new
    · exact Or.inl ⟨task, old, unfinished, rfl⟩
    · subst new
      exact Or.inl ⟨_, List.mem_of_getElem? found, rfl, rfl⟩
  · obtain ⟨i, sub, conn, todo, _, found, updated⟩ := visited
    rw [updated] at member
    rcases List.mem_or_eq_of_mem_set member with old | new
    · exact Or.inl ⟨task, old, unfinished, rfl⟩
    · subst new
      exact Or.inl ⟨_, List.mem_of_getElem? found, rfl, rfl⟩

def Thread.isIdle : Thread → Bool
  | .idle => true
  | _ => false

def nothingBatched (s : State D) : Bool :=
  match s.m_broadcastArray with
  | .array [] => true
  | _ => false

theorem idle_checked (thread : Thread) (checked : thread.isIdle = true) : thread = .idle := by
  cases thread with
  | idle => rfl
  | _ => cases checked

theorem nothing_batched_checked (s : State D) (checked : nothingBatched s = true) : s.m_broadcastArray = .array [] := by
  dsimp only [nothingBatched] at checked
  split at checked
  · assumption
  · cases checked

def subscribedRun : List Action :=
  [.connected, .message 0 addRequest, .wake, .opened ⟨0, 0⟩, .silenced ⟨0, 0⟩, .message 0 subscribeRequest, .start 0, .visit 0]

structure Subscribed (s : State Int) : Prop where
  sound : s.fault = none
  idle : s.thread = .idle
  alive : s.m_server.alive 0 = true
  tracked : s.tracked = [⟨0, 0⟩]
  finished : s.m_sendFutures.all Task.finished = true
  force : s.InForce ⟨0, 0⟩ ⟨0, "broadcast".toList⟩
  empty : s.m_broadcastArray = .array []

theorem subscribed_run :
    ∃ s log, (broadcaster .plain).run .init subscribedRun = some (s, log) ∧ Subscribed s := by
  obtain ⟨s, log, ran, checked⟩ := (broadcaster .plain).run_check .init subscribedRun
    (fun done => done.1.fault = none ∧ done.1.m_server.alive 0 = true ∧ done.1.tracked = [⟨0, 0⟩] ∧
      done.1.m_sendFutures.all Task.finished = true ∧
      done.1.handsTo .plain ⟨0, 0⟩ priceText = some ⟨0, "broadcast".toList⟩ ∧
      done.1.thread.isIdle = true ∧ nothingBatched done.1 = true) (by decide +kernel)
  obtain ⟨sound, alive, tracked, finished, handed, idle, empty⟩ := of_decide_eq_true checked
  have force := ((hands_to_some .plain s _ _ _).mp handed).1
  exact ⟨s, log, ran, sound, idle_checked _ idle, alive, tracked, finished, force, nothing_batched_checked s empty⟩

end TradingFeed.Broadcaster
