import TradingFeed.DataProvider.Rounds

set_option autoImplicit false

namespace TradingFeed.DataProvider

open TradingFeed.Json TradingFeed.Sockets TradingFeed.Common Library

variable {D : Type}

def taskOf : Action → Option Nat
  | .start task => some task
  | .update task _ => some task
  | .send task => some task
  | _ => none

def stepsOf (task : Nat) (events : List (Step D)) : Nat := events.countP fun event => taskOf event.action = some task

def Phase.steps (size : Nat) : Phase → Nat
  | .launched => 0
  | .broken => 1
  | .updating iteration index => 1 + 2 * (size * iteration + index)
  | .sending iteration index => 2 + 2 * (size * iteration + index)
  | .done => 1 + 2 * (size * NUMBER_OF_MESSAGE_SEND_INTERATIONS)

def Phase.action (task : Nat) (now : Int64) : Phase → Option Action
  | .launched => some (.start task)
  | .updating _ _ => some (.update task now)
  | .sending _ _ => some (.send task)
  | _ => none

theorem steps_snoc (task : Nat) (past : List (Step D)) (s : State D) (action : Action) (out : List (Output D)) :
    stepsOf task (past ++ [⟨s, action, out⟩]) = stepsOf task past + if taskOf action = some task then 1 else 0 := by
  simp [stepsOf, List.countP_append, List.countP_cons]

theorem first_steps (s : State D) : s.first.steps s.m_messages.length = 1 := by
  dsimp only [State.first]
  split
  · rename_i empty
    simp [Phase.steps, empty]
  · simp [Phase.steps]

theorem next_steps (s : State D) (iteration index : Nat) (early : iteration < NUMBER_OF_MESSAGE_SEND_INTERATIONS)
    (low : index < s.m_messages.length) :
    (s.next iteration index).steps s.m_messages.length = 3 + 2 * (s.m_messages.length * iteration + index) := by
  have passed := (next_inside s iteration index early low).2
  dsimp only [State.next] at passed ⊢
  split at passed
  · rename_i more
    rw [if_pos more]
    simp only [Phase.passed, Phase.steps] at passed ⊢
    omega
  · rename_i last
    rw [if_neg last]
    split at passed
    · rename_i again
      rw [if_pos again]
      simp only [Phase.passed, Phase.steps] at passed ⊢
      omega
    · rename_i final
      rw [if_neg final]
      simp only [Phase.passed, Phase.steps] at passed ⊢
      omega

structure Counted (events : List (Step D)) (s : State D) : Prop where
  absent : ∀ i : Nat, s.m_sendFutures[i]? = none → stepsOf i events = 0
  counted : ∀ (i : Nat) (task : Task), s.m_sendFutures[i]? = some task →
    stepsOf i events = task.phase.steps s.m_messages.length

theorem counted_kept (past : List (Step D)) (s t : State D) (action : Action) (out : List (Output D))
    (counted : Counted past s) (other : taskOf action = none) (tasks : t.m_sendFutures = s.m_sendFutures)
    (messages : t.m_messages = s.m_messages) : Counted (past ++ [⟨s, action, out⟩]) t where
  absent := by
    intro i absent
    rw [tasks] at absent
    rw [steps_snoc, other]
    exact counted.absent i absent
  counted := by
    intro i task found
    rw [tasks] at found
    rw [steps_snoc, other, messages]
    exact counted.counted i task found

theorem counted_moved (past : List (Step D)) (s t : State D) (i : Nat) (action : Action) (out : List (Output D))
    (before after : Task) (counted : Counted past s) (mine : taskOf action = some i)
    (found : s.m_sendFutures[i]? = some before) (tasks : t.m_sendFutures = s.m_sendFutures.set i after)
    (length : t.m_messages.length = s.m_messages.length)
    (one : after.phase.steps s.m_messages.length = before.phase.steps s.m_messages.length + 1) :
    Counted (past ++ [⟨s, action, out⟩]) t where
  absent := by
    intro other absent
    have beyond := List.getElem?_eq_none_iff.mp absent
    rw [tasks, List.length_set] at beyond
    have inside := (List.getElem?_eq_some_iff.mp found).1
    have different : ¬taskOf action = some other := by
      rw [mine]
      rintro same
      cases same
      omega
    rw [steps_snoc, if_neg different]
    exact counted.absent other (List.getElem?_eq_none beyond)
  counted := by
    intro other task here
    rw [tasks] at here
    rw [length, steps_snoc, mine]
    rcases task_set s i other after before task found here with ⟨rfl, rfl⟩ | ⟨different, old⟩
    · rw [if_pos rfl, one, counted.counted other before found]
    · rw [if_neg (by simpa using Ne.symm different), counted.counted other task old]
      rfl

theorem counted_step (created : List (TimedMessage D)) (past : List (Step D)) (s t : State D) (action : Action)
    (out : List (Output D)) (sound : Sound created past s) (counted : Counted past s)
    (taken : step s action = some (t, out)) : Counted (past ++ [⟨s, action, out⟩]) t := by
  have length := sound.catalog.length
  cases step_transition s t action out taken with
  | connected =>
      refine ⟨fun i absent => ?_, fun i task found => ?_⟩
      · rw [steps_snoc]
        refine counted.absent i (List.getElem?_eq_none ?_)
        have beyond := List.getElem?_eq_none_iff.mp absent
        simp only [onConnection, List.length_append, List.length_singleton] at beyond
        omega
      · rw [steps_snoc]
        by_cases known : i < s.m_sendFutures.length
        · rw [onConnection, List.getElem?_append_left known] at found
          exact counted.counted i task found
        · rw [onConnection, List.getElem?_append_right (Nat.le_of_not_lt known)] at found
          have new : task = ⟨s.m_server.connections.length, .launched⟩ :=
            List.mem_singleton.mp (List.mem_of_getElem? found)
          rw [new]
          exact counted.absent i (List.getElem?_eq_none (Nat.le_of_not_lt known))
  | disconnected => exact counted_kept past s _ _ [] counted rfl rfl rfl
  | printed => exact counted_kept past s s _ [] counted rfl rfl rfl
  | started i hdl found =>
      refine counted_moved past s _ i _ _ _ _ counted rfl found rfl rfl ?_
      dsimp only
      split
      · exact first_steps s
      · rfl
  | updated i now hdl iteration index found =>
      refine counted_moved past s _ i _ _ _ _ counted rfl found rfl (by simp) ?_
      simp only [Phase.steps]
      omega
  | sent i hdl iteration index message found here =>
      obtain ⟨_, clock, paced⟩ := sound.paced i _ found
      obtain ⟨early, low⟩ := paced.inside
      refine counted_moved past s _ i _ _ _ _ counted rfl found rfl rfl ?_
      dsimp only
      rw [next_steps s iteration index early (by omega)]
      simp only [Phase.steps]
      omega

theorem path_counted (created : List (TimedMessage D)) (events : List (Step D)) (s : State D)
    (path : provider.Path (.init created) events s) : Counted events s := by
  refine provider.path_history (.init created) Counted ⟨fun i _ => rfl, fun i task found => ?_⟩
    (fun past s action t out before counted taken => ?_) events s path
  · simp [State.init] at found
  · exact counted_step created past s t action out (path_sound created past s before) counted taken

theorem steps_bound (phase : Phase) (inside : phase.Inside 5) :
    phase.steps 5 ≤ 1001 ∧ (phase.steps 5 = 1001 ↔ phase = .done) := by
  cases phase with
  | launched => exact ⟨Nat.zero_le _, by simp [Phase.steps]⟩
  | broken => exact ⟨by decide, by simp [Phase.steps]⟩
  | updating iteration index =>
      simp only [Phase.Inside, Phase.steps, NUMBER_OF_MESSAGE_SEND_INTERATIONS, reduceCtorEq, iff_false] at inside ⊢
      omega
  | sending iteration index =>
      simp only [Phase.Inside, Phase.steps, NUMBER_OF_MESSAGE_SEND_INTERATIONS, reduceCtorEq, iff_false] at inside ⊢
      omega
  | done => exact ⟨Nat.le_refl _, by simp [Phase.steps, NUMBER_OF_MESSAGE_SEND_INTERATIONS]⟩

theorem task_enabled (created : List (TimedMessage D)) (events : List (Step D)) (s : State D) (i : Nat) (task : Task)
    (action : Action) (now : Int64) (sound : Sound created events s) (found : s.m_sendFutures[i]? = some task)
    (next : task.phase.action i now = some action) : (step s action).isSome = true := by
  obtain ⟨named, clock, paced⟩ := sound.paced i task found
  obtain ⟨hdl, phase⟩ := task
  cases phase with
  | launched =>
      cases next
      simp [step, startTask, found]
  | updating iteration index =>
      cases next
      simp [step, updateTask, found]
  | sending iteration index =>
      cases next
      obtain ⟨_, low⟩ := paced.inside
      rw [← sound.catalog.length] at low
      simp [step, sendTask, found, low]
  | broken => cases next
  | done => cases next

theorem provider_completes (fp : Doubles D) (boot : Nat → Int64) (events : List (Step D)) (s : State D) (hdl : Hdl)
    (task : Task) (path : provider.Path (.init (messages fp boot)) events s)
    (found : s.m_sendFutures[hdl]? = some task) :
    stepsOf hdl events ≤ 1001 ∧ (stepsOf hdl events = 1001 ↔ task.phase = .done) ∧
      (task.phase = .broken ∨ task.phase = .done ∨
        ∀ now, ∃ action, task.phase.action hdl now = some action ∧ (step s action).isSome = true) ∧
      (task.phase = .done → s.m_server.alive hdl = true → (published hdl events).length = 500) := by
  have sound := path_sound (messages fp boot) events s path
  have length : s.m_messages.length = 5 := sound.catalog.length
  have count := (path_counted (messages fp boot) events s path).counted hdl task found
  obtain ⟨_, clock, paced⟩ := sound.paced hdl task found
  obtain ⟨most, last⟩ := steps_bound task.phase paced.inside
  rw [length] at count
  rw [count]
  refine ⟨most, last, ?_, fun done alive => ?_⟩
  · have enabled := fun action now => task_enabled (messages fp boot) events s hdl task action now sound found
    cases phase : task.phase with
    | broken => exact Or.inl rfl
    | done => exact Or.inr (Or.inl rfl)
    | launched => exact Or.inr (Or.inr fun now => ⟨_, rfl, enabled _ now (by rw [phase]; rfl)⟩)
    | updating iteration index => exact Or.inr (Or.inr fun now => ⟨_, rfl, enabled _ now (by rw [phase]; rfl)⟩)
    | sending iteration index => exact Or.inr (Or.inr fun now => ⟨_, rfl, enabled _ now (by rw [phase]; rfl)⟩)
  · have level := paced.level alive
    rw [done, messages_length] at level
    exact paced.rounds.1.trans level

def wholeTask : List Action := twoTasks ++ (List.replicate 499 [.update 0 7, .send 0]).flatten

theorem provider_completes_two : ∃ (events : List (Step Int)) (s : State Int),
    provider.Path (.init (messages Doubles.micro fun _ => 3)) events s ∧ events.map Event.action = wholeTask ∧
      stepsOf 0 events = 1001 ∧ (published 0 events).length = 500 := by
  obtain ⟨s, log, ran, checked⟩ := (provider (D := Int)).run_check (.init (messages Doubles.micro fun _ => 3)) wholeTask
    (fun done => (done.1.m_sendFutures[0]?.any fun task => task.phase = .done) && done.1.m_server.alive 0)
    (by decide +kernel)
  obtain ⟨events, path, actions, _⟩ := provider.run_path _ s wholeTask log ran
  obtain ⟨ended, alive⟩ := Bool.and_eq_true_iff.mp checked
  obtain ⟨task, found, phase⟩ := (Option.any_eq_true _ _).mp ended
  have done := of_decide_eq_true phase
  obtain ⟨_, last, _, sent⟩ := provider_completes Doubles.micro (fun _ => 3) events s 0 task path found
  exact ⟨events, s, path, actions, last.mpr done, sent done alive⟩

end TradingFeed.DataProvider
