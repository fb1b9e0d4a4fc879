import Mathlib.Data.List.Nodup
import TradingFeed.Aggregator.Routing
import TradingFeed.Library.Paths

set_option autoImplicit false

namespace TradingFeed.Aggregator

open TradingFeed.Json TradingFeed.Sockets Library

variable {D : Type}

abbrev Step (D : Type) := Event State Action (List (Output D))

def source : Action → Option Int
  | .received id _ => some id
  | _ => none

def sentTo (hdl : Hdl) (outputs : List (Output D)) : List (JSON D) :=
  outputs.filterMap fun | .send receiver response => if receiver = hdl then some response else none | _ => none

def responses (hdl : Hdl) (events : List (Step D)) : List (Option Int × JSON D) :=
  events.flatMap fun event => (sentTo hdl event.out).map fun response => (source event.action, response)

def arrivals (p : Platform D) (id : Int) (events : List (Step D)) : List (JSON D) :=
  events.filterMap fun event => arrival p id event.action

def fromSource (id : Int) (given : List (Option Int × JSON D)) : List (JSON D) :=
  (given.filter fun response => response.1 = some id).map Prod.snd

-- What the aggregator answers itself: no message of a provider lies behind it.
def ownReplies (given : List (Option Int × JSON D)) : List (JSON D) :=
  (given.filter fun response => response.1 = none).map Prod.snd

theorem sent_to_forwarded (hdl receiver : Hdl) (response : JSON D) :
    sentTo hdl [.send receiver response] = if receiver = hdl then [response] else [] := by
  by_cases same : receiver = hdl <;> simp [sentTo, same]

theorem mem_sent_to (hdl : Hdl) (outputs : List (Output D)) (response : JSON D) (member : response ∈ sentTo hdl outputs) :
    .send hdl response ∈ outputs := by
  obtain ⟨output, among, same⟩ := List.mem_filterMap.mp member
  cases output with
  | send receiver given =>
      obtain ⟨rfl, rfl⟩ : receiver = hdl ∧ given = response := by simpa using same
      exact among
  | _ => cases same

theorem responses_snoc (hdl : Hdl) (past : List (Step D)) (s : State) (action : Action) (out : List (Output D)) :
    responses hdl (past ++ [⟨s, action, out⟩]) =
      responses hdl past ++ (sentTo hdl out).map fun response => (source action, response) := by
  simp [responses]

section

variable (p : Platform D) (s t : State) (action : Action) (out : List (Output D)) (hdl : Hdl)

theorem received_sent_to (id : Int) (data : Text) (taken : Transition p s (.received id data) t out) :
    (sentTo hdl out).Sublist (arrival p id (.received id data)).toList := by
  rcases received_sends p s t out id data taken with rfl | ⟨receiver, response, _, loaded, rfl⟩
  · exact List.nil_sublist _
  · dsimp only [arrival]
    rw [if_pos rfl, loaded, sent_to_forwarded]
    split
    · exact List.Sublist.refl _
    · exact List.nil_sublist _

theorem forwarded_task (id : Int) (data : Text) (response : JSON D) (owned : Owned s)
    (taken : Transition p s (.received id data) t out) (member : response ∈ sentTo hdl out) : (hdl, id) ∈ s.tasks := by
  rcases received_sends p s t out id data taken with rfl | ⟨receiver, given, slot, _, rfl⟩
  · cases member
  · rw [sent_to_forwarded] at member
    split at member
    · rename_i same
      rw [← same]
      exact owned.called id receiver slot
    · cases member

theorem tasks_stay (taken : Transition p s action t out) (task : Hdl × Int) (member : task ∈ s.tasks) : task ∈ t.tasks := by
  rcases transition_tasks p s t action out taken with same | ⟨consumer, id, _, _, appended⟩
  · rw [same]
    exact member
  · rw [appended]
    exact List.mem_append_left _ member

end

-- Every response from a connection is among what the connection delivered, and
-- the task that forwards it names its consumer.
structure Sourced (p : Platform D) (past : List (Step D)) (s : State) : Prop where
  arrived : ∀ hdl id, (fromSource id (responses hdl past)).Sublist (arrivals p id past)
  tasks : ∀ hdl id response, (some id, response) ∈ responses hdl past → (hdl, id) ∈ s.tasks
  replies : ∀ hdl response, (none, response) ∈ responses hdl past → ∃ status message, response = statusObject status message

theorem sourced_step (p : Platform D) (past : List (Step D)) (s t : State) (action : Action) (out : List (Output D))
    (owned : Owned s) (sourced : Sourced p past s) (taken : Transition p s action t out) :
    Sourced p (past ++ [⟨s, action, out⟩]) t where
  arrived := by
    intro hdl id
    have one : (fromSource id ((sentTo hdl out).map fun response => (source action, response))).Sublist
        (arrival p id action).toList := by
      by_cases mine : source action = some id
      · cases action with
        | received other data =>
            cases mine
            simpa [fromSource, source, List.filter_map, Function.comp_def] using received_sent_to p s t out hdl id data taken
        | _ => cases mine
      · have nothing : fromSource id ((sentTo hdl out).map fun response => (source action, response)) = [] := by
          simp [fromSource, List.filter_map, Function.comp_def, mine]
        rw [nothing]
        exact List.nil_sublist _
    have whole : arrivals p id (past ++ [⟨s, action, out⟩]) = arrivals p id past ++ (arrival p id action).toList := by
      cases here : arrival p id action <;> simp [arrivals, here]
    rw [responses_snoc, whole]
    simpa [fromSource] using (sourced.arrived hdl id).append one
  tasks := by
    intro hdl id response member
    rw [responses_snoc] at member
    rcases List.mem_append.mp member with old | new
    · exact tasks_stay p s t action out taken _ (sourced.tasks hdl id response old)
    · obtain ⟨given, sent, same⟩ := List.mem_map.mp new
      obtain ⟨mine, rfl⟩ := Prod.mk.inj same
      cases action with
      | received other data =>
          cases mine
          exact tasks_stay p s t _ out taken _ (forwarded_task p s t out hdl id data given owned taken sent)
      | _ => cases mine
  replies := by
    intro hdl response member
    rw [responses_snoc] at member
    rcases List.mem_append.mp member with old | new
    · exact sourced.replies hdl response old
    · obtain ⟨given, sent, same⟩ := List.mem_map.mp new
      obtain ⟨mine, rfl⟩ := Prod.mk.inj same
      rcases other_sends p s t out hdl action taken given (mem_sent_to hdl out given sent) with ⟨id, data, rfl⟩ | status
      · cases mine
      · exact status

theorem path_sourced (p : Platform D) (events : List (Step D)) (s : State) (path : (aggregator p).Path .init events s) :
    Sourced p events s := by
  refine (aggregator p).path_history .init (Sourced p) ⟨fun hdl id => List.nil_sublist _, ?_, ?_⟩
    (fun past s action t out before sourced taken => ?_) events s path
  · intro hdl id response member
    cases member
  · intro hdl response member
    cases member
  · exact sourced_step p past s t action out (reachable_owned p s ((aggregator p).path_reachable .init s past before))
      sourced (step_transition p s t action out taken).2

theorem one_receiver (p : Platform D) (events : List (Step D)) (s : State) (path : (aggregator p).Path .init events s)
    (first second : Hdl) (id : Int) (one other : JSON D) (here : (some id, one) ∈ responses first events)
    (there : (some id, other) ∈ responses second events) : first = second := by
  have sourced := path_sourced p events s path
  have owned := reachable_owned p s ((aggregator p).path_reachable .init s events path)
  have task := sourced.tasks first id one here
  have again := sourced.tasks second id other there
  exact congrArg Prod.fst (List.inj_on_of_nodup_map owned.distinct task again rfl)

end TradingFeed.Aggregator
