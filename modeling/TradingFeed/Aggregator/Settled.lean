import TradingFeed.Aggregator.Sources

set_option autoImplicit false

namespace TradingFeed.Aggregator

open TradingFeed.Json TradingFeed.Sockets Library

variable {D : Type}

-- A connection whose task of sendMessages has come after both writes of on_open.
structure Settled (id : Int) (hdl : Hdl) (s : State) : Prop where
  slot : s.slot id = some (.call hdl)
  silent : s.opening ≠ some id

def Opened (id : Int) (s : State) : Prop := (s.handler id).map ClientHandler.session = some .opened

section

variable (p : Platform D) (s t : State) (action : Action) (out : List (Output D)) (id : Int) (hdl : Hdl)

theorem transition_opening (taken : Transition p s action t out) (silent : s.opening ≠ some id) (open_ : Opened id s) :
    t.opening ≠ some id := by
  cases taken with
  | opened other handler free found session =>
      intro same
      cases same
      rw [Opened, found, Option.map_some, session] at open_
      cases open_
  | silenced other => exact fun same => by cases same
  | _ => exact silent

theorem settled_step (owned : Owned s) (settled : Settled id hdl s) (open_ : Opened id s)
    (taken : Transition p s action t out) : Settled id hdl t where
  slot := by
    have known := settled.slot
    rcases transition_slot p s t action out id taken with same | ⟨missing, _⟩ | ⟨rfl, _⟩ | ⟨task, other, _, found, now⟩
    · rw [same]
      exact settled.slot
    · rw [known] at missing
      cases missing
    · cases taken with
      | silenced _ opening => exact absurd opening settled.silent
    · have mine := owned.called id hdl settled.slot
      have among : (other, id) ∈ s.tasks := List.mem_map.mpr ⟨_, List.mem_of_getElem? found, rfl⟩
      have one := List.inj_on_of_nodup_map owned.distinct among mine rfl
      rw [now, (Prod.mk.inj one).1]
  silent := transition_opening p s t action out id taken settled.silent open_

theorem settled_forwards (settled : Settled id hdl s) (taken : Transition p s action t out) (sound : t.fault = none) :
    fromSource id ((sentTo hdl out).map fun response => (source action, response)) = (arrival p id action).toList := by
  by_cases mine : source action = some id
  · cases action with
    | received other data =>
        cases mine
        have slot := settled.slot
        cases taken with
        | ignored _ _ handler free found receives ignores =>
            rw [s.slot_of id handler found, ignores] at slot
            cases slot
        | forwarded _ _ handler receiver response free found receives calls alive loaded =>
            rw [s.slot_of id handler found, calls] at slot
            cases slot
            simp [sent_to_forwarded, fromSource, source, arrival, loaded, Except.toOption]
        | escaped => cases sound
    | _ => cases mine
  · have other : arrival p id action = none := by
      cases action with
      | received other data => exact if_neg fun same => mine (congrArg some same)
      | _ => rfl
    rw [other]
    simp [fromSource, List.filter_map, Function.comp_def, mine]

end

theorem path_settled (p : Platform D) (events : List (Step D)) (s t : State) (id : Int) (hdl : Hdl)
    (reach : (aggregator p).Reachable .init s) (settled : Settled id hdl s) (path : (aggregator p).Path s events t)
    (open_ : ∀ event ∈ events, Opened id event.before) (sound : t.fault = none) :
    fromSource id (responses hdl events) = arrivals p id events := by
  induction path with
  | stop s => rfl
  | step s next t action out rest taken later ih =>
      have moved := (step_transition p s next action out taken).2
      have owned := reachable_owned p s reach
      have live := (aggregator p).path_needed (fun s => s.fault = none)
        (fun s action t out taken => (step_transition p s t action out taken).1) next t rest later sound
      have here := settled_forwards p s next action out id hdl settled moved live
      have onward := (aggregator p).reachable_run .init s next [action] [out] reach
        (((aggregator p).run_single s next action [out]).mpr ⟨out, taken, rfl⟩)
      have steady := settled_step p s next action out id hdl owned settled (open_ _ List.mem_cons_self) moved
      have behind := ih onward steady (fun event member => open_ event (List.mem_cons_of_mem _ member)) sound
      have first : fromSource id (responses hdl (⟨s, action, out⟩ :: rest)) =
          fromSource id ((sentTo hdl out).map fun response => (source action, response)) ++
            fromSource id (responses hdl rest) := by
        simp [responses, fromSource]
      rw [first, here, behind]
      cases arrived : arrival p id action <;> simp [arrivals, arrived]

end TradingFeed.Aggregator
