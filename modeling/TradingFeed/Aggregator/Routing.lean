import TradingFeed.Aggregator.Connections

set_option autoImplicit false

namespace TradingFeed.Aggregator

open TradingFeed.Json TradingFeed.Sockets

variable {D : Type}

-- The k-th step of the run handles an add-provider request of the consumer and
-- creates the connection.
def CreatedAt (p : Platform D) (actions : List Action) (k : Nat) (hdl : Hdl) (id : Int) : Prop :=
  ∃ payload request before after log out, actions[k]? = some (.message hdl payload) ∧
    load p.fp payload = .ok request ∧ (request.index "action".toList).asText = "add-provider".toList ∧
    (aggregator p).run .init (actions.take k) = some (before, log) ∧
    step p before (.message hdl payload) = some (after, out) ∧
    before.handler id = none ∧ after.handler id = some (.new id)

def sends (outputs : List (Output D)) : List (JSON D) :=
  outputs.filterMap fun output =>
    match output with
    | .send _ response => some response
    | _ => none

def arrival (p : Platform D) (id : Int) : Action → Option (JSON D)
  | .received other data => if other = id then (load p.fp data).toOption else none
  | _ => none

def forwards (id : Int) : Action × List (Output D) → List (JSON D)
  | (.received other _, out) => if other = id then sends out else []
  | _ => []

-- What the connection delivers in a run, and what of it is sent on, in order.
def arrivedFrom (p : Platform D) (id : Int) (actions : List Action) : List (JSON D) := actions.filterMap (arrival p id)

def forwardedFrom (id : Int) (actions : List Action) (log : List (List (Output D))) : List (JSON D) :=
  (actions.zip log).flatMap (forwards id)

section

variable (p : Platform D) (s t : State) (out : List (Output D)) (hdl : Hdl) (id : Int)

theorem received_sends (data : Text) (taken : Transition p s (.received id data) t out) :
    out = [] ∨ ∃ hdl response, s.slot id = some (.call hdl) ∧ load p.fp data = .ok response ∧ out = [.send hdl response] := by
  cases taken with
  | ignored => exact Or.inl rfl
  | escaped => exact Or.inl rfl
  | forwarded _ _ handler hdl response free found receives slot alive loaded =>
      exact Or.inr ⟨hdl, response, by rw [s.slot_of id handler found, slot], loaded, rfl⟩

theorem other_sends (action : Action) (taken : Transition p s action t out) (response : JSON D)
    (sent : .send hdl response ∈ out) :
    (∃ id data, action = .received id data) ∨ ∃ status message, response = statusObject status message := by
  cases taken with
  | addProvider consumer payload request =>
      simp [handleAddProvider] at sent
  | otherMessage consumer payload request _ idle alive loaded either =>
      rcases either with rfl | rfl <;> simp at sent
  | replied consumer host fresh =>
      simp only [List.mem_singleton, Output.send.injEq] at sent
      rw [sent.2]
      dsimp only [providerReply]
      right
      split <;> exact ⟨_, _, rfl⟩
  | cleared consumer gone =>
      simp only [List.mem_singleton, Output.send.injEq] at sent
      exact Or.inr ⟨_, _, sent.2⟩
  | forwarded other data => exact Or.inl ⟨other, data, rfl⟩
  | _ => cases sent

theorem recorded_creates (action : Action) (taken : Transition p s action t out) (natural : 0 ≤ id)
    (before : id ∉ s.recorded hdl) (after : id ∈ t.recorded hdl) :
    ∃ payload request, action = .message hdl payload ∧ load p.fp payload = .ok request ∧
      (request.index "action".toList).asText = "add-provider".toList ∧
      s.handler id = none ∧ t.handler id = some (.new id) := by
  rcases transition_connections p s t action out taken with ⟨same, _⟩ | ⟨other, payload, request, asked, loaded, word, _, _, rfl⟩
  · dsimp only [State.recorded] at before after
    rw [same] at after
    exact absurd after before
  · rcases mem_recorded_add p s other hdl request id after with old | ⟨rfl, fresh⟩
    · exact absurd old before
    · refine ⟨payload, request, asked, loaded, word, ?_⟩
      change s.m_endpoint.get_metadata id = none ∧ (s.m_endpoint.connect _).1.get_metadata id = some (.new id)
      cases accepts : p.acceptsUri (request.index "host".toList).asText with
      | false =>
          rw [accepts] at fresh
          have rejected : id = -1 := fresh
          omega
      | true =>
          rw [accepts] at fresh
          have next : id = s.m_endpoint.m_next_id := fresh
          refine ⟨?_, by rw [EndPoint.get_connect, if_pos next, next]⟩
          cases found : s.m_endpoint.get_metadata id with
          | none => rfl
          | some handler =>
              have known := s.m_endpoint.get_numbered id handler found
              omega

end

theorem recorded_created (p : Platform D) (actions : List Action) (s : State) (log : List (List (Output D)))
    (hdl : Hdl) (id : Int) (natural : 0 ≤ id) (ran : (aggregator p).run .init actions = some (s, log))
    (member : id ∈ s.recorded hdl) : ∃ k, k < actions.length ∧ CreatedAt p actions k hdl id := by
  refine (aggregator p).run_history .init
    (fun past _ s => id ∈ s.recorded hdl → ∃ k, k < past.length ∧ CreatedAt p past k hdl id) (fun member => ?_)
    (fun front head mid action t out before created taken member => ?_) actions s log ran member
  · simp [State.recorded, State.init, Library.Groups.under] at member
  · by_cases old : id ∈ mid.recorded hdl
    · obtain ⟨k, within, payload, request, earlier, after, seen, reply, here, loaded, word, reached, rest⟩ := created old
      refine ⟨k, by simp; omega, payload, request, earlier, after, seen, reply, ?_, loaded, word, ?_, rest⟩
      · rw [List.getElem?_append_left within]
        exact here
      · rw [List.take_append_of_le_length (Nat.le_of_lt within)]
        exact reached
    · obtain ⟨payload, request, rfl, loaded, word, absent, known⟩ :=
        recorded_creates p mid t out hdl id action (step_transition p mid t action out taken).2 natural old member
      exact ⟨front.length, by simp, payload, request, mid, t, head, out, by simp, loaded, word, by simpa using before,
        taken, absent, known⟩

theorem forwarded_sublist (p : Platform D) (id : Int) (actions : List Action) (s t : State)
    (log : List (List (Output D))) (ran : (aggregator p).run s actions = some (t, log)) :
    (forwardedFrom id actions log).Sublist (arrivedFrom p id actions) := by
  induction actions generalizing s log with
  | nil => exact List.nil_sublist _
  | cons action rest ih =>
      obtain ⟨next, out, tail, taken, later, rfl⟩ := ((aggregator p).run_cons s t action rest log).mp ran
      have behind := ih next tail later
      have one : (forwards id (action, out)).Sublist (arrival p id action).toList := by
        cases action with
        | received other data =>
            dsimp only [forwards, arrival]
            split
            · rcases received_sends p s next out other data (step_transition p s next (.received other data) out taken).2 with
                rfl | ⟨hdl, response, _, loaded, rfl⟩
              · exact List.nil_sublist _
              · rw [loaded]
                exact List.Sublist.refl _
            · exact List.Sublist.refl _
        | _ => exact List.Sublist.refl _
      have arrived : arrivedFrom p id (action :: rest) = (arrival p id action).toList ++ arrivedFrom p id rest := by
        dsimp only [arrivedFrom]
        cases here : arrival p id action with
        | none => exact List.filterMap_cons_none here
        | some response => exact List.filterMap_cons_some here
      rw [arrived]
      exact one.append behind

theorem provider_messages_routed (p : Platform D) (actions : List Action) (s : State) (log : List (List (Output D)))
    (ran : (aggregator p).run .init actions = some (s, log)) :
    (∀ i id data out, actions[i]? = some (.received id data) → log[i]? = some out →
        out.length ≤ 1 ∧ ∀ hdl response, .send hdl response ∈ out → ∃ k, k < i ∧ CreatedAt p actions k hdl id) ∧
      (∀ (i : Nat) (action : Action) (out : List (Output D)) (hdl : Hdl) (response : JSON D),
        actions[i]? = some action → log[i]? = some out → .send hdl response ∈ out →
        (∃ id data, action = .received id data) ∨ ∃ status message, response = statusObject status message) ∧
      ∀ id, (forwardedFrom id actions log).Sublist (arrivedFrom p id actions) := by
  refine ⟨?_, ?_, fun id => forwarded_sublist p id actions .init s log ran⟩
  · intro i id data out here logged
    obtain ⟨mid, head, next, _, before, taken, same⟩ :=
      (aggregator p).run_at .init s (.received id data) actions log i ran here
    cases logged.symm.trans same
    have reach : (aggregator p).Reachable .init mid := ⟨actions.take i, head, before⟩
    rcases received_sends p mid next out id data (step_transition p mid next (.received id data) out taken).2 with
      rfl | ⟨consumer, given, slot, _, rfl⟩
    · exact ⟨Nat.zero_le _, fun hdl response sent => by cases sent⟩
    · refine ⟨Nat.le_refl _, fun hdl response sent => ?_⟩
      cases List.mem_singleton.mp sent
      have task := (reachable_owned p mid reach).called id consumer slot
      have member := (reachable_recorded p mid reach).tasks (consumer, id) task
      obtain ⟨k, within, payload, request, earlier, after, seen, reply, created, loaded, word, reached, rest⟩ :=
        recorded_created p (actions.take i) mid head consumer id (mid.slot_known id _ slot).1 before member
      have below : k < i := Nat.lt_of_lt_of_le within (List.length_take_le i actions)
      refine ⟨k, below, payload, request, earlier, after, seen, reply, ?_, loaded, word, ?_, rest⟩
      · rw [List.getElem?_take_of_lt below] at created
        exact created
      · rw [List.take_take, Nat.min_eq_left (Nat.le_of_lt below)] at reached
        exact reached
  · intro i action out hdl response here logged sent
    obtain ⟨mid, head, next, _, before, taken, same⟩ := (aggregator p).run_at .init s action actions log i ran here
    cases logged.symm.trans same
    exact other_sends p mid next out hdl action (step_transition p mid next action out taken).2 response sent

def forwardedRun : List Action := addedRun ++ [.start 0, .install 0, .received 0 quoteText]

theorem provider_messages_routed_one :
    ∃ s log, (aggregator .plain).run .init forwardedRun = some (s, log) ∧ ∃ k, k < 9 ∧ CreatedAt .plain forwardedRun k 0 0 := by
  obtain ⟨s, log, ran, checked⟩ := (aggregator .plain).run_check .init forwardedRun
    (fun done => done.2[9]?.any fun out => out.any fun output =>
      match output with
      | .send hdl _ => hdl = 0
      | _ => false) (by decide +kernel)
  obtain ⟨out, logged, some_⟩ := (Option.any_eq_true _ _).mp checked
  obtain ⟨output, sent, mine⟩ := List.any_eq_true.mp some_
  cases output with
  | send hdl response =>
      cases of_decide_eq_true mine
      exact ⟨s, log, ran, ((provider_messages_routed .plain forwardedRun s log ran).1 9 0 quoteText out rfl logged).2 0
        response sent⟩
  | _ => cases mine

end TradingFeed.Aggregator
