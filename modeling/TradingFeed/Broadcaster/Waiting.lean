import TradingFeed.Broadcaster.Adding

set_option autoImplicit false

namespace TradingFeed.Broadcaster

open TradingFeed.Json TradingFeed.Sockets

variable {D : Type}

def closeReports (s : State D) (conn : Conn) : Bool :=
  match s.endPoints.get conn.endpoint with
  | none => false
  | some endpoint => (endpoint.close true conn.id).2

-- handle_clear_aggregator is past its wait loop, at once or behind further steps
-- of the other threads, and has sent the one status reply.
structure ClearCompletes (p : Platform D) (s : State D) (hdl : Hdl) : Prop where
  leaves : ∃ actions t log, (broadcaster p).run (handleClearAggregator s hdl).1 actions = some (t, log) ∧
    t.thread ≠ .waiting
  replies : ∃ word, (handleClearAggregator s hdl).2 = [handleError hdl word []]

theorem close_reports_iff (s : State D) (conn : Conn) :
    closeReports s conn = true ↔
      Owned s conn.endpoint ∧ ∀ handler, s.handler conn = some handler → handler.session = .opened := by
  dsimp only [closeReports, Owned, State.handler]
  cases s.endPoints.get conn.endpoint with
  | none => simp
  | some endpoint =>
      dsimp only [EndPoint.close, Option.bind_some]
      cases endpoint.get_metadata conn.id with
      | none => simp
      | some handler => by_cases opened : handler.session = .opened <;> simp [opened]

theorem close_refused (endpoint : EndPoint Subscription) (id : Int) (refused : (endpoint.close true id).2 = false) :
    (endpoint.close true id).1 = endpoint := by
  dsimp only [EndPoint.close] at refused ⊢
  split at refused
  · cases refused
  · split at refused
    · cases refused
    · rename_i shut
      exact if_neg shut ▸ rfl

theorem close_ids_iff (ids : List Int) (endpoint : EndPoint Subscription) :
    (closeIds endpoint ids).2 = true ↔ ∃ id ∈ ids, (endpoint.close true id).2 = true := by
  induction ids with
  | nil => simp [closeIds]
  | cons first rest ih =>
      simp only [closeIds, List.mem_cons]
      cases reports : (endpoint.close true first).2 with
      | true =>
          rw [if_pos rfl]
          exact ⟨fun _ => ⟨first, Or.inl rfl, reports⟩, fun _ => reports⟩
      | false =>
          rw [if_neg Bool.false_ne_true, close_refused endpoint first reports, ih]
          constructor
          · rintro ⟨id, member, closes⟩
            exact ⟨id, Or.inr member, closes⟩
          · rintro ⟨id, rfl | member, closes⟩
            · exact absurd (reports.symm.trans closes) Bool.false_ne_true
            · exact ⟨id, member, closes⟩

theorem close_all_iff (entries : List (Nat × Std.TreeSet Int)) (s : State D)
    (distinct : entries.Pairwise fun a b => a.1 ≠ b.1) :
    (closeAll s entries).2 = true ↔ ∃ entry ∈ entries, ∃ id ∈ entry.2, closeReports s ⟨entry.1, id⟩ = true := by
  induction entries generalizing s with
  | nil => simp [closeAll]
  | cons head rest ih =>
      obtain ⟨e, ids⟩ := head
      obtain ⟨apart, others⟩ := List.pairwise_cons.mp distinct
      cases found : s.endPoints.get e with
      | none =>
          have silent (id : Int) : closeReports s ⟨e, id⟩ = false := by simp only [closeReports, found]
          simp only [closeAll, found, List.mem_cons]
          rw [ih s others]
          constructor
          · rintro ⟨entry, member, closes⟩
            exact ⟨entry, Or.inr member, closes⟩
          · rintro ⟨entry, rfl | member, id, inside, closes⟩
            · exact absurd ((silent id).symm.trans closes) Bool.false_ne_true
            · exact ⟨entry, member, id, inside, closes⟩
      | some endpoint =>
          have here (id : Int) : closeReports s ⟨e, id⟩ = (endpoint.close true id).2 := by simp only [closeReports, found]
          have elsewhere (entry : Nat × Std.TreeSet Int compare) (member : entry ∈ rest) (id : Int) :
              closeReports { s with endPoints := s.endPoints.update e fun _ => (closeIds endpoint ids.toList).1 }
                ⟨entry.1, id⟩ = closeReports s ⟨entry.1, id⟩ := by
            dsimp only [closeReports]
            rw [EndPoints.get_update, if_neg (apart entry member).symm]
          simp only [closeAll, found, Bool.or_eq_true, List.mem_cons]
          rw [ih _ others, close_ids_iff]
          constructor
          · rintro (⟨id, inside, closes⟩ | ⟨entry, member, id, inside, closes⟩)
            · exact ⟨(e, ids), Or.inl rfl, id, Std.TreeSet.mem_toList.mp inside, (here id).trans closes⟩
            · exact ⟨entry, Or.inr member, id, inside, (elsewhere entry member id).symm.trans closes⟩
          · rintro ⟨entry, rfl | member, id, inside, closes⟩
            · exact Or.inl ⟨id, Std.TreeSet.mem_toList.mpr inside, (here id).symm.trans closes⟩
            · exact Or.inr ⟨entry, member, id, inside, (elsewhere entry member id).trans closes⟩

theorem close_all_tracked (s : State D) :
    (closeAll s s.m_endpoints.toList).2 = true ↔ ∃ conn ∈ s.tracked, closeReports s conn = true := by
  have distinct : s.m_endpoints.toList.Pairwise fun a b => a.1 ≠ b.1 :=
    s.m_endpoints.distinct_keys_toList.imp fun different same =>
      different (by rw [same]; exact Std.ReflCmp.compare_self)
  rw [close_all_iff _ s distinct]
  constructor
  · rintro ⟨⟨e, ids⟩, member, id, inside, closes⟩
    have listed := Std.TreeMap.mem_toList_iff_getElem?_eq_some.mp member
    exact ⟨⟨e, id⟩, (State.mem_tracked s _).mpr ⟨ids, listed, inside⟩, closes⟩
  · rintro ⟨⟨e, id⟩, tracked, closes⟩
    obtain ⟨ids, listed, inside⟩ := (State.mem_tracked s _).mp tracked
    exact ⟨(e, ids), Std.TreeMap.mem_toList_iff_getElem?_eq_some.mpr listed, id, inside, closes⟩

-- The flag of the wait loop is a local variable that nothing sets any more.
theorem waiting_step (p : Platform D) (s t : State D) (action : Action) (out : List (Output D))
    (waits : s.thread = .waiting) (taken : step p s action = some (t, out)) : t.thread = .waiting := by
  by_cases woke : action = .wake
  · subst woke
    obtain ⟨_, transition⟩ := step_transition p s t .wake out taken
    cases transition with
    | added _ thread => cases waits.symm.trans thread
    | deleted _ _ thread => cases waits.symm.trans thread
    | joined _ _ _ thread => cases waits.symm.trans thread
  · have busy : s.thread ≠ .idle := by
      rw [waits]
      exact Thread.noConfusion
    exact (busy_step p s t action out busy woke taken).thread.trans waits

theorem waiting_run (p : Platform D) (s t : State D) (actions : List Action) (log : List (List (Output D)))
    (waits : s.thread = .waiting) (ran : (broadcaster p).run s actions = some (t, log)) : t.thread = .waiting :=
  (broadcaster p).run_invariant (fun _ _ => True) (fun s => s.thread = .waiting)
    (fun s action t out waits _ taken => waiting_step p s t action out waits taken) actions s t log waits
    ((broadcaster p).along_always _ actions s fun _ _ _ => trivial) ran

theorem clear_completes_iff (p : Platform D) (s : State D) (hdl : Hdl) :
    ClearCompletes p s hdl ↔ ∃ conn ∈ s.tracked, closeReports s conn = true := by
  rw [← close_all_tracked s]
  cases reports : (closeAll s s.m_endpoints.toList).2 with
  | false =>
      have waits : (handleClearAggregator s hdl).1.thread = .waiting := by
        dsimp only [handleClearAggregator]
        rw [reports]
        rfl
      refine ⟨fun completes => ?_, fun impossible => absurd impossible Bool.false_ne_true⟩
      obtain ⟨actions, t, log, ran, left⟩ := completes.leaves
      exact absurd (waiting_run p _ t actions log waits ran) left
  | true =>
      have cleared : handleClearAggregator s hdl =
          (destroy { (closeAll s s.m_endpoints.toList).1 with m_endpoints := ∅ } s.m_endpoints.keys,
            [handleError hdl "processed".toList []]) := by
        dsimp only [handleClearAggregator]
        rw [reports]
        rfl
      refine ⟨fun _ => rfl, fun _ => ⟨⟨[], _, [], rfl, ?_⟩, "processed".toList, ?_⟩⟩
      · rw [cleared]
        cases s.m_endpoints.keys <;> exact Thread.noConfusion
      · rw [cleared]

-- Before the first add command there is nothing to close, so nothing is closed.
theorem empty_clear_waits :
    (broadcaster .plain).Reachable .init joinedState ∧ joinedState.m_endpoints.keys = [] ∧
      (handleClearAggregator joinedState 0).2 = [] ∧ ¬ClearCompletes .plain joinedState 0 := by
  refine ⟨joined_reachable, rfl, rfl, fun completes => ?_⟩
  obtain ⟨word, replied⟩ := completes.replies
  cases replied

end TradingFeed.Broadcaster
