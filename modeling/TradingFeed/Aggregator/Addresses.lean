import TradingFeed.Aggregator.Sources
import TradingFeed.Aggregator.Connections
import TradingFeed.Library.Tagged
import TradingFeed.Sockets.Uri

set_option autoImplicit false

namespace TradingFeed.Aggregator

open TradingFeed.Json TradingFeed.Sockets Library

variable {D : Type}

def Dials (p : Platform D) : Prop :=
  ∀ host, get_connection host ≠ .error .undefined → p.acceptsUri host = dialled host

def hostAsked (p : Platform D) : Action → Option (Hdl × Text)
  | .message hdl payload =>
      match load p.fp payload with
      | .error _ => none
      | .ok request =>
          if (request.index "action".toList).asText = "add-provider".toList then
            some (hdl, (request.index "host".toList).asText)
          else none
  | _ => none

def hostsAsked (p : Platform D) (events : List (Step D)) : List (Hdl × Text) :=
  events.filterMap fun event => hostAsked p event.action

def idsGiven (accepts : Text → Bool) : Int → List (Hdl × Text) → List (Hdl × Int)
  | _, [] => []
  | next, (hdl, host) :: rest =>
      if accepts host then (hdl, next) :: idsGiven accepts (next + 1) rest else (hdl, -1) :: idsGiven accepts next rest

def accepted (accepts : Text → Bool) (hosts : List (Hdl × Text)) : Nat := hosts.countP fun asked => accepts asked.2

section

variable (accepts : Text → Bool)

theorem ids_given_append (next : Int) (front back : List (Hdl × Text)) :
    idsGiven accepts next (front ++ back) =
      idsGiven accepts next front ++ idsGiven accepts (next + accepted accepts front) back := by
  induction front generalizing next with
  | nil => simp [idsGiven, accepted]
  | cons asked front ih =>
      obtain ⟨hdl, host⟩ := asked
      rw [List.cons_append, idsGiven, idsGiven]
      cases accepts_ : accepts host with
      | true =>
          have count : accepted accepts ((hdl, host) :: front) = accepted accepts front + 1 :=
            List.countP_cons_of_pos accepts_
          rw [if_pos rfl, if_pos rfl, ih, count, List.cons_append]
          congr 3
          omega
      | false =>
          have count : accepted accepts ((hdl, host) :: front) = accepted accepts front :=
            List.countP_cons_of_neg (by simp [accepts_])
          rw [if_neg Bool.false_ne_true, if_neg Bool.false_ne_true, ih, count, List.cons_append]

theorem rejected_given (next : Int) (natural : 0 ≤ next) (hosts : List (Hdl × Text)) (hdl : Hdl) :
    (hdl, -1) ∈ idsGiven accepts next hosts ↔ ∃ host, (hdl, host) ∈ hosts ∧ accepts host = false := by
  induction hosts generalizing next with
  | nil => simp [idsGiven]
  | cons asked hosts ih =>
      obtain ⟨other, host⟩ := asked
      rw [idsGiven]
      cases accepts_ : accepts host with
      | true =>
          have numbered : (-1 : Int) ≠ next := by omega
          rw [if_pos rfl, List.mem_cons, ih (next + 1) (by omega)]
          simp only [Prod.mk.injEq, numbered, and_false, false_or, List.mem_cons]
          refine exists_congr fun given => and_congr_left fun refused => ?_
          refine (or_iff_right ?_).symm
          rintro ⟨_, rfl⟩
          exact Bool.false_ne_true (refused.symm.trans accepts_)
      | false =>
          rw [if_neg Bool.false_ne_true, List.mem_cons, ih next natural]
          simp only [Prod.mk.injEq, and_true, List.mem_cons]
          constructor
          · rintro (rfl | ⟨given, member, refused⟩)
            · exact ⟨host, Or.inl ⟨rfl, rfl⟩, accepts_⟩
            · exact ⟨given, Or.inr member, refused⟩
          · rintro ⟨given, ⟨rfl, rfl⟩ | member, refused⟩
            · exact Or.inl rfl
            · exact Or.inr ⟨given, member, refused⟩

end

theorem hosts_asked_snoc (p : Platform D) (past : List (Step D)) (s : State) (action : Action) (out : List (Output D)) :
    hostsAsked p (past ++ [⟨s, action, out⟩]) = hostsAsked p past ++ (hostAsked p action).toList := by
  cases here : hostAsked p action <;> simp [hostsAsked, here]

theorem asked_step (p : Platform D) (s t : State) (action : Action) (out : List (Output D)) (hdl : Hdl) (host : Text)
    (asked : hostAsked p action = some (hdl, host)) (taken : step p s action = some (t, out)) :
    ∃ request, (request.index "host".toList).asText = host ∧
      t = (handleAddProvider p s hdl request : State × List (Output D)).1 := by
  cases action with
  | message consumer payload =>
      dsimp only [hostAsked] at asked
      split at asked
      · cases asked
      · rename_i request loaded
        obtain ⟨adds, same⟩ := Option.ite_none_right_eq_some.mp asked
        obtain ⟨rfl, rfl⟩ := Prod.mk.inj (Option.some.inj same)
        refine ⟨request, rfl, ?_⟩
        have handled : onMessage p s consumer payload = .ok (handleAddProvider p s consumer request) := by
          rw [onMessage, (load_text_ok p payload request).mpr loaded]
          exact congrArg Except.ok (if_pos adds)
        dsimp only [step] at taken
        rw [handled] at taken
        split at taken
        · cases taken
        · obtain ⟨_, _, same | ⟨fault, raised, _⟩⟩ := server_event_some s consumer _ _ taken
          · exact (congrArg Prod.fst (Except.ok.inj same)).symm
          · cases raised
  | _ => cases asked

theorem unasked_step (p : Platform D) (s t : State) (action : Action) (out : List (Output D))
    (unasked : hostAsked p action = none) (taken : Transition p s action t out) :
    t.m_connections = s.m_connections ∧ t.m_endpoint.m_next_id = s.m_endpoint.m_next_id := by
  rcases transition_connections p s t action out taken with same | ⟨hdl, payload, request, rfl, loaded, adds, _⟩
  · exact same
  · dsimp only [hostAsked] at unasked
    rw [loaded] at unasked
    exact absurd (unasked.symm.trans (if_pos adds)) (Option.some_ne_none _).symm

theorem connect_given (accepts : Text → Bool) (s : State) (hdl : Hdl) (host : Text) :
    (s.m_endpoint.connect (accepts host)).1.m_next_id = s.m_endpoint.m_next_id + accepted accepts [(hdl, host)] ∧
      idsGiven accepts s.m_endpoint.m_next_id [(hdl, host)] = [(hdl, (s.m_endpoint.connect (accepts host)).2)] := by
  cases accepts_ : accepts host with
  | true => exact ⟨by simp [EndPoint.connect, accepted, accepts_], by simp [EndPoint.connect, idsGiven, accepts_]⟩
  | false => exact ⟨by simp [EndPoint.connect, accepted, accepts_], by simp [EndPoint.connect, idsGiven, accepts_]⟩

structure Numbered (p : Platform D) (past : List (Step D)) (s : State) : Prop where
  next : s.m_endpoint.m_next_id = accepted p.acceptsUri (hostsAsked p past)
  recorded : ∀ hdl, s.recorded hdl = under hdl (idsGiven p.acceptsUri 0 (hostsAsked p past))

theorem numbered_add (p : Platform D) (past : List (Step D)) (s : State) (action : Action) (out : List (Output D)) (hdl : Hdl)
    (request : JSON D) (asks : hostsAsked p (past ++ [⟨s, action, out⟩]) =
      hostsAsked p past ++ [(hdl, (request.index "host".toList).asText)]) (numbered : Numbered p past s) :
    Numbered p (past ++ [⟨s, action, out⟩]) (handleAddProvider p s hdl request : State × List (Output D)).1 := by
  obtain ⟨next, given⟩ := connect_given p.acceptsUri s hdl (request.index "host".toList).asText
  have whole : idsGiven p.acceptsUri 0 (hostsAsked p (past ++ [⟨s, action, out⟩])) =
      idsGiven p.acceptsUri 0 (hostsAsked p past) ++
        [(hdl, (s.m_endpoint.connect (p.acceptsUri (request.index "host".toList).asText)).2)] := by
    rw [asks, ids_given_append, Int.zero_add, ← numbered.next, given]
  refine ⟨?_, fun other => ?_⟩
  · rw [asks]
    refine next.trans ?_
    rw [numbered.next, accepted, accepted, accepted, List.countP_append]
    rfl
  · rw [recorded_add, whole, under_append, under_cons, ← numbered.recorded other]
    by_cases same : other = hdl
    · subst same
      rw [if_pos rfl, if_pos rfl]
      rfl
    · rw [if_neg same, if_neg (Ne.symm same)]
      exact (List.append_nil _).symm

theorem numbered_step (p : Platform D) (past : List (Step D)) (s t : State) (action : Action) (out : List (Output D))
    (numbered : Numbered p past s) (taken : step p s action = some (t, out)) :
    Numbered p (past ++ [⟨s, action, out⟩]) t := by
  have asks := hosts_asked_snoc p past s action out
  cases asked : hostAsked p action with
  | none =>
      rw [asked, Option.toList_none, List.append_nil] at asks
      obtain ⟨connections, next⟩ := unasked_step p s t action out asked (step_transition p s t action out taken).2
      refine ⟨by rw [asks, next]; exact numbered.next, fun hdl => ?_⟩
      rw [asks, ← numbered.recorded hdl, State.recorded, connections]
      rfl
  | some pair =>
      obtain ⟨hdl, host⟩ := pair
      rw [asked, Option.toList_some] at asks
      obtain ⟨request, rfl, rfl⟩ := asked_step p s t action out hdl host asked taken
      exact numbered_add p past s action out hdl request asks numbered

theorem path_numbered (p : Platform D) (events : List (Step D)) (s : State) (path : (aggregator p).Path .init events s) :
    Numbered p events s :=
  (aggregator p).path_history .init (Numbered p)
    ⟨rfl, fun hdl => by simp [State.recorded, State.init, Groups.under, hostsAsked, idsGiven, under]⟩
    (fun past s action t out _ numbered taken => numbered_step p past s t action out numbered taken) events s path

theorem ids_given_congr (accepts other : Text → Bool) (next : Int) (hosts : List (Hdl × Text))
    (same : ∀ asked ∈ hosts, accepts asked.2 = other asked.2) : idsGiven accepts next hosts = idsGiven other next hosts := by
  induction hosts generalizing next with
  | nil => rfl
  | cons asked hosts ih =>
      obtain ⟨hdl, host⟩ := asked
      have here : accepts host = other host := same (hdl, host) List.mem_cons_self
      have later := fun next => ih next fun asked member => same asked (List.mem_cons_of_mem _ member)
      rw [idsGiven, idsGiven, here, later, later]

theorem ids_follow_requests (p : Platform D) (dials : Dials p) (events : List (Step D)) (s : State)
    (path : (aggregator p).Path .init events s)
    (defined : ∀ asked ∈ hostsAsked p events, get_connection asked.2 ≠ .error .undefined) (hdl : Hdl) :
    s.recorded hdl = under hdl (idsGiven dialled 0 (hostsAsked p events)) ∧
      (-1 ∈ s.recorded hdl ↔ ∃ host, (hdl, host) ∈ hostsAsked p events ∧ ¬Address host) := by
  have numbered := (path_numbered p events s path).recorded hdl
  rw [ids_given_congr p.acceptsUri dialled 0 _ fun asked member => dials asked.2 (defined asked member)] at numbered
  refine ⟨numbered, ?_⟩
  rw [numbered, mem_under, rejected_given dialled 0 (Int.le_refl 0)]
  refine exists_congr fun host => and_congr_right fun _ => ?_
  rw [← dialled_iff]
  simp

def dialling : Platform Int := ⟨Platform.plain.fp, dialled⟩

def secureRequest : Text := "\x7b\"action\":\"add-provider\",\"host\":\"wss://p:1\"\x7d".toList

def secureRun : List Action := .connected :: addedRun ++ [.message 1 secureRequest]

theorem ids_follow_requests_secure : ∃ events s, (aggregator dialling).Path .init events s ∧
    events.map Event.action = secureRun ∧ s.recorded 0 = [0] ∧
      (-1 ∈ s.recorded 1 ↔ ∃ host, (1, host) ∈ hostsAsked dialling events ∧ ¬Address host) := by
  obtain ⟨s, log, ran, checked⟩ := (aggregator dialling).run_check .init secureRun
    (fun done => done.1.recorded 0 = [0] ∧
      hostsAsked dialling ((aggregator dialling).trace .init secureRun) =
        [(0, "ws://p:1".toList), (1, "wss://p:1".toList)]) (by decide +kernel)
  have path := (aggregator dialling).trace_path .init s secureRun log ran
  have actions := ((aggregator dialling).trace_seen .init s secureRun log ran).1
  obtain ⟨first, asked⟩ := of_decide_eq_true checked
  have dials : Dials dialling := fun _ _ => rfl
  have follow := ids_follow_requests dialling dials _ s path
    (by rw [asked]; exact List.forall_mem_cons.mpr ⟨by decide, List.forall_mem_singleton.mpr (by decide)⟩) 1
  exact ⟨_, s, path, actions, first, follow.2⟩

end TradingFeed.Aggregator
