import TradingFeed.Aggregator.Ownership
import TradingFeed.Library.Groups

set_option autoImplicit false

namespace TradingFeed.Aggregator

open TradingFeed.Json TradingFeed.Sockets

variable {D : Type}

namespace State

def recorded (s : State) (hdl : Hdl) : List Int := Library.Groups.under s.m_connections hdl

def stored (s : State) : List Int := Library.Groups.values s.m_connections

end State

def isClear (p : Platform D) : Action → Prop
  | .disconnected _ => True
  | .message _ payload =>
      ∃ request, load p.fp payload = .ok request ∧ (request.index "action".toList).asText = "clear-providers".toList
  | _ => False

theorem transition_connections (p : Platform D) (s t : State) (action : Action) (out : List (Output D))
    (taken : Transition p s action t out) :
    (t.m_connections = s.m_connections ∧ t.m_endpoint.m_next_id = s.m_endpoint.m_next_id) ∨
      ∃ hdl payload request, action = .message hdl payload ∧ load p.fp payload = .ok request ∧
        (request.index "action".toList).asText = "add-provider".toList ∧ s.thread = .idle ∧
        s.m_server.alive hdl = true ∧ t = (handleAddProvider p s hdl request : State × List (Output D)).1 := by
  cases taken with
  | addProvider hdl payload request idle alive loaded asked =>
      exact Or.inr ⟨hdl, payload, request, rfl, loaded, asked, idle, alive, rfl⟩
  | _ => exact Or.inl ⟨rfl, rfl⟩

theorem recorded_add (p : Platform D) (s : State) (hdl other : Hdl) (request : JSON D) :
    (handleAddProvider p s hdl request : State × List (Output D)).1.recorded other =
      if other = hdl then
        s.recorded hdl ++ [(s.m_endpoint.connect (p.acceptsUri (request.index "host".toList).asText)).2]
      else s.recorded other :=
  Library.Groups.under_record s.m_connections hdl other _

theorem mem_recorded_add (p : Platform D) (s : State) (hdl other : Hdl) (request : JSON D) (id : Int)
    (member : id ∈ (handleAddProvider p s hdl request : State × List (Output D)).1.recorded other) :
    id ∈ s.recorded other ∨
      (other = hdl ∧ id = (s.m_endpoint.connect (p.acceptsUri (request.index "host".toList).asText)).2) := by
  rw [recorded_add] at member
  split at member
  · rename_i mine
    rw [mine]
    exact (List.mem_append.mp member).imp_right fun new => ⟨rfl, List.mem_singleton.mp new⟩
  · exact Or.inl member

structure Recorded (s : State) : Prop where
  adding : ∀ hdl id, s.thread.consumer = some hdl → s.thread.adding = some id → id ∈ s.recorded hdl
  tasks : ∀ task ∈ s.tasks, task.2 ∈ s.recorded task.1
  clients : ∀ id ∈ s.m_client_ids, 0 ≤ id ∧ ∃ hdl, id ∈ s.recorded hdl
  numbered : ∀ hdl, ∀ id ∈ s.recorded hdl, id < s.m_endpoint.m_next_id
  owner : ∀ hdl other id, 0 ≤ id → id ∈ s.recorded hdl → id ∈ s.recorded other → hdl = other

theorem recorded_init : Recorded .init where
  adding := by simp [State.init, Thread.consumer]
  tasks := by simp [State.init, State.tasks]
  clients := by simp [State.init]
  numbered := by simp [State.init, State.recorded, Library.Groups.under]
  owner := by simp [State.init, State.recorded, Library.Groups.under]

section

variable (p : Platform D) (s t : State) (action : Action) (out : List (Output D))

theorem recorded_stays (hdl : Hdl) (id : Int) (taken : Transition p s action t out) (member : id ∈ s.recorded hdl) :
    id ∈ t.recorded hdl := by
  rcases transition_connections p s t action out taken with ⟨same, _⟩ | ⟨other, payload, request, _, _, _, _, _, rfl⟩
  · dsimp only [State.recorded]
    rw [same]
    exact member
  · rw [recorded_add]
    split
    · rename_i mine
      rw [← mine]
      exact List.mem_append_left _ member
    · exact member

theorem recorded_adding (recorded : Recorded s) (taken : Transition p s action t out) (hdl : Hdl) (id : Int)
    (busy : t.thread.consumer = some hdl) (adding : t.thread.adding = some id) : id ∈ t.recorded hdl := by
  cases taken with
  | addProvider other payload request =>
      cases busy
      cases adding
      rw [recorded_add, if_pos rfl]
      exact List.mem_append_right _ (List.mem_singleton.mpr rfl)
  | ready other host fresh handler thread =>
      cases busy
      cases adding
      exact recorded.adding hdl id (by rw [thread]; rfl) (by rw [thread]; rfl)
  | replied other host fresh thread =>
      cases busy
      cases adding
      exact recorded.adding hdl id (by rw [thread]; rfl) (by rw [thread]; rfl)
  | disconnected => cases adding
  | clearProviders => cases adding
  | launched => cases adding
  | closedOne => cases adding
  | stuck => cases adding
  | cleared => cases adding
  | _ => exact recorded.adding hdl id busy adding

theorem recorded_clients (recorded : Recorded s) (taken : Transition p s action t out) (id : Int)
    (member : id ∈ t.m_client_ids) : 0 ≤ id ∧ ∃ hdl, id ∈ t.recorded hdl := by
  have old : (0 ≤ id ∧ ∃ hdl, id ∈ s.recorded hdl) := by
    cases taken with
    | ready hdl host fresh handler thread found =>
        rcases List.mem_append.mp member with before | now
        · exact recorded.clients id before
        · rw [List.mem_singleton.mp now]
          exact ⟨(s.m_endpoint.get_numbered fresh handler found).1, hdl,
            recorded.adding hdl fresh (by rw [thread]; rfl) (by rw [thread]; rfl)⟩
    | stuck => cases member
    | cleared => cases member
    | _ => exact recorded.clients id member
  obtain ⟨natural, hdl, before⟩ := old
  exact ⟨natural, hdl, recorded_stays p s t action out hdl id taken before⟩

theorem recorded_step (recorded : Recorded s) (taken : Transition p s action t out) : Recorded t where
  adding := recorded_adding p s t action out recorded taken
  tasks := by
    intro task member
    apply recorded_stays p s t action out task.1 task.2 taken
    rcases transition_tasks p s t action out taken with same | ⟨hdl, id, launching, _, grown⟩
    · rw [same] at member
      exact recorded.tasks task member
    · rw [grown] at member
      rcases List.mem_append.mp member with old | new
      · exact recorded.tasks task old
      · rw [List.mem_singleton.mp new]
        exact recorded.adding hdl id (by rw [launching]; rfl) (by rw [launching]; rfl)
  clients := recorded_clients p s t action out recorded taken
  numbered := by
    intro hdl id member
    rcases transition_connections p s t action out taken with ⟨same, next⟩ | ⟨other, payload, request, _, _, _, _, _, rfl⟩
    · dsimp only [State.recorded] at member
      rw [same] at member
      rw [next]
      exact recorded.numbered hdl id member
    · obtain ⟨grows, below⟩ := s.m_endpoint.connect_below (p.acceptsUri (request.index "host".toList).asText)
      rcases mem_recorded_add p s other hdl request id member with old | ⟨_, new⟩
      · exact Int.lt_of_lt_of_le (recorded.numbered hdl id old) grows
      · rw [new]
        exact below
  owner := by
    intro hdl other id natural one two
    rcases transition_connections p s t action out taken with ⟨same, _⟩ | ⟨consumer, payload, request, _, _, _, _, _, rfl⟩
    · dsimp only [State.recorded] at one two
      rw [same] at one two
      exact recorded.owner hdl other id natural one two
    · -- A connection that was accepted has an id above every recorded one.
      have above : ∀ hdl, id ∈ s.recorded hdl →
          id ≠ (s.m_endpoint.connect (p.acceptsUri (request.index "host".toList).asText)).2 := by
        intro hdl old
        have known := recorded.numbered hdl id old
        rcases s.m_endpoint.connect_id (p.acceptsUri (request.index "host".toList).asText) with rejected | fresh <;> omega
      rcases mem_recorded_add p s consumer hdl request id one with old | ⟨mine, new⟩
      · rcases mem_recorded_add p s consumer other request id two with before | ⟨_, now⟩
        · exact recorded.owner hdl other id natural old before
        · exact absurd now (above hdl old)
      · rcases mem_recorded_add p s consumer other request id two with before | ⟨also, _⟩
        · exact absurd new (above other before)
        · exact mine.trans also.symm

end

theorem reachable_recorded (p : Platform D) (s : State) (reach : (aggregator p).Reachable .init s) : Recorded s :=
  (aggregator p).reachable_invariant .init Recorded recorded_init
    (fun s a t out recorded taken => recorded_step p s t a out recorded (step_transition p s t a out taken).2) s reach

def Thread.awaited : Thread → List Int
  | polling _ _ id => [id]
  | _ => []

def ClearsNothing (p : Platform D) (s : State) (action : Action) : Prop := isClear p action → s.m_client_ids = []

structure Agreed (s : State) : Prop where
  ids : s.stored.Perm (s.thread.awaited ++ s.m_client_ids)
  keys : ∀ hdl ∈ s.m_connections, s.m_server.alive hdl = true
  filled : ∀ hdl ∈ s.m_connections, s.recorded hdl ≠ []
  clearing : ∀ hdl gone todo, s.thread = .clearing hdl gone todo → todo = [] ∧ s.m_client_ids = []

theorem agreed_init : Agreed .init where
  ids := List.Perm.refl []
  keys := by simp [State.init]
  filled := by simp [State.init]
  clearing := by simp [State.init]

section

variable (p : Platform D) (s t : State) (action : Action) (out : List (Output D))

theorem agreed_ids (agreed : Agreed s) (taken : Transition p s action t out) :
    t.stored.Perm (t.thread.awaited ++ t.m_client_ids) := by
  have ids := agreed.ids
  cases taken with
  | disconnected hdl idle =>
      rw [idle] at ids
      exact ids
  | addProvider hdl payload request idle =>
      rw [idle] at ids
      exact (Library.Groups.values_record s.m_connections hdl _).trans (ids.cons _)
  | clearProviders hdl payload request idle =>
      rw [idle] at ids
      exact ids
  | ready hdl host id handler thread =>
      rw [thread] at ids
      exact ids.trans List.perm_append_comm
  | replied hdl host id thread =>
      rw [thread] at ids
      exact ids
  | launched hdl id thread =>
      rw [thread] at ids
      exact ids
  | closedOne hdl gone id todo thread => cases (agreed.clearing hdl gone _ thread).1
  | stuck hdl gone id todo thread => cases (agreed.clearing hdl gone _ thread).1
  | cleared hdl gone thread =>
      rw [thread, (agreed.clearing hdl gone _ thread).2] at ids
      exact ids
  | _ => exact ids

theorem agreed_unrecorded (agreed : Agreed s) (hdl : Hdl) (gone : Bool) (thread : s.thread = .clearing hdl gone []) :
    ∀ other, other ∉ s.m_connections := by
  intro other key
  obtain ⟨id, member⟩ := List.exists_mem_of_ne_nil _ (agreed.filled other key)
  have ids := agreed.ids
  rw [thread, (agreed.clearing hdl gone _ thread).2] at ids
  have stored : id ∈ s.stored := (Library.Groups.mem_values s.m_connections id).mpr ⟨other, member⟩
  cases ids.mem_iff.mp stored

theorem agreed_keys (agreed : Agreed s) (taken : Transition p s action t out) (hdl : Hdl) (key : hdl ∈ t.m_connections) :
    t.m_server.alive hdl = true := by
  cases taken with
  | connected =>
      rw [Server.alive_accept, agreed.keys hdl key]
      rfl
  | addProvider consumer payload request idle alive =>
      rcases (Library.Groups.mem_record s.m_connections consumer hdl _).mp key with rfl | old
      · exact alive
      · exact agreed.keys hdl old
  | cleared consumer gone thread => exact absurd key (agreed_unrecorded s agreed consumer gone thread hdl)
  | _ => exact agreed.keys hdl key

theorem agreed_filled (agreed : Agreed s) (taken : Transition p s action t out) (hdl : Hdl)
    (key : hdl ∈ t.m_connections) : t.recorded hdl ≠ [] := by
  cases taken with
  | addProvider consumer payload request =>
      rw [recorded_add]
      split
      · simp
      · rename_i other
        exact agreed.filled hdl (((Library.Groups.mem_record s.m_connections consumer hdl _).mp key).resolve_left other)
  | _ => exact agreed.filled hdl key

theorem agreed_clearing (agreed : Agreed s) (met : ClearsNothing p s action) (taken : Transition p s action t out)
    (hdl : Hdl) (gone : Bool) (todo : List Int) (thread : t.thread = .clearing hdl gone todo) :
    todo = [] ∧ t.m_client_ids = [] := by
  cases taken with
  | disconnected consumer =>
      cases thread
      exact ⟨met trivial, met trivial⟩
  | clearProviders consumer payload request idle alive loaded asked =>
      cases thread
      exact ⟨met ⟨request, loaded, asked⟩, met ⟨request, loaded, asked⟩⟩
  | closedOne consumer other id rest before => cases (agreed.clearing consumer other _ before).1
  | addProvider => cases thread
  | ready => cases thread
  | replied => cases thread
  | launched => cases thread
  | stuck => cases thread
  | cleared => cases thread
  | _ => exact agreed.clearing hdl gone todo thread

theorem agreed_step (agreed : Agreed s) (met : ClearsNothing p s action) (taken : Transition p s action t out) :
    Agreed t where
  ids := agreed_ids p s t action out agreed taken
  keys := agreed_keys p s t action out agreed taken
  filled := agreed_filled p s t action out agreed taken
  clearing := agreed_clearing p s t action out agreed met taken

end

theorem registries_agree (p : Platform D) (actions : List Action) (s : State) (log : List (List (Output D)))
    (met : (aggregator p).Along (ClearsNothing p) .init actions) (ran : (aggregator p).run .init actions = some (s, log))
    (idle : s.thread = .idle) :
    s.stored.Perm s.m_client_ids ∧ ∀ hdl ∈ s.m_connections, s.m_server.alive hdl = true := by
  have agreed : Agreed s :=
    (aggregator p).run_invariant (ClearsNothing p) Agreed
      (fun s a t out held met taken => agreed_step p s t a out held met (step_transition p s t a out taken).2)
      actions .init s log agreed_init met ran
  have ids := agreed.ids
  rw [idle] at ids
  exact ⟨ids, agreed.keys⟩

def providerRequest : Text := "\x7b\"action\":\"add-provider\",\"host\":\"ws://p:1\"\x7d".toList

def clearProvidersRequest : Text := "\x7b\"action\":\"clear-providers\"\x7d".toList

def quoteText : Text := "\x7b\"symbol\":\"EURUSD\"\x7d".toList

theorem load_quote (fp : Doubles D) : load fp quoteText = .ok (.object [("symbol".toList, .string "EURUSD".toList)]) := by
  cbv

def addedRun : List Action :=
  [.connected, .message 0 providerRequest, .opened 0, .silenced 0, .wake, .wake, .wake]

-- A disconnect and a clear-providers while m_client_ids is empty, and then an add.
def clearedFirst : List Action :=
  [.connected, .connected, .disconnected 1, .wake, .message 0 clearProvidersRequest, .wake] ++ addedRun.tail

theorem registries_agree_added :
    ∃ s log, (aggregator .plain).run .init clearedFirst = some (s, log) ∧ s.m_client_ids = [0] ∧
      s.stored.Perm s.m_client_ids ∧ ∀ hdl ∈ s.m_connections, s.m_server.alive hdl = true := by
  obtain ⟨s, log, ran, checked⟩ := (aggregator .plain).run_check .init clearedFirst
    (fun done => done.1.thread = .idle ∧ done.1.m_client_ids = [0]) (by decide +kernel)
  obtain ⟨idle, ids⟩ := of_decide_eq_true checked
  have met : (aggregator .plain).Along (ClearsNothing .plain) .init clearedFirst := by
    refine (aggregator .plain).along_checked (ClearsNothing .plain)
      (fun s action => match action with
        | .disconnected _ => s.m_client_ids = []
        | .message _ _ => s.m_client_ids = []
        | _ => true) (fun s action passes clears => ?_) clearedFirst .init (by decide +kernel)
    cases action with
    | disconnected hdl => exact of_decide_eq_true passes
    | message hdl payload => exact of_decide_eq_true passes
    | _ => exact clears.elim
  exact ⟨s, log, ran, ids, registries_agree .plain clearedFirst s log met ran idle⟩

theorem disconnect_leaves_records :
    ∃ s log, (aggregator .plain).run .init (addedRun ++ [.disconnected 0, .wake, .wake]) = some (s, log) ∧
      s.thread = .idle ∧ s.m_client_ids = [] ∧ s.stored = [0] ∧ 0 ∈ s.m_connections ∧ s.m_server.alive 0 = false ∧
      ¬s.stored.Perm s.m_client_ids := by
  obtain ⟨s, log, ran, checked⟩ := (aggregator .plain).run_check .init (addedRun ++ [.disconnected 0, .wake, .wake])
    (fun done => done.1.thread = .idle ∧ done.1.m_client_ids = [] ∧ done.1.stored = [0] ∧ 0 ∈ done.1.m_connections ∧
      done.1.m_server.alive 0 = false) (by decide +kernel)
  obtain ⟨idle, ids, stored, key, gone⟩ := of_decide_eq_true checked
  refine ⟨s, log, ran, idle, ids, stored, key, gone, ?_⟩
  rw [stored, ids]
  decide

theorem cleared_disagrees (p : Platform D) (s t : State) (hdl : Hdl) (gone : Bool) (out : List (Output D))
    (reach : (aggregator p).Reachable .init s) (thread : s.thread = .clearing hdl gone []) (some_ : s.m_client_ids ≠ [])
    (taken : step p s .wake = some (t, out)) : t.thread = .idle ∧ ¬t.stored.Perm t.m_client_ids := by
  obtain ⟨id, member⟩ := List.exists_mem_of_ne_nil _ some_
  obtain ⟨_, consumer, recorded⟩ := (reachable_recorded p s reach).clients id member
  have kept := recorded_stays p s t .wake out consumer id (step_transition p s t .wake out taken).2 recorded
  have stored : id ∈ t.stored := (Library.Groups.mem_values t.m_connections id).mpr ⟨consumer, kept⟩
  obtain ⟨_, transition⟩ := step_transition p s t .wake out taken
  cases transition with
  | cleared => exact ⟨rfl, fun same => by cases same.mem_iff.mp stored⟩
  | _ => simp_all

end TradingFeed.Aggregator
