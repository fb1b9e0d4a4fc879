import Std.Data.TreeMap
import TradingFeed.Json.Value

set_option autoImplicit false

namespace TradingFeed.Sockets

open TradingFeed.Json

-- A connection_hdl is a weak pointer: it names one accepted connection for good
-- and can be locked as long as that connection exists. Handles are numbered in
-- the order of acceptance, so no later connection takes an old handle over.
abbrev Hdl := Nat

structure Server where
  connections : List Bool
deriving DecidableEq

def Server.alive (server : Server) (hdl : Hdl) : Bool := server.connections[hdl]?.getD false

def Server.accept (server : Server) : Server := ⟨server.connections ++ [true]⟩

def Server.drop (server : Server) (hdl : Hdl) : Server := ⟨server.connections.set hdl false⟩

-- What ends a thread of the program: an exception out of a handler or a use of
-- memory that has no defined result.
inductive Fault where
  | load (fault : LoadFault)
  | badConnection
  | badFunctionCall
  | nullHandler
  | danglingEndPoint
deriving DecidableEq

inductive Status where
  | connecting
  | opened
  | failed
  | closed
deriving DecidableEq

-- websocketpp's own state of a connection. It runs ahead of the status that the
-- handlers record: a lost connection is closed before on_close is called.
inductive Session where
  | connecting
  | opened
  | closing
  | closed
deriving DecidableEq

-- The std::function of a ClientHandler: without a target, the empty callback
-- that on_open installs, or a callback with what it has captured.
inductive Slot (κ : Type) where
  | unset
  | ignore
  | call (callback : κ)
deriving DecidableEq

-- `opening` says that on_open has made the first of its two writes only.
structure ClientHandler (κ : Type) where
  m_id : Int
  m_status : Status
  dataReceivedSignal : Slot κ
  session : Session
  opening : Bool

-- Ids are handed out in order and from 0 on, so a new one never meets an old
-- connection, and -1 is never one of them.
structure EndPoint (κ : Type) where
  m_connection_list : Std.TreeMap Int (ClientHandler κ)
  m_next_id : Int
  natural : 0 ≤ m_next_id
  numbered : ∀ id ∈ m_connection_list, 0 ≤ id ∧ id < m_next_id

variable {κ : Type}

namespace ClientHandler

def new (id : Int) : ClientHandler κ := ⟨id, .connecting, .unset, .connecting, false⟩

def publishOpen (handler : ClientHandler κ) : ClientHandler κ :=
  { handler with m_status := .opened, session := .opened, opening := true }

def ignoreData (handler : ClientHandler κ) : ClientHandler κ :=
  { handler with dataReceivedSignal := .ignore, opening := false }

def onOpen (handler : ClientHandler κ) : ClientHandler κ := handler.publishOpen.ignoreData

def onFail (handler : ClientHandler κ) : ClientHandler κ :=
  { handler with m_status := .failed, session := .closed }

def onClose (handler : ClientHandler κ) : ClientHandler κ := { handler with m_status := .closed }

def lose (handler : ClientHandler κ) : ClientHandler κ := { handler with session := .closed }

def shut (handler : ClientHandler κ) : ClientHandler κ := { handler with session := .closing }

def onDataReceived (callback : κ) (handler : ClientHandler κ) : ClientHandler κ :=
  { handler with dataReceivedSignal := .call callback }

-- Messages are delivered between the end of on_open and that of the connection.
-- A closing session drops data frames, but the handler of one that it has let
-- through before may still run, which is why they are not excluded here.
def receives (handler : ClientHandler κ) : Bool :=
  handler.m_status = .opened && !handler.opening && (handler.session = .opened || handler.session = .closing)

def settled (handler : ClientHandler κ) : Bool := handler.m_status = .failed || handler.m_status = .closed

theorem receives_opened (handler : ClientHandler κ) (receives : handler.receives = true) : handler.m_status = .opened :=
  of_decide_eq_true (Bool.and_eq_true_iff.mp (Bool.and_eq_true_iff.mp receives).1).1

end ClientHandler

namespace EndPoint

def new : EndPoint κ := ⟨∅, 0, Int.le_refl 0, by simp⟩

def get_metadata (endpoint : EndPoint κ) (id : Int) : Option (ClientHandler κ) := endpoint.m_connection_list[id]?

def update (endpoint : EndPoint κ) (id : Int) (change : ClientHandler κ → ClientHandler κ) : EndPoint κ :=
  { endpoint with
    m_connection_list := endpoint.m_connection_list.modify id change
    numbered := fun other member => endpoint.numbered other (Std.TreeMap.mem_modify.mp member) }

-- m_next_id is an int; a run would need 2^31 connections to overflow it.
def connect (accepted : Bool) (endpoint : EndPoint κ) : EndPoint κ × Int :=
  if accepted then
    ({  m_connection_list := endpoint.m_connection_list.insert endpoint.m_next_id (.new endpoint.m_next_id)
        m_next_id := endpoint.m_next_id + 1
        natural := by have := endpoint.natural; omega
        numbered := by
          intro id member
          have natural := endpoint.natural
          rcases Std.TreeMap.mem_insert.mp member with same | old
          · rw [← Std.LawfulEqCmp.eq_of_compare same]
            omega
          · have := endpoint.numbered id old
            omega },
      endpoint.m_next_id)
  else (endpoint, -1)

-- `missing` is what close returns for an id without connection: 1 in the
-- Broadcaster's copy of the class, 0 in the Aggregator's.
def close (missing : Bool) (endpoint : EndPoint κ) (id : Int) : EndPoint κ × Bool :=
  match endpoint.get_metadata id with
  | none => (endpoint, missing)
  | some handler =>
      if handler.session = .opened then (endpoint.update id .shut, true) else (endpoint, false)

-- ~EndPoint up to its join: only connections with status Open are closed.
def closeOpen (endpoint : EndPoint κ) : EndPoint κ :=
  { endpoint with
    m_connection_list := endpoint.m_connection_list.map fun _ handler =>
      if handler.m_status = .opened ∧ handler.session = .opened then handler.shut else handler
    numbered := fun id member => endpoint.numbered id (Std.TreeMap.mem_map.mp member) }

theorem get_numbered (endpoint : EndPoint κ) (id : Int) (handler : ClientHandler κ)
    (found : endpoint.get_metadata id = some handler) : 0 ≤ id ∧ id < endpoint.m_next_id := by
  refine endpoint.numbered id (Std.TreeMap.mem_iff_isSome_getElem?.mpr ?_)
  dsimp only [get_metadata] at found
  simp [found]

theorem get_update (endpoint : EndPoint κ) (id other : Int) (change : ClientHandler κ → ClientHandler κ) :
    (endpoint.update id change).get_metadata other =
      if other = id then (endpoint.get_metadata id).map change else endpoint.get_metadata other := by
  by_cases same : other = id
  · simp [update, get_metadata, same]
  · simp [update, get_metadata, Std.TreeMap.getElem?_modify, same, Ne.symm same]

theorem get_connect (endpoint : EndPoint κ) (id : Int) :
    (endpoint.connect true).1.get_metadata id =
      if id = endpoint.m_next_id then some (.new endpoint.m_next_id) else endpoint.get_metadata id := by
  by_cases same : id = endpoint.m_next_id
  · simp [connect, get_metadata, same]
  · simp [connect, get_metadata, same, Std.TreeMap.getElem?_insert, Ne.symm same]

theorem get_connected (endpoint : EndPoint κ) :
    (endpoint.connect true).1.get_metadata (endpoint.connect true).2 = some (.new (endpoint.connect true).2) := by
  rw [get_connect]
  exact if_pos rfl

theorem connect_get (endpoint : EndPoint κ) (accepted : Bool) (id : Int) :
    (endpoint.connect accepted).1.get_metadata id = endpoint.get_metadata id ∨
      endpoint.get_metadata id = none ∧ (endpoint.connect accepted).1.get_metadata id = some (.new id) := by
  cases accepted with
  | false => exact Or.inl rfl
  | true =>
      rw [get_connect]
      by_cases fresh : id = endpoint.m_next_id
      · refine Or.inr ⟨?_, by rw [if_pos fresh, fresh]⟩
        cases found : endpoint.get_metadata id with
        | none => rfl
        | some handler =>
            have known := get_numbered endpoint id handler found
            omega
      · exact Or.inl (if_neg fresh)

theorem connect_id (endpoint : EndPoint κ) (accepted : Bool) :
    (endpoint.connect accepted).2 = -1 ∨ (endpoint.connect accepted).2 = endpoint.m_next_id := by
  cases accepted with
  | false => exact Or.inl rfl
  | true => exact Or.inr rfl

theorem connect_rejected (endpoint : EndPoint κ) (accepted : Bool) :
    (endpoint.connect accepted).2 = -1 ↔ accepted = false := by
  have natural := endpoint.natural
  cases accepted with
  | false => exact ⟨fun _ => rfl, fun _ => rfl⟩
  | true =>
      dsimp only [connect]
      constructor
      · intro same
        simp only [if_true] at same
        omega
      · exact fun absurd_ => by cases absurd_

theorem connect_below (endpoint : EndPoint κ) (accepted : Bool) :
    endpoint.m_next_id ≤ (endpoint.connect accepted).1.m_next_id ∧
      (endpoint.connect accepted).2 < (endpoint.connect accepted).1.m_next_id := by
  have natural := endpoint.natural
  cases accepted with
  | false =>
      dsimp only [connect]
      exact ⟨Int.le_refl _, by simp; omega⟩
  | true =>
      dsimp only [connect]
      exact ⟨Int.le_add_one (Int.le_refl _), Int.lt_add_one_of_le (Int.le_refl _)⟩

def Complete (endpoint : EndPoint κ) : Prop :=
  ∀ id, 0 ≤ id → id < endpoint.m_next_id → (endpoint.get_metadata id).map ClientHandler.m_id = some id

theorem complete_new : (new : EndPoint κ).Complete := fun id natural below => by
  have none_ : id < 0 := below
  omega

theorem complete_update (endpoint : EndPoint κ) (id : Int) (change : ClientHandler κ → ClientHandler κ)
    (keeps : ∀ handler, (change handler).m_id = handler.m_id) (complete : endpoint.Complete) :
    (endpoint.update id change).Complete := by
  intro other natural below
  rw [get_update]
  by_cases same : other = id
  · have named : ClientHandler.m_id ∘ change = ClientHandler.m_id := funext keeps
    rw [if_pos same, Option.map_map, named, ← same]
    exact complete other natural below
  · rw [if_neg same]
    exact complete other natural below

theorem complete_connect (endpoint : EndPoint κ) (accepted : Bool) (complete : endpoint.Complete) :
    (endpoint.connect accepted).1.Complete := by
  cases accepted with
  | false => exact complete
  | true =>
      intro id natural below
      have next : id < endpoint.m_next_id + 1 := below
      rw [get_connect]
      by_cases fresh : id = endpoint.m_next_id
      · rw [if_pos fresh, fresh]
        rfl
      · rw [if_neg fresh]
        exact complete id natural (by omega)

theorem mem_complete (endpoint : EndPoint κ) (complete : endpoint.Complete) (id : Int) :
    id ∈ endpoint.m_connection_list ↔ 0 ≤ id ∧ id < endpoint.m_next_id := by
  refine ⟨endpoint.numbered id, fun bounds => Std.TreeMap.mem_iff_isSome_getElem?.mpr ?_⟩
  obtain ⟨handler, found, _⟩ := Option.map_eq_some_iff.mp (complete id bounds.1 bounds.2)
  dsimp only [get_metadata] at found
  rw [found]
  rfl

theorem complete_named (endpoint : EndPoint κ) (complete : endpoint.Complete) (id : Int) (handler : ClientHandler κ)
    (found : endpoint.get_metadata id = some handler) : handler.m_id = id := by
  obtain ⟨natural, below⟩ := endpoint.get_numbered id handler found
  have named := complete id natural below
  rw [found] at named
  exact Option.some.inj named

theorem connect_next (endpoint : EndPoint κ) (accepted : Bool) :
    (endpoint.connect accepted).1.m_next_id ≤ endpoint.m_next_id + 1 := by
  cases accepted with
  | false => exact Int.le_add_one (Int.le_refl _)
  | true => exact Int.le_refl _

theorem get_new (id : Int) : (new : EndPoint κ).get_metadata id = none := by
  simp [new, get_metadata]

end EndPoint

def Shuts (before after : Option (ClientHandler κ)) : Prop :=
  after = before ∨ ∃ handler, before = some handler ∧ handler.session = .opened ∧ after = some handler.shut

theorem shuts_refl (handler : Option (ClientHandler κ)) : Shuts handler handler := Or.inl rfl

theorem shuts_trans (first second third : Option (ClientHandler κ)) (before : Shuts first second)
    (after : Shuts second third) : Shuts first third := by
  rcases before with rfl | ⟨handler, rfl, opened, rfl⟩
  · exact after
  · rcases after with rfl | ⟨other, same, again, _⟩
    · exact Or.inr ⟨handler, rfl, opened, rfl⟩
    · cases same
      simp [ClientHandler.shut] at again

theorem shuts_none (after : Option (ClientHandler κ)) (shuts : Shuts none after) : after = none := by
  rcases shuts with same | ⟨handler, found, _⟩
  · exact same
  · cases found

theorem shuts_some (before : Option (ClientHandler κ)) (later : ClientHandler κ) (shuts : Shuts before (some later)) :
    ∃ handler, before = some handler ∧ later.m_status = handler.m_status ∧
      later.dataReceivedSignal = handler.dataReceivedSignal ∧ later.receives = handler.receives := by
  rcases shuts with rfl | ⟨handler, rfl, opened, same⟩
  · exact ⟨later, rfl, rfl, rfl, rfl⟩
  · cases same
    refine ⟨handler, rfl, rfl, rfl, ?_⟩
    cases status : handler.m_status <;> simp [ClientHandler.receives, ClientHandler.shut, opened, status]

theorem shuts_from (handler : ClientHandler κ) (after : Option (ClientHandler κ)) (shuts : Shuts (some handler) after) :
    ∃ later, after = some later ∧ later.m_status = handler.m_status ∧
      later.dataReceivedSignal = handler.dataReceivedSignal ∧ later.receives = handler.receives := by
  cases after with
  | none => rcases shuts with same | ⟨_, _, _, same⟩ <;> cases same
  | some later =>
      obtain ⟨_, same, agree⟩ := shuts_some (some handler) later shuts
      cases same
      exact ⟨later, rfl, agree⟩

theorem shuts_connecting (handler : ClientHandler κ) (after : Option (ClientHandler κ)) (shuts : Shuts (some handler) after)
    (connecting : handler.session = .connecting) : after = some handler := by
  rcases shuts with same | ⟨other, same, opened, _⟩
  · exact same
  · cases same
    rw [connecting] at opened
    cases opened

theorem close_shuts (endpoint : EndPoint κ) (missing : Bool) (id other : Int) :
    Shuts (endpoint.get_metadata other) ((endpoint.close missing id).1.get_metadata other) := by
  dsimp only [EndPoint.close]
  cases found : endpoint.get_metadata id with
  | none => exact shuts_refl _
  | some handler =>
      by_cases opened : handler.session = .opened
      · by_cases same : other = id
        · subst other
          exact Or.inr ⟨handler, found, opened, by simp [opened, EndPoint.get_update, found]⟩
        · simpa [opened, EndPoint.get_update, same] using shuts_refl _
      · simpa [opened] using shuts_refl _

theorem get_close_open (endpoint : EndPoint κ) (id : Int) :
    endpoint.closeOpen.get_metadata id = (endpoint.get_metadata id).map fun handler =>
      if handler.m_status = .opened ∧ handler.session = .opened then handler.shut else handler := by
  dsimp only [EndPoint.closeOpen, EndPoint.get_metadata]
  exact Std.TreeMap.getElem?_map

theorem close_open_shuts (endpoint : EndPoint κ) (id : Int) :
    Shuts (endpoint.get_metadata id) (endpoint.closeOpen.get_metadata id) := by
  rw [get_close_open]
  cases found : endpoint.get_metadata id with
  | none => exact shuts_refl _
  | some handler =>
      by_cases opened : handler.m_status = .opened ∧ handler.session = .opened
      · exact Or.inr ⟨handler, rfl, opened.2, by rw [Option.map_some, if_pos opened]⟩
      · rw [Option.map_some, if_neg opened]
        exact shuts_refl _

-- The EndPoint objects of a program by their addresses. Addresses are given out
-- in order, so that a pointer to a deleted object never meets a new one.
structure EndPoints (κ : Type) where
  objects : Std.TreeMap Nat (EndPoint κ)
  allocated : Nat
  below : ∀ address ∈ objects, address < allocated

namespace EndPoints

def empty : EndPoints κ := ⟨∅, 0, by simp⟩

def get (endPoints : EndPoints κ) (e : Nat) : Option (EndPoint κ) := endPoints.objects[e]?

def update (endPoints : EndPoints κ) (e : Nat) (change : EndPoint κ → EndPoint κ) : EndPoints κ :=
  { endPoints with
    objects := endPoints.objects.modify e change
    below := fun address member => endPoints.below address (Std.TreeMap.mem_modify.mp member) }

def allocate (endPoints : EndPoints κ) (endpoint : EndPoint κ) : EndPoints κ where
  objects := endPoints.objects.insert endPoints.allocated endpoint
  allocated := endPoints.allocated + 1
  below := by
    intro address member
    rcases Std.TreeMap.mem_insert.mp member with same | old
    · rw [← Std.LawfulEqCmp.eq_of_compare same]
      omega
    · have := endPoints.below address old
      omega

def delete (endPoints : EndPoints κ) (e : Nat) : EndPoints κ :=
  { endPoints with
    objects := endPoints.objects.erase e
    below := fun address member => endPoints.below address (Std.TreeMap.mem_of_mem_erase member) }

theorem get_update (endPoints : EndPoints κ) (e other : Nat) (change : EndPoint κ → EndPoint κ) :
    (endPoints.update e change).get other =
      if other = e then (endPoints.get e).map change else endPoints.get other := by
  by_cases same : other = e
  · simp [update, get, same]
  · simp [update, get, Std.TreeMap.getElem?_modify, same, Ne.symm same]

theorem get_allocate (endPoints : EndPoints κ) (endpoint : EndPoint κ) (e : Nat) :
    (endPoints.allocate endpoint).get e = if e = endPoints.allocated then some endpoint else endPoints.get e := by
  by_cases same : e = endPoints.allocated
  · simp [allocate, get, same]
  · simp [allocate, get, same, Std.TreeMap.getElem?_insert, Ne.symm same]

theorem get_delete (endPoints : EndPoints κ) (e other : Nat) :
    (endPoints.delete e).get other = if other = e then none else endPoints.get other := by
  by_cases same : other = e
  · simp [delete, get, same]
  · simp [delete, get, Std.TreeMap.getElem?_erase, same, Ne.symm same]

theorem get_below (endPoints : EndPoints κ) (e : Nat) (endpoint : EndPoint κ) (found : endPoints.get e = some endpoint) :
    e < endPoints.allocated := by
  refine endPoints.below e (Std.TreeMap.mem_iff_isSome_getElem?.mpr ?_)
  dsimp only [get] at found
  simp [found]

end EndPoints

namespace Server

theorem alive_known (server : Server) (hdl : Hdl) (alive : server.alive hdl = true) :
    hdl < server.connections.length := by
  by_cases known : hdl < server.connections.length
  · exact known
  · dsimp only [Server.alive] at alive
    rw [List.getElem?_eq_none (Nat.le_of_not_lt known)] at alive
    cases alive

theorem alive_accept (server : Server) (hdl : Hdl) :
    server.accept.alive hdl = (server.alive hdl || hdl == server.connections.length) := by
  dsimp only [alive, accept]
  rcases Nat.lt_trichotomy hdl server.connections.length with known | fresh | beyond
  · simp [List.getElem?_append_left known, Nat.ne_of_lt known]
  · simp [fresh]
  · have absent : server.connections[hdl]? = none := List.getElem?_eq_none (Nat.le_of_lt beyond)
    have still : (server.connections ++ [true])[hdl]? = none :=
      List.getElem?_eq_none (by rw [List.length_append]; exact beyond)
    simp [absent, still, Nat.ne_of_gt beyond]

theorem alive_drop (server : Server) (hdl other : Hdl) :
    (server.drop hdl).alive other = (server.alive other && other != hdl) := by
  dsimp only [alive, drop]
  by_cases same : other = hdl
  · subst other
    by_cases known : hdl < server.connections.length
    · simp [known]
    · have absent : (server.connections.set hdl false)[hdl]? = none :=
        List.getElem?_eq_none (by simpa using Nat.le_of_not_lt known)
      simp [absent]
  · simp [List.getElem?_set_ne (Ne.symm same), same]

end Server

end TradingFeed.Sockets
