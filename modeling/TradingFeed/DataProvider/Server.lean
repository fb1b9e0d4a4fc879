import TradingFeed.Common.DataProviderMessage
import TradingFeed.Library.Paths
import TradingFeed.Sockets.EndPoint

set_option autoImplicit false

namespace TradingFeed.DataProvider

open TradingFeed.Json TradingFeed.Sockets TradingFeed.Common

def NUMBER_OF_MESSAGE_SEND_INTERATIONS : Nat := 100

-- The task of a connection: get_con_from_hdl, which raises into the future when
-- the consumer is gone, and then the two loops. A round of the inner loop writes
-- the timestamp of an element of m_messages, which the tasks share, and sends it.
inductive Phase where
  | launched
  | broken
  | updating (iteration index : Nat)
  | sending (iteration index : Nat)
  | done
deriving DecidableEq

structure Task where
  hdl : Hdl
  phase : Phase
deriving DecidableEq

-- con->send is always given what toJson makes of a message.
inductive Output (D : Type) where
  | send (hdl : Hdl) (message : DataProviderMessage D)

structure State (D : Type) where
  m_server : Server
  m_messages : List (TimedMessage D)
  m_sendFutures : List Task

variable {D : Type}

-- A literal is the double nearest to its text, and std::stod reads that one.
def literal (fp : Doubles D) (text : Text) : D :=
  match fp.stod text with
  | .ok value => value
  | .error _ => fp.zero

-- What the constructor fills m_messages with; each message reads the clock.
def messages (fp : Doubles D) (clock : Nat → Int64) : List (TimedMessage D) := [
  .new "a631dc6c-ee85-458d-80d7-50018aedfbad".toList (literal fp "10.58".toList) 500 0 (clock 0),
  .new "9e8bff74-50cd-4d80-900c-b5ce3bf371ee".toList (literal fp "18.58".toList) 1500 1 (clock 1),
  .new "a631dc6c-ee85-458d-80d7-50018aedfbad".toList (literal fp "11.0".toList) 1000 (-500) (clock 2),
  .new "a631dc6c-ee85-458d-80d7-50018aedfbad".toList (literal fp "15.0".toList) 500 2 (clock 3),
  .new "4".toList (literal fp "9.0".toList) 1000 3 (clock 4)]

def State.init (created : List (TimedMessage D)) : State D := ⟨⟨[]⟩, created, []⟩

-- The loops over an empty vector end at once.
def State.first (s : State D) : Phase := if s.m_messages = [] then .done else .updating 0 0

def State.next (s : State D) (iteration index : Nat) : Phase :=
  if index + 1 < s.m_messages.length then .updating iteration (index + 1)
  else if iteration + 1 < NUMBER_OF_MESSAGE_SEND_INTERATIONS then .updating (iteration + 1) 0
  else .done

def State.setTask (s : State D) (task : Nat) (to_ : Task) : State D :=
  { s with m_sendFutures := s.m_sendFutures.set task to_ }

inductive Action where
  | connected
  | disconnected (hdl : Hdl)
  | message (hdl : Hdl) (payload : Text)
  | start (task : Nat)
  | update (task : Nat) (now : Int64)
  | send (task : Nat)

-- onConnection; the task has the handle of the new connection.
def onConnection (s : State D) : State D :=
  { s with
    m_server := s.m_server.accept
    m_sendFutures := s.m_sendFutures ++ [⟨s.m_server.connections.length, .launched⟩] }

def startTask (s : State D) (i : Nat) : Option (State D) :=
  match s.m_sendFutures[i]? with
  | some ⟨hdl, .launched⟩ => some (s.setTask i ⟨hdl, if s.m_server.alive hdl then s.first else .broken⟩)
  | _ => none

def updateTask (s : State D) (i : Nat) (now : Int64) : Option (State D) :=
  match s.m_sendFutures[i]? with
  | some ⟨hdl, .updating iteration index⟩ =>
      some { s.setTask i ⟨hdl, .sending iteration index⟩ with
        m_messages := s.m_messages.modify index fun message => message.updateTimestamp now }
  | _ => none

-- The connection lives on in the task when it is closed, and send then only
-- returns an error.
def sendTask (s : State D) (i : Nat) : Option (State D × List (Output D)) :=
  match s.m_sendFutures[i]? with
  | some ⟨hdl, .sending iteration index⟩ =>
      match s.m_messages[index]? with
      | some message =>
          some (s.setTask i ⟨hdl, s.next iteration index⟩,
            if s.m_server.alive hdl then [.send hdl message.toDataProviderMessage] else [])
      | none => none
  | _ => none

def step (s : State D) (action : Action) : Option (State D × List (Output D)) :=
  match action with
  | .connected => some (onConnection s, [])
  | .disconnected hdl => if s.m_server.alive hdl then some ({ s with m_server := s.m_server.drop hdl }, []) else none
  | .message hdl _ => if s.m_server.alive hdl then some (s, []) else none
  | .start task => (startTask s task).map fun t => (t, [])
  | .update task now => (updateTask s task now).map fun t => (t, [])
  | .send task => sendTask s task

def provider : Library.System (State D) Action (List (Output D)) := ⟨step⟩

inductive Transition (s : State D) : Action → State D → List (Output D) → Prop where
  | connected : Transition s .connected (onConnection s) []
  | disconnected (hdl : Hdl) (alive : s.m_server.alive hdl = true) :
      Transition s (.disconnected hdl) { s with m_server := s.m_server.drop hdl } []
  | printed (hdl : Hdl) (payload : Text) : Transition s (.message hdl payload) s []
  | started (i : Nat) (hdl : Hdl) (found : s.m_sendFutures[i]? = some ⟨hdl, .launched⟩) :
      Transition s (.start i) (s.setTask i ⟨hdl, if s.m_server.alive hdl then s.first else .broken⟩) []
  | updated (i : Nat) (now : Int64) (hdl : Hdl) (iteration index : Nat)
      (found : s.m_sendFutures[i]? = some ⟨hdl, .updating iteration index⟩) :
      Transition s (.update i now)
        { s.setTask i ⟨hdl, .sending iteration index⟩ with
          m_messages := s.m_messages.modify index fun message => message.updateTimestamp now } []
  | sent (i : Nat) (hdl : Hdl) (iteration index : Nat) (message : TimedMessage D)
      (found : s.m_sendFutures[i]? = some ⟨hdl, .sending iteration index⟩)
      (here : s.m_messages[index]? = some message) :
      Transition s (.send i) (s.setTask i ⟨hdl, s.next iteration index⟩)
        (if s.m_server.alive hdl then [.send hdl message.toDataProviderMessage] else [])

theorem step_transition (s t : State D) (action : Action) (out : List (Output D)) (taken : step s action = some (t, out)) :
    Transition s action t out := by
  cases action with
  | connected =>
      cases taken
      exact .connected
  | disconnected hdl =>
      obtain ⟨alive, same⟩ := Option.ite_none_right_eq_some.mp taken
      cases same
      exact .disconnected hdl alive
  | message hdl payload =>
      obtain ⟨_, same⟩ := Option.ite_none_right_eq_some.mp taken
      cases same
      exact .printed hdl payload
  | start i =>
      obtain ⟨next, started, same⟩ := Option.map_eq_some_iff.mp taken
      cases same
      dsimp only [startTask] at started
      split at started
      · rename_i hdl found
        cases started
        exact .started i hdl found
      · cases started
  | update i now =>
      obtain ⟨next, updated, same⟩ := Option.map_eq_some_iff.mp taken
      cases same
      dsimp only [updateTask] at updated
      split at updated
      · rename_i hdl iteration index found
        cases updated
        exact .updated i now hdl iteration index found
      · cases updated
  | send i =>
      dsimp only [step, sendTask] at taken
      split at taken
      · rename_i hdl iteration index found
        split at taken
        · rename_i message here
          cases taken
          exact .sent i hdl iteration index message found here
        · cases taken
      · cases taken

end TradingFeed.DataProvider
