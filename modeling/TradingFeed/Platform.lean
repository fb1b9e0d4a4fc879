import TradingFeed.Json.Numbers
import TradingFeed.Sockets.EndPoint

set_option autoImplicit false

namespace TradingFeed

open TradingFeed.Json TradingFeed.Sockets

-- What the two servers take from outside: doubles, and which host texts
-- client::get_connection accepts as a URI.
structure Platform (D : Type) where
  fp : Doubles D
  acceptsUri : Text → Bool

-- A platform whose doubles are integers, for runs on texts without a decimal
-- point or an exponent; it accepts the URIs of the form the source connects to.
def Platform.plain : Platform Int where
  fp := ⟨0, id, fun n => 10 ^ n.toNat, (· * ·), fun _ => .ok 0, showInt, fun _ _ raised => by cases raised⟩
  acceptsUri := fun host => host.take 5 = "ws://".toList

variable {D : Type}

def loadText (p : Platform D) (text : Text) : Except Fault (JSON D) :=
  match load p.fp text with
  | .ok json => .ok json
  | .error fault => .error (.load fault)

-- What handleError of either server prints.
def statusObject (status message : Text) : JSON D :=
  let response : JSON D := (JSON.object []).assign "status".toList (.string status)
  if message = [] then response else response.assign "message".toList (.string message)

theorem load_text_ok (p : Platform D) (text : Text) (json : JSON D) :
    loadText p text = .ok json ↔ load p.fp text = .ok json := by
  unfold loadText
  cases load p.fp text with
  | ok other => simp
  | error fault => simp

end TradingFeed
