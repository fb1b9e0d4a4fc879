import TradingFeed.Common.Price
import TradingFeed.Library.Runs
import Std.Data.TreeMap

set_option autoImplicit false

namespace TradingFeed.Storage

open TradingFeed.Json TradingFeed.Common

variable {D : Type}

def createSymbolMapObject (symbol : Symbol) : Text × Symbol := (symbol.m_id, symbol)

def symbols : Std.TreeMap Text Symbol := .ofList [
  createSymbolMapObject ⟨"a631dc6c-ee85-458d-80d7-50018aedfbad".toList, "TSLA".toList⟩,
  createSymbolMapObject ⟨"7f00cfc3-aa6c-414c-8d25-15997c2a0522".toList, "PLTR".toList⟩,
  createSymbolMapObject ⟨"298932f7-74ea-4404-b544-3551289d8135".toList, "NIO".toList⟩,
  createSymbolMapObject ⟨"531532e1-e27b-4aec-bf7d-92d5b20645af".toList, "PFE".toList⟩,
  createSymbolMapObject ⟨"9e8bff74-50cd-4d80-900c-b5ce3bf371ee".toList, "AMZN".toList⟩,
  createSymbolMapObject ⟨"629500dd-a8a7-474f-9444-e55340fb639e".toList, "AMD".toList⟩,
  createSymbolMapObject ⟨"dd28e4b7-d20d-4d33-b76d-4f96440bfcaf".toList, "AAPL".toList⟩,
  createSymbolMapObject ⟨"256c6786-5198-4d11-951b-3cea4e5e6af4".toList, "NVDA".toList⟩,
  createSymbolMapObject ⟨"8805a3e0-9c32-4179-8171-7eebf3c240c4".toList, "GOOGL".toList⟩,
  createSymbolMapObject ⟨"83e29024-0666-412d-b17e-e1b2745230ef".toList, "BAC".toList⟩,
  createSymbolMapObject ⟨"b102925f-c37a-4adc-b89b-ba68e085b1e8".toList, "AAL".toList⟩,
  createSymbolMapObject ⟨"257f9954-bd82-443d-8c6c-3ba81470f76c".toList, "META".toList⟩,
  createSymbolMapObject ⟨"ce38cfe2-dd68-406d-b6e9-adf79b449c15".toList, "UBER".toList⟩]

structure Request where
  method : Text
  uri : Text
  body : Text

inductive StatusCode where
  | ok
  | not_found
  | internal_server_error
deriving DecidableEq

inductive Reason where
  | standard
  | text (reason : Text)
  | what (fault : LoadFault)
deriving DecidableEq

-- The response that a handler leaves to websocketpp; at first it has no status.
structure Response where
  status : Option StatusCode
  reason : Reason
  body : Text
deriving DecidableEq

def Response.unset : Response := ⟨none, .standard, []⟩

def Response.set_status (response : Response) (code : StatusCode) (reason : Reason) : Response :=
  { response with status := some code, reason := reason }

def Response.set_body (response : Response) (body : Text) : Response := { response with body := body }

structure State (D : Type) where
  m_prices : Std.TreeMap Text (Price D)

def State.init : State D := ⟨∅⟩

def handleGetSymbols (fp : Doubles D) : Response :=
  let obj : JSON D := symbols.toList.foldl (fun obj entry => obj.append entry.2.toJsonObject) (.array [])
  (Response.unset.set_body (obj.dump fp)).set_status .ok .standard

def handleGetSymbolById (fp : Doubles D) (req : Text) : Response :=
  match symbols[req.drop 13]? with
  | some symbol => (Response.unset.set_body (symbol.toJson fp)).set_status .ok .standard
  | none => Response.unset.set_status .not_found .standard

def handleGetPrices (fp : Doubles D) (s : State D) : Response :=
  let obj : JSON D := s.m_prices.toList.foldl (fun obj entry => obj.append entry.2.toJsonObject) (.array [])
  (Response.unset.set_body (obj.dump fp)).set_status .ok .standard

def handleGetPriceById (fp : Doubles D) (s : State D) (req : Text) : Response :=
  match symbols[req.drop 12]? with
  | none => Response.unset.set_status .not_found (.text "symbol not found".toList)
  | some _ =>
      match s.m_prices[req.drop 12]? with
      | none => Response.unset.set_status .not_found (.text "price not found".toList)
      | some price => (Response.unset.set_body (price.toJson fp)).set_status .ok .standard

def handleDeletePrices (s : State D) : State D × Response :=
  ({ s with m_prices := ∅ }, Response.unset.set_status .ok .standard)

-- Only what is a std::exception is caught. Reading behind the end of the text has
-- no defined result, and the literal that fromJson throws ends the program.
def handlePostPrice (fp : Doubles D) (s : State D) (req body : Text) : Except Thrown (State D × Response) :=
  let id := req.drop 12
  match symbols[id]? with
  | none => .ok (s, Response.unset.set_status .not_found (.text "symbol not found".toList))
  | some symbol =>
      match Price.fromJson fp body with
      | .ok read =>
          let price := { read with m_symbol := id, m_symbolName := symbol.m_name }
          .ok ({ s with m_prices := s.m_prices.insert price.m_symbol price }, Response.unset.set_status .ok .standard)
      | .error (.load .invalidArgument) =>
          .ok (s, Response.unset.set_status .internal_server_error (.what .invalidArgument))
      | .error (.load .outOfRange) =>
          .ok (s, Response.unset.set_status .internal_server_error (.what .outOfRange))
      | .error thrown => .error thrown

def onHttp (fp : Doubles D) (s : State D) (request : Request) : Except Thrown (State D × Response) :=
  let reqMethod := request.method
  let req := request.uri
  if reqMethod = "GET".toList ∧ req = "/api/symbols".toList then .ok (s, handleGetSymbols fp)
  else if reqMethod = "GET".toList ∧ req.take 13 = "/api/symbols/".toList then .ok (s, handleGetSymbolById fp req)
  else if reqMethod = "GET".toList ∧ req = "/api/prices".toList then .ok (s, handleGetPrices fp s)
  else if reqMethod = "GET".toList ∧ req.take 12 = "/api/prices/".toList then .ok (s, handleGetPriceById fp s req)
  else if reqMethod = "DELETE".toList ∧ req = "/api/prices".toList then .ok (handleDeletePrices s)
  else if reqMethod = "POST".toList ∧ req.take 12 = "/api/prices/".toList then handlePostPrice fp s req request.body
  else .ok (s, .unset)

-- A run ends where something is thrown through the server.
def storage (fp : Doubles D) : Library.System (State D) Request Response := ⟨fun s request => (onHttp fp s request).toOption⟩

example : symbols.size = 13 := by decide +kernel

section

variable (fp : Doubles D) (s : State D) (req body : Text)

theorem post_unknown (absent : symbols[req.drop 12]? = none) :
    handlePostPrice fp s req body = .ok (s, Response.unset.set_status .not_found (.text "symbol not found".toList)) := by
  rw [handlePostPrice, absent]

theorem post_read (symbol : Symbol) (read : Price D) (known : symbols[req.drop 12]? = some symbol)
    (parsed : Price.fromJson fp body = .ok read) :
    handlePostPrice fp s req body =
      .ok (⟨s.m_prices.insert (req.drop 12) { read with m_symbol := req.drop 12, m_symbolName := symbol.m_name }⟩,
        Response.unset.set_status .ok .standard) := by
  rw [handlePostPrice, known, parsed]

theorem post_caught (symbol : Symbol) (fault : LoadFault) (known : symbols[req.drop 12]? = some symbol)
    (caught : fault = .invalidArgument ∨ fault = .outOfRange) (raised : Price.fromJson fp body = .error (.load fault)) :
    handlePostPrice fp s req body = .ok (s, Response.unset.set_status .internal_server_error (.what fault)) := by
  rw [handlePostPrice, known, raised]
  cases caught with
  | inl invalid => rw [invalid]
  | inr range => rw [range]

theorem post_escapes (symbol : Symbol) (text : Text) (known : symbols[req.drop 12]? = some symbol)
    (thrown : Price.fromJson fp body = .error (.literal text)) : handlePostPrice fp s req body = .error (.literal text) := by
  rw [handlePostPrice, known, thrown]

end

end TradingFeed.Storage
