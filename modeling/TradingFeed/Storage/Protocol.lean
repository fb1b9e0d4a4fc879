import TradingFeed.Common.PartialReads
import TradingFeed.Storage.Server

set_option autoImplicit false

namespace TradingFeed.Storage

open TradingFeed.Json TradingFeed.Common

variable {D : Type}

inductive Handler where
  | handleGetSymbols
  | handleGetSymbolById (id : Text)
  | handleGetPrices
  | handleGetPriceById (id : Text)
  | handleDeletePrices
  | handlePostPrice (id : Text)
deriving DecidableEq

def Handler.symbolId : Handler → Option Text
  | .handleGetSymbolById id | .handleGetPriceById id | .handlePostPrice id => some id
  | .handleGetSymbols | .handleGetPrices | .handleDeletePrices => none

def dispatch (reqMethod req : Text) : Option Handler :=
  if reqMethod = "GET".toList ∧ req = "/api/symbols".toList then some .handleGetSymbols
  else if reqMethod = "GET".toList ∧ req.take 13 = "/api/symbols/".toList then some (.handleGetSymbolById (req.drop 13))
  else if reqMethod = "GET".toList ∧ req = "/api/prices".toList then some .handleGetPrices
  else if reqMethod = "GET".toList ∧ req.take 12 = "/api/prices/".toList then some (.handleGetPriceById (req.drop 12))
  else if reqMethod = "DELETE".toList ∧ req = "/api/prices".toList then some .handleDeletePrices
  else if reqMethod = "POST".toList ∧ req.take 12 = "/api/prices/".toList then some (.handlePostPrice (req.drop 12))
  else none

def Handler.run (fp : Doubles D) (s : State D) (body : Text) : Handler → Except Thrown (State D × Response)
  | .handleGetSymbols => .ok (s, Storage.handleGetSymbols fp)
  | .handleGetSymbolById id => .ok (s, Storage.handleGetSymbolById fp ("/api/symbols/".toList ++ id))
  | .handleGetPrices => .ok (s, Storage.handleGetPrices fp s)
  | .handleGetPriceById id => .ok (s, Storage.handleGetPriceById fp s ("/api/prices/".toList ++ id))
  | .handleDeletePrices => .ok (Storage.handleDeletePrices s)
  | .handlePostPrice id => Storage.handlePostPrice fp s ("/api/prices/".toList ++ id) body

theorem on_http_dispatch (fp : Doubles D) (s : State D) (request : Request) :
    onHttp fp s request =
      match dispatch request.method request.uri with
      | some handler => handler.run fp s request.body
      | none => .ok (s, .unset) := by
  dsimp only [onHttp, dispatch]
  split
  · rfl
  split
  · rename_i route
    dsimp only [Handler.run]
    rw [← route.2, List.take_append_drop]
  split
  · rfl
  split
  · rename_i route
    dsimp only [Handler.run]
    rw [← route.2, List.take_append_drop]
  split
  · rfl
  split
  · rename_i route
    dsimp only [Handler.run]
    rw [← route.2, List.take_append_drop]
  · rfl

inductive Call where
  | getSymbol (symbolId : Text)
  | postSymbol (symbolId : Text)
  | deleteAllPrices

namespace Call

def type : Call → Text
  | .getSymbol _ => "GET".toList
  | .postSymbol _ => "POST".toList
  | .deleteAllPrices => "DELETE".toList

def path : Call → Text
  | .getSymbol symbolId | .postSymbol symbolId => "/api/symbols/".toList ++ symbolId
  | .deleteAllPrices => "/api/prices".toList

def symbolId : Call → Option Text
  | .getSymbol symbolId | .postSymbol symbolId => some symbolId
  | .deleteAllPrices => none

def text (m_baseUrl : Text) (call : Call) : Text := requestText m_baseUrl call.type call.path []

def send (exchange : Text → Option Text) (m_baseUrl : Text) (call : Call) : Bool × Text :=
  sendRequest exchange m_baseUrl call.type call.path [] []

theorem send_result (exchange : Text → Option Text) (m_baseUrl : Text) (call : Call) :
    (call.send exchange m_baseUrl).2 =
      match call with
      | .getSymbol symbolId => Common.getSymbol exchange m_baseUrl symbolId
      | .postSymbol symbolId => Common.postSymbol exchange m_baseUrl symbolId
      | .deleteAllPrices => Common.deleteAllPrices exchange m_baseUrl := by
  cases call with
  | getSymbol symbolId => rfl
  | postSymbol symbolId => rfl
  | deleteAllPrices => rfl

end Call

def pchar (c : Char) : Bool := c.isAlphanum || "-._~!$&'()*+,;=:@".toList.contains c

-- Method and URI as they are written: the first line of the request cut at its spaces.
def requestLine (text : Text) : Option (Text × Text) := do
  let line := text.take (← Library.find "\r\n".toList text)
  let methodEnd ← line.findIdx? (· = ' ')
  let rest := line.drop (methodEnd + 1)
  let uriEnd ← rest.findIdx? (· = ' ')
  some (line.take methodEnd, rest.take uriEnd)

def statusCode : Option StatusCode → Nat
  | some .ok => 200
  | some .not_found => 404
  | some .internal_server_error | none => 500

-- What lies between the two ends: the request that websocketpp gives to the server,
-- the response it writes, and what one read_some of the client returns of that.
-- Where no handler has set a status, websocketpp sets 500. A read returns at least
-- version and code of the status line.
structure Wire where
  passes : Text → Option Request
  writes : Response → HttpResponse
  reads : Text → Text
  answers : ∀ response, (writes response).status = statusCode response.status
  front : ∀ response : HttpResponse, reads response.text <+: response.text ∧ 12 ≤ (reads response.text).length

def Wire.exchange (wire : Wire) (fp : Doubles D) (s : State D) (text : Text) : Option Text :=
  (wire.passes text).bind fun request =>
    (onHttp fp s request).toOption.map fun answer => wire.reads (wire.writes answer.2).text

structure Agrees (wire : Wire) (fp : Doubles D) (s : State D) (m_baseUrl : Text) (call : Call) : Prop where
  dispatched : ∃ request handler, wire.passes (call.text m_baseUrl) = some request ∧
    dispatch request.method request.uri = some handler ∧ handler.symbolId = call.symbolId ∧
      ∃ t response, onHttp fp s request = .ok (t, response) ∧ response.status.isSome = true
  succeeds : (∀ id, call.symbolId = some id → id ∈ symbols) → (call.send (wire.exchange fp s) m_baseUrl).1 = true

theorem outside_append (kind : Char → Bool) (front text : Text) (d : Char) (all : ∀ c ∈ text, kind c = true)
    (other : kind d = false) (outside : d ∉ front) : d ∉ front ++ text := by
  intro member
  cases List.mem_append.mp member with
  | inl before => exact outside before
  | inr inside =>
      rw [all d inside] at other
      cases other

theorem find_space (front rest : Text) (plain : ' ' ∉ front) :
    (front ++ ' ' :: rest).findIdx? (fun c => decide (c = ' ')) = some front.length := by
  induction front with
  | nil => rfl
  | cons c front ih =>
      have other : decide (c = ' ') = false := decide_eq_false (List.ne_of_not_mem_cons plain).symm
      rw [List.cons_append, List.findIdx?_cons, other, ih (List.not_mem_of_not_mem_cons plain)]
      rfl

theorem request_line_split (method uri version rest : Text) (plainMethod : ' ' ∉ method ∧ '\r' ∉ method)
    (plainUri : ' ' ∉ uri ∧ '\r' ∉ uri) (plainVersion : '\r' ∉ version) :
    requestLine (method ++ ' ' :: (uri ++ ' ' :: version) ++ '\r' :: '\n' :: rest) = some (method, uri) := by
  have plain : '\r' ∉ method ++ ' ' :: (uri ++ ' ' :: version) := by
    have space : '\r' ≠ ' ' := by decide
    simp only [List.mem_append, List.mem_cons, not_or]
    exact ⟨plainMethod.2, space, plainUri.2, space, plainVersion⟩
  have here : Library.find ['\r', '\n'] ('\r' :: '\n' :: rest) = some 0 := Library.find_here ['\r', '\n'] rest
  have line : Library.find "\r\n".toList (method ++ ' ' :: (uri ++ ' ' :: version) ++ '\r' :: '\n' :: rest) =
      some (method ++ ' ' :: (uri ++ ' ' :: version)).length := by
    rw [show "\r\n".toList = ['\r', '\n'] from rfl, Library.find_front '\r' _ _ _ plain, here, Option.map_some, Nat.zero_add]
  have behind : (method ++ ' ' :: (uri ++ ' ' :: version)).drop (method.length + 1) = uri ++ ' ' :: version := by
    rw [← List.drop_drop, List.drop_left, List.drop_succ_cons, List.drop_zero]
  dsimp only [requestLine]
  simp only [line, Option.bind_eq_bind, Option.bind_some, List.take_left, find_space method _ plainMethod.1, behind,
    find_space uri _ plainUri.1]

namespace Call

variable (call : Call)

def Plain (call : Call) : Prop := ∀ symbolId, call.symbolId = some symbolId → ∀ c ∈ symbolId, pchar c = true

theorem type_plain : ' ' ∉ call.type ∧ '\r' ∉ call.type := by
  cases call with
  | getSymbol symbolId =>
      change ' ' ∉ "GET".toList ∧ '\r' ∉ "GET".toList
      decide
  | postSymbol symbolId =>
      change ' ' ∉ "POST".toList ∧ '\r' ∉ "POST".toList
      decide
  | deleteAllPrices =>
      change ' ' ∉ "DELETE".toList ∧ '\r' ∉ "DELETE".toList
      decide

theorem segment_plain (segment : Text) (plain : ∀ c ∈ segment, pchar c = true) :
    ' ' ∉ "/api/symbols/".toList ++ segment ∧ '\r' ∉ "/api/symbols/".toList ++ segment :=
  ⟨outside_append pchar _ segment ' ' plain (by decide) (by decide),
    outside_append pchar _ segment '\r' plain (by decide) (by decide)⟩

theorem path_plain (plain : call.Plain) : ' ' ∉ call.path ∧ '\r' ∉ call.path := by
  cases call with
  | getSymbol symbolId => exact segment_plain symbolId (plain symbolId rfl)
  | postSymbol symbolId => exact segment_plain symbolId (plain symbolId rfl)
  | deleteAllPrices => exact ⟨by decide, by decide⟩

theorem text_line (m_baseUrl : Text) (plain : call.Plain) :
    requestLine (call.text m_baseUrl) = some (call.type, call.path) := by
  have split := request_line_split call.type call.path "HTTP/1.1".toList ("Host: ".toList ++ m_baseUrl ++ "\r\n\r\n".toList)
    call.type_plain (call.path_plain plain) (by decide)
  have written : call.text m_baseUrl = call.type ++ ' ' :: (call.path ++ ' ' :: "HTTP/1.1".toList) ++
      '\r' :: '\n' :: ("Host: ".toList ++ m_baseUrl ++ "\r\n\r\n".toList) := by
    have start : " HTTP/1.1\r\nHost: ".toList = ' ' :: "HTTP/1.1".toList ++ '\r' :: '\n' :: "Host: ".toList := rfl
    dsimp only [text, requestText]
    rw [if_neg (fun filled => filled rfl), start, List.append_nil, show " ".toList = [' '] from rfl]
    simp only [List.append_assoc, List.cons_append, List.nil_append]
  rw [written, split]

end Call

theorem symbols_segment (symbolId : Text) : ("/api/symbols/".toList ++ symbolId).drop 13 = symbolId := List.drop_left' rfl

theorem dispatch_get (symbolId : Text) :
    dispatch "GET".toList ("/api/symbols/".toList ++ symbolId) = some (.handleGetSymbolById symbolId) := by
  have front : ("/api/symbols/".toList ++ symbolId).take 13 = "/api/symbols/".toList := List.take_left' rfl
  have longer : "/api/symbols/".toList ++ symbolId ≠ "/api/symbols".toList := by
    intro same
    have length := congrArg List.length same
    have front : "/api/symbols/".toList.length = 13 := rfl
    have whole : "/api/symbols".toList.length = 12 := rfl
    rw [List.length_append, front, whole] at length
    omega
  rw [dispatch, if_neg (fun both => longer both.2), if_pos ⟨rfl, front⟩, symbols_segment]

theorem dispatch_post (symbolId : Text) : dispatch "POST".toList ("/api/symbols/".toList ++ symbolId) = none := by
  have get : "POST".toList ≠ "GET".toList := by decide
  have delete : "POST".toList ≠ "DELETE".toList := by decide
  have front : ("/api/symbols/".toList ++ symbolId).take 12 ≠ "/api/prices/".toList := by
    rw [List.take_append_of_le_length (by decide)]
    decide
  rw [dispatch, if_neg (fun both => get both.1), if_neg (fun both => get both.1), if_neg (fun both => get both.1),
    if_neg (fun both => get both.1), if_neg (fun both => delete both.1), if_neg (fun both => front both.2)]

theorem dispatch_delete : dispatch "DELETE".toList "/api/prices".toList = some .handleDeletePrices := by decide

theorem get_symbol_found (fp : Doubles D) (symbolId : Text) :
    (handleGetSymbolById fp ("/api/symbols/".toList ++ symbolId)).status =
      if symbolId ∈ symbols then some .ok else some .not_found := by
  dsimp only [handleGetSymbolById]
  rw [symbols_segment]
  by_cases known : symbolId ∈ symbols
  · obtain ⟨symbol, found⟩ := Option.isSome_iff_exists.mp (Std.TreeMap.mem_iff_isSome_getElem?.mp known)
    rw [if_pos known, found]
    rfl
  · rw [if_neg known, Std.TreeMap.getElem?_eq_none known]
    rfl

section

variable (wire : Wire) (fp : Doubles D) (s : State D) (m_baseUrl : Text) (call : Call)

theorem exchange_succeeds (request : Request) (t : State D) (response : Response)
    (passed : wire.passes (call.text m_baseUrl) = some request) (answered : onHttp fp s request = .ok (t, response))
    (ok : response.status = some .ok) : (call.send (wire.exchange fp s) m_baseUrl).1 = true := by
  have code : (wire.writes response).status = 200 := by
    rw [wire.answers, ok]
    rfl
  have read : wire.exchange fp s (call.text m_baseUrl) = some (wire.reads (wire.writes response).text) := by
    rw [Wire.exchange, passed, Option.bind_some, answered]
    rfl
  obtain ⟨front, long⟩ := wire.front (wire.writes response)
  exact send_request_ok (wire.exchange fp s) m_baseUrl call.type call.path [] [] _ (wire.writes response) front long code read

theorem passed_request (plain : call.Plain)
    (asWritten : (wire.passes (call.text m_baseUrl)).map (fun request => (request.method, request.uri)) =
      requestLine (call.text m_baseUrl)) :
    ∃ body, wire.passes (call.text m_baseUrl) = some ⟨call.type, call.path, body⟩ := by
  rw [call.text_line m_baseUrl plain] at asWritten
  obtain ⟨request, passed, line⟩ := Option.map_eq_some_iff.mp asWritten
  obtain ⟨method, uri⟩ := Prod.mk.inj line
  exact ⟨request.body, by rw [passed, ← method, ← uri]⟩

theorem call_agrees_iff (plain : call.Plain)
    (asWritten : (wire.passes (call.text m_baseUrl)).map (fun request => (request.method, request.uri)) =
      requestLine (call.text m_baseUrl)) :
    Agrees wire fp s m_baseUrl call ↔ ∀ symbolId, call ≠ .postSymbol symbolId := by
  obtain ⟨body, passed⟩ := passed_request wire m_baseUrl call plain asWritten
  have answer := on_http_dispatch fp s ⟨call.type, call.path, body⟩
  cases call with
  | getSymbol symbolId =>
      have route : dispatch (Call.getSymbol symbolId).type (Call.getSymbol symbolId).path =
          some (.handleGetSymbolById symbolId) := dispatch_get symbolId
      simp only [route] at answer
      have status := get_symbol_found fp symbolId
      refine ⟨fun _ _ same => Call.noConfusion same, fun _ => ⟨⟨_, _, passed, route, rfl, _, _, answer, ?_⟩, fun known => ?_⟩⟩
      · rw [status]
        split <;> rfl
      · rw [if_pos (known symbolId rfl)] at status
        exact exchange_succeeds wire fp s m_baseUrl _ _ _ _ passed answer status
  | postSymbol symbolId =>
      have route : dispatch (Call.postSymbol symbolId).type (Call.postSymbol symbolId).path = none := dispatch_post symbolId
      refine ⟨fun agrees => ?_, fun other => absurd rfl (other symbolId)⟩
      obtain ⟨request, handler, found, handled, _⟩ := agrees.dispatched
      cases found.symm.trans passed
      exact absurd (handled.symm.trans route) (Option.some_ne_none handler)
  | deleteAllPrices =>
      have route : dispatch Call.deleteAllPrices.type Call.deleteAllPrices.path = some .handleDeletePrices := dispatch_delete
      simp only [route] at answer
      exact ⟨fun _ _ same => Call.noConfusion same, fun _ => ⟨⟨_, _, passed, route, rfl, _, _, answer, rfl⟩, fun _ =>
        exchange_succeeds wire fp s m_baseUrl _ _ _ _ passed answer rfl⟩⟩

end

-- What websocketpp writes where the reason phrase is that of the status code.
def codeText : Option StatusCode → Text
  | some .ok => "200".toList
  | some .not_found => "404".toList
  | some .internal_server_error | none => "500".toList

def phrase : Option StatusCode → Text
  | some .ok => "OK".toList
  | some .not_found => "Not Found".toList
  | some .internal_server_error | none => "Internal Server Error".toList

def headers : Text → List Text
  | [] => ["Server: WebSocket++/0.8.2".toList]
  | body => ["Content-Length: ".toList ++ Nat.toDigits 10 body.length, "Server: WebSocket++/0.8.2".toList]

theorem code_digits (status : Option StatusCode) :
    (codeText status).length = 3 ∧ (codeText status).all Char.isDigit = true ∧
      digitsValue (codeText status) = statusCode status := by
  match status with
  | some .ok => decide
  | some .not_found => decide
  | some .internal_server_error => decide
  | none => decide

theorem phrase_plain (status : Option StatusCode) : '\r' ∉ phrase status ∧ '\n' ∉ phrase status := by
  match status with
  | some .ok => decide
  | some .not_found => decide
  | some .internal_server_error => decide
  | none => decide

theorem headers_plain (body header : Text) (member : header ∈ headers body) :
    header ≠ [] ∧ '\r' ∉ header ∧ '\n' ∉ header := by
  have server : ∀ header ∈ ["Server: WebSocket++/0.8.2".toList], header ≠ [] ∧ '\r' ∉ header ∧ '\n' ∉ header := by decide
  cases body with
  | nil => exact server header member
  | cons c body =>
      cases List.mem_cons.mp member with
      | inr last => exact server header last
      | inl first =>
          have start : "Content-Length: ".toList ≠ [] ∧ '\r' ∉ "Content-Length: ".toList ∧
              '\n' ∉ "Content-Length: ".toList := by
            decide
          have digit : ∀ d ∈ Nat.toDigits 10 (c :: body).length, d.isDigit = true := fun d inside =>
            shown_digit _ _ inside
          rw [first]
          exact ⟨fun empty => start.1 (List.append_eq_nil_iff.mp empty).1,
            outside_append Char.isDigit _ _ '\r' digit (by decide) start.2.1,
            outside_append Char.isDigit _ _ '\n' digit (by decide) start.2.2⟩

def websocketpp : Wire where
  passes := fun text => (requestLine text).map fun line => ⟨line.1, line.2, []⟩
  writes := fun response => {
    code := codeText response.status
    reason := phrase response.status
    headers := headers response.body
    body := response.body
    digits := ⟨(code_digits response.status).1, List.all_eq_true.mp (code_digits response.status).2.1⟩
    phrase := phrase_plain response.status
    fields := headers_plain response.body }
  reads := fun text => text
  answers := fun response => (code_digits response.status).2.2
  front := fun response => ⟨List.prefix_refl _, Nat.le_trans (Nat.le_trans (by decide) response.head_long)
    (Nat.le_trans (Nat.le_add_right _ 2) response.blank_inside)⟩

theorem written_line (text : Text) :
    (websocketpp.passes text).map (fun request => (request.method, request.uri)) = requestLine text := by
  dsimp only [websocketpp]
  rw [Option.map_map]
  exact Option.map_id_apply

def amazon : Text := "9e8bff74-50cd-4d80-900c-b5ce3bf371ee".toList

theorem call_agrees_iff_amazon :
    Agrees websocketpp Doubles.micro State.init "http://127.0.0.1:3000".toList (.getSymbol amazon) ↔
      ∀ symbolId, Call.getSymbol amazon ≠ .postSymbol symbolId :=
  call_agrees_iff websocketpp Doubles.micro State.init "http://127.0.0.1:3000".toList (.getSymbol amazon)
    (fun symbolId given => by cases given; exact List.all_eq_true.mp (by decide)) (written_line _)

-- The symbol is known, but no handler takes the POST, and the client reads 500.
theorem post_symbol_unrouted :
    amazon ∈ symbols ∧ ¬Agrees websocketpp Doubles.micro State.init "http://127.0.0.1:3000".toList (.postSymbol amazon) ∧
      ((Call.postSymbol amazon).send (websocketpp.exchange Doubles.micro State.init) "http://127.0.0.1:3000".toList).1 =
        false := by
  refine ⟨by decide +kernel, fun agrees => ?_, by decide +kernel⟩
  have plain : (Call.postSymbol amazon).Plain := fun symbolId given => by cases given; exact List.all_eq_true.mp (by decide)
  obtain ⟨body, passed⟩ := passed_request websocketpp "http://127.0.0.1:3000".toList _ plain (written_line _)
  obtain ⟨request, handler, found, handled, _⟩ := agrees.dispatched
  cases found.symm.trans passed
  exact absurd (handled.symm.trans (dispatch_post amazon)) (Option.some_ne_none handler)

end TradingFeed.Storage
