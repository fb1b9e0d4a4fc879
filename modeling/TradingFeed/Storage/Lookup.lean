import TradingFeed.Storage.Protocol

set_option autoImplicit false

namespace TradingFeed.Storage

open TradingFeed.Json TradingFeed.Common

variable {D : Type}

theorem symbol_restored (fp : Doubles D) (symbol : Symbol) :
    Symbol.fromJson fp (symbol.toJson fp) = .ok ⟨jsonEscape symbol.m_id, jsonEscape symbol.m_name⟩ := by
  have printable : Printable fp (symbol.toJsonObject : JSON D) := ⟨rfl, trivial, rfl, trivial, trivial⟩
  have loaded := load_dump fp symbol.toJsonObject printable fun number => number
  have object : reloaded fp (symbol.toJsonObject : JSON D) = .object [("id".toList, .string symbol.m_id),
      ("symbolName".toList, .string symbol.m_name)] := rfl
  rw [object] at loaded
  simp only [Symbol.fromJson, Symbol.toJson, loaded]
  rfl

theorem symbol_unescaped (id : Text) (symbol : Symbol) (known : symbols[id]? = some symbol) :
    jsonEscape symbol.m_id = symbol.m_id ∧ jsonEscape symbol.m_name = symbol.m_name := by
  have all : (symbols.toList.all fun entry =>
      decide (jsonEscape entry.2.m_id = entry.2.m_id ∧ jsonEscape entry.2.m_name = entry.2.m_name)) = true := by
    decide +kernel
  exact of_decide_eq_true (List.all_eq_true.mp all (id, symbol) (Std.TreeMap.mem_toList_iff_getElem?_eq_some.mpr known))

-- A wire on which a response of the handlers arrives with one read_some.
structure Wire.Whole (wire : Wire) (response : Response) : Prop where
  body : (wire.writes response).body = response.body
  read : wire.reads (wire.writes response).text = (wire.writes response).text
  room : (wire.writes response).text.length ≤ 4096

theorem whole_answer (wire : Wire) (fp : Doubles D) (s t : State D) (m_baseUrl : Text) (call : Call) (request : Request)
    (response : Response) (passed : wire.passes (call.text m_baseUrl) = some request)
    (answered : onHttp fp s request = .ok (t, response)) (whole : wire.Whole response) :
    (call.send (wire.exchange fp s) m_baseUrl).2 = if response.status = some .ok then response.body else [] := by
  have read : wire.exchange fp s (call.text m_baseUrl) = some (wire.writes response).text := by
    rw [Wire.exchange, passed, Option.bind_some, answered]
    exact congrArg some whole.read
  have long : 12 ≤ (wire.writes response).text.length :=
    Nat.le_trans (Nat.le_trans (by decide) (wire.writes response).head_long)
      (Nat.le_trans (Nat.le_add_right _ 2) (wire.writes response).blank_inside)
  have part := (wire.writes response).read_part _ (List.prefix_refl _) whole.room long
  rw [wire.answers, if_pos (wire.writes response).blank_inside,
    ((wire.writes response).body_read _ (List.prefix_refl _) (wire.writes response).blank_inside).mpr rfl, whole.body] at part
  rw [Call.send, send_request_read _ _ _ _ _ _ _ whole.room read, part]
  cases status : response.status with
  | none => rfl
  | some code => cases code <;> rfl

theorem symbol_response (fp : Doubles D) (symbolId : Text) :
    handleGetSymbolById fp ("/api/symbols/".toList ++ symbolId) =
      ((symbols[symbolId]?).map fun symbol => (Response.unset.set_body (symbol.toJson fp)).set_status .ok .standard).getD
        (Response.unset.set_status .not_found .standard) := by
  dsimp only [handleGetSymbolById]
  rw [symbols_segment]
  cases symbols[symbolId]? with
  | none => rfl
  | some symbol => rfl

theorem get_symbol_answer (fp : Doubles D) (symbolId : Text) :
    (if (handleGetSymbolById fp ("/api/symbols/".toList ++ symbolId)).status = some .ok then
        (handleGetSymbolById fp ("/api/symbols/".toList ++ symbolId)).body
      else []) = ((symbols[symbolId]?).map fun symbol => symbol.toJson fp).getD [] := by
  rw [symbol_response]
  cases symbols[symbolId]? with
  | none => rfl
  | some symbol => rfl

theorem symbol_looked_up (wire : Wire) (fp : Doubles D) (s : State D) (m_baseUrl symbolId : Text)
    (plain : (Call.getSymbol symbolId).Plain)
    (asWritten : (wire.passes ((Call.getSymbol symbolId).text m_baseUrl)).map (fun request => (request.method, request.uri)) =
      requestLine ((Call.getSymbol symbolId).text m_baseUrl))
    (whole : wire.Whole (handleGetSymbolById fp ("/api/symbols/".toList ++ symbolId))) :
    getSymbol (wire.exchange fp s) m_baseUrl symbolId = ((symbols[symbolId]?).map fun symbol => symbol.toJson fp).getD [] ∧
      ∀ symbol, symbols[symbolId]? = some symbol →
        Symbol.fromJson fp (getSymbol (wire.exchange fp s) m_baseUrl symbolId) = .ok symbol := by
  obtain ⟨body, passed⟩ := passed_request wire m_baseUrl (.getSymbol symbolId) plain asWritten
  have route : dispatch (Call.getSymbol symbolId).type (Call.getSymbol symbolId).path = some (.handleGetSymbolById symbolId) :=
    dispatch_get symbolId
  have answered := on_http_dispatch fp s ⟨(Call.getSymbol symbolId).type, (Call.getSymbol symbolId).path, body⟩
  simp only [route] at answered
  have result : getSymbol (wire.exchange fp s) m_baseUrl symbolId =
      ((symbols[symbolId]?).map fun symbol => symbol.toJson fp).getD [] :=
    (whole_answer wire fp s s m_baseUrl (.getSymbol symbolId) _ _ passed answered whole).trans (get_symbol_answer fp symbolId)
  refine ⟨result, fun symbol known => ?_⟩
  obtain ⟨id, name⟩ := symbol_unescaped symbolId symbol known
  rw [result, known]
  exact (symbol_restored fp symbol).trans (by rw [id, name])

theorem symbol_looked_up_amazon : ∃ symbol, symbols[amazon]? = some symbol ∧ symbol.m_name = "AMZN".toList ∧
    Symbol.fromJson Doubles.micro
      (getSymbol (websocketpp.exchange Doubles.micro State.init) "http://127.0.0.1:3000".toList amazon) = .ok symbol := by
  have named : (symbols[amazon]?).map Symbol.m_name = some "AMZN".toList := by decide +kernel
  obtain ⟨symbol, known, name⟩ := Option.map_eq_some_iff.mp named
  have plain : (Call.getSymbol amazon).Plain := fun symbolId given => by cases given; exact List.all_eq_true.mp (by decide)
  exact ⟨symbol, known, name, (symbol_looked_up websocketpp Doubles.micro State.init "http://127.0.0.1:3000".toList amazon
    plain (written_line _) ⟨rfl, rfl, by decide +kernel⟩).2 symbol known⟩

end TradingFeed.Storage
