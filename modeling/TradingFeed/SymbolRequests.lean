import TradingFeed.Aggregator.Transitions
import TradingFeed.Broadcaster.Repost
import TradingFeed.Storage.Protocol

set_option autoImplicit false

namespace TradingFeed

open TradingFeed.Json TradingFeed.Common TradingFeed.Storage

variable {D : Type}

def OneLine (text : Text) : Prop := '\r' ∉ text ∧ '\n' ∉ text

def httpLines : Text → List Text
  | [] => [[]]
  | '\r' :: '\n' :: rest => [] :: httpLines rest
  | c :: rest =>
      match httpLines rest with
      | [] => [[c]]
      | line :: lines => (c :: line) :: lines

structure OneRequest (start header text : Text) : Prop where
  framed : text = start ++ crlf ++ (header ++ crlf) ++ crlf
  plain : OneLine start ∧ OneLine header
  lines : httpLines text = [start, header, [], []]

-- StorageHttpClient( port ).
def baseUrl (port : Int) : Text := "http://127.0.0.1:".toList ++ showInt port

theorem one_line_append (front back : Text) (first : OneLine front) (second : OneLine back) : OneLine (front ++ back) :=
  ⟨List.not_mem_append first.1 second.1, List.not_mem_append first.2 second.2⟩

theorem escape_char_one_line (c : Char) : OneLine (escapeChar c) := by
  dsimp only [escapeChar]
  split
  case h_8 _ _ _ _ newline carriage _ =>
    exact ⟨fun member => carriage (List.mem_singleton.mp member).symm,
      fun member => newline (List.mem_singleton.mp member).symm⟩
  all_goals exact ⟨by decide, by decide⟩

-- The getter escapes again what the parser has decoded.
theorem json_escape_one_line (text : Text) : OneLine (jsonEscape text) := by
  constructor
  · intro member
    obtain ⟨c, _, inside⟩ := List.mem_flatMap.mp member
    exact (escape_char_one_line c).1 inside
  · intro member
    obtain ⟨c, _, inside⟩ := List.mem_flatMap.mp member
    exact (escape_char_one_line c).2 inside

theorem as_text_one_line (json : JSON D) : OneLine json.asText := by
  cases json with
  | string value => exact json_escape_one_line value
  | _ => exact ⟨List.not_mem_nil, List.not_mem_nil⟩

theorem base_url_one_line (port : Int) : OneLine (baseUrl port) :=
  ⟨outside_append numberChar _ _ '\r' (show_int_number port).2 (by decide) (by decide),
    outside_append numberChar _ _ '\n' (show_int_number port).2 (by decide) (by decide)⟩

-- The elements of the symbols array, as both servers read them through ToString.
def payloadSymbols (fp : Doubles D) (payload : Text) : List Text :=
  match load fp payload with
  | .ok request => (request.index "symbols".toList).elements.map JSON.asText
  | .error _ => []

theorem payload_symbols_one_line (fp : Doubles D) (payload symbol : Text) (read : symbol ∈ payloadSymbols fp payload) :
    OneLine symbol := by
  dsimp only [payloadSymbols] at read
  split at read
  · obtain ⟨element, _, rfl⟩ := List.mem_map.mp read
    exact as_text_one_line element
  · cases read

theorem http_lines_line (line rest : Text) (plain : '\r' ∉ line) :
    httpLines (line ++ crlf ++ rest) = line :: httpLines rest := by
  induction line with
  | nil => rfl
  | cons c line ih =>
      have other : c ≠ '\r' := (List.ne_of_not_mem_cons plain).symm
      have behind := ih (List.not_mem_of_not_mem_cons plain)
      rw [List.cons_append, List.cons_append, httpLines, behind]
      exact fun _ same _ => other same

theorem one_request (start header : Text) (first : OneLine start) (second : OneLine header) :
    OneRequest start header (start ++ crlf ++ (header ++ crlf) ++ crlf) where
  framed := rfl
  plain := ⟨first, second⟩
  lines := by
    have last : httpLines (header ++ crlf ++ crlf) = [header, [], []] := by
      rw [http_lines_line header crlf second.1]
      rfl
    rw [List.append_assoc, http_lines_line start _ first.1, last]

theorem call_one_request (type symbol base : Text) (word : OneLine type) (plain : OneLine symbol) (host : OneLine base) :
    OneRequest (type ++ " /api/symbols/".toList ++ symbol ++ " HTTP/1.1".toList) ("Host: ".toList ++ base)
      (requestText base type ("/api/symbols/".toList ++ symbol) []) := by
  have start : OneLine (type ++ " /api/symbols/".toList ++ symbol ++ " HTTP/1.1".toList) :=
    one_line_append _ _ (one_line_append _ _ (one_line_append _ _ word ⟨by decide, by decide⟩) plain)
      ⟨by decide, by decide⟩
  have header : OneLine ("Host: ".toList ++ base) := one_line_append _ _ ⟨by decide, by decide⟩ host
  have request := one_request _ _ start header
  have written : requestText base type ("/api/symbols/".toList ++ symbol) [] =
      type ++ " /api/symbols/".toList ++ symbol ++ " HTTP/1.1".toList ++ crlf ++ ("Host: ".toList ++ base ++ crlf) ++
        crlf := by
    have front : " /api/symbols/".toList = " ".toList ++ "/api/symbols/".toList := rfl
    have middle : " HTTP/1.1\r\nHost: ".toList = " HTTP/1.1".toList ++ (crlf ++ "Host: ".toList) := rfl
    have end_ : "\r\n\r\n".toList = crlf ++ crlf := rfl
    dsimp only [requestText]
    rw [if_neg (fun given => given rfl), front, middle, end_]
    simp only [List.append_assoc, List.append_nil]
  rw [written]
  exact request

theorem symbols_cannot_split (fp : Doubles D) (payload symbol : Text) (read : symbol ∈ payloadSymbols fp payload)
    (port : Int) :
    OneRequest ("GET".toList ++ " /api/symbols/".toList ++ symbol ++ " HTTP/1.1".toList)
        ("Host: ".toList ++ baseUrl port) ((Call.getSymbol symbol).text (baseUrl port)) ∧
      OneRequest ("POST".toList ++ " /api/symbols/".toList ++ symbol ++ " HTTP/1.1".toList)
        ("Host: ".toList ++ baseUrl port) ((Call.postSymbol symbol).text (baseUrl port)) := by
  have plain := payload_symbols_one_line fp payload symbol read
  have host := base_url_one_line port
  exact ⟨call_one_request "GET".toList symbol _ ⟨by decide, by decide⟩ plain host,
    call_one_request "POST".toList symbol _ ⟨by decide, by decide⟩ plain host⟩

def splittingPayload : Text :=
  "\x7b\"action\":\"add-provider\",\"symbols\":[\"EU\\r\\nRUSD\"]\x7d".toList

theorem load_splitting (fp : Doubles D) : load fp splittingPayload = .ok (.object
    [("action".toList, .string "add-provider".toList), ("symbols".toList, .array [.string "EU\r\nRUSD".toList])]) := by
  cbv

theorem symbols_cannot_split_escaped :
    "EU\\r\\nRUSD".toList ∈ payloadSymbols Platform.plain.fp splittingPayload ∧
      httpLines ((Call.getSymbol "EU\\r\\nRUSD".toList).text (baseUrl 8080)) =
        ["GET /api/symbols/EU\\r\\nRUSD HTTP/1.1".toList, "Host: http://127.0.0.1:8080".toList, [], []] := by
  have read : "EU\\r\\nRUSD".toList ∈ payloadSymbols Platform.plain.fp splittingPayload := by
    dsimp only [payloadSymbols]
    rw [load_splitting]
    exact List.mem_singleton.mpr rfl
  exact ⟨read, (symbols_cannot_split Platform.plain.fp splittingPayload _ read 8080).1.lines⟩

theorem aggregator_symbols (p : Platform D) (s : Aggregator.State) (hdl : Sockets.Hdl) (payload : Text) (request : JSON D)
    (loaded : load p.fp payload = .ok request) :
    (Aggregator.handleAddProvider p s hdl request).2 = (payloadSymbols p.fp payload).map .getSymbol := by
  dsimp only [payloadSymbols]
  rw [loaded]
  rfl

theorem broadcaster_symbols (p : Platform D) (s : Broadcaster.State D) (payload : Text) (request : JSON D)
    (loaded : load p.fp payload = .ok request) (symbol : Text)
    (member : symbol ∈ (Broadcaster.handleAddProvider s payload request).1.m_symbols) :
    symbol ∈ s.m_symbols ∨ symbol ∈ payloadSymbols p.fp payload := by
  dsimp only [Broadcaster.handleAddProvider] at member
  split at member
  · exact Or.inl member
  · refine (Std.TreeSet.mem_insertMany_list.mp member).imp_right fun inserted => ?_
    dsimp only [payloadSymbols]
    rw [loaded]
    exact List.contains_iff_mem.mp inserted

theorem aggregator_asks_one_line (p : Platform D) (s t : Aggregator.State) (action : Aggregator.Action)
    (out : List (Aggregator.Output D)) (symbol : Text) (taken : Aggregator.step p s action = some (t, out))
    (asks : .getSymbol symbol ∈ out) : OneLine symbol := by
  obtain ⟨_, transition⟩ := Aggregator.step_transition p s t action out taken
  cases transition with
  | addProvider hdl payload request _ _ loaded =>
      rw [aggregator_symbols p s hdl payload request loaded] at asks
      obtain ⟨read, member, same⟩ := List.mem_map.mp asks
      cases same
      exact payload_symbols_one_line p.fp payload symbol member
  | otherMessage _ _ _ _ _ _ _ quiet =>
      cases quiet with
      | inl deletes => simp [deletes] at asks
      | inr silent => simp [silent] at asks
  | _ => simp at asks

def PlainSymbols (s : Broadcaster.State D) : Prop := ∀ symbol ∈ s.m_symbols, OneLine symbol

theorem plain_symbols_same (s t : Broadcaster.State D) (same : t.m_symbols = s.m_symbols) (plain : PlainSymbols s) :
    PlainSymbols t := by
  intro symbol member
  rw [same] at member
  exact plain symbol member

theorem plain_symbols_handled (p : Platform D) (s : Broadcaster.State D) (hdl : Sockets.Hdl) (payload : Text)
    (request : JSON D) (loaded : load p.fp payload = .ok request) (plain : PlainSymbols s) :
    PlainSymbols (Broadcaster.command p (Broadcaster.subscribePart p s hdl request) hdl payload request).1 := by
  obtain ⟨tasks, launched, _⟩ := Broadcaster.subscribe_part_same p s hdl request
  rw [launched]
  dsimp only [Broadcaster.command]
  split
  · exact plain_symbols_same s _ (Broadcaster.steady_add_aggregator p _ hdl request).symbols plain
  · split
    · exact plain_symbols_same s _ (Broadcaster.steady_clear_aggregator _ hdl).symbols plain
    · split
      · intro symbol member
        cases broadcaster_symbols p _ payload request loaded symbol member with
        | inl before => exact plain symbol before
        | inr read => exact payload_symbols_one_line p.fp payload symbol read
      · split
        · exact plain
        · split <;> exact plain

theorem plain_symbols_step (p : Platform D) (s t : Broadcaster.State D) (action : Broadcaster.Action)
    (out : List (Broadcaster.Output D)) (plain : PlainSymbols s) (taken : Broadcaster.step p s action = some (t, out)) :
    PlainSymbols t := by
  obtain ⟨_, transition⟩ := Broadcaster.step_transition p s t action out taken
  cases transition with
  | handled hdl payload request _ _ loaded => exact plain_symbols_handled p s hdl payload request loaded plain
  | added call => exact plain_symbols_same s _ (Broadcaster.steady_wake_adding p s call).symbols plain
  | deleted e rest => exact plain_symbols_same s _ (Broadcaster.steady_destroy s rest).symbols plain
  | joined e rest => exact plain_symbols_same s _ (Broadcaster.steady_destroy _ rest).symbols plain
  | delivered conn data handler sub status =>
      exact plain_symbols_same s _ (Broadcaster.deliver_registry sub status s).symbols plain
  | _ => exact plain

theorem broadcaster_posts_one_line (p : Platform D) (s t : Broadcaster.State D) (action : Broadcaster.Action)
    (out : List (Broadcaster.Output D)) (symbol : Text) (reach : (Broadcaster.broadcaster p).Reachable .init s)
    (taken : Broadcaster.step p s action = some (t, out)) (posts : .postSymbol symbol ∈ out) : OneLine symbol := by
  have plain : PlainSymbols s := (Broadcaster.broadcaster p).reachable_invariant .init PlainSymbols
    (fun symbol member => absurd member Std.TreeSet.not_mem_emptyc)
    (fun s action t out plain taken => plain_symbols_step p s t action out plain taken) s reach
  obtain ⟨rest, free, sent⟩ := (Broadcaster.step_posts p s t action out taken).posts
  rw [sent] at posts
  cases List.mem_append.mp posts with
  | inr later => exact absurd (free _ later) Bool.noConfusion
  | inl reposted =>
      obtain ⟨other, member, same⟩ := List.mem_map.mp reposted
      cases same
      split at member
      · exact plain symbol (Std.TreeSet.mem_toList.mp member)
      · cases member

end TradingFeed
