import TradingFeed.Broadcaster.Interleaved
import TradingFeed.Feed.Origins
import TradingFeed.Storage.Store
import TradingFeed.SymbolRequests

set_option autoImplicit false

namespace TradingFeed.Feed

open TradingFeed.Json TradingFeed.Sockets TradingFeed.Common TradingFeed.Storage Library

variable {P A D : Type} [DecidableEq P] [DecidableEq A] (p : Platform D) (wiring : Wiring P A)

def aggregatorCall : Aggregator.Output D → Option Call
  | .getSymbol symbol => some (.getSymbol symbol)
  | .deleteAllPrices => some .deleteAllPrices
  | .send _ _ => none

def broadcasterCall : Broadcaster.Output D → Option Call
  | .postSymbol symbol => some (.postSymbol symbol)
  | .deleteAllPrices => some .deleteAllPrices
  | .send _ _ | .aggregatorSend _ _ => none

def Called (events : List (Step P A D)) (call : Call) : Prop :=
  (∃ g, ∃ event ∈ aggregatorSteps g events, call ∈ event.out.filterMap aggregatorCall) ∨
    ∃ event ∈ broadcasterSteps events, call ∈ event.out.filterMap broadcasterCall

-- How the StorageApi cuts the text of one connection into requests. Where the text
-- is a single request, each of them has its method and its URI.
structure Reader where
  passes : Text → List Request
  asWritten : ∀ start header text, OneRequest start header text → ∀ request ∈ passes text,
    requestLine text = some (request.method, request.uri)

-- A request that does not reach handlePostPrice.
def Harmless (request : Request) : Prop := ∀ id, dispatch request.method request.uri ≠ some (.handlePostPrice id)

theorem harmless_step (fp : Doubles D) (request : Request) (harmless : Harmless request) :
    ∃ response, onHttp fp .init request = .ok (.init, response) := by
  have route := on_http_dispatch fp .init request
  cases found : dispatch request.method request.uri with
  | none =>
      rw [found] at route
      exact ⟨_, route⟩
  | some handler =>
      rw [found] at route
      cases handler with
      | handlePostPrice id => exact absurd found (harmless id)
      | _ => exact ⟨_, route⟩

theorem dispatch_method (method uri id : Text) (found : dispatch method uri = some (.handlePostPrice id)) :
    method = "POST".toList ∧ uri.take 12 = "/api/prices/".toList := by
  unfold dispatch at found
  repeat' split at found
  all_goals cases found
  assumption

theorem first_word (front rest : Text) :
    ∃ word tail, ' ' ∉ word ∧ word <+: front ∧ front ++ ' ' :: rest = word ++ ' ' :: tail := by
  induction front with
  | nil => exact ⟨[], rest, List.not_mem_nil, List.nil_prefix, rfl⟩
  | cons c front ih =>
      by_cases blank : c = ' '
      · subst c
        exact ⟨[], front ++ ' ' :: rest, List.not_mem_nil, List.nil_prefix, rfl⟩
      · obtain ⟨word, tail, plain, inside, same⟩ := ih
        refine ⟨c :: word, tail, ?_, (List.prefix_cons_inj c).mpr inside, congrArg (c :: ·) same⟩
        exact List.not_mem_cons_of_ne_of_not_mem (Ne.symm blank) plain

theorem call_line (call : Call) (base : Text) (plain : '\r' ∉ call.path) :
    ∃ uri, requestLine (call.text base) = some (call.type, uri) ∧ uri <+: call.path := by
  obtain ⟨uri, version, solid, inside, same⟩ := first_word call.path "HTTP/1.1".toList
  have clean : '\r' ∉ uri ++ ' ' :: version := by
    rw [← same]
    exact List.not_mem_append plain (by decide)
  have split := request_line_split call.type uri version ("Host: ".toList ++ base ++ "\r\n\r\n".toList) call.type_plain
    ⟨solid, fun member => clean (List.mem_append_left _ member)⟩
    (fun member => clean (List.mem_append_right _ (List.mem_cons_of_mem _ member)))
  have written : call.text base = call.type ++ ' ' :: (uri ++ ' ' :: version) ++
      '\r' :: '\n' :: ("Host: ".toList ++ base ++ "\r\n\r\n".toList) := by
    have start : " HTTP/1.1\r\nHost: ".toList = ' ' :: "HTTP/1.1".toList ++ '\r' :: '\n' :: "Host: ".toList := rfl
    rw [← same]
    dsimp only [Call.text, requestText]
    rw [if_neg (fun filled => filled rfl), start, List.append_nil, show " ".toList = [' '] from rfl]
    simp only [List.append_assoc, List.cons_append, List.nil_append]
  exact ⟨uri, by rw [written, split], inside⟩

theorem delete_one_request (base : Text) (host : OneLine base) :
    ∃ start header, OneRequest start header (Call.deleteAllPrices.text base) := by
  have header : OneLine ("Host: ".toList ++ base) := one_line_append _ _ ⟨by decide, by decide⟩ host
  have request := one_request "DELETE /api/prices HTTP/1.1".toList _ ⟨by decide, by decide⟩ header
  have written : Call.deleteAllPrices.text base = "DELETE /api/prices HTTP/1.1".toList ++ crlf ++
      ("Host: ".toList ++ base ++ crlf) ++ crlf := by
    have front : "DELETE /api/prices HTTP/1.1".toList ++ crlf ++ "Host: ".toList =
        "DELETE".toList ++ " ".toList ++ "/api/prices".toList ++ " HTTP/1.1\r\nHost: ".toList := rfl
    have end_ : "\r\n\r\n".toList = crlf ++ crlf := rfl
    rw [← List.append_assoc, ← List.append_assoc, front, Call.text, requestText, if_neg (fun given => given rfl), end_]
    simp only [List.append_assoc, List.append_nil]
    rfl
  rw [written]
  exact ⟨_, _, request⟩

theorem call_one_text (call : Call) (port : Int) (plain : OneLine call.path) :
    ∃ start header, OneRequest start header (call.text (baseUrl port)) := by
  have host := base_url_one_line port
  have symbol (symbol : Text) (path : OneLine ("/api/symbols/".toList ++ symbol)) : OneLine symbol :=
    ⟨fun member => path.1 (List.mem_append_right _ member), fun member => path.2 (List.mem_append_right _ member)⟩
  cases call with
  | getSymbol id => exact ⟨_, _, call_one_request "GET".toList id _ ⟨by decide, by decide⟩ (symbol id plain) host⟩
  | postSymbol id => exact ⟨_, _, call_one_request "POST".toList id _ ⟨by decide, by decide⟩ (symbol id plain) host⟩
  | deleteAllPrices => exact delete_one_request (baseUrl port) host

theorem call_harmless (reader : Reader) (call : Call) (port : Int) (plain : OneLine call.path) (request : Request)
    (passed : request ∈ reader.passes (call.text (baseUrl port))) : Harmless request := by
  obtain ⟨start, header, single⟩ := call_one_text call port plain
  obtain ⟨uri, line, inside⟩ := call_line call (baseUrl port) plain.1
  have same := (reader.asWritten start header _ single request passed).symm.trans line
  obtain ⟨method, rfl⟩ := Prod.mk.inj (Option.some.inj same)
  intro id found
  obtain ⟨post, front⟩ := dispatch_method _ _ id found
  cases call with
  | getSymbol symbol => cases method.symm.trans post
  | deleteAllPrices => cases method.symm.trans post
  | postSymbol symbol =>
      have prices : "/api/prices/".toList <+: "/api/symbols/".toList ++ symbol := by
        rw [← front]
        exact (List.take_prefix 12 request.uri).trans inside
      obtain ⟨rest, whole⟩ := prices
      have fifth : some 'p' = some 's' := congrArg (fun text => text[5]?) whole
      cases fifth

theorem no_price_found (fp : Doubles D) (req : Text) : (handleGetPriceById fp .init req).status = some .not_found := by
  dsimp only [handleGetPriceById]
  split
  · rfl
  · rfl

theorem no_price_answered (fp : Doubles D) (request : Request) (response : Response)
    (answered : onHttp fp .init request = .ok (.init, response)) (get : request.method = "GET".toList)
    (front : request.uri.take 12 = "/api/prices/".toList) : response.status = some .not_found := by
  obtain ⟨method, uri, body⟩ := request
  dsimp only at get front
  have whole : uri = "/api/prices/".toList ++ uri.drop 12 := by rw [← front, List.take_append_drop]
  rw [get, whole, on_http_get_price] at answered
  have same := (Prod.mk.inj (Except.ok.inj answered)).2
  rw [← same]
  exact no_price_found fp _

theorem harmless_path (fp : Doubles D) (requests : List Request) (harmless : ∀ request ∈ requests, Harmless request) :
    ∃ steps, (storage fp).Path .init steps .init ∧ steps.map Event.action = requests ∧
      ∀ step ∈ steps, onHttp fp .init step.action = .ok (.init, step.out) := by
  induction requests with
  | nil => exact ⟨[], .stop _, rfl, fun _ member => absurd member List.not_mem_nil⟩
  | cons request rest ih =>
      obtain ⟨response, answered⟩ := harmless_step fp request (harmless request List.mem_cons_self)
      obtain ⟨steps, path, actions, all⟩ := ih fun other member => harmless other (List.mem_cons_of_mem _ member)
      have taken : (storage fp).step .init request = some (.init, response) := by
        dsimp only [storage]
        rw [answered]
        rfl
      refine ⟨⟨.init, request, response⟩ :: steps, .step _ _ _ _ _ _ taken path, congrArg (request :: ·) actions, ?_⟩
      exact List.forall_mem_cons.mpr ⟨answered, all⟩

section

variable (boot : P → Nat → Int64) (final : State P A D) (events : List (FeedStep P A D))
  (path : (feed p wiring).Path (init p boot) events final)

include path

theorem called_one_line (call : Call) (called : Called (events.map innerEvent) call) : OneLine call.path := by
  have inner := inner_path p wiring boot final events path
  have segment (symbol : Text) (plain : OneLine symbol) : OneLine ("/api/symbols/".toList ++ symbol) :=
    one_line_append _ _ ⟨by decide, by decide⟩ plain
  rcases called with ⟨g, event, member, asked⟩ | ⟨event, member, asked⟩
  · obtain ⟨_, next, taken⟩ := System.path_step _ _ _ _ (aggregator_path p _ _ _ inner g) event member
    obtain ⟨output, sent, same⟩ := List.mem_filterMap.mp asked
    cases output with
    | getSymbol symbol =>
        cases same
        exact segment symbol (aggregator_asks_one_line p _ next _ _ symbol taken sent)
    | deleteAllPrices =>
        cases same
        exact ⟨by decide, by decide⟩
    | send hdl response => cases same
  · obtain ⟨reach, next, taken⟩ := System.path_step _ _ _ _ (broadcaster_path p _ _ _ inner) event member
    obtain ⟨output, sent, same⟩ := List.mem_filterMap.mp asked
    cases output with
    | postSymbol symbol =>
        cases same
        exact segment symbol (broadcaster_posts_one_line p _ next _ _ symbol reach taken sent)
    | deleteAllPrices =>
        cases same
        exact ⟨by decide, by decide⟩
    | _ => cases same

theorem feed_stores_nothing (reader : Reader) (requests : List Request)
    (each : ∀ request ∈ requests, request.method ≠ "POST".toList ∨
      ∃ call port, Called (events.map innerEvent) call ∧ request ∈ reader.passes (call.text (baseUrl port))) :
    ∃ steps, (storage p.fp).Path .init steps .init ∧ steps.map Event.action = requests ∧
      ∀ step ∈ steps, step.action.method = "GET".toList → step.action.uri.take 12 = "/api/prices/".toList →
        step.out.status = some .not_found := by
  have harmless : ∀ request ∈ requests, Harmless request := by
    intro request member
    rcases each request member with other | ⟨call, port, called, passed⟩
    · exact fun id found => other (dispatch_method _ _ id found).1
    · exact call_harmless reader call port (called_one_line p wiring boot final events path call called) request passed
  obtain ⟨steps, stored, actions, answered⟩ := harmless_path p.fp requests harmless
  exact ⟨steps, stored, actions, fun step member => no_price_answered p.fp step.action step.out (answered step member)⟩

end

def written : Reader where
  passes := fun text => (websocketpp.passes text).toList
  asWritten := by
    intro _ _ text _ request passed
    rw [← written_line text, Option.mem_toList.mp passed]
    rfl

-- The consumer adds a symbol and clears before the provider's messages come.
def clearedRun : List (Action (Broadcaster.Conn × Int) Broadcaster.Conn) :=
  connectedRun ++
    [.message 0 "\x7b\"action\":\"add-provider\",\"symbols\":[\"EURUSD\"]\x7d".toList,
      .message 0 "\x7b\"action\":\"clear-providers\"\x7d".toList].map fromBroadcaster ++ twoQuotes

def broadcasterCalls (events : List (Broadcaster.Step D)) : List Call :=
  events.flatMap fun event => event.out.filterMap broadcasterCall

omit [DecidableEq P] in
theorem broadcaster_called (events : List (Step P A D)) (call : Call)
    (among : call ∈ broadcasterCalls (broadcasterSteps events)) : Called events call := by
  obtain ⟨event, member, asked⟩ := List.mem_flatMap.mp among
  exact Or.inr ⟨event, member, asked⟩

def clearedEvents : List (FeedStep (Broadcaster.Conn × Int) Broadcaster.Conn Int) :=
  (feed Broadcaster.microPlatform apart).trace (init Broadcaster.microPlatform fun _ _ => 0) clearedRun

def storedRequests : List Request :=
  [⟨"DELETE".toList, "/api/prices".toList, []⟩, ⟨"POST".toList, "/api/symbols/EURUSD".toList, []⟩,
    ⟨"GET".toList, "/api/prices/EURUSD".toList, []⟩]

def repostText : Text := (Call.postSymbol "EURUSD".toList).text (baseUrl 3000)

theorem cleared_called : ∃ call, Called (clearedEvents.map innerEvent) call ∧ call.text (baseUrl 3000) = repostText := by
  have texts : (broadcasterCalls (broadcasterSteps (clearedEvents.map innerEvent))).map (Call.text (baseUrl 3000)) =
      [repostText] := by decide +kernel
  obtain ⟨call, among, same⟩ := List.mem_map.mp (texts ▸ List.mem_singleton.mpr rfl)
  exact ⟨call, broadcaster_called _ call among, same⟩

theorem feed_stores_nothing_reposted : clearedEvents.map Event.action = clearedRun ∧
    ∃ steps, (storage Doubles.micro).Path .init steps .init ∧ steps.map Event.action = storedRequests ∧
      ∀ step ∈ steps, step.action.method = "GET".toList → step.action.uri.take 12 = "/api/prices/".toList →
        step.out.status = some .not_found := by
  obtain ⟨final, log, ran, _⟩ := (feed Broadcaster.microPlatform apart).run_check
    (init Broadcaster.microPlatform fun _ _ => 0) clearedRun (fun _ => true) (by decide +kernel)
  have path := (feed Broadcaster.microPlatform apart).trace_path _ final clearedRun log ran
  refine ⟨((feed Broadcaster.microPlatform apart).trace_seen _ final clearedRun log ran).1, ?_⟩
  refine feed_stores_nothing Broadcaster.microPlatform apart (fun _ _ => 0) final clearedEvents path written storedRequests ?_
  refine List.forall_mem_cons.mpr ⟨Or.inl (by decide), List.forall_mem_cons.mpr ⟨Or.inr ?_, ?_⟩⟩
  · obtain ⟨call, called, same⟩ := cleared_called
    refine ⟨call, 3000, called, ?_⟩
    rw [same]
    exact Option.mem_toList.mpr rfl
  · exact List.forall_mem_singleton.mpr (Or.inl (by decide))

end TradingFeed.Feed
