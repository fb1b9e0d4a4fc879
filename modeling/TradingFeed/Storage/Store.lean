import TradingFeed.Library.Registers
import TradingFeed.Storage.Server

set_option autoImplicit false

namespace TradingFeed.Storage

open TradingFeed.Json TradingFeed.Common
open Library (Write lastWrite)

variable {D : Type}

def postedSymbol (uri : Text) : Option (Text × Symbol) :=
  symbols.toList.find? fun entry => uri = "/api/prices/".toList ++ entry.1

-- What a request is to the store, `price` being what its body was printed from.
def writes (price : Request → Price D) (request : Request) : Write Text (Price D) :=
  if request.method = "DELETE".toList ∧ request.uri = "/api/prices".toList then .clear
  else if request.method = "POST".toList then
    match postedSymbol request.uri with
    | some (id, symbol) => .put id { price request with m_symbol := id, m_symbolName := symbol.m_name }
    | none => .keep
  else .keep

def Unrelated (request : Request) : Prop :=
  (request.method = "DELETE".toList → request.uri ≠ "/api/prices".toList) ∧
    (request.method = "POST".toList → ∀ id ∈ symbols, request.uri ≠ "/api/prices/".toList ++ id)

-- The server answers from the last write to each id, and the two views agree.
structure Refines (fp : Doubles D) (s : State D) (past : List (Write Text (Price D))) : Prop where
  keyed : ∀ (id : Text) (record : Price D), s.m_prices[id]? = some record →
    record.m_symbol = id ∧ ∃ symbol, symbols[id]? = some symbol ∧ record.m_symbolName = symbol.m_name
  single : ∀ id body, ∃ response,
    onHttp fp s ⟨"GET".toList, "/api/prices/".toList ++ id, body⟩ = .ok (s, response) ∧
      match lastWrite id past with
      | some price => response.status = some .ok ∧ response.body = price.toJson fp
      | none => response.status = some .not_found
  unknown : ∀ id, id ∉ symbols → lastWrite id past = none
  listing : ∀ body, ∃ response, onHttp fp s ⟨"GET".toList, "/api/prices".toList, body⟩ = .ok (s, response) ∧
    response.status = some .ok ∧ response.body =
      (JSON.array ((symbols.keys.filterMap fun id => lastWrite id past).map Price.toJsonObject)).dump fp
  others : ∀ request, Unrelated request → ∃ response, onHttp fp s request = .ok (s, response)

theorem posted_symbol_some (uri id : Text) (symbol : Symbol) (posted : postedSymbol uri = some (id, symbol)) :
    uri = "/api/prices/".toList ++ id ∧ symbols[id]? = some symbol := by
  dsimp only [postedSymbol] at posted
  have same := List.find?_some posted
  exact ⟨of_decide_eq_true same, Std.TreeMap.mem_toList_iff_getElem?_eq_some.mp (List.mem_of_find?_eq_some posted)⟩

theorem posted_symbol_none (uri : Text) (absent : postedSymbol uri = none) (id : Text) (known : id ∈ symbols) :
    uri ≠ "/api/prices/".toList ++ id := by
  intro same
  obtain ⟨symbol, found⟩ := Option.isSome_iff_exists.mp (Std.TreeMap.mem_iff_isSome_getElem?.mp known)
  exact List.find?_eq_none.mp absent (id, symbol) (Std.TreeMap.mem_toList_iff_getElem?_eq_some.mpr found)
    (decide_eq_true same)

theorem on_http_unrelated (fp : Doubles D) (s : State D) (request : Request) (unrelated : Unrelated request) :
    ∃ response, onHttp fp s request = .ok (s, response) := by
  obtain ⟨keeps, other⟩ := unrelated
  dsimp only [onHttp]
  split
  · exact ⟨_, rfl⟩
  split
  · exact ⟨_, rfl⟩
  split
  · exact ⟨_, rfl⟩
  split
  · exact ⟨_, rfl⟩
  split
  · rename_i deletes
    exact absurd deletes.2 (keeps deletes.1)
  split
  · rename_i posts
    have uri : request.uri = "/api/prices/".toList ++ request.uri.drop 12 := by
      rw [← posts.2, List.take_append_drop]
    cases found : symbols[request.uri.drop 12]? with
    | none => exact ⟨_, post_unknown fp s request.uri request.body found⟩
    | some symbol =>
        exact absurd uri (other posts.1 _ (Std.TreeMap.mem_iff_isSome_getElem?.mpr (by simp [found])))
  · exact ⟨_, rfl⟩

theorem on_http_delete (fp : Doubles D) (s : State D) (request : Request) (method : request.method = "DELETE".toList)
    (uri : request.uri = "/api/prices".toList) : onHttp fp s request = .ok (handleDeletePrices s) := by
  have get : request.method ≠ "GET".toList := by
    rw [method]
    exact fun same => by cases same
  dsimp only [onHttp]
  rw [if_neg fun both => get both.1, if_neg fun both => get both.1, if_neg fun both => get both.1,
    if_neg fun both => get both.1, if_pos ⟨method, uri⟩]

theorem on_http_post (fp : Doubles D) (s : State D) (request : Request) (id : Text)
    (method : request.method = "POST".toList) (uri : request.uri = "/api/prices/".toList ++ id) :
    onHttp fp s request = handlePostPrice fp s request.uri request.body := by
  have get : request.method ≠ "GET".toList := by
    rw [method]
    exact fun same => by cases same
  have delete : request.method ≠ "DELETE".toList := by
    rw [method]
    exact fun same => by cases same
  have front : request.uri.take 12 = "/api/prices/".toList := by
    rw [uri]
    exact List.take_left' rfl
  dsimp only [onHttp]
  rw [if_neg fun both => get both.1, if_neg fun both => get both.1, if_neg fun both => get both.1,
    if_neg fun both => get both.1, if_neg fun both => delete both.1, if_pos ⟨method, front⟩]

theorem on_http_get_price (fp : Doubles D) (s : State D) (id body : Text) :
    onHttp fp s ⟨"GET".toList, "/api/prices/".toList ++ id, body⟩ =
      .ok (s, handleGetPriceById fp s ("/api/prices/".toList ++ id)) := by
  have symbols_ : ¬"/api/prices/".toList ++ id = "/api/symbols".toList := fun same => by
    have fifth : some 'p' = some 's' := congrArg (fun text => text[5]?) same
    cases fifth
  have symbol : ¬("/api/prices/".toList ++ id).take 13 = "/api/symbols/".toList := fun same => by
    have fifth : some 'p' = some 's' := congrArg (fun text => text[5]?) same
    cases fifth
  have prices : ¬"/api/prices/".toList ++ id = "/api/prices".toList := fun same => by
    have last : some '/' = none := congrArg (fun text => text[11]?) same
    cases last
  dsimp only [onHttp]
  rw [if_neg fun both => symbols_ both.2, if_neg fun both => symbol both.2, if_neg fun both => prices both.2]
  exact if_pos ⟨rfl, rfl⟩

theorem on_http_get_prices (fp : Doubles D) (s : State D) (body : Text) :
    onHttp fp s ⟨"GET".toList, "/api/prices".toList, body⟩ = .ok (s, handleGetPrices fp s) := rfl

def restored (fp : Doubles D) (price : Price D) : Price D := { price with m_price := fp.reread price.m_price }

theorem restored_dump (fp : Doubles D) (price : Price D) (finite : fp.Finite price.m_price) (depth : Nat) :
    dump fp depth (restored fp price).toJsonObject = dump fp depth price.toJsonObject := by
  have object (d : D) : ({ price with m_price := d } : Price D).toJsonObject = .object [("price".toList, .floating d),
      ("quantity".toList, .integral price.m_quantity.toInt), ("symbol".toList, .string price.m_symbol),
      ("symbolName".toList, .string price.m_symbolName),
      ("timestamp".toList, .integral price.m_timestamp.toInt64.toInt)] := rfl
  rw [restored, object, show price.toJsonObject = _ from object price.m_price]
  simp only [dump, dump_member_shape, reread_text fp price.m_price finite]

theorem restored_elements (fp : Doubles D) (prices : List (Price D)) (depth : Nat)
    (finite : ∀ price ∈ prices, fp.Finite price.m_price) :
    dumpElements fp depth ((prices.map (restored fp)).map Price.toJsonObject) =
      dumpElements fp depth (prices.map Price.toJsonObject) := by
  induction prices with
  | nil => rfl
  | cons price prices ih =>
      simp only [List.map_cons, dump_element_shape, List.map_eq_nil_iff]
      rw [restored_dump fp price (finite price (by simp)), ih fun other member => finite other (by simp [member])]

structure Holds (fp : Doubles D) (s : State D) (past : List (Write Text (Price D))) : Prop where
  reads : ∀ id, s.m_prices[id]? = (lastWrite id past).map (restored fp)
  records : ∀ id price, lastWrite id past = some price → fp.Finite price.m_price ∧ price.m_symbol = id ∧
    ∃ symbol, symbols[id]? = some symbol ∧ price.m_symbolName = symbol.m_name

def Posts (fp : Doubles D) (price : Request → Price D) (request : Request) : Prop :=
  request.method = "POST".toList → fp.Finite (price request).m_price ∧ request.body = (price request).toJson fp

theorem on_http_writes (fp : Doubles D) (price : Request → Price D) (s : State D) (request : Request)
    (posts : Posts fp price request) : ∃ response, onHttp fp s request =
      .ok (⟨((writes price request).map (restored fp)).apply s.m_prices⟩, response) := by
  rw [writes]
  by_cases deletes : request.method = "DELETE".toList ∧ request.uri = "/api/prices".toList
  · rw [if_pos deletes]
    exact ⟨_, on_http_delete fp s request deletes.1 deletes.2⟩
  · rw [if_neg deletes]
    have unrelated (other : request.method = "POST".toList → ∀ id ∈ symbols, request.uri ≠ "/api/prices/".toList ++ id) :=
      on_http_unrelated fp s request ⟨fun method uri => deletes ⟨method, uri⟩, other⟩
    by_cases method : request.method = "POST".toList
    · rw [if_pos method]
      split
      · rename_i id symbol found
        obtain ⟨uri, member⟩ := posted_symbol_some request.uri id symbol found
        obtain ⟨finite, body⟩ := posts method
        have sliced : request.uri.drop 12 = id := by
          rw [uri]
          rfl
        have stored := post_read fp s request.uri request.body symbol _ (by rw [sliced]; exact member)
          (by rw [body]; exact from_json_to_json fp (price request) finite)
        rw [sliced] at stored
        exact ⟨Response.unset.set_status .ok .standard, (on_http_post fp s request id method uri).trans stored⟩
      · rename_i absent
        exact unrelated fun _ id known => posted_symbol_none request.uri absent id known
    · rw [if_neg method]
      exact unrelated fun posted => absurd posted method

theorem records_step (fp : Doubles D) (price : Request → Price D) (request : Request)
    (past : List (Write Text (Price D))) (posts : Posts fp price request)
    (records : ∀ id price, lastWrite id past = some price → fp.Finite price.m_price ∧ price.m_symbol = id ∧
      ∃ symbol, symbols[id]? = some symbol ∧ price.m_symbolName = symbol.m_name)
    (id : Text) (record : Price D) (last : lastWrite id (writes price request :: past) = some record) :
    fp.Finite record.m_price ∧ record.m_symbol = id ∧
      ∃ symbol, symbols[id]? = some symbol ∧ record.m_symbolName = symbol.m_name := by
  rw [writes] at last
  split at last
  · cases last
  split at last
  · rename_i method
    split at last
    · rename_i other symbol found
      dsimp only [lastWrite] at last
      split at last
      · rename_i same
        subst same
        cases last
        exact ⟨(posts method).1, rfl, symbol, (posted_symbol_some request.uri _ symbol found).2, rfl⟩
      · exact records id record last
    · exact records id record last
  · exact records id record last

theorem holds_init (fp : Doubles D) : Holds fp .init [] where
  reads := fun id => by simp [State.init, lastWrite]
  records := fun id price last => by cases last

theorem holds_run (fp : Doubles D) (price : Request → Price D) (requests : List Request) (s : State D)
    (past : List (Write Text (Price D))) (posts : ∀ request ∈ requests, Posts fp price request) (holds : Holds fp s past) :
    ∃ t log, (storage fp).run s requests = some (t, log) ∧ Holds fp t ((requests.map (writes price)).reverse ++ past) := by
  induction requests generalizing s past with
  | nil => exact ⟨s, [], rfl, holds⟩
  | cons request rest ih =>
      have own := posts request (by simp)
      obtain ⟨response, answered⟩ := on_http_writes fp price s request own
      obtain ⟨t, log, ran, last⟩ := ih _ (writes price request :: past) (fun other member => posts other (by simp [member]))
        ⟨Library.apply_reads (restored fp) s.m_prices past (writes price request) holds.reads,
          records_step fp price request past own holds.records⟩
      refine ⟨t, response :: log, ((storage fp).run_cons s t request rest _).mpr ⟨_, response, log, ?_, ran, rfl⟩, ?_⟩
      · dsimp only [storage]
        rw [answered]
        rfl
      · simpa using last

theorem append_elements {α : Type} (f : α → JSON D) (entries : List α) (read : List (JSON D)) :
    entries.foldl (fun (obj : JSON D) entry => obj.append (f entry)) (.array read) = .array (read ++ entries.map f) := by
  induction entries generalizing read with
  | nil => simp
  | cons entry entries ih =>
      rw [List.foldl_cons, JSON.append, JSON.elements, ih]
      simp

theorem holds_listed (fp : Doubles D) (s : State D) (past : List (Write Text (Price D))) (holds : Holds fp s past) :
    s.m_prices.toList.map Prod.snd = (symbols.keys.filterMap fun id => lastWrite id past).map (restored fp) := by
  have within (id : Text) (known : id ∈ s.m_prices) : id ∈ symbols.keys := by
    obtain ⟨record, found⟩ := Option.isSome_iff_exists.mp (Std.TreeMap.mem_iff_isSome_getElem?.mp known)
    rw [holds.reads] at found
    obtain ⟨price, last, _⟩ := Option.map_eq_some_iff.mp found
    obtain ⟨_, _, symbol, here, _⟩ := holds.records id price last
    exact Std.TreeMap.mem_keys.mpr (Std.TreeMap.mem_iff_isSome_getElem?.mpr (by simp [here]))
  rw [Library.list_within s.m_prices symbols.keys Std.TreeMap.ordered_keys within, List.map_filterMap, List.map_filterMap]
  refine List.filterMap_congr fun id _ => ?_
  rw [holds.reads]
  cases lastWrite id past <;> rfl

theorem holds_refines (fp : Doubles D) (s : State D) (past : List (Write Text (Price D))) (holds : Holds fp s past) :
    Refines fp s past where
  keyed := by
    intro id record found
    rw [holds.reads] at found
    obtain ⟨price, last, rfl⟩ := Option.map_eq_some_iff.mp found
    exact (holds.records id price last).2
  single := by
    intro id body
    refine ⟨_, on_http_get_price fp s id body, ?_⟩
    have sliced : ("/api/prices/".toList ++ id).drop 12 = id := rfl
    dsimp only [handleGetPriceById]
    rw [sliced]
    have read := holds.reads id
    cases last : lastWrite id past with
    | none =>
        rw [last] at read
        cases symbols[id]? with
        | none => rfl
        | some symbol =>
            rw [read]
            rfl
    | some price =>
        rw [last] at read
        obtain ⟨finite, _, symbol, known, _⟩ := holds.records id price last
        rw [known, read]
        exact ⟨rfl, restored_dump fp price finite 1⟩
  unknown := by
    intro id absent
    cases last : lastWrite id past with
    | none => rfl
    | some price =>
        obtain ⟨_, _, symbol, known, _⟩ := holds.records id price last
        exact absurd (Std.TreeMap.mem_iff_isSome_getElem?.mpr (by simp [known])) absent
  listing := by
    intro body
    refine ⟨_, on_http_get_prices fp s body, rfl, ?_⟩
    have finite : ∀ price ∈ symbols.keys.filterMap fun id => lastWrite id past, fp.Finite price.m_price := by
      intro price member
      obtain ⟨id, _, last⟩ := List.mem_filterMap.mp member
      exact (holds.records id price last).1
    have entries := append_elements (fun entry : Text × Price D => entry.2.toJsonObject) s.m_prices.toList []
    have values : s.m_prices.toList.map (fun entry => entry.2.toJsonObject) =
        ((symbols.keys.filterMap fun id => lastWrite id past).map (restored fp)).map Price.toJsonObject := by
      rw [← holds_listed fp s past holds, List.map_map]
      rfl
    dsimp only [handleGetPrices, Response.set_status, Response.set_body, JSON.dump]
    rw [entries, List.nil_append, values]
    simp only [dump]
    rw [restored_elements fp _ 1 finite]
  others := on_http_unrelated fp s

theorem price_store_last_write (fp : Doubles D) (price : Request → Price D) (requests : List Request)
    (posts : ∀ request ∈ requests, Posts fp price request) :
    ∃ s log, (storage fp).run .init requests = some (s, log) ∧ Refines fp s (requests.map (writes price)).reverse := by
  obtain ⟨s, log, ran, holds⟩ := holds_run fp price requests .init [] posts (holds_init fp)
  rw [List.append_nil] at holds
  exact ⟨s, log, ran, holds_refines fp s _ holds⟩

def teslaPrice : Price Int := ⟨"TSLA".toList, [], 1500000, 7, 1700000000000⟩

def teslaPost : Request :=
  ⟨"POST".toList, "/api/prices/a631dc6c-ee85-458d-80d7-50018aedfbad".toList, teslaPrice.toJson .micro⟩

theorem price_store_last_write_tesla :
    ∃ s log, (storage .micro).run .init [teslaPost, teslaPost] = some (s, log) ∧
      Refines .micro s ([teslaPost, teslaPost].map (writes fun _ => teslaPrice)).reverse := by
  refine price_store_last_write .micro (fun _ => teslaPrice) [teslaPost, teslaPost] fun request member _ => ?_
  simp only [List.mem_cons, List.not_mem_nil, or_false, or_self] at member
  rw [member]
  exact ⟨micro_finite 1500000, rfl⟩

end TradingFeed.Storage
