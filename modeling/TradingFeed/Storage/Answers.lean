import TradingFeed.Json.Printed
import TradingFeed.Storage.Protocol
import TradingFeed.Storage.Store

set_option autoImplicit false

namespace TradingFeed.Storage

open TradingFeed.Json TradingFeed.Common

variable {D : Type}

def Tabled (s : State D) : Prop :=
  ∀ (id : Text) (record : Price D), s.m_prices[id]? = some record →
    record.m_symbol = id ∧ ∃ symbol, symbols[id]? = some symbol ∧ record.m_symbolName = symbol.m_name

theorem tabled_init : Tabled (.init : State D) := fun id record found => by simp [State.init] at found

theorem tabled_stored (s : State D) (id : Text) (symbol : Symbol) (read : Price D) (known : symbols[id]? = some symbol)
    (tabled : Tabled s) :
    Tabled ⟨s.m_prices.insert id { read with m_symbol := id, m_symbolName := symbol.m_name }⟩ := by
  intro other record found
  by_cases same : other = id
  · subst same
    simp only [Std.TreeMap.getElem?_insert_self, Option.some.injEq] at found
    subst found
    exact ⟨rfl, symbol, known, rfl⟩
  · have apart : compare id other ≠ .eq := fun equal => same (Std.LawfulEqCmp.eq_of_compare equal).symm
    rw [Std.TreeMap.getElem?_insert, if_neg apart] at found
    exact tabled other record found

theorem post_outcome (fp : Doubles D) (s t : State D) (req body : Text) (response : Response)
    (answered : handlePostPrice fp s req body = .ok (t, response)) :
    response.body = [] ∧ (t = s ∨ ∃ (id : Text) (symbol : Symbol) (read : Price D), symbols[id]? = some symbol ∧
      t = ⟨s.m_prices.insert id { read with m_symbol := id, m_symbolName := symbol.m_name }⟩) := by
  dsimp only [handlePostPrice] at answered
  split at answered
  · cases answered
    exact ⟨rfl, Or.inl rfl⟩
  · rename_i symbol known
    split at answered
    · rename_i read parsed
      cases answered
      exact ⟨rfl, Or.inr ⟨_, symbol, read, known, rfl⟩⟩
    · cases answered
      exact ⟨rfl, Or.inl rfl⟩
    · cases answered
      exact ⟨rfl, Or.inl rfl⟩
    · cases answered

theorem tabled_step (fp : Doubles D) (s t : State D) (request : Request) (response : Response) (tabled : Tabled s)
    (answered : onHttp fp s request = .ok (t, response)) : Tabled t := by
  rw [on_http_dispatch] at answered
  split at answered
  · rename_i handler _
    cases handler with
    | handlePostPrice id =>
        obtain ⟨_, rfl | ⟨id, symbol, read, known, rfl⟩⟩ := post_outcome fp s t _ _ response answered
        · exact tabled
        · exact tabled_stored s id symbol read known tabled
    | handleDeletePrices =>
        cases answered
        exact tabled_init
    | _ =>
        cases answered
        exact tabled
  · cases answered
    exact tabled

theorem reachable_tabled (fp : Doubles D) (s : State D) (reach : (storage fp).Reachable .init s) : Tabled s := by
  refine (storage fp).reachable_invariant .init Tabled tabled_init (fun s request t response tabled taken => ?_) s reach
  dsimp only [storage] at taken
  cases answered : onHttp fp s request with
  | error thrown =>
      rw [answered] at taken
      cases taken
  | ok pair =>
      rw [answered] at taken
      cases taken
      exact tabled_step fp s t request response tabled answered

def Answer (fp : Doubles D) (json : JSON D) : Prop := Keyed json ∧ DecimalDoubles fp json ∧ ClearStrings json

theorem clear_plain (text : Text) (plain : text.all fun c => ' ' ≤ c) : Clear text := fun c member =>
  Or.inl (of_decide_eq_true (List.all_eq_true.mp plain c member))

theorem symbols_clear (id : Text) (symbol : Symbol) (known : symbols[id]? = some symbol) :
    Clear symbol.m_id ∧ Clear symbol.m_name ∧ Clear id := by
  have all : (symbols.toList.all fun entry => (entry.2.m_id.all fun c => ' ' ≤ c) && (entry.2.m_name.all fun c => ' ' ≤ c) &&
      (entry.1.all fun c => ' ' ≤ c)) = true := by decide +kernel
  have here := List.all_eq_true.mp all (id, symbol) (Std.TreeMap.mem_toList_iff_getElem?_eq_some.mpr known)
  simp only [Bool.and_eq_true] at here
  exact ⟨clear_plain _ here.1.1, clear_plain _ here.1.2, clear_plain _ here.2⟩

theorem symbol_answer (fp : Doubles D) (id : Text) (symbol : Symbol) (known : symbols[id]? = some symbol) :
    Answer fp (symbol.toJsonObject : JSON D) := by
  obtain ⟨idClear, nameClear, _⟩ := symbols_clear id symbol known
  have idPrinted : ∀ c ∈ "id".toList, Library.JsonGrammar.isPrinted c = true := List.all_eq_true.mp rfl
  have namePrinted : ∀ c ∈ "symbolName".toList, Library.JsonGrammar.isPrinted c = true := List.all_eq_true.mp rfl
  exact ⟨⟨⟨"id".toList, rfl⟩, trivial, ⟨"symbolName".toList, rfl⟩, trivial, trivial⟩, ⟨trivial, trivial, trivial⟩,
    idPrinted, idClear, namePrinted, nameClear, trivial⟩

theorem price_answer (fp : Doubles D) (s : State D) (id : Text) (price : Price D) (tabled : Tabled s)
    (found : s.m_prices[id]? = some price) (decimal : Decimal fp price.m_price) : Answer fp price.toJsonObject := by
  obtain ⟨same, symbol, known, name⟩ := tabled id price found
  obtain ⟨_, nameClear, idClear⟩ := symbols_clear id symbol known
  rw [← same] at idClear
  rw [← name] at nameClear
  have printed : ∀ key ∈ ["price".toList, "quantity".toList, "symbol".toList, "symbolName".toList, "timestamp".toList],
      ∀ c ∈ key, Library.JsonGrammar.isPrinted c = true := fun key member =>
    List.all_eq_true.mp ((List.all_eq_true (p := fun key => key.all Library.JsonGrammar.isPrinted)).mp rfl key member)
  exact ⟨⟨⟨"price".toList, rfl⟩, trivial, ⟨"quantity".toList, rfl⟩, trivial, ⟨"symbol".toList, rfl⟩, trivial,
    ⟨"symbolName".toList, rfl⟩, trivial, ⟨"timestamp".toList, rfl⟩, trivial, trivial⟩,
    ⟨decimal, trivial, trivial, trivial, trivial, trivial⟩,
    printed _ (by simp), trivial, printed _ (by simp), trivial, printed _ (by simp), idClear, printed _ (by simp),
    nameClear, printed _ (by simp), trivial, trivial⟩

theorem answer_array (fp : Doubles D) (elements : List (JSON D)) (all : ∀ json ∈ elements, Answer fp json) :
    Answer fp (.array elements) := by
  induction elements with
  | nil => exact ⟨trivial, trivial, trivial⟩
  | cons json elements ih =>
      obtain ⟨keyed, decimal, clear⟩ := all json List.mem_cons_self
      obtain ⟨keyedRest, decimalRest, clearRest⟩ := ih fun other member => all other (List.mem_cons_of_mem _ member)
      exact ⟨⟨keyed, keyedRest⟩, ⟨decimal, decimalRest⟩, ⟨clear, clearRest⟩⟩

theorem answer_valid (fp : Doubles D) (json : JSON D) (answer : Answer fp json) : Valid (json.dump fp) :=
  clear_valid fp json answer.1 answer.2.1 answer.2.2

theorem get_symbols_valid (fp : Doubles D) : Valid (handleGetSymbols fp).body := by
  have entries := append_elements (fun entry : Text × Symbol => (entry.2.toJsonObject : JSON D)) symbols.toList []
  dsimp only [handleGetSymbols, Response.set_status, Response.set_body]
  rw [entries, List.nil_append]
  refine answer_valid fp _ (answer_array fp _ fun json member => ?_)
  obtain ⟨⟨id, symbol⟩, among, rfl⟩ := List.mem_map.mp member
  exact symbol_answer fp id symbol (Std.TreeMap.mem_toList_iff_getElem?_eq_some.mp among)

theorem get_prices_valid (fp : Doubles D) (s : State D) (tabled : Tabled s)
    (decimal : ∀ (id : Text) (price : Price D), s.m_prices[id]? = some price → Decimal fp price.m_price) :
    Valid (handleGetPrices fp s).body := by
  have entries := append_elements (fun entry : Text × Price D => entry.2.toJsonObject) s.m_prices.toList []
  dsimp only [handleGetPrices, Response.set_status, Response.set_body]
  rw [entries, List.nil_append]
  refine answer_valid fp _ (answer_array fp _ fun json member => ?_)
  obtain ⟨⟨id, price⟩, among, rfl⟩ := List.mem_map.mp member
  have found := Std.TreeMap.mem_toList_iff_getElem?_eq_some.mp among
  exact price_answer fp s id price tabled found (decimal id price found)

theorem answers_valid (fp : Doubles D) (s t : State D) (reach : (storage fp).Reachable .init s)
    (decimal : ∀ (id : Text) (price : Price D), s.m_prices[id]? = some price → Decimal fp price.m_price) (request : Request)
    (response : Response) (answered : onHttp fp s request = .ok (t, response)) :
    response.body = [] ∨ Valid response.body := by
  have tabled := reachable_tabled fp s reach
  rw [on_http_dispatch] at answered
  split at answered
  · rename_i handler _
    cases handler with
    | handleGetSymbols =>
        cases answered
        exact Or.inr (get_symbols_valid fp)
    | handleGetSymbolById id =>
        cases answered
        dsimp only [handleGetSymbolById]
        split
        · rename_i symbol known
          exact Or.inr (answer_valid fp _ (symbol_answer fp _ symbol known))
        · exact Or.inl rfl
    | handleGetPrices =>
        cases answered
        exact Or.inr (get_prices_valid fp s tabled decimal)
    | handleGetPriceById id =>
        cases answered
        dsimp only [handleGetPriceById]
        split
        · exact Or.inl rfl
        · split
          · exact Or.inl rfl
          · rename_i price found
            exact Or.inr (answer_valid fp _ (price_answer fp s _ price tabled found (decimal _ price found)))
    | handleDeletePrices =>
        cases answered
        exact Or.inl rfl
    | handlePostPrice id => exact Or.inl (post_outcome fp s t _ _ response answered).1
  · cases answered
    exact Or.inl rfl

def listing : Request := ⟨"GET".toList, "/api/prices".toList, []⟩

theorem answers_valid_tesla : ∃ (s : State Int) (log : List Response),
    (storage Doubles.micro).run .init [teslaPost] = some (s, log) ∧ s.m_prices.size = 1 ∧
    ((handleGetPrices Doubles.micro s).body = [] ∨ Valid (handleGetPrices Doubles.micro s).body) := by
  obtain ⟨s, log, ran, stored⟩ := (storage Doubles.micro).run_check .init [teslaPost] (fun done => done.1.m_prices.size = 1)
    (by decide +kernel)
  exact ⟨s, log, ran, of_decide_eq_true stored,
    answers_valid Doubles.micro s s ⟨_, log, ran⟩ (fun _ price _ => micro_decimal price.m_price) listing _ rfl⟩

end TradingFeed.Storage
