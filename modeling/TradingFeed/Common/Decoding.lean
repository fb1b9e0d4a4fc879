import TradingFeed.Common.DataProviderMessage
import TradingFeed.Json.NonFinite

set_option autoImplicit false

namespace TradingFeed.Common

open TradingFeed.Json

variable {D : Type}

def escaped : List Char := ['"', '\\', '\x08', '\x0c', '\n', '\r', '\t']

def Unescaped (text : Text) : Prop := ∀ c ∈ text, c ∉ escaped

theorem escape_kept (c : Char) (kept : c ∉ escaped) : escapeChar c = [c] := by
  simp only [escaped, List.mem_cons, List.not_mem_nil, or_false, not_or] at kept
  unfold escapeChar
  split <;> simp_all

theorem escape_rewritten (c : Char) (rewritten : c ∈ escaped) : ∃ letter, escapeChar c = ['\\', letter] := by
  simp only [escaped, List.mem_cons, List.not_mem_nil, or_false] at rewritten
  rcases rewritten with rfl | rfl | rfl | rfl | rfl | rfl | rfl <;> exact ⟨_, rfl⟩

theorem escape_length (text : Text) : text.length ≤ (jsonEscape text).length := by
  induction text with
  | nil => exact Nat.le_refl _
  | cons c text ih =>
      have first : 1 ≤ (escapeChar c).length := by
        by_cases kept : c ∈ escaped
        · obtain ⟨letter, two⟩ := escape_rewritten c kept
          simp [two]
        · simp [escape_kept c kept]
      rw [json_escape_cons, List.length_append, List.length_cons]
      omega

theorem plain_iff (text : Text) : Plain text ↔ Unescaped text := by
  induction text with
  | nil => exact ⟨fun _ _ member => absurd member List.not_mem_nil, fun _ => rfl⟩
  | cons c text ih =>
      dsimp only [Plain] at ih ⊢
      by_cases rewritten : c ∈ escaped
      · obtain ⟨letter, two⟩ := escape_rewritten c rewritten
        refine ⟨fun same => absurd (congrArg List.length same) ?_, fun all => absurd rewritten (all c List.mem_cons_self)⟩
        have grows := escape_length text
        rw [json_escape_cons, two]
        simp only [List.length_append, List.length_cons, List.length_nil]
        omega
      · rw [json_escape_cons, escape_kept c rewritten, List.singleton_append, List.cons_inj_right, ih]
        exact ⟨fun all => List.forall_mem_cons.mpr ⟨rewritten, all⟩, fun all => (List.forall_mem_cons.mp all).2⟩

structure Price.Restored (price read : Price D) : Prop where
  symbol : read.m_symbol = price.m_symbol
  symbolName : read.m_symbolName = price.m_symbolName
  quantity : read.m_quantity = price.m_quantity
  timestamp : read.m_timestamp = price.m_timestamp

theorem price_non_finite (fp : Doubles D) (price : Price D) (member : fp.toText price.m_price ∈ nonFinite) :
    Price.fromJson fp (price.toJson fp) = .ok ⟨[], [], fp.ofInt 0, 0, 0⟩ := by
  have loaded : load fp (price.toJson fp) = .ok (.object [("price".toList, .null)]) :=
    load_non_finite fp "price".toList price.m_price _ rfl member
  rw [Price.fromJson, loaded]
  rfl

theorem price_restored_iff (fp : Doubles D) (classified : fp.Classified) (price : Price D) :
    (∃ read, Price.fromJson fp (price.toJson fp) = .ok read ∧ price.Restored read) ↔
      fp.Finite price.m_price ∧ Unescaped price.m_symbol ∧ Unescaped price.m_symbolName ∨
        ¬fp.Finite price.m_price ∧ price.m_symbol = [] ∧ price.m_symbolName = [] ∧ price.m_quantity = 0 ∧
          price.m_timestamp = 0 := by
  cases classified.texts price.m_price with
  | inl finite =>
      have read := from_json_to_json fp price finite
      simp only [read, Except.ok.injEq, exists_eq_left', finite, true_and, not_true_eq_false, false_and, or_false,
        ← plain_iff]
      exact ⟨fun restored => ⟨restored.symbol, restored.symbolName⟩, fun plain => ⟨plain.1, plain.2, rfl, rfl⟩⟩
  | inr member =>
      have infinite : ¬fp.Finite price.m_price := fun finite => finite_text fp price.m_price finite member
      simp only [price_non_finite fp price member, Except.ok.injEq, exists_eq_left', infinite, false_and, not_false_eq_true,
        true_and, false_or]
      refine ⟨fun restored => ?_, fun empty => ?_⟩
      · exact ⟨restored.symbol.symm, restored.symbolName.symm, restored.quantity.symm, restored.timestamp.symm⟩
      · exact ⟨empty.1.symm, empty.2.1.symm, empty.2.2.1.symm, empty.2.2.2.symm⟩

theorem symbol_from_json (fp : Doubles D) (symbol : Symbol) :
    Symbol.fromJson fp (symbol.toJson fp) = .ok ⟨jsonEscape symbol.m_id, jsonEscape symbol.m_name⟩ := by
  have printable : Printable fp (symbol.toJsonObject : JSON D) := ⟨rfl, trivial, rfl, trivial, trivial⟩
  have loaded : load fp (symbol.toJson fp) = .ok (reloaded fp symbol.toJsonObject) :=
    load_dump fp symbol.toJsonObject printable fun number => number
  rw [Symbol.fromJson, loaded]
  rfl

theorem symbol_restored_iff (fp : Doubles D) (symbol : Symbol) :
    Symbol.fromJson fp (symbol.toJson fp) = .ok symbol ↔ Unescaped symbol.m_id ∧ Unescaped symbol.m_name := by
  obtain ⟨id, name⟩ := symbol
  rw [symbol_from_json, Except.ok.injEq, Symbol.mk.injEq, ← plain_iff, ← plain_iff]
  exact Iff.rfl

theorem decoding_restores_iff (fp : Doubles D) (classified : fp.Classified) :
    (∀ price : Price D, (∃ read, Price.fromJson fp (price.toJson fp) = .ok read ∧ price.Restored read) ↔
      fp.Finite price.m_price ∧ Unescaped price.m_symbol ∧ Unescaped price.m_symbolName ∨
        ¬fp.Finite price.m_price ∧ price.m_symbol = [] ∧ price.m_symbolName = [] ∧ price.m_quantity = 0 ∧
          price.m_timestamp = 0) ∧
      ∀ symbol : Symbol, (∃ read, Symbol.fromJson fp (symbol.toJson fp) = .ok read ∧ read.m_id = symbol.m_id ∧
        read.m_name = symbol.m_name) ↔ Unescaped symbol.m_id ∧ Unescaped symbol.m_name := by
  refine ⟨price_restored_iff fp classified, fun symbol => ?_⟩
  rw [← symbol_restored_iff fp symbol]
  refine ⟨fun ⟨read, decoded, id, name⟩ => ?_, fun decoded => ⟨symbol, decoded, rfl, rfl⟩⟩
  rw [decoded]
  cases read
  cases id
  cases name
  rfl

theorem micro_classified : Doubles.micro.Classified where
  texts := fun n => Or.inl (micro_finite n)
  whole := fun n _ => micro_finite (Doubles.micro.ofInt n)

def quoted : Text := "A\"B".toList

theorem decoding_restores_iff_micro :
    (∀ price : Price Int, (∃ read, Price.fromJson .micro (price.toJson .micro) = .ok read ∧ price.Restored read) ↔
      Doubles.micro.Finite price.m_price ∧ Unescaped price.m_symbol ∧ Unescaped price.m_symbolName ∨
        ¬Doubles.micro.Finite price.m_price ∧ price.m_symbol = [] ∧ price.m_symbolName = [] ∧ price.m_quantity = 0 ∧
          price.m_timestamp = 0) ∧
      ∀ symbol : Symbol, (∃ read, Symbol.fromJson .micro (symbol.toJson .micro) = .ok read ∧ read.m_id = symbol.m_id ∧
        read.m_name = symbol.m_name) ↔ Unescaped symbol.m_id ∧ Unescaped symbol.m_name :=
  decoding_restores_iff .micro micro_classified

-- dump escapes the quotation mark, the parser takes that back, and ToString
-- escapes it once more.
theorem quote_decoded_escaped :
    (¬∀ price : Price Int, ∃ read, Price.fromJson .micro (price.toJson .micro) = .ok read ∧ price.Restored read) ∧
      ¬∀ symbol : Symbol, ∃ read, Symbol.fromJson .micro (symbol.toJson .micro) = .ok read ∧ read.m_id = symbol.m_id ∧
        read.m_name = symbol.m_name := by
  refine ⟨fun claim => ?_, fun claim => ?_⟩
  · obtain ⟨read, decoded, restored⟩ := claim ⟨"TSLA".toList, quoted, 101500000, 10, 1700000000000⟩
    rw [from_json_to_json .micro _ (micro_finite 101500000)] at decoded
    cases decoded
    exact absurd restored.symbolName (by decide)
  · obtain ⟨read, decoded, _, name⟩ := claim ⟨"TSLA".toList, quoted⟩
    rw [symbol_from_json .micro] at decoded
    cases decoded
    exact absurd name (by decide)

structure DataProviderMessage.Restored (fp : Doubles D) (message read : DataProviderMessage D) : Prop where
  symbol : read.m_symbol = message.m_symbol
  symbolName : read.m_symbolName = message.m_symbolName
  quantity : read.m_quantity = message.m_quantity
  timestamp : read.m_timestamp = message.m_timestamp
  price : fp.toText read.m_price = fp.toText message.m_price

-- toJson never prints the "name" that fromJson tests, so no symbolName is read back.
theorem message_from_json (fp : Doubles D) (receiver message : DataProviderMessage D) (finite : fp.Finite message.m_price) :
    DataProviderMessage.fromJson fp receiver (message.toJson fp) = .ok {
      m_symbol := jsonEscape message.m_symbol
      m_symbolName := receiver.m_symbolName
      m_price := fp.reread message.m_price
      m_quantity := message.m_quantity
      m_timestamp := message.m_timestamp } := by
  have loaded := load_dump fp message.toJsonObject (message_printable fp message finite) (message_no_number message)
  have quantity : Int32.ofInt message.m_quantity.toInt = message.m_quantity := Int32.ofInt_toInt _
  have timestamp := timestamp_back message.m_timestamp
  have object : reloaded fp message.toJsonObject = .object (("price".toList, .floating (fp.reread message.m_price)) ::
      ("quantity".toList, .integral message.m_quantity.toInt) :: ("symbol".toList, .string message.m_symbol) ::
      ((if message.m_symbolName ≠ [] then [("symbolName".toList, .string message.m_symbolName)] else []) ++
        [("timestamp".toList, .integral message.m_timestamp.toInt64.toInt)])) := by
    dsimp only [DataProviderMessage.toJsonObject]
    split <;> rfl
  rw [object] at loaded
  simp only [DataProviderMessage.fromJson, DataProviderMessage.toJson, loaded]
  have fields : DataProviderMessage.mk (jsonEscape message.m_symbol) receiver.m_symbolName (fp.reread message.m_price)
      (Int32.ofInt message.m_quantity.toInt) (Int64.ofInt message.m_timestamp.toInt64.toInt).toUInt64 =
        ⟨jsonEscape message.m_symbol, receiver.m_symbolName, fp.reread message.m_price, message.m_quantity,
          message.m_timestamp⟩ := by
    rw [quantity, timestamp]
  rw [← fields]
  split <;> rfl

theorem message_non_finite (fp : Doubles D) (receiver message : DataProviderMessage D)
    (member : fp.toText message.m_price ∈ nonFinite) :
    DataProviderMessage.fromJson fp receiver (message.toJson fp) = .ok ⟨[], receiver.m_symbolName, fp.ofInt 0, 0, 0⟩ := by
  have object : ∃ entries, message.toJsonObject = .object (("price".toList, .floating message.m_price) :: entries) := by
    dsimp only [DataProviderMessage.toJsonObject]
    split <;> exact ⟨_, rfl⟩
  obtain ⟨entries, shape⟩ := object
  have loaded : load fp (message.toJson fp) = .ok (.object [("price".toList, .null)]) := by
    rw [DataProviderMessage.toJson, shape]
    exact load_non_finite fp "price".toList message.m_price entries rfl member
  rw [DataProviderMessage.fromJson, loaded]
  rfl

theorem message_restored_iff (fp : Doubles D) (classified : fp.Classified) (message : DataProviderMessage D)
    (symbol : Unescaped message.m_symbol) :
    (∃ read, DataProviderMessage.fromJson fp (.new fp) (message.toJson fp) = .ok read ∧ message.Restored fp read) ↔
      message.m_symbolName = [] ∧ fp.Finite message.m_price := by
  cases classified.texts message.m_price with
  | inl finite =>
      simp only [message_from_json fp (.new fp) message finite, Except.ok.injEq, exists_eq_left', finite, and_true]
      refine ⟨fun restored => restored.symbolName.symm, fun unnamed => ?_⟩
      exact ⟨(plain_iff message.m_symbol).mpr symbol, unnamed.symm, rfl, rfl, reread_text fp message.m_price finite⟩
  | inr member =>
      have infinite : ¬fp.Finite message.m_price := fun finite => finite_text fp message.m_price finite member
      simp only [message_non_finite fp (.new fp) message member, Except.ok.injEq, exists_eq_left', infinite, and_false,
        iff_false]
      intro restored
      have zero := finite_text fp (fp.ofInt 0) (classified.whole 0 rfl)
      rw [restored.price] at zero
      exact zero member

theorem message_restored_iff_unnamed :
    (∃ read, DataProviderMessage.fromJson .micro (.new .micro)
      (DataProviderMessage.toJson .micro ⟨"TSLA".toList, [], 101500000, 10, 1700000000000⟩) = .ok read ∧
        DataProviderMessage.Restored .micro ⟨"TSLA".toList, [], 101500000, 10, 1700000000000⟩ read) ↔
      ([] : Text) = [] ∧ Doubles.micro.Finite 101500000 :=
  message_restored_iff .micro micro_classified ⟨"TSLA".toList, [], 101500000, 10, 1700000000000⟩
    ((plain_iff _).mp rfl)

-- The name "Tesla" is printed under a key that fromJson reads only behind another one.
theorem symbol_name_dropped :
    ¬∀ message : DataProviderMessage Int, Unescaped message.m_symbol → Unescaped message.m_symbolName →
      ∃ read, DataProviderMessage.fromJson .micro (.new .micro) (message.toJson .micro) = .ok read ∧
        message.Restored .micro read := by
  intro claim
  obtain ⟨read, decoded, restored⟩ := claim ⟨"TSLA".toList, "Tesla".toList, 101500000, 10, 1700000000000⟩
    ((plain_iff _).mp rfl) ((plain_iff _).mp rfl)
  rw [message_from_json .micro _ _ (micro_finite 101500000)] at decoded
  cases decoded
  exact absurd restored.symbolName (by decide)

end TradingFeed.Common
