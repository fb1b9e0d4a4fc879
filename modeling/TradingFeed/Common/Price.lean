import TradingFeed.Json.RoundTrip

set_option autoImplicit false

namespace TradingFeed.Common

open TradingFeed.Json

variable {D : Type}

structure Price (D : Type) where
  m_symbol : Text
  m_symbolName : Text
  m_price : D
  m_quantity : Int32
  m_timestamp : UInt64

structure Symbol where
  m_id : Text
  m_name : Text

-- fromJson passes on what Load throws, or throws a const char* itself, which is
-- no std::exception.
inductive Thrown where
  | load (fault : LoadFault)
  | literal (text : Text)

-- The JSON value holds a long long, so the timestamp goes through a signed one.
def Price.toJsonObject (price : Price D) : JSON D :=
  let obj : JSON D := (JSON.object []).assign "symbol".toList (.string price.m_symbol)
  let obj := obj.assign "symbolName".toList (.string price.m_symbolName)
  let obj := obj.assign "price".toList (.floating price.m_price)
  let obj := obj.assign "quantity".toList (.integral price.m_quantity.toInt)
  obj.assign "timestamp".toList (.integral price.m_timestamp.toInt64.toInt)

def Price.toJson (fp : Doubles D) (price : Price D) : Text := price.toJsonObject.dump fp

def Symbol.toJsonObject (symbol : Symbol) : JSON D :=
  let obj : JSON D := (JSON.object []).assign "id".toList (.string symbol.m_id)
  obj.assign "symbolName".toList (.string symbol.m_name)

def Symbol.toJson (fp : Doubles D) (symbol : Symbol) : Text := (symbol.toJsonObject : JSON D).dump fp

-- All fields are assigned, so nothing of the object the method is called on is left.
def Price.fromJson (fp : Doubles D) (jsonStr : Text) : Except Thrown (Price D) :=
  match load fp jsonStr with
  | .error fault => .error (.load fault)
  | .ok .null => .error (.literal "can not parse json".toList)
  | .ok obj =>
      .ok {
        m_symbol := (obj.index "symbol".toList).asText
        m_symbolName := (obj.index "symbolName".toList).asText
        m_quantity := Int32.ofInt (obj.index "quantity".toList).asInt
        m_timestamp := (Int64.ofInt (obj.index "timestamp".toList).asInt).toUInt64
        m_price :=
          match obj.index "price".toList with
          | .floating d => d
          | priceObj => fp.ofInt priceObj.asInt }

def Symbol.fromJson (fp : Doubles D) (jsonStr : Text) : Except Thrown Symbol :=
  match load fp jsonStr with
  | .error fault => .error (.load fault)
  | .ok .null => .error (.literal "can not parse json".toList)
  | .ok obj =>
      .ok {
        m_id := (obj.index "id".toList).asText
        m_name := (obj.index "symbolName".toList).asText }

theorem from_json_loaded (fp : Doubles D) (jsonStr : Text) (json : JSON D) (loaded : load fp jsonStr = .ok json)
    (filled : json ≠ .null) : Price.fromJson fp jsonStr = .ok {
      m_symbol := (json.index "symbol".toList).asText
      m_symbolName := (json.index "symbolName".toList).asText
      m_quantity := Int32.ofInt (json.index "quantity".toList).asInt
      m_timestamp := (Int64.ofInt (json.index "timestamp".toList).asInt).toUInt64
      m_price := match json.index "price".toList with
        | .floating d => d
        | priceObj => fp.ofInt priceObj.asInt } := by
  cases json with
  | null => exact absurd rfl filled
  | _ =>
      dsimp only [Price.fromJson]
      generalize load fp jsonStr = outcome at loaded
      cases loaded
      rfl

theorem int32_keeps_iff (n : Int) : (Int32.ofInt n).toInt = n ↔ -2 ^ 31 ≤ n ∧ n < 2 ^ 31 := by
  constructor
  · intro same
    have low := (Int32.ofInt n).le_toInt
    have high := (Int32.ofInt n).toInt_lt
    rw [same] at low high
    exact ⟨low, high⟩
  · intro ⟨low, high⟩
    exact Int32.toInt_ofInt_of_le low high

theorem uint64_keeps_iff (n : Int) (fits : fitsLongLong n = true) :
    ((Int64.ofInt n).toUInt64.toNat : Int) = n ↔ 0 ≤ n := by
  constructor
  · intro same
    rw [← same]
    exact Int.natCast_nonneg _
  · intro positive
    simp only [fitsLongLong, Bool.and_eq_true, decide_eq_true_eq] at fits
    have read : (Int64.ofInt n).toUInt64.toNat = (BitVec.ofInt 64 n).toNat := rfl
    rw [read, BitVec.toNat_ofInt]
    omega

theorem int32_fits (n : Int32) : fitsLongLong n.toInt = true := by
  have low := n.le_toInt
  have high := n.toInt_lt
  simp only [fitsLongLong, Bool.and_eq_true, decide_eq_true_eq]
  omega

theorem int64_fits (n : Int64) : fitsLongLong n.toInt = true := by
  have low := n.le_toInt
  have high := n.toInt_lt
  simp only [fitsLongLong, Bool.and_eq_true, decide_eq_true_eq]
  omega

theorem price_printable (fp : Doubles D) (price : Price D) (finite : fp.Finite price.m_price) :
    Printable fp price.toJsonObject :=
  ⟨rfl, finite, rfl, int32_fits price.m_quantity, rfl, trivial, rfl, trivial, rfl,
    int64_fits price.m_timestamp.toInt64, trivial⟩

theorem timestamp_back (timestamp : UInt64) : (Int64.ofInt timestamp.toInt64.toInt).toUInt64 = timestamp := by
  rw [Int64.ofInt_toInt, UInt64.toUInt64_toInt64]

theorem from_json_to_json (fp : Doubles D) (price : Price D) (finite : fp.Finite price.m_price) :
    Price.fromJson fp (price.toJson fp) = .ok {
      m_symbol := jsonEscape price.m_symbol
      m_symbolName := jsonEscape price.m_symbolName
      m_price := fp.reread price.m_price
      m_quantity := price.m_quantity
      m_timestamp := price.m_timestamp } := by
  have loaded := load_dump fp price.toJsonObject (price_printable fp price finite) (fun number => number)
  have object : reloaded fp price.toJsonObject = .object [("price".toList, .floating (fp.reread price.m_price)),
      ("quantity".toList, .integral price.m_quantity.toInt), ("symbol".toList, .string price.m_symbol),
      ("symbolName".toList, .string price.m_symbolName),
      ("timestamp".toList, .integral price.m_timestamp.toInt64.toInt)] := rfl
  rw [object] at loaded
  simp only [Price.fromJson, Price.toJson, loaded]
  have quantity : Int32.ofInt price.m_quantity.toInt = price.m_quantity := Int32.ofInt_toInt _
  have timestamp := timestamp_back price.m_timestamp
  change Except.ok (⟨jsonEscape price.m_symbol, jsonEscape price.m_symbolName, fp.reread price.m_price,
    Int32.ofInt price.m_quantity.toInt, (Int64.ofInt price.m_timestamp.toInt64.toInt).toUInt64⟩ : Price D) = _
  rw [quantity, timestamp]

end TradingFeed.Common
