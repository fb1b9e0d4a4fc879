import TradingFeed.Common.Price
import TradingFeed.Json.Reload

set_option autoImplicit false

namespace TradingFeed.Common

open TradingFeed.Json

variable {D : Type}

structure DataProviderMessage (D : Type) where
  m_symbol : Text
  m_symbolName : Text
  m_price : D
  m_quantity : Int32
  m_timestamp : UInt64

-- Only a symbolName that is not empty is printed.
def DataProviderMessage.toJsonObject (message : DataProviderMessage D) : JSON D :=
  let obj : JSON D := (JSON.object []).assign "symbol".toList (.string message.m_symbol)
  let obj := if message.m_symbolName ≠ [] then obj.assign "symbolName".toList (.string message.m_symbolName) else obj
  let obj := obj.assign "price".toList (.floating message.m_price)
  let obj := obj.assign "quantity".toList (.integral message.m_quantity.toInt)
  obj.assign "timestamp".toList (.integral message.m_timestamp.toInt64.toInt)

def DataProviderMessage.toJson (fp : Doubles D) (message : DataProviderMessage D) : Text :=
  message.toJsonObject.dump fp

def DataProviderMessage.new (fp : Doubles D) : DataProviderMessage D := ⟨[], [], fp.zero, 0, 0⟩

-- The object keeps its symbolName where the text has no "name".
def DataProviderMessage.fromJson (fp : Doubles D) (message : DataProviderMessage D) (jsonStr : Text) :
    Except Thrown (DataProviderMessage D) :=
  match load fp jsonStr with
  | .error fault => .error (.load fault)
  | .ok .null => .error (.literal "can not parse json".toList)
  | .ok obj =>
      .ok {
        m_symbol := (obj.index "symbol".toList).asText
        m_symbolName :=
          if (obj.index "name".toList).asText ≠ [] then (obj.index "symbolName".toList).asText else message.m_symbolName
        m_quantity := Int32.ofInt (obj.index "quantity".toList).asInt
        m_timestamp := (Int64.ofInt (obj.index "timestamp".toList).asInt).toUInt64
        m_price :=
          match obj.index "price".toList with
          | .floating d => d
          | priceObj => fp.ofInt priceObj.asInt }

-- m_timestampDifference is set and read in the data provider alone.
structure TimedMessage (D : Type) extends DataProviderMessage D where
  m_timestampDifference : Int32

-- `now` is what the system clock reads, in milliseconds.
def TimedMessage.updateTimestamp (message : TimedMessage D) (now : Int64) : TimedMessage D :=
  { message with m_timestamp := (now + message.m_timestampDifference.toInt64).toUInt64 }

-- The constructor without a symbolName, which reads the clock once.
def TimedMessage.new (symbol : Text) (price : D) (quantity timestampDifference : Int32) (now : Int64) : TimedMessage D :=
  TimedMessage.updateTimestamp ⟨⟨symbol, [], price, quantity, 0⟩, timestampDifference⟩ now

theorem update_twice (message : TimedMessage D) (first second : Int64) :
    (message.updateTimestamp first).updateTimestamp second = message.updateTimestamp second := rfl

theorem message_printable (fp : Doubles D) (message : DataProviderMessage D) (finite : fp.Finite message.m_price) :
    Printable fp message.toJsonObject := by
  have quantity := int32_fits message.m_quantity
  have timestamp := int64_fits message.m_timestamp.toInt64
  dsimp only [DataProviderMessage.toJsonObject]
  split
  · exact ⟨rfl, finite, rfl, quantity, rfl, trivial, rfl, trivial, rfl, timestamp, trivial⟩
  · exact ⟨rfl, finite, rfl, quantity, rfl, trivial, rfl, timestamp, trivial⟩

theorem message_ordered (message : DataProviderMessage D) : Ordered message.toJsonObject := by
  have symbol : Ordered ((JSON.object []).assign "symbol".toList (.string message.m_symbol : JSON D)) :=
    assign_ordered _ _ _ ⟨List.Pairwise.nil, trivial⟩ trivial
  dsimp only [DataProviderMessage.toJsonObject]
  split
  · exact assign_ordered _ _ _ (assign_ordered _ _ _ (assign_ordered _ _ _ (assign_ordered _ _ _ symbol trivial)
      trivial) trivial) trivial
  · exact assign_ordered _ _ _ (assign_ordered _ _ _ (assign_ordered _ _ _ symbol trivial) trivial) trivial

theorem message_no_number (message : DataProviderMessage D) : ¬Number message.toJsonObject := fun number => number

end TradingFeed.Common
