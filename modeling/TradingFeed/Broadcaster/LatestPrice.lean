import TradingFeed.Broadcaster.Callback
import TradingFeed.Common.Price
import TradingFeed.Json.NonFinite
import TradingFeed.Json.Ranges

set_option autoImplicit false

namespace TradingFeed.Broadcaster

open TradingFeed.Json TradingFeed.Common

variable {D : Type}

-- What std::to_string prints of a double: finite ones in decimal digits, whole
-- numbers as themselves, and the others as one of four words.
structure Prints (fp : Doubles D) : Prop where
  zero : fp.Finite fp.zero
  whole : ∀ n, fp.toText (fp.ofInt n) = fp.toText fp.zero ↔ n = 0
  words : ∀ d, fp.Finite d ∨ fp.toText d ∈ ["inf".toList, "-inf".toList, "nan".toList, "-nan".toList]

structure PriceMessage (fp : Doubles D) (text : Text) where
  message : JSON D
  symbol : Text
  quantity : Int
  timestamp : Int
  price : JSON D
  loaded : load fp text = .ok message
  symbolIs : message.index "symbol".toList = .string symbol
  quantityIs : message.index "quantity".toList = .integral quantity
  timestampIs : message.index "timestamp".toList = .integral timestamp
  priceIs : message.index "price".toList = price
  numeric : Number price

def amount (fp : Doubles D) : JSON D → D
  | .floating d => d
  | .integral n => fp.ofInt n
  | _ => fp.zero

structure Repeats (fp : Doubles D) {text : Text} (m : PriceMessage fp text) (record : JSON D) : Prop where
  object : record = .object record.members
  symbol : record.index "symbol".toList = .string m.symbol
  quantity : record.index "quantity".toList = .integral m.quantity
  timestamp : record.index "timestamp".toList = .integral m.timestamp
  lastprice : record.index "lastprice".toList = .boolean true
  price : ∃ d, record.index "price".toList = .floating d ∧ fp.toText d = fp.toText (amount fp m.price)

structure Reads (fp : Doubles D) {text : Text} (m : PriceMessage fp text) (price : Price D) : Prop where
  symbol : price.m_symbol = m.symbol
  quantity : price.m_quantity.toInt = m.quantity
  timestamp : price.m_timestamp.toNat = m.timestamp
  price : fp.toText price.m_price = fp.toText (amount fp m.price)

-- The record that the data callback sends repeats the message, and so does what
-- Price::fromJson reads.
structure ReadersAgree (p : Platform D) (sub : Subscription) (s : State D) {text : Text}
    (m : PriceMessage p.fp text) : Prop where
  sends : ∃ t posts record json, dataCallback p sub text s = .ok (t, posts ++ [.send sub.hdl record]) ∧
    load p.fp (record.text p.fp) = .ok json ∧ Repeats p.fp m json
  reads : ∃ price, Price.fromJson p.fp text = .ok price ∧ Reads p.fp m price

def recordMembers (fp : Doubles D) {text : Text} (m : PriceMessage fp text) : List (Text × JSON D) :=
  [("price".toList, .floating (m.price.asFloat fp)), ("quantity".toList, .integral m.quantity),
    ("symbol".toList, .string m.symbol), ("lastprice".toList, .boolean true), ("timestamp".toList, .integral m.timestamp)]

theorem latest_price_dump (fp : Doubles D) {text : Text} (m : PriceMessage fp text) :
    latestPriceText fp m.message = (JSON.object (recordMembers fp m)).dump fp := by
  have price : "  \"price\" : ".toList = pad 1 ++ ['"'] ++ "price".toList ++ "\" : ".toList := rfl
  have quantity : "  \"quantity\" : ".toList = pad 1 ++ ['"'] ++ "quantity".toList ++ "\" : ".toList := rfl
  have symbol : "  \"symbol\" : \"".toList = pad 1 ++ ['"'] ++ "symbol".toList ++ "\" : ".toList ++ ['"'] := rfl
  have quoted : "\",\n".toList = ['"'] ++ ",\n".toList := rfl
  have lastprice : "  \"lastprice\" : true,\n".toList =
      pad 1 ++ ['"'] ++ "lastprice".toList ++ "\" : ".toList ++ "true".toList ++ ",\n".toList := rfl
  have timestamp : "  \"timestamp\" : ".toList = pad 1 ++ ['"'] ++ "timestamp".toList ++ "\" : ".toList := rfl
  have closing : "\n".toList = ['\n'] ++ pad 0 := rfl
  have brace : "\x7d".toList = ['\x7d'] := rfl
  dsimp only [latestPriceText, recordMembers, JSON.dump, dump, dumpMembers]
  rw [m.symbolIs, m.quantityIs, m.timestampIs, m.priceIs, price, quantity, symbol, quoted, lastprice, timestamp,
    closing, brace]
  simp only [JSON.asInt, JSON.asText, if_true, List.append_assoc, Nat.sub_self]

theorem load_record (fp : Doubles D) {text : Text} (m : PriceMessage fp text) (finite : fp.Finite (m.price.asFloat fp)) :
    load fp (latestPriceText fp m.message) = .ok (.object [("lastprice".toList, .boolean true),
      ("price".toList, .floating (fp.reread (m.price.asFloat fp))), ("quantity".toList, .integral m.quantity),
      ("symbol".toList, .string m.symbol), ("timestamp".toList, .integral m.timestamp)]) := by
  have ranged := load_ranged fp text m.message m.loaded
  have quantity := ranged_index m.message "quantity".toList ranged
  have timestamp := ranged_index m.message "timestamp".toList ranged
  rw [m.quantityIs] at quantity
  rw [m.timestampIs] at timestamp
  have printable : Printable fp (.object (recordMembers fp m)) :=
    ⟨rfl, finite, rfl, quantity, rfl, trivial, rfl, trivial, rfl, timestamp, trivial⟩
  rw [latest_price_dump, load_dump fp _ printable (fun number => number)]
  rfl

section

variable (p : Platform D) (sub : Subscription) (s : State D) {text : Text} (m : PriceMessage p.fp text)

theorem latest_price_sent (latest : sub.channel = "latest-price".toList) (alive : s.m_server.alive sub.hdl = true) :
    dataCallback p sub text s = .ok ((repost s).1, (repost s).2 ++ [.send sub.hdl (.latestPrice m.message)]) := by
  have other : sub.channel ≠ "broadcast".toList := by
    rw [latest]
    decide
  refine (data_callback_ok p sub text s _).mpr ⟨alive, m.message, m.loaded, ?_⟩
  rw [deliver, if_neg other, if_pos latest]

theorem sent_record (latest : sub.channel = "latest-price".toList) (alive : s.m_server.alive sub.hdl = true)
    (t : State D) (posts : List (Output D)) (record : Sent D)
    (sent : dataCallback p sub text s = .ok (t, posts ++ [.send sub.hdl record])) : record = .latestPrice m.message := by
  rw [latest_price_sent p sub s m latest alive] at sent
  have outputs := (Prod.mk.inj (Except.ok.inj sent)).2
  exact (Output.send.inj (List.append_singleton_inj.mp outputs).2).2.symm

theorem price_read : Price.fromJson p.fp text = .ok {
    m_symbol := jsonEscape m.symbol
    m_symbolName := (m.message.index "symbolName".toList).asText
    m_quantity := Int32.ofInt m.quantity
    m_timestamp := (Int64.ofInt m.timestamp).toUInt64
    m_price := amount p.fp m.price } := by
  obtain ⟨message, symbol, quantity, timestamp, price, loaded, symbolIs, quantityIs, timestampIs, priceIs, numeric⟩ := m
  have filled : message ≠ .null := fun empty => by
    rw [empty] at symbolIs
    cases symbolIs
  have read := from_json_loaded p.fp text message loaded filled
  rw [symbolIs, quantityIs, timestampIs, priceIs] at read
  rw [read]
  cases price with
  | floating d => rfl
  | integral n => rfl
  | _ => exact numeric.elim

theorem repeats_record (finite : p.fp.Finite (m.price.asFloat p.fp))
    (same : p.fp.toText (m.price.asFloat p.fp) = p.fp.toText (amount p.fp m.price)) :
    ∃ json, load p.fp (latestPriceText p.fp m.message) = .ok json ∧ Repeats p.fp m json :=
  ⟨_, load_record p.fp m finite, rfl, rfl, rfl, rfl, rfl, _, rfl, (reread_text p.fp _ finite).trans same⟩

theorem record_repeats (prints : Prints p.fp) (json : JSON D)
    (loaded : load p.fp (latestPriceText p.fp m.message) = .ok json) (repeats : Repeats p.fp m json) :
    p.fp.Finite (m.price.asFloat p.fp) ∧ p.fp.toText (m.price.asFloat p.fp) = p.fp.toText (amount p.fp m.price) := by
  cases prints.words (m.price.asFloat p.fp) with
  | inl finite =>
      rw [load_record p.fp m finite] at loaded
      cases loaded
      obtain ⟨d, price, same⟩ := repeats.price
      cases price
      exact ⟨finite, (reread_text p.fp _ finite).symm.trans same⟩
  | inr word =>
      rw [latest_price_dump, recordMembers, load_non_finite p.fp "price".toList _ _ rfl word] at loaded
      cases loaded
      exact absurd repeats.lastprice (fun absent => nomatch absent)

-- The price that ToFloat gives for an integer is 0.0.
theorem price_repeated_iff (prints : Prints p.fp) :
    (p.fp.Finite (m.price.asFloat p.fp) ∧ p.fp.toText (m.price.asFloat p.fp) = p.fp.toText (amount p.fp m.price)) ↔
      m.price = .integral 0 ∨ ∃ d, m.price = .floating d ∧ p.fp.Finite d := by
  have numeric := m.numeric
  cases found : m.price with
  | floating d =>
      refine ⟨fun both => Or.inr ⟨d, rfl, both.1⟩, fun either => ?_⟩
      cases either with
      | inl whole => cases whole
      | inr decimal =>
          obtain ⟨_, same, finite⟩ := decimal
          cases same
          exact ⟨finite, rfl⟩
  | integral n =>
      refine ⟨fun both => Or.inl (congrArg JSON.integral ((prints.whole n).mp both.2.symm)), fun either => ?_⟩
      cases either with
      | inl zero =>
          cases zero
          exact ⟨prints.zero, ((prints.whole 0).mpr rfl).symm⟩
      | inr decimal =>
          obtain ⟨_, other, _⟩ := decimal
          cases other
  | _ =>
      rw [found] at numeric
      exact numeric.elim

theorem readers_agree_iff (prints : Prints p.fp) (latest : sub.channel = "latest-price".toList)
    (alive : s.m_server.alive sub.hdl = true) :
    ReadersAgree p sub s m ↔
      Plain m.symbol ∧ (-2 ^ 31 ≤ m.quantity ∧ m.quantity < 2 ^ 31) ∧ 0 ≤ m.timestamp ∧
        (m.price = .integral 0 ∨ ∃ d, m.price = .floating d ∧ p.fp.Finite d) := by
  have read := price_read p m
  have fits : fitsLongLong m.timestamp = true := by
    have ranged := ranged_index m.message "timestamp".toList (load_ranged p.fp text m.message m.loaded)
    rw [m.timestampIs] at ranged
    exact ranged
  constructor
  · intro agree
    obtain ⟨t, posts, record, json, sent, loaded, repeats⟩ := agree.sends
    obtain ⟨price, known, reads⟩ := agree.reads
    cases read.symm.trans known
    rw [sent_record p sub s m latest alive t posts record sent] at loaded
    exact ⟨reads.symbol, (int32_keeps_iff _).mp reads.quantity, (uint64_keeps_iff _ fits).mp reads.timestamp,
      (price_repeated_iff p m prints).mp (record_repeats p m prints json loaded repeats)⟩
  · intro condition
    obtain ⟨plain, quantity, timestamp, price⟩ := condition
    obtain ⟨finite, same⟩ := (price_repeated_iff p m prints).mpr price
    obtain ⟨json, loaded, repeats⟩ := repeats_record p m finite same
    exact ⟨⟨_, _, _, json, latest_price_sent p sub s m latest alive, loaded, repeats⟩, ⟨_, read, plain,
      (int32_keeps_iff _).mpr quantity, (uint64_keeps_iff _ fits).mpr timestamp, rfl⟩⟩

end

theorem micro_prints : Prints Doubles.micro where
  zero := micro_finite 0
  whole := by
    intro n
    constructor
    · intro same
      have read := congrArg Doubles.micro.stod same
      rw [micro_stod, micro_stod] at read
      have product : n * 10 ^ 6 = 0 := Except.ok.inj read
      omega
    · intro zero
      rw [zero]
      rfl
  words := fun d => Or.inl (micro_finite d)

def microPlatform : Platform Int := ⟨Doubles.micro, fun _ => true⟩

def priceConsumer : Subscription := ⟨0, "latest-price".toList⟩

def oneConsumer : State Int := { State.init with m_server := ⟨[true]⟩ }

def decimalText : Text := "\x7b\"symbol\":\"TSLA\",\"price\":250.5,\"quantity\":3,\"timestamp\":7\x7d".toList

def decimalMessage : PriceMessage microPlatform.fp decimalText where
  message := .object [("price".toList, .floating 250500000), ("quantity".toList, .integral 3),
    ("symbol".toList, .string "TSLA".toList), ("timestamp".toList, .integral 7)]
  symbol := "TSLA".toList
  quantity := 3
  timestamp := 7
  price := .floating 250500000
  loaded := load_same _ _ _ (by decide +kernel)
  symbolIs := rfl
  quantityIs := rfl
  timestampIs := rfl
  priceIs := rfl
  numeric := trivial

theorem readers_agree_iff_decimal :
    ReadersAgree microPlatform priceConsumer oneConsumer decimalMessage ↔
      Plain decimalMessage.symbol ∧ (-2 ^ 31 ≤ decimalMessage.quantity ∧ decimalMessage.quantity < 2 ^ 31) ∧
        0 ≤ decimalMessage.timestamp ∧
        (decimalMessage.price = .integral 0 ∨ ∃ d, decimalMessage.price = .floating d ∧ microPlatform.fp.Finite d) :=
  readers_agree_iff microPlatform priceConsumer oneConsumer decimalMessage micro_prints rfl (by decide)

def wholeText : Text := "\x7b\"symbol\":\"TSLA\",\"price\":250,\"quantity\":3,\"timestamp\":7\x7d".toList

def wholeMessage : PriceMessage microPlatform.fp wholeText where
  message := .object [("price".toList, .integral 250), ("quantity".toList, .integral 3),
    ("symbol".toList, .string "TSLA".toList), ("timestamp".toList, .integral 7)]
  symbol := "TSLA".toList
  quantity := 3
  timestamp := 7
  price := .integral 250
  loaded := load_same _ _ _ (by decide +kernel)
  symbolIs := rfl
  quantityIs := rfl
  timestampIs := rfl
  priceIs := rfl
  numeric := trivial

-- The consumer is sent 0.000000 where Price::fromJson reads 250.
theorem whole_price_lost :
    oneConsumer.m_server.alive priceConsumer.hdl = true ∧ priceConsumer.channel = "latest-price".toList ∧
      ¬ReadersAgree microPlatform priceConsumer oneConsumer wholeMessage := by
  refine ⟨by decide, rfl, fun agree => ?_⟩
  obtain ⟨t, posts, record, json, sent, loaded, repeats⟩ := agree.sends
  rw [sent_record microPlatform priceConsumer oneConsumer wholeMessage rfl (by decide) t posts record sent] at loaded
  have lost := (record_repeats microPlatform wholeMessage micro_prints json loaded repeats).2
  exact absurd ((micro_prints.whole 250).mp lost.symm) (by decide)

end TradingFeed.Broadcaster
