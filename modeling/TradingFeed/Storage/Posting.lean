import Mathlib.Algebra.Order.Ring.Cast
import Mathlib.Data.Int.Cast.Lemmas
import TradingFeed.Json.Members
import TradingFeed.Storage.Server

set_option autoImplicit false

namespace TradingFeed.Storage

open TradingFeed.Json hiding Number
open TradingFeed.Common
open Library.JsonGrammar

variable {D : Type}

structure Quotes (body : Text) (price quantity timestamp : Text × Text) : Prop where
  members : ∃ all, ObjectOf body all ∧ own "price".toList all = some price ∧
    own "quantity".toList all = some quantity ∧ own "timestamp".toList all = some timestamp
  price : Number price.2
  quantity : Number quantity.2
  timestamp : Number timestamp.2

-- `near q d`: no double is nearer to q than d. Both zeros are near to 0.
def Stores (near : ℚ → D → Prop) (s t : State D) (id body : Text) : Prop :=
  ∃ price quantity timestamp stored, Quotes body price quantity timestamp ∧ t.m_prices = s.m_prices.insert id stored ∧
    near (decimal price.2) stored.m_price ∧ (stored.m_quantity.toInt : ℚ) = decimal quantity.2 ∧
    (stored.m_timestamp.toNat : ℚ) = decimal timestamp.2

def AllOrNothing (fp : Doubles D) (near : ℚ → D → Prop) (s : State D) (req body : Text) : Prop :=
  ∃ t response, handlePostPrice fp s req body = .ok (t, response) ∧
    ((response.status = some .ok ∧ Stores near s t (req.drop 12) body) ∨
      (∃ code, response.status = some code ∧ code ≠ .ok) ∧ t.m_prices = s.m_prices)

def BadNumber (fp : Doubles D) (body : Text) : Prop := ∃ token, Reaches body token ∧ ¬token.Converts fp

-- What is documented of the conversions: both give a nearest double, std::stod for
-- a decimal text it does not refuse, and a factor of one changes nothing.
structure Rounds (fp : Doubles D) (near : ℚ → D → Prop) : Prop where
  ofInt : ∀ n : Int, fitsLongLong n = true → near n (fp.ofInt n)
  stod : ∀ number d, Number number → isScientific number = false → fp.stod number = .ok d → near (decimal number) d
  mul_one : ∀ d, fp.mul d (fp.pow10 0) = d

-- An exponent loses a character, and what is left of it scales a rounded mantissa.
def PriceKept (fp : Doubles D) (near : ℚ → D → Prop) (member : Text × Text) : Prop :=
  if member.1 = "price".toList then
    isScientific member.2 = true → ∃ d, scaled fp member.2 = .ok d ∧ near (decimal member.2) d
  else near (decimal member.2) (fp.ofInt 0)

def QuantityKept (member : Text × Text) : Prop :=
  decimal member.2 = 0 ∨ member.1 = "quantity".toList ∧ isWhole member.2 = true ∧
    -2 ^ 31 ≤ decimal member.2 ∧ decimal member.2 < 2 ^ 31

def TimestampKept (member : Text × Text) : Prop :=
  decimal member.2 = 0 ∨ member.1 = "timestamp".toList ∧ isWhole member.2 = true ∧ 0 ≤ decimal member.2

def Readable (fp : Doubles D) (near : ℚ → D → Prop) (body : Text) : Prop :=
  ∃ price quantity timestamp, Quotes body price quantity timestamp ∧ PriceKept fp near price ∧ QuantityKept quantity ∧
    TimestampKept timestamp

section

variable (fp : Doubles D) (near : ℚ → D → Prop) (body : Text) (all : List (Text × Text)) (member : Text × Text) (json : JSON D)
  (object : ObjectOf body all) (loaded : load fp body = .ok json) (number : Number member.2)

include object loaded number

theorem price_kept_iff (rounds : Rounds fp near) (mine : own "price".toList all = some member) :
    near (decimal member.2) (match json.index "price".toList with
      | .floating d => d
      | priceObj => fp.ofInt priceObj.asInt) ↔ PriceKept fp near member := by
  have found := own_index fp body "price".toList member.1 member.2 all json (List.all_eq_true.mp rfl) object loaded mine number
  dsimp only [PriceKept]
  by_cases named : member.1 = "price".toList
  · rw [if_pos named] at found ⊢
    by_cases scientific : isScientific member.2 = true
    · obtain ⟨d, value, read⟩ := convert_scientific fp _ _ number found scientific
      rw [read]
      refine ⟨fun nearest _ => ⟨d, value, nearest⟩, fun kept => ?_⟩
      obtain ⟨same, again, nearest⟩ := kept scientific
      cases value.symm.trans again
      exact nearest
    · have plain : isScientific member.2 = false := Bool.eq_false_iff.mpr scientific
      refine iff_of_true ?_ fun is => absurd is scientific
      cases whole : isWhole member.2 with
      | true =>
          obtain ⟨n, read, value, fits⟩ := convert_whole fp _ _ number found whole
          rw [read, ← value]
          exact rounds.ofInt n fits
      | false =>
          obtain ⟨d, value, read⟩ := convert_fraction fp _ _ number found whole plain
          rw [read, rounds.mul_one]
          exact rounds.stod member.2 d number plain value
  · rw [if_neg named] at found ⊢
    rw [found]
    exact Iff.rfl

-- ToInt of anything but an integer is 0.
theorem integer_read (key : Text) (letters : ∀ c ∈ key, c.isAlpha = true) (mine : own key all = some member) :
    (member.1 = key ∧ isWhole member.2 = true ∧ ∃ n : Int, (json.index key).asInt = n ∧ (n : ℚ) = decimal member.2 ∧
        fitsLongLong n = true) ∨
      ¬(member.1 = key ∧ isWhole member.2 = true) ∧ (json.index key).asInt = 0 := by
  have found := own_index fp body key member.1 member.2 all json letters object loaded mine number
  by_cases named : member.1 = key
  · rw [if_pos named] at found
    cases whole : isWhole member.2 with
    | true =>
        obtain ⟨n, read, value, fits⟩ := convert_whole fp _ _ number found whole
        exact Or.inl ⟨named, rfl, n, by rw [read]; rfl, value, fits⟩
    | false =>
        refine Or.inr ⟨fun both => Bool.false_ne_true both.2, ?_⟩
        cases scientific : isScientific member.2 with
        | true =>
            obtain ⟨d, _, read⟩ := convert_scientific fp _ _ number found scientific
            rw [read]
            rfl
        | false =>
            obtain ⟨d, _, read⟩ := convert_fraction fp _ _ number found whole scientific
            rw [read]
            rfl
  · rw [if_neg named] at found
    exact Or.inr ⟨fun both => named both.1, by rw [found]; rfl⟩

theorem quantity_kept_iff (mine : own "quantity".toList all = some member) :
    ((Int32.ofInt (json.index "quantity".toList).asInt).toInt : ℚ) = decimal member.2 ↔ QuantityKept member := by
  dsimp only [QuantityKept]
  rcases integer_read fp body all member json object loaded number "quantity".toList (List.all_eq_true.mp rfl) mine with
    ⟨named, whole, n, read, value, _⟩ | ⟨other, zero⟩
  · have edge : ((2 ^ 31 : ℤ) : ℚ) = 2 ^ 31 := by rw [Int.cast_pow, Int.cast_ofNat]
    have low : (-2 ^ 31 : ℚ) ≤ n ↔ -2 ^ 31 ≤ n := by rw [← edge, ← Int.cast_neg, Int.cast_le]
    have high : (n : ℚ) < 2 ^ 31 ↔ n < 2 ^ 31 := by rw [← edge, Int.cast_lt]
    rw [read, ← value, Int.cast_inj, int32_keeps_iff, low, high]
    constructor
    · exact fun bounds => Or.inr ⟨named, whole, bounds⟩
    · rintro (zero | ⟨_, _, bounds⟩)
      · rw [Int.cast_eq_zero.mp zero]
        decide
      · exact bounds
  · have nothing : (Int32.ofInt 0).toInt = 0 := rfl
    rw [zero, nothing, Int.cast_zero]
    exact ⟨fun same => Or.inl same.symm, fun either => (either.resolve_right fun kept => other ⟨kept.1, kept.2.1⟩).symm⟩

theorem timestamp_kept_iff (mine : own "timestamp".toList all = some member) :
    ((Int64.ofInt (json.index "timestamp".toList).asInt).toUInt64.toNat : ℚ) = decimal member.2 ↔ TimestampKept member := by
  dsimp only [TimestampKept]
  rcases integer_read fp body all member json object loaded number "timestamp".toList (List.all_eq_true.mp rfl) mine with
    ⟨named, whole, n, read, value, fits⟩ | ⟨other, zero⟩
  · rw [read, ← value, ← Int.cast_natCast, Int.cast_inj, uint64_keeps_iff n fits]
    constructor
    · exact fun low => Or.inr ⟨named, whole, by exact_mod_cast low⟩
    · rintro (zero | ⟨_, _, low⟩)
      · exact (Int.cast_eq_zero.mp zero).ge
      · exact_mod_cast low
  · have nothing : (Int64.ofInt 0).toUInt64.toNat = 0 := rfl
    rw [zero, nothing, Nat.cast_zero]
    exact ⟨fun same => Or.inl same.symm, fun either => (either.resolve_right fun kept => other ⟨kept.1, kept.2.1⟩).symm⟩

end

section

variable (fp : Doubles D) (near : ℚ → D → Prop) (s : State D) (req body : Text)

theorem post_load_error (fault : LoadFault) (known : req.drop 12 ∈ symbols) (inside : fault ≠ .pastEnd)
    (raised : load fp body = .error fault) :
    handlePostPrice fp s req body = .ok (s, Response.unset.set_status .internal_server_error (.what fault)) := by
  obtain ⟨symbol, found⟩ := Option.isSome_iff_exists.mp (Std.TreeMap.mem_iff_isSome_getElem?.mp known)
  have thrown : Price.fromJson fp body = .error (.load fault) := by
    simp only [Price.fromJson, raised]
  have kind : fault = .invalidArgument ∨ fault = .outOfRange := by
    cases load_outcome fp body fault raised with
    | inl past => exact absurd past inside
    | inr reached =>
        obtain ⟨token, _, raises⟩ := reached
        exact convert_raises fp token fault raises
  exact post_caught fp s req body symbol fault found kind thrown

theorem post_null (known : req.drop 12 ∈ symbols) (loaded : load fp body = .ok .null) :
    handlePostPrice fp s req body = .error (.literal "can not parse json".toList) := by
  obtain ⟨symbol, found⟩ := Option.isSome_iff_exists.mp (Std.TreeMap.mem_iff_isSome_getElem?.mp known)
  have thrown : Price.fromJson fp body = .error (.literal "can not parse json".toList) := by
    simp only [Price.fromJson, loaded]
  exact post_escapes fp s req body symbol _ found thrown

theorem post_loaded (json : JSON D) (known : req.drop 12 ∈ symbols) (loaded : load fp body = .ok json)
    (filled : json ≠ .null) :
    ∃ stored, handlePostPrice fp s req body =
        .ok (⟨s.m_prices.insert (req.drop 12) stored⟩, Response.unset.set_status .ok .standard) ∧
      stored.m_price = (match json.index "price".toList with
        | .floating d => d
        | priceObj => fp.ofInt priceObj.asInt) ∧
      stored.m_quantity = Int32.ofInt (json.index "quantity".toList).asInt ∧
      stored.m_timestamp = (Int64.ofInt (json.index "timestamp".toList).asInt).toUInt64 := by
  obtain ⟨symbol, found⟩ := Option.isSome_iff_exists.mp (Std.TreeMap.mem_iff_isSome_getElem?.mp known)
  exact ⟨_, post_read fp s req body symbol _ found (from_json_loaded fp body json loaded filled), rfl, rfl, rfl⟩

theorem bad_number_iff (inside : load fp body ≠ .error .pastEnd) :
    BadNumber fp body ↔ ¬∃ json, load fp body = .ok json := by
  rw [load_ok_iff fp body inside]
  simp only [BadNumber, not_forall, exists_prop]

theorem raised_keeps_store (fault : LoadFault) (known : req.drop 12 ∈ symbols) (inside : fault ≠ .pastEnd)
    (raised : load fp body = .error fault) : AllOrNothing fp near s req body :=
  ⟨s, _, post_load_error fp s req body fault known inside raised, Or.inr ⟨⟨.internal_server_error, rfl, by decide⟩, rfl⟩⟩

theorem null_escapes (known : req.drop 12 ∈ symbols) (loaded : load fp body = .ok .null) :
    ¬AllOrNothing fp near s req body := by
  rintro ⟨t, response, answered, _⟩
  rw [post_null fp s req body known loaded] at answered
  cases answered

theorem quotes_object (price quantity timestamp : Text × Text) (quotes : Quotes body price quantity timestamp) :
    Object body := by
  obtain ⟨all, object, _⟩ := quotes.members
  exact (object_members body).mpr ⟨all, object⟩

theorem null_unreadable (loaded : load fp body = .ok .null) : ¬Readable fp near body := by
  rintro ⟨price, quantity, timestamp, quotes, _⟩
  rcases load_object fp body (quotes_object body price quantity timestamp quotes) with ⟨entries, read⟩ | ⟨_, fault, _, raised⟩
  · rw [loaded] at read
    cases read
  · rw [loaded] at raised
    cases raised

theorem loaded_all_or_nothing (rounds : Rounds fp near) (json : JSON D) (known : req.drop 12 ∈ symbols)
    (loaded : load fp body = .ok json) (filled : json ≠ .null) : AllOrNothing fp near s req body ↔ Readable fp near body := by
  obtain ⟨stored, answered, priceIs, quantityIs, timestampIs⟩ := post_loaded fp s req body json known loaded filled
  have kept (price quantity timestamp : Text × Text) (quotes : Quotes body price quantity timestamp) :
      (near (decimal price.2) stored.m_price ∧ (stored.m_quantity.toInt : ℚ) = decimal quantity.2 ∧
          (stored.m_timestamp.toNat : ℚ) = decimal timestamp.2) ↔
        PriceKept fp near price ∧ QuantityKept quantity ∧ TimestampKept timestamp := by
    obtain ⟨⟨all, object, first, second, third⟩, one, two, three⟩ := quotes
    rw [priceIs, quantityIs, timestampIs, price_kept_iff fp near body all price json object loaded one rounds first,
      quantity_kept_iff fp body all quantity json object loaded two second,
      timestamp_kept_iff fp body all timestamp json object loaded three third]
  constructor
  · rintro ⟨t, response, taken, ⟨_, price, quantity, timestamp, other, quotes, inserted, right⟩ | ⟨⟨code, status, failed⟩, _⟩⟩
    · cases answered.symm.trans taken
      obtain rfl : stored = other := by
        have same := congrArg (fun prices : Std.TreeMap Text (Price D) => prices[req.drop 12]?) inserted
        simpa using same
      exact ⟨price, quantity, timestamp, quotes, (kept price quantity timestamp quotes).mp right⟩
    · cases answered.symm.trans taken
      cases status
      exact absurd rfl failed
  · rintro ⟨price, quantity, timestamp, quotes, right⟩
    exact ⟨_, _, answered, Or.inl ⟨rfl, price, quantity, timestamp, stored, quotes, rfl,
      (kept price quantity timestamp quotes).mpr right⟩⟩

end

def pfizerPost : Text := "/api/prices/531532e1-e27b-4aec-bf7d-92d5b20645af".toList

theorem pfizer_known : pfizerPost.drop 12 ∈ symbols := Std.TreeMap.mem_ofList.mpr (by decide +kernel)

-- Doubles without rounding, for numbers of a few digits.
def Doubles.exact : Doubles ℚ where
  zero := 0
  ofInt := fun n => n
  pow10 := fun n => 10 ^ n
  mul := fun a b => a * b
  stod := fun text => if text.any Char.isDigit then .ok (decimal text) else .error .invalidArgument
  toText := fun d => Doubles.micro.toText (d * 10 ^ 6).floor
  stod_raises := by
    intro text fault raised
    split at raised <;> cases raised
    exact Or.inl rfl

theorem exact_rounds : Rounds Doubles.exact fun q d => d = q where
  ofInt := fun _ _ => rfl
  stod := by
    intro number d _ _ read
    dsimp only [Doubles.exact] at read
    split at read <;> cases read
    rfl
  mul_one := fun d => by
    dsimp only [Doubles.exact]
    rw [zpow_zero, mul_one]

def tradeBody : Text := "\x7b\"price\":2.5,\"quantity\":3,\"timestamp\":7\x7d".toList

theorem digit_whole (c : Char) (digit : c.isDigit = true) (leading : c ≠ '0') : Number [c] :=
  .mk [] [c] [] [] (Or.inl rfl) (.other c [] digit leading (List.all_eq_true.mp rfl)) .none .none

theorem trade_body_quotes : Quotes tradeBody ("price".toList, "2.5".toList) ("quantity".toList, "3".toList)
    ("timestamp".toList, "7".toList) := by
  have price : Number "2.5".toList :=
    .mk [] ['2'] ['.', '5'] [] (Or.inl rfl) (.other '2' [] rfl (by decide) (List.all_eq_true.mp rfl))
      (.some ['5'] (List.cons_ne_nil _ _) (List.all_eq_true.mp rfl)) .none
  have quantity : Number "3".toList := digit_whole '3' rfl (by decide)
  have timestamp : Number "7".toList := digit_whole '7' rfl (by decide)
  have blank : Blank [] := List.all_eq_true.mp rfl
  have last : Members "\"timestamp\":7\x7d".toList [] [("timestamp".toList, "7".toList)] :=
    .last _ _ _ [] [] (plain_member "timestamp".toList "7".toList _ rfl timestamp) blank
  have later : Members "\"quantity\":3,\"timestamp\":7\x7d".toList []
      [("quantity".toList, "3".toList), ("timestamp".toList, "7".toList)] :=
    .next _ _ _ [] [] _ [] _ (plain_member "quantity".toList "3".toList _ rfl quantity) blank blank last
  have first : Members tradeBody.tail []
      [("price".toList, "2.5".toList), ("quantity".toList, "3".toList), ("timestamp".toList, "7".toList)] :=
    .next _ _ _ [] [] _ [] _ (plain_member "price".toList "2.5".toList _ rfl price) blank blank later
  refine ⟨⟨_, ⟨[], tradeBody, [], rfl, blank, blank, .filled [] _ [] _ blank first⟩, ?_, ?_, ?_⟩, price, quantity, timestamp⟩
  · decide +kernel
  · decide +kernel
  · decide +kernel

theorem trade_body_readable : Readable Doubles.exact (fun q d => d = q) tradeBody := by
  refine ⟨_, _, _, trade_body_quotes, ?_, Or.inr ⟨rfl, rfl, ?_⟩, Or.inr ⟨rfl, rfl, ?_⟩⟩
  · dsimp only [PriceKept]
    rw [if_pos rfl]
    exact fun scientific => absurd scientific (by decide)
  · decide +kernel
  · decide +kernel

end TradingFeed.Storage
