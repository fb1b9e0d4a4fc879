import TradingFeed.Json.Value

set_option autoImplicit false

namespace TradingFeed.Json

variable {D : Type}

-- `some rest` is an offset inside the text or on its terminating null, which
-- std::string lets one read; `none` is any offset behind that.
abbrev Cursor := Option Text

def charAt : Cursor → Except LoadFault Char
  | some (c :: _) => .ok c
  | some [] => .ok '\x00'
  | none => .error .pastEnd

def advance : Cursor → Cursor
  | some (_ :: rest) => some rest
  | _ => none

def isspace (c : Char) : Bool := c = ' ' || ('\t' ≤ c && c ≤ '\r')

def consumeWs : Cursor → Except LoadFault Cursor
  | some rest => .ok (some (rest.dropWhile isspace))
  | none => .error .pastEnd

def isHex (c : Char) : Bool := ('0' ≤ c && c ≤ '9') || ('a' ≤ c && c ≤ 'f') || ('A' ≤ c && c ≤ 'F')

-- The text behind the opening quote. A text that ends before the closing quote
-- is read past its end, since the terminating null is an ordinary character here.
def parseString (val : Text) : Text → Except LoadFault (JSON D × Cursor)
  | [] => .error .pastEnd
  | '"' :: rest => .ok (.string val, some rest)
  | '\\' :: '"' :: rest => parseString (val ++ ['"']) rest
  | '\\' :: '\\' :: rest => parseString (val ++ ['\\']) rest
  | '\\' :: '/' :: rest => parseString (val ++ ['/']) rest
  | '\\' :: 'b' :: rest => parseString (val ++ ['\x08']) rest
  | '\\' :: 'f' :: rest => parseString (val ++ ['\x0c']) rest
  | '\\' :: 'n' :: rest => parseString (val ++ ['\n']) rest
  | '\\' :: 'r' :: rest => parseString (val ++ ['\r']) rest
  | '\\' :: 't' :: rest => parseString (val ++ ['\t']) rest
  | '\\' :: 'u' :: a :: b :: c :: d :: rest =>
      if isHex a && isHex b && isHex c && isHex d then parseString (val ++ ['\\', 'u', a, b, c, d]) rest
      else .ok (.string [], some ('u' :: a :: b :: c :: d :: rest))
  | '\\' :: 'u' :: rest => .ok (.string [], some ('u' :: rest))
  | '\\' :: _ :: rest => parseString (val ++ ['\\']) rest
  | c :: rest => parseString (val ++ [c]) rest

-- What parse_number has cut out of the text before it converts anything:
-- `exponent` is exp_str when an 'E' or 'e' was read.
structure NumberToken where
  val : Text
  exponent : Option Text
deriving DecidableEq, Repr

def numberChar (c : Char) : Bool := c = '-' || c.isDigit || c = '.'

def endsNumber (c : Char) : Bool := isspace c || c = ',' || c = ']' || c = '}'

-- The first character behind the 'E' is not part of exp_str unless it is '-',
-- and behind a '-' one more character is skipped.
def scanExponent (val : Text) (cursor : Cursor) : Except LoadFault (Option NumberToken × Cursor) := do
  let c ← charAt cursor
  let sign : Text := if c = '-' then ['-'] else []
  match if c = '-' then advance (advance cursor) else advance cursor with
  | none => .error .pastEnd
  | some text =>
      let here : Cursor := some (text.dropWhile Char.isDigit)
      let stop ← charAt here
      if endsNumber stop then .ok (some ⟨val, some (sign ++ text.takeWhile Char.isDigit)⟩, here)
      else .ok (none, advance here)

def scanNumber (text : Text) : Except LoadFault (Option NumberToken × Cursor) := do
  let val := text.takeWhile numberChar
  let here : Cursor := some (text.dropWhile numberChar)
  let c ← charAt here
  if c = 'E' ∨ c = 'e' then scanExponent val (advance here)
  else if endsNumber c then .ok (some ⟨val, none⟩, here)
  else .ok (none, advance here)

def digitsValue (digits : Text) : Nat :=
  digits.foldl (fun value c => 10 * value + (c.toNat - '0'.toNat)) 0

def fitsLongLong (n : Int) : Bool := -2 ^ 63 ≤ n && n ≤ 2 ^ 63 - 1

-- std::stoll on the characters parse_number collects: an optional '-' and the
-- longest run of digits. std::stol is the same function where long has 64 bits.
def stoll (val : Text) : Except LoadFault Int :=
  let negative := val.head? = some '-'
  let digits := (if negative then val.tail else val).takeWhile Char.isDigit
  let n : Int := if negative then -digitsValue digits else digitsValue digits
  if digits = [] then .error .invalidArgument
  else if fitsLongLong n then .ok n
  else .error .outOfRange

def convert (fp : Doubles D) (token : NumberToken) : Except LoadFault (JSON D) := do
  let exp ← match token.exponent with
    | none => .ok 0
    | some expStr => stoll expStr
  if '.' ∈ token.val then
    let d ← fp.stod token.val
    .ok (.floating (fp.mul d (fp.pow10 exp)))
  else
    let n ← stoll token.val
    .ok (if token.exponent.isSome then .floating (fp.mul (fp.ofInt n) (fp.pow10 exp)) else .integral n)

def parseNumber (conv : NumberToken → Except LoadFault (JSON D)) (text : Text) :
    Except LoadFault (JSON D × Cursor) := do
  match ← scanNumber text with
  | (none, cursor) => .ok (.null, cursor)
  | (some token, cursor) =>
      let number ← conv token
      .ok (number, cursor)

def parseBool (text : Text) : JSON D × Cursor :=
  if text.take 4 = "true".toList then (.boolean true, some (text.drop 4))
  else if text.take 5 = "false".toList then (.boolean false, some (text.drop 5))
  else (.null, some text)

def parseNull (text : Text) : JSON D × Cursor :=
  if text.take 4 = "null".toList then (.null, some (text.drop 4)) else (.null, some text)

-- `conv` is the conversion of a scanned number; JSON::Load uses `convert`.
mutual
def parseNext (conv : NumberToken → Except LoadFault (JSON D)) : Nat → Cursor → Except LoadFault (JSON D × Cursor)
  | 0, _ => .error .outOfFuel
  | fuel + 1, cursor => do
      match ← consumeWs cursor with
      | some ('[' :: rest) =>
          match ← consumeWs (some rest) with
          | some (']' :: tail) => .ok (.array [], some tail)
          | inside => arrayLoop conv fuel [] inside
      | some ('{' :: rest) =>
          match ← consumeWs (some rest) with
          | some ('}' :: tail) => .ok (.object [], some tail)
          | inside => objectLoop conv fuel [] inside
      | some ('"' :: rest) => parseString [] rest
      | some (c :: rest) =>
          if c = 't' ∨ c = 'f' then .ok (parseBool (c :: rest))
          else if c = 'n' then .ok (parseNull (c :: rest))
          else if c.isDigit ∨ c = '-' then parseNumber conv (c :: rest)
          else .ok (.null, some (c :: rest))
      | here => .ok (.null, here)
def arrayLoop (conv : NumberToken → Except LoadFault (JSON D)) :
    Nat → List (JSON D) → Cursor → Except LoadFault (JSON D × Cursor)
  | 0, _, _ => .error .outOfFuel
  | fuel + 1, elements, cursor => do
      let (value, cursor) ← parseNext conv fuel cursor
      let cursor ← consumeWs cursor
      let c ← charAt cursor
      if c = ',' then arrayLoop conv fuel (elements ++ [value]) (advance cursor)
      else if c = ']' then .ok (.array (elements ++ [value]), advance cursor)
      else .ok (.array [], cursor)
def objectLoop (conv : NumberToken → Except LoadFault (JSON D)) :
    Nat → List (Text × JSON D) → Cursor → Except LoadFault (JSON D × Cursor)
  | 0, _, _ => .error .outOfFuel
  | fuel + 1, members, cursor => do
      let (key, cursor) ← parseNext conv fuel cursor
      let cursor ← consumeWs cursor
      let c ← charAt cursor
      if c ≠ ':' then .ok (.object members, cursor)
      else
        let cursor ← consumeWs (advance cursor)
        let (value, cursor) ← parseNext conv fuel cursor
        let members := putMember key.asText value members
        let cursor ← consumeWs cursor
        let c ← charAt cursor
        if c = ',' then objectLoop conv fuel members (advance cursor)
        else if c = '}' then .ok (.object members, advance cursor)
        else .ok (.object members, cursor)
end

def loadWith (conv : NumberToken → Except LoadFault (JSON D)) (str : Text) : Except LoadFault (JSON D) :=
  (parseNext conv (2 * str.length + 1) (some str)).map Prod.fst

def load (fp : Doubles D) (str : Text) : Except LoadFault (JSON D) := loadWith (convert fp) str

def sameResult [DecidableEq D] : Except LoadFault (JSON D) → Except LoadFault (JSON D) → Bool
  | .ok json, .ok other => json.same other
  | .error fault, .error other => fault = other
  | _, _ => false

theorem load_same [DecidableEq D] (fp : Doubles D) (text : Text) (result : Except LoadFault (JSON D))
    (same : sameResult (load fp text) result = true) : load fp text = result := by
  generalize load fp text = read at same ⊢
  cases read with
  | ok json =>
      cases result with
      | ok other => exact congrArg Except.ok (same_eq json other same)
      | error fault => cases same
  | error fault =>
      cases result with
      | ok other => cases same
      | error other => exact congrArg Except.error (of_decide_eq_true same)

end TradingFeed.Json
