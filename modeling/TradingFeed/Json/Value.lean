import Mathlib.Algebra.Group.Int.Defs
import Mathlib.Algebra.Group.Nat.Defs
import Mathlib.Data.List.Basic

set_option autoImplicit false

namespace TradingFeed.Json

-- A std::string is a sequence of bytes; every byte is one Char here. The code
-- only compares bytes and concatenates, so nothing depends on their width.
abbrev Text := List Char

-- How JSON::Load fails: it reads behind the terminating null of the text, which
-- has no defined result, or a number conversion throws. The parser below recurses
-- on fuel; `outOfFuel` is kept apart so that it can be shown never to happen.
inductive LoadFault where
  | pastEnd
  | invalidArgument
  | outOfRange
  | outOfFuel
deriving DecidableEq, Repr

-- Doubles stay opaque: these are the operations the code asks for, and the two
-- exceptions that std::stod has.
structure Doubles (D : Type) where
  zero : D
  ofInt : Int → D
  pow10 : Int → D
  mul : D → D → D
  stod : Text → Except LoadFault D
  toText : D → Text
  stod_raises : ∀ text fault, stod text = .error fault → fault = .invalidArgument ∨ fault = .outOfRange

inductive JSON (D : Type) where
  | null
  | object (members : List (Text × JSON D))
  | array (elements : List (JSON D))
  | string (value : Text)
  | floating (value : D)
  | integral (value : Int)
  | boolean (value : Bool)

variable {D : Type}

def escapeChar : Char → Text
  | '"' => ['\\', '"']
  | '\\' => ['\\', '\\']
  | '\x08' => ['\\', 'b']
  | '\x0c' => ['\\', 'f']
  | '\n' => ['\\', 'n']
  | '\r' => ['\\', 'r']
  | '\t' => ['\\', 't']
  | c => [c]

def jsonEscape (text : Text) : Text := text.flatMap escapeChar

theorem json_escape_cons (c : Char) (text : Text) : jsonEscape (c :: text) = escapeChar c ++ jsonEscape text := rfl

-- map<string, JSON> is the list of its entries in key order.
def putMember (key : Text) (value : JSON D) : List (Text × JSON D) → List (Text × JSON D)
  | [] => [(key, value)]
  | (name, old) :: rest =>
      if key = name then (name, value) :: rest
      else if key < name then (key, value) :: (name, old) :: rest
      else (name, old) :: putMember key value rest

def findMember (key : Text) : List (Text × JSON D) → Option (JSON D)
  | [] => none
  | (name, value) :: rest => if key = name then some value else findMember key rest

namespace JSON

def members : JSON D → List (Text × JSON D)
  | .object entries => entries
  | _ => []

def elements : JSON D → List (JSON D)
  | .array entries => entries
  | _ => []

-- operator[]( key ) turns any other value into an object and adds a missing
-- key with Null: `index` is the value it refers to, `indexed` what it leaves.
def index (json : JSON D) (key : Text) : JSON D := (findMember key json.members).getD .null

def indexed (json : JSON D) (key : Text) : JSON D :=
  match findMember key json.members with
  | some _ => json
  | none => .object (putMember key .null json.members)

def assign (json : JSON D) (key : Text) (value : JSON D) : JSON D :=
  .object (putMember key value json.members)

def append (json value : JSON D) : JSON D := .array (json.elements ++ [value])

def size : JSON D → Int
  | .object entries => entries.length
  | .array entries => entries.length
  | _ => -1

def asText : JSON D → Text
  | .string value => jsonEscape value
  | _ => []

def asInt : JSON D → Int
  | .integral value => value
  | _ => 0

def asFloat (fp : Doubles D) : JSON D → D
  | .floating value => value
  | _ => fp.zero

end JSON

def showInt (n : Int) : Text :=
  if n < 0 then '-' :: Nat.toDigits 10 n.natAbs else Nat.toDigits 10 n.natAbs

-- dump pads members with two spaces for each level and the closing brace with
-- one level less; arrays stay on one line.
def pad (depth : Nat) : Text := List.replicate (2 * depth) ' '

mutual
def dump (fp : Doubles D) (depth : Nat) : JSON D → Text
  | .null => "null".toList
  | .object entries =>
      "\x7b\n".toList ++ dumpMembers fp depth entries ++ ['\n'] ++ pad (depth - 1) ++ ['\x7d']
  | .array entries => ['['] ++ dumpElements fp depth entries ++ [']']
  | .string value => ['"'] ++ jsonEscape value ++ ['"']
  | .floating value => fp.toText value
  | .integral value => showInt value
  | .boolean value => if value then "true".toList else "false".toList
def dumpMembers (fp : Doubles D) (depth : Nat) : List (Text × JSON D) → Text
  | [] => []
  | [(key, value)] => pad depth ++ ['"'] ++ key ++ "\" : ".toList ++ dump fp (depth + 1) value
  | (key, value) :: next :: rest =>
      pad depth ++ ['"'] ++ key ++ "\" : ".toList ++ dump fp (depth + 1) value ++ ",\n".toList ++
        dumpMembers fp depth (next :: rest)
def dumpElements (fp : Doubles D) (depth : Nat) : List (JSON D) → Text
  | [] => []
  | [value] => dump fp (depth + 1) value
  | value :: next :: rest =>
      dump fp (depth + 1) value ++ ", ".toList ++ dumpElements fp depth (next :: rest)
end

def JSON.dump (fp : Doubles D) (json : JSON D) : Text := Json.dump fp 1 json

example (fp : Doubles D) : (JSON.object [("status".toList, .string "processed".toList)]).dump fp =
    "\x7b\n  \"status\" : \"processed\"\n\x7d".toList := rfl

-- Structural equality, where doubles can be compared: with it what a text loads to
-- can be evaluated.
mutual
def JSON.same [DecidableEq D] : JSON D → JSON D → Bool
  | .null, .null => true
  | .object entries, .object others => sameMembers entries others
  | .array entries, .array others => sameElements entries others
  | .string value, .string other => value = other
  | .floating value, .floating other => value = other
  | .integral value, .integral other => value = other
  | .boolean value, .boolean other => value = other
  | _, _ => false
def sameMembers [DecidableEq D] : List (Text × JSON D) → List (Text × JSON D) → Bool
  | [], [] => true
  | (key, value) :: rest, (name, other) :: others => key = name && value.same other && sameMembers rest others
  | _, _ => false
def sameElements [DecidableEq D] : List (JSON D) → List (JSON D) → Bool
  | [], [] => true
  | value :: rest, other :: others => value.same other && sameElements rest others
  | _, _ => false
end

mutual
theorem same_eq [DecidableEq D] (json other : JSON D) (same : json.same other = true) : json = other := by
  cases json with
  | null => cases other <;> first | rfl | cases same
  | object entries =>
      cases other with
      | object others => rw [same_members_eq entries others same]
      | _ => cases same
  | array entries =>
      cases other with
      | array others => rw [same_elements_eq entries others same]
      | _ => cases same
  | _ => cases other <;> first | exact congrArg _ (of_decide_eq_true same) | cases same
theorem same_members_eq [DecidableEq D] (entries others : List (Text × JSON D))
    (same : sameMembers entries others = true) : entries = others := by
  cases entries with
  | nil => cases others <;> first | rfl | cases same
  | cons entry rest =>
      obtain ⟨key, value⟩ := entry
      cases others with
      | nil => cases same
      | cons other others =>
          simp only [sameMembers, Bool.and_eq_true, decide_eq_true_eq] at same
          rw [same.1.1, same_eq value other.2 same.1.2, same_members_eq rest others same.2]
theorem same_elements_eq [DecidableEq D] (entries others : List (JSON D))
    (same : sameElements entries others = true) : entries = others := by
  cases entries with
  | nil => cases others <;> first | rfl | cases same
  | cons value rest =>
      cases others with
      | nil => cases same
      | cons other others =>
          simp only [sameElements, Bool.and_eq_true] at same
          rw [same_eq value other same.1, same_elements_eq rest others same.2]
end

end TradingFeed.Json
