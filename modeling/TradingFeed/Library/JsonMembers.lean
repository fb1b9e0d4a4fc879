import Mathlib.Algebra.Order.Field.Rat
import Mathlib.Data.List.TakeWhile
import TradingFeed.Library.JsonGrammar

set_option autoImplicit false

namespace Library.JsonGrammar

def Quoted (raw : List Char) : Prop := Chars (raw ++ ['"']) []

def hexDigit (c : Char) : Nat :=
  if c.isDigit then c.toNat - '0'.toNat else if 'a' ≤ c then c.toNat - 'a'.toNat + 10 else c.toNat - 'A'.toNat + 10

def escapedUnit : Char → Nat
  | 'b' => 8
  | 't' => 9
  | 'n' => 10
  | 'f' => 12
  | 'r' => 13
  | c => c.toNat

-- What a string stands for: an escape is one code unit, any other character itself.
def units : List Char → List Nat
  | '\\' :: 'u' :: a :: b :: c :: d :: rest =>
      (16 ^ 3 * hexDigit a + 16 ^ 2 * hexDigit b + 16 * hexDigit c + hexDigit d) :: units rest
  | '\\' :: c :: rest => escapedUnit c :: units rest
  | c :: rest => c.toNat :: units rest
  | [] => []

-- A member at the start of a text, its name and its value as they are written,
-- and what stands behind it.
inductive Member : List Char → List Char → List Char → List Char → Prop where
  | mk (name space start value behind : List Char) (quoted : Quoted name) (blank : Blank space) (blanks : Blank start)
      (derived : Derives .value (value ++ behind) behind) :
      Member name value ('"' :: (name ++ '"' :: (space ++ ':' :: (start ++ (value ++ behind))))) behind

inductive Members : List Char → List Char → List (List Char × List Char) → Prop where
  | last (name value text space rest : List Char) (member : Member name value text (space ++ '\x7d' :: rest))
      (blank : Blank space) : Members text rest [(name, value)]
  | next (name value text space start more rest : List Char) (others : List (List Char × List Char))
      (member : Member name value text (space ++ ',' :: (start ++ more))) (blank : Blank space) (blanks : Blank start)
      (members : Members more rest others) : Members text rest ((name, value) :: others)

inductive Braced : List Char → List Char → List (List Char × List Char) → Prop where
  | empty (space rest : List Char) (blank : Blank space) : Braced ('\x7b' :: (space ++ '\x7d' :: rest)) rest []
  | filled (space text rest : List Char) (all : List (List Char × List Char)) (blank : Blank space)
      (members : Members text rest all) : Braced ('\x7b' :: (space ++ text)) rest all

def ObjectOf (text : List Char) (all : List (List Char × List Char)) : Prop :=
  ∃ before body after, text = before ++ body ∧ Blank before ∧ Blank after ∧ Braced body after all

def isNamed (key : List Char) (member : List Char × List Char) : Bool := units member.1 = key.map Char.toNat

-- The member of this name; an object in which none or several have the name has
-- no such member.
def own (key : List Char) (all : List (List Char × List Char)) : Option (List Char × List Char) :=
  match all.filter (isNamed key) with
  | [member] => some member
  | _ => none

def natural (digits : List Char) : Nat := digits.foldl (fun value c => 10 * value + (c.toNat - '0'.toNat)) 0

def power : List Char → Int
  | _ :: '-' :: digits => -natural digits
  | _ :: '+' :: digits => natural digits
  | _ :: digits => natural digits
  | [] => 0

-- The value of a number. The digits behind the point count as a part of the whole
-- number that the power of ten scales.
def decimal (number : List Char) : ℚ :=
  let negative := number.head? = some '-'
  let unsigned := if negative then number.tail else number
  let whole := unsigned.takeWhile Char.isDigit
  let behind := unsigned.dropWhile Char.isDigit
  let fraction := if behind.head? = some '.' then behind.tail.takeWhile Char.isDigit else []
  let exponent := if behind.head? = some '.' then behind.tail.dropWhile Char.isDigit else behind
  (if negative then -1 else 1) * natural (whole ++ fraction) * 10 ^ (power exponent - fraction.length)

example : decimal "-12.50e+3".toList = -12500 := by decide +kernel

def isWhole (number : List Char) : Bool := number.all fun c => c = '-' || c.isDigit

def isScientific (number : List Char) : Bool := number.any fun c => c = 'e' || c = 'E'

theorem chars_quoted (text rest : List Char) (chars : Chars text rest) : ∃ raw, text = raw ++ '"' :: rest ∧ Quoted raw := by
  induction chars with
  | close rest => exact ⟨[], rfl, .close []⟩
  | plain c text rest plain _ ih =>
      obtain ⟨raw, rfl, quoted⟩ := ih
      exact ⟨c :: raw, rfl, .plain c _ [] plain quoted⟩
  | escaped c text rest known _ ih =>
      obtain ⟨raw, rfl, quoted⟩ := ih
      exact ⟨'\\' :: c :: raw, rfl, .escaped c _ [] known quoted⟩
  | unicode a b c d text rest hex _ ih =>
      obtain ⟨raw, rfl, quoted⟩ := ih
      exact ⟨'\\' :: 'u' :: a :: b :: c :: d :: raw, rfl, .unicode a b c d _ [] hex quoted⟩

theorem chars_append (text rest more : List Char) (chars : Chars text rest) : Chars (text ++ more) (rest ++ more) := by
  induction chars with
  | close rest => exact .close _
  | plain c text rest plain _ ih => exact .plain c _ _ plain ih
  | escaped c text rest known _ ih => exact .escaped c _ _ known ih
  | unicode a b c d text rest hex _ ih => exact .unicode a b c d _ _ hex ih

theorem quoted_chars (raw rest : List Char) (quoted : Quoted raw) : Chars (raw ++ '"' :: rest) rest := by
  have longer := chars_append _ [] rest quoted
  rwa [List.append_assoc, List.nil_append] at longer

theorem members_derives (text rest : List Char) (all : List (List Char × List Char)) (members : Members text rest all) :
    Derives .members text rest := by
  induction members with
  | last name value text space rest member blank =>
      cases member with
      | mk inner start _ _ quoted before blanks derived =>
          exact .member _ inner start _ _ rest before blanks (quoted_chars name _ quoted) derived (.lastMember space rest blank)
  | next name value text space start more rest others member blank blanks _ ih =>
      cases member with
      | mk inner first _ _ quoted before firsts derived =>
          exact .member _ inner first _ _ rest before firsts (quoted_chars name _ quoted) derived
            (.nextMember space start more rest blank blanks ih)

theorem derives_members (part : Part) (text rest : List Char) (derived : Derives part text rest) :
    (part = .members → ∃ all, Members text rest all) ∧
      (part = .memberEnd → ∀ name value start, Member name value start text → ∃ all, Members start rest all) := by
  induction derived with
  | member name space start text behind rest blank blanks chars value ends _ later =>
      refine ⟨fun _ => ?_, fun other => (nomatch other)⟩
      obtain ⟨raw, rfl, quoted⟩ := chars_quoted _ _ chars
      obtain ⟨written, rfl⟩ := derives_suffix _ _ _ value
      exact later.2 rfl raw written _ (.mk raw space start written behind quoted blank blanks value)
  | lastMember space rest blank =>
      exact ⟨fun other => (nomatch other), fun _ name value start member => ⟨_, .last name value start space rest member blank⟩⟩
  | nextMember space start text rest blank blanks _ ih =>
      refine ⟨fun other => (nomatch other), fun _ name value first member => ?_⟩
      obtain ⟨others, members⟩ := ih.1 rfl
      exact ⟨_, .next name value first space start text rest others member blank blanks members⟩
  | _ => exact ⟨fun other => (nomatch other), fun other => (nomatch other)⟩

theorem object_members (text : List Char) : Object text ↔ ∃ all, ObjectOf text all := by
  constructor
  · rintro ⟨before, body, after, rfl, blank, blanks, derived⟩
    cases derived with
    | emptyObject space _ inner => exact ⟨[], before, _, after, rfl, blank, blanks, .empty space after inner⟩
    | object space inside _ inner members =>
        obtain ⟨all, listed⟩ := (derives_members _ _ _ members).1 rfl
        exact ⟨all, before, _, after, rfl, blank, blanks, .filled space inside after all inner listed⟩
  · rintro ⟨all, before, body, after, rfl, blank, blanks, braced⟩
    refine ⟨before, body, after, rfl, blank, blanks, ?_⟩
    cases braced with
    | empty space _ inner => exact .emptyObject space after inner
    | filled space inside _ _ inner members => exact .object space inside after inner (members_derives _ _ _ members)

theorem own_split (key : List Char) (all : List (List Char × List Char)) (member : List Char × List Char)
    (found : own key all = some member) :
    ∃ front back, all = front ++ member :: back ∧ isNamed key member = true ∧
      ∀ other ∈ front ++ back, isNamed key other = false := by
  dsimp only [own] at found
  split at found
  · rename_i single kept
    cases found
    have inside : member ∈ all.filter (isNamed key) := by
      rw [kept]
      exact List.mem_singleton.mpr rfl
    obtain ⟨listed, named⟩ := List.mem_filter.mp inside
    obtain ⟨front, back, rfl⟩ := List.append_of_mem listed
    rw [List.filter_append, List.filter_cons_of_pos named] at kept
    have lengths := congrArg List.length kept
    simp only [List.length_append, List.length_cons, List.length_nil] at lengths
    have before : front.filter (isNamed key) = [] := List.length_eq_zero_iff.mp (by omega)
    have behind : back.filter (isNamed key) = [] := List.length_eq_zero_iff.mp (by omega)
    refine ⟨front, back, rfl, named, fun other among => ?_⟩
    rcases List.mem_append.mp among with early | late
    · exact Bool.eq_false_iff.mpr (List.filter_eq_nil_iff.mp before other early)
    · exact Bool.eq_false_iff.mpr (List.filter_eq_nil_iff.mp behind other late)
  · cases found

theorem whole_digits (whole : List Char) (integer : Whole whole) : Digits whole := by
  cases integer with
  | zero => exact fun c member => by rw [List.mem_singleton.mp member]; rfl
  | other c more digit _ all => exact List.forall_mem_cons.mpr ⟨digit, all⟩

theorem decimal_whole (sign whole : List Char) (signs : sign = [] ∨ sign = ['-']) (integer : Whole whole) :
    decimal (sign ++ whole) = (if sign = [] then (natural whole : ℤ) else -natural whole : ℤ) := by
  have digits := whole_digits whole integer
  have taken : whole.takeWhile Char.isDigit = whole := List.takeWhile_eq_self_iff.mpr digits
  have dropped : whole.dropWhile Char.isDigit = [] := List.dropWhile_eq_nil_iff.mpr digits
  rcases signs with rfl | rfl
  · have unsigned : whole.head? ≠ some '-' := by
      intro minus
      have digit := digits '-' (List.mem_of_mem_head? minus)
      cases digit
    simp [decimal, unsigned, taken, dropped, power]
  · simp [decimal, taken, dropped, power]

theorem plain_member (name value behind : List Char) (plain : name.all isPlain = true) (number : Number value) :
    Member name value ('"' :: (name ++ '"' :: ':' :: (value ++ behind))) behind :=
  have blank : Blank [] := List.all_eq_true.mp rfl
  .mk name [] [] value behind (chars_plain name [] (List.all_eq_true.mp plain)) blank blank (.number value behind number)

end Library.JsonGrammar
