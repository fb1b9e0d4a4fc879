import Mathlib.Data.List.TakeWhile
import TradingFeed.Json.Numbers

set_option autoImplicit false

namespace TradingFeed.Json

variable {D : Type}

-- What std::to_string and std::stod promise of a finite double: the text is a
-- decimal one, and the double read from it has the same text.
structure Doubles.Finite (fp : Doubles D) (d : D) : Prop where
  decimal : ∃ sign whole fraction : Text, fp.toText d = sign ++ whole ++ '.' :: fraction ∧
    (sign = [] ∨ sign = ['-']) ∧ whole ≠ [] ∧ ∀ c ∈ whole ++ fraction, c.isDigit = true
  again : ∃ read, fp.stod (fp.toText d) = .ok read ∧ fp.toText (fp.mul read (fp.pow10 0)) = fp.toText d

def Doubles.reread (fp : Doubles D) (d : D) : D :=
  match fp.stod (fp.toText d) with
  | .ok read => fp.mul read (fp.pow10 0)
  | .error _ => d

-- dump prints keys as they are, so only keys without such characters come back.
def Plain (key : Text) : Prop := jsonEscape key = key

mutual
def Printable (fp : Doubles D) : JSON D → Prop
  | .object entries => PrintableMembers fp entries
  | .array elements => PrintableElements fp elements
  | .floating d => fp.Finite d
  | .integral n => fitsLongLong n = true
  | .null | .string _ | .boolean _ => True
def PrintableMembers (fp : Doubles D) : List (Text × JSON D) → Prop
  | [] => True
  | (key, value) :: rest => Plain key ∧ Printable fp value ∧ PrintableMembers fp rest
def PrintableElements (fp : Doubles D) : List (JSON D) → Prop
  | [] => True
  | value :: rest => Printable fp value ∧ PrintableElements fp rest
end

-- The keys that Load itself gives to objects are escaped already: dump prints such
-- a key as a string that comes back as the same key.
def Escaped (key : Text) : Prop := ∃ text, key = jsonEscape text

mutual
def Reprintable (fp : Doubles D) : JSON D → Prop
  | .object entries => ReprintableMembers fp entries
  | .array elements => ReprintableElements fp elements
  | .floating d => fp.Finite d
  | .integral n => fitsLongLong n = true
  | .null | .string _ | .boolean _ => True
def ReprintableMembers (fp : Doubles D) : List (Text × JSON D) → Prop
  | [] => True
  | (key, value) :: rest => Escaped key ∧ Reprintable fp value ∧ ReprintableMembers fp rest
def ReprintableElements (fp : Doubles D) : List (JSON D) → Prop
  | [] => True
  | value :: rest => Reprintable fp value ∧ ReprintableElements fp rest
end

mutual
def reloaded (fp : Doubles D) : JSON D → JSON D
  | .null => .null
  | .object entries => .object (reloadMembers fp [] entries)
  | .array elements => .array (reloadElements fp elements)
  | .string value => .string value
  | .floating d => .floating (fp.reread d)
  | .integral n => .integral n
  | .boolean value => .boolean value
def reloadMembers (fp : Doubles D) (members : List (Text × JSON D)) : List (Text × JSON D) → List (Text × JSON D)
  | [] => members
  | (key, value) :: rest => reloadMembers fp (putMember key (reloaded fp value) members) rest
def reloadElements (fp : Doubles D) : List (JSON D) → List (JSON D)
  | [] => []
  | value :: rest => reloaded fp value :: reloadElements fp rest
end

def Follows (rest : Text) : Prop := ∃ c tail, rest = c :: tail ∧ endsNumber c = true

def Number : JSON D → Prop
  | .floating _ | .integral _ => True
  | _ => False

def NumberText (text : Text) : Prop :=
  (∃ c tail, text = c :: tail ∧ (c.isDigit = true ∨ c = '-')) ∧ ∀ c ∈ text, numberChar c = true

theorem char_le_nat (c d : Char) : c ≤ d ↔ c.toNat ≤ d.toNat := Iff.rfl

theorem digit_number (c : Char) (digit : c.isDigit = true) : numberChar c = true := by
  simp [numberChar, digit]

theorem ends_number_other (c : Char) (ends : endsNumber c = true) : numberChar c = false ∧ c ≠ 'E' ∧ c ≠ 'e' := by
  simp only [endsNumber, isspace, Bool.or_eq_true, Bool.and_eq_true, decide_eq_true_eq, char_le_nat] at ends
  rcases ends with ((((rfl | ⟨above, below⟩) | rfl) | rfl) | rfl)
  · decide
  · have low : c.toNat ≤ 13 := below
    refine ⟨?_, ?_, ?_⟩
    · cases number : numberChar c with
      | false => rfl
      | true =>
          simp only [numberChar, Char.isDigit, Bool.or_eq_true, Bool.and_eq_true, decide_eq_true_eq] at number
          rcases number with ((rfl | ⟨digit, _⟩) | rfl)
          · exact absurd low (by decide)
          · have high : 48 ≤ c.toNat := digit
            omega
          · exact absurd low (by decide)
    · rintro rfl
      exact absurd low (by decide)
    · rintro rfl
      exact absurd low (by decide)
  · decide
  · decide
  · decide

theorem number_space (c : Char) (number : numberChar c = true) : isspace c = false ∧ c ≠ ']' := by
  have other : endsNumber c = false := by
    cases ends : endsNumber c with
    | false => rfl
    | true =>
        rw [(ends_number_other c ends).1] at number
        cases number
  simp only [endsNumber, Bool.or_eq_false_iff, decide_eq_false_iff_not] at other
  exact ⟨other.1.1.1, other.1.2⟩

theorem number_other (c : Char) (number : numberChar c = true) :
    c ≠ '[' ∧ c ≠ '\x7b' ∧ c ≠ '"' ∧ c ≠ 't' ∧ c ≠ 'f' ∧ c ≠ 'n' := by
  refine ⟨?_, ?_, ?_, ?_, ?_, ?_⟩ <;> exact fun same => absurd number (by rw [same]; decide)

theorem follows_space (space rest : Text) (last : Char) (blank : ∀ c ∈ space, isspace c = true)
    (ends : endsNumber last = true) : Follows (space ++ last :: rest) := by
  cases space with
  | nil => exact ⟨last, rest, rfl, ends⟩
  | cons c space => exact ⟨c, _, rfl, by simp [endsNumber, blank c (by simp)]⟩

theorem parse_string_char (val rest : Text) (c : Char) :
    parseString (D := D) val (escapeChar c ++ rest) = parseString (val ++ [c]) rest := by
  unfold escapeChar
  split
  case h_8 quote slash _ _ _ _ _ =>
      rw [List.singleton_append, parseString.eq_def]
      split <;> simp_all
  all_goals simp [parseString]

theorem parse_string_escaped (val text rest : Text) :
    parseString (D := D) val (jsonEscape text ++ '"' :: rest) = .ok (.string (val ++ text), some rest) := by
  induction text generalizing val with
  | nil => simp [jsonEscape, parseString]
  | cons c text ih =>
      rw [json_escape_cons, List.append_assoc, parse_string_char, ih]
      simp

theorem escape_char_cases (c : Char) :
    (∃ d ∈ ['"', '\\', '/', 'b', 'f', 'n', 'r', 't'], escapeChar c = ['\\', d]) ∨
      escapeChar c = [c] ∧ c ≠ '"' ∧ c ≠ '\\' ∧ c ≠ '\n' ∧ c ≠ '\r' ∧ c ≠ '\t' := by
  unfold escapeChar
  split
  case h_8 quote slash _ _ newline carriage tab => exact Or.inr ⟨rfl, quote, slash, newline, carriage, tab⟩
  all_goals exact Or.inl ⟨_, by decide, rfl⟩

theorem digits_value (n : Nat) : digitsValue (Nat.toDigits 10 n) = n := by
  have read := Nat.ofDigitChars_ten_toDigits (n := n)
  rw [Nat.ofDigitChars_eq_foldl] at read
  exact read

theorem shown_digit (n : Nat) (c : Char) (member : c ∈ Nat.toDigits 10 n) : c.isDigit = true :=
  Nat.isDigit_of_mem_toDigits (by decide) (by decide) member

theorem digits_taken (n : Nat) : (Nat.toDigits 10 n).takeWhile Char.isDigit = Nat.toDigits 10 n :=
  List.takeWhile_eq_self_iff.mpr (shown_digit n)

theorem digits_head (n : Nat) : ∃ c tail, Nat.toDigits 10 n = c :: tail ∧ c.isDigit = true := by
  cases digits : Nat.toDigits 10 n with
  | nil => exact absurd digits Nat.toDigits_ne_nil
  | cons c tail =>
      exact ⟨c, tail, rfl, shown_digit n c (by simp [digits])⟩

theorem show_int_number (n : Int) : NumberText (showInt n) := by
  obtain ⟨c, tail, digits, digit⟩ := digits_head n.natAbs
  have all : ∀ c ∈ Nat.toDigits 10 n.natAbs, numberChar c = true := fun c member =>
    digit_number c (shown_digit _ c member)
  dsimp only [showInt]
  split
  · exact ⟨⟨'-', _, rfl, Or.inr rfl⟩, fun c member => (List.mem_cons.mp member).elim (fun same => by rw [same]; rfl) (all c)⟩
  · exact ⟨⟨c, tail, digits, Or.inl digit⟩, all⟩

theorem stoll_show_int (n : Int) (fits : fitsLongLong n = true) : stoll (showInt n) = .ok n := by
  obtain ⟨c, tail, digits, digit⟩ := digits_head n.natAbs
  by_cases negative : n < 0
  · have value : -(n.natAbs : Int) = n := by omega
    simp only [stoll, showInt, if_pos negative, List.head?_cons, if_true, List.tail_cons, digits_taken,
      digits_value, value, Nat.toDigits_ne_nil, if_false, fits]
  · have value : (n.natAbs : Int) = n := by omega
    have unsigned : ¬(Nat.toDigits 10 n.natAbs).head? = some '-' := by
      rw [digits]
      intro sign
      cases sign
      exact absurd digit (by decide)
    simp only [stoll, showInt, if_neg negative, if_neg unsigned, digits_taken, digits_value, value,
      Nat.toDigits_ne_nil, if_false, fits, if_true]

theorem show_int_whole (n : Int) : '.' ∉ showInt n := by
  have digits : '.' ∉ Nat.toDigits 10 n.natAbs := fun member =>
    absurd (shown_digit _ '.' member) (by decide)
  dsimp only [showInt]
  split
  · simpa using digits
  · exact digits

theorem finite_number (fp : Doubles D) (d : D) (finite : fp.Finite d) : NumberText (fp.toText d) ∧ '.' ∈ fp.toText d := by
  obtain ⟨sign, whole, fraction, printed, signs, nonempty, digits⟩ := finite.decimal
  rw [printed]
  refine ⟨⟨?_, fun c member => ?_⟩, by simp⟩
  · rcases signs with rfl | rfl
    · obtain ⟨c, tail, rfl⟩ := List.exists_cons_of_ne_nil nonempty
      exact ⟨c, tail ++ '.' :: fraction, rfl, Or.inl (digits c (by simp))⟩
    · exact ⟨'-', whole ++ '.' :: fraction, rfl, Or.inr rfl⟩
  · rcases List.mem_append.mp member with front | back
    · rcases List.mem_append.mp front with sign_ | here
      · rcases signs with rfl | rfl
        · cases sign_
        · rw [List.mem_singleton.mp sign_]
          rfl
      · exact digit_number c (digits c (List.mem_append_left _ here))
    · rcases List.mem_cons.mp back with rfl | here
      · rfl
      · exact digit_number c (digits c (List.mem_append_right _ here))

theorem convert_int (fp : Doubles D) (n : Int) (fits : fitsLongLong n = true) :
    convert fp ⟨showInt n, none⟩ = .ok (.integral n) := by
  simp [convert, show_int_whole, stoll_show_int n fits, bind, Except.bind]

theorem convert_finite (fp : Doubles D) (d : D) (finite : fp.Finite d) :
    convert fp ⟨fp.toText d, none⟩ = .ok (.floating (fp.reread d)) := by
  obtain ⟨read, known, _⟩ := finite.again
  simp [convert, (finite_number fp d finite).2, Doubles.reread, known, bind, Except.bind]

theorem reread_text (fp : Doubles D) (d : D) (finite : fp.Finite d) : fp.toText (fp.reread d) = fp.toText d := by
  obtain ⟨read, known, same⟩ := finite.again
  simp [Doubles.reread, known, same]

theorem scan_number_text (text rest : Text) (number : ∀ c ∈ text, numberChar c = true) (follows : Follows rest) :
    scanNumber (text ++ rest) = .ok (some ⟨text, none⟩, some rest) := by
  obtain ⟨c, tail, rfl, ends⟩ := follows
  obtain ⟨other, upper, lower⟩ := ends_number_other c ends
  have taken : (text ++ c :: tail).takeWhile numberChar = text := by
    rw [List.takeWhile_append_of_pos number, List.takeWhile_cons_of_neg (by simp [other]), List.append_nil]
  have dropped : (text ++ c :: tail).dropWhile numberChar = c :: tail := by
    rw [List.dropWhile_append_of_pos number, List.dropWhile_cons_of_neg (by simp [other])]
  simp [scanNumber, taken, dropped, charAt, upper, lower, ends, bind, Except.bind]

theorem consume_ws_append (space text : Text) (blank : ∀ c ∈ space, isspace c = true) :
    consumeWs (some (space ++ text)) = consumeWs (some text) := by
  simp [consumeWs, List.dropWhile_append_of_pos blank]

theorem consume_ws_here (c : Char) (text : Text) (solid : isspace c = false) :
    consumeWs (some (c :: text)) = .ok (some (c :: text)) := by
  simp [consumeWs, solid]

theorem consume_ws_space (space text : Text) (c : Char) (blank : ∀ c ∈ space, isspace c = true) (solid : isspace c = false) :
    consumeWs (some (space ++ c :: text)) = .ok (some (c :: text)) :=
  (consume_ws_append space _ blank).trans (consume_ws_here c text solid)

theorem pad_blank (depth : Nat) : ∀ c ∈ pad depth, isspace c = true := by
  intro c member
  rw [List.eq_of_mem_replicate member]
  rfl

-- The two loops from the end of an element or a member on.
def elementBehind (conv : NumberToken → Except LoadFault (JSON D)) (fuel : Nat) (elements : List (JSON D))
    (cursor : Cursor) : Except LoadFault (JSON D × Cursor) := do
  let cursor ← consumeWs cursor
  let c ← charAt cursor
  if c = ',' then arrayLoop conv fuel elements (advance cursor)
  else if c = ']' then .ok (.array elements, advance cursor)
  else .ok (.array [], cursor)

def memberBehind (conv : NumberToken → Except LoadFault (JSON D)) (fuel : Nat) (members : List (Text × JSON D))
    (cursor : Cursor) : Except LoadFault (JSON D × Cursor) := do
  let cursor ← consumeWs cursor
  let c ← charAt cursor
  if c = ',' then objectLoop conv fuel members (advance cursor)
  else if c = '\x7d' then .ok (.object members, advance cursor)
  else .ok (.object members, cursor)

section

variable (conv : NumberToken → Except LoadFault (JSON D))

theorem parse_next_ws (fuel : Nat) (space text : Text) (blank : ∀ c ∈ space, isspace c = true) :
    parseNext conv fuel (some (space ++ text)) = parseNext conv fuel (some text) := by
  cases fuel with
  | zero => rfl
  | succ fuel => rw [parseNext, parseNext, consume_ws_append space text blank]

theorem parse_next_number (fuel : Nat) (text rest : Text) (value : JSON D) (number : NumberText text)
    (follows : Follows rest) (converts : conv ⟨text, none⟩ = .ok value) :
    parseNext conv (fuel + 1) (some (text ++ rest)) = .ok (value, some rest) := by
  obtain ⟨⟨c, tail, same, head⟩, all⟩ := number
  have first : numberChar c = true := all c (by simp [same])
  have here : consumeWs (some (text ++ rest)) = .ok (some (c :: (tail ++ rest))) := by
    rw [same]
    exact consume_ws_here c _ (number_space c first).1
  have other := number_other c first
  rw [parse_next_plain conv fuel _ c _ here other.1 other.2.1 other.2.2.1, if_neg (by simp [other]), if_neg (by simp [other]),
    if_pos head, ← List.cons_append, ← same, parseNumber, scan_number_text text rest all follows]
  simp [bind, Except.bind, converts]

theorem parse_next_text (fuel : Nat) (text rest : Text) :
    parseNext conv (fuel + 1) (some ('"' :: (jsonEscape text ++ '"' :: rest))) = .ok (.string text, some rest) := by
  rw [parse_next_string conv fuel _ _ (consume_ws_here '"' _ rfl), parse_string_escaped]
  rfl

theorem parse_next_null (fuel : Nat) (rest : Text) :
    parseNext conv (fuel + 1) (some ("null".toList ++ rest)) = .ok (.null, some rest) := rfl

theorem parse_next_true (fuel : Nat) (rest : Text) :
    parseNext conv (fuel + 1) (some ("true".toList ++ rest)) = .ok (.boolean true, some rest) := rfl

theorem parse_next_false (fuel : Nat) (rest : Text) :
    parseNext conv (fuel + 1) (some ("false".toList ++ rest)) = .ok (.boolean false, some rest) := rfl

theorem parse_next_skips (fuel : Nat) (text : Text) :
    parseNext conv fuel (some (text.dropWhile isspace)) = parseNext conv fuel (some text) := by
  have skips := parse_next_ws conv fuel (text.takeWhile isspace) (text.dropWhile isspace) fun c member =>
    List.mem_takeWhile_imp member
  rw [List.takeWhile_append_dropWhile] at skips
  exact skips.symm

theorem array_loop_ws (fuel : Nat) (read : List (JSON D)) (space text : Text) (blank : ∀ c ∈ space, isspace c = true) :
    arrayLoop conv fuel read (some (space ++ text)) = arrayLoop conv fuel read (some text) := by
  cases fuel with
  | zero => rfl
  | succ fuel => rw [arrayLoop, arrayLoop, parse_next_ws conv fuel space text blank]

theorem object_loop_ws (fuel : Nat) (read : List (Text × JSON D)) (space text : Text)
    (blank : ∀ c ∈ space, isspace c = true) :
    objectLoop conv fuel read (some (space ++ text)) = objectLoop conv fuel read (some text) := by
  cases fuel with
  | zero => rfl
  | succ fuel => rw [objectLoop, objectLoop, parse_next_ws conv fuel space text blank]

theorem array_loop_end (fuel : Nat) (read : List (JSON D)) (cursor : Cursor) :
    arrayLoop conv (fuel + 1) read cursor = parseNext conv fuel cursor >>= fun found =>
      elementBehind conv fuel (read ++ [found.1]) found.2 := by
  rw [arrayLoop]
  rfl

theorem element_behind_step (fuel : Nat) (read : List (JSON D)) (space rest : Text) (c : Char)
    (blank : ∀ c ∈ space, isspace c = true) (solid : isspace c = false) :
    elementBehind conv fuel read (some (space ++ c :: rest)) =
      if c = ',' then arrayLoop conv fuel read (some rest)
      else if c = ']' then .ok (.array read, some rest)
      else .ok (.array [], some (c :: rest)) := by
  simp only [elementBehind, consume_ws_space space rest c blank solid, bind, Except.bind, charAt, advance]

theorem array_loop_step (fuel : Nat) (read : List (JSON D)) (cursor : Cursor) (value : JSON D) (c : Char) (tail : Text)
    (parsed : parseNext conv fuel cursor = .ok (value, some (c :: tail))) (solid : isspace c = false) :
    arrayLoop conv (fuel + 1) read cursor =
      if c = ',' then arrayLoop conv fuel (read ++ [value]) (some tail)
      else if c = ']' then .ok (.array (read ++ [value]), some tail)
      else .ok (.array [], some (c :: tail)) := by
  rw [array_loop_end, parsed]
  exact element_behind_step conv fuel (read ++ [value]) [] tail c (by simp) solid

theorem object_loop_end (fuel : Nat) (members : List (Text × JSON D)) (cursor : Cursor) (key : JSON D)
    (between behind : Text) (blank : ∀ c ∈ between, isspace c = true)
    (keyRead : parseNext conv fuel cursor = .ok (key, some (between ++ ':' :: behind))) :
    objectLoop conv (fuel + 1) members cursor = parseNext conv fuel (some behind) >>= fun found =>
      memberBehind conv fuel (putMember key.asText found.1 members) found.2 := by
  have skipped : consumeWs (some behind) = .ok (some (behind.dropWhile isspace)) := rfl
  rw [objectLoop, keyRead]
  simp only [bind, Except.bind, consume_ws_space between behind ':' blank rfl, charAt, advance, ne_eq, not_true_eq_false,
    if_false, skipped, parse_next_skips conv fuel behind]
  rfl

theorem member_behind_step (fuel : Nat) (members : List (Text × JSON D)) (space rest : Text) (c : Char)
    (blank : ∀ c ∈ space, isspace c = true) (solid : isspace c = false) :
    memberBehind conv fuel members (some (space ++ c :: rest)) =
      if c = ',' then objectLoop conv fuel members (some rest)
      else if c = '\x7d' then .ok (.object members, some rest)
      else .ok (.object members, some (c :: rest)) := by
  simp only [memberBehind, consume_ws_space space rest c blank solid, bind, Except.bind, charAt, advance]

theorem object_loop_step (fuel : Nat) (read : List (Text × JSON D)) (cursor : Cursor) (key value : JSON D)
    (between behind space tail : Text) (c : Char) (blank : ∀ c ∈ between, isspace c = true)
    (blanks : ∀ c ∈ space, isspace c = true) (solid : isspace c = false)
    (keyRead : parseNext conv fuel cursor = .ok (key, some (between ++ ':' :: behind)))
    (valueRead : parseNext conv fuel (some behind) = .ok (value, some (space ++ c :: tail))) :
    objectLoop conv (fuel + 1) read cursor =
      if c = ',' then objectLoop conv fuel (putMember key.asText value read) (some tail)
      else if c = '\x7d' then .ok (.object (putMember key.asText value read), some tail)
      else .ok (.object (putMember key.asText value read), some (c :: tail)) := by
  rw [object_loop_end conv fuel read cursor key between behind blank keyRead, valueRead]
  exact member_behind_step conv fuel (putMember key.asText value read) space tail c blanks solid

end

mutual
theorem printable_reprintable (fp : Doubles D) (json : JSON D) (printable : Printable fp json) : Reprintable fp json := by
  match json with
  | .object entries => exact printable_members_reprintable fp entries printable
  | .array elements => exact printable_elements_reprintable fp elements printable
  | .floating d => exact printable
  | .integral n => exact printable
  | .null => trivial
  | .string value => trivial
  | .boolean value => trivial
theorem printable_members_reprintable (fp : Doubles D) (entries : List (Text × JSON D))
    (printable : PrintableMembers fp entries) : ReprintableMembers fp entries := by
  match entries with
  | [] => trivial
  | (key, value) :: rest =>
      exact ⟨⟨key, printable.1.symm⟩, printable_reprintable fp value printable.2.1,
        printable_members_reprintable fp rest printable.2.2⟩
theorem printable_elements_reprintable (fp : Doubles D) (elements : List (JSON D))
    (printable : PrintableElements fp elements) : ReprintableElements fp elements := by
  match elements with
  | [] => trivial
  | value :: rest =>
      exact ⟨printable_reprintable fp value printable.1, printable_elements_reprintable fp rest printable.2⟩
end

theorem dump_head (fp : Doubles D) (depth : Nat) (json : JSON D) (printable : Reprintable fp json) :
    ∃ c tail, dump fp depth json = c :: tail ∧ isspace c = false ∧ c ≠ ']' := by
  have number (text : Text) (number : NumberText text) : ∃ c tail, text = c :: tail ∧ isspace c = false ∧ c ≠ ']' := by
    obtain ⟨⟨c, tail, same, _⟩, all⟩ := number
    exact ⟨c, tail, same, number_space c (all c (by simp [same]))⟩
  cases json with
  | null => exact ⟨'n', "ull".toList, rfl, by decide⟩
  | object entries => exact ⟨'\x7b', _, rfl, by decide⟩
  | array elements => exact ⟨'[', _, rfl, by decide⟩
  | string value => exact ⟨'"', _, rfl, by decide⟩
  | floating d => exact number _ (finite_number fp d printable).1
  | integral n => exact number _ (show_int_number n)
  | boolean value =>
      cases value with
      | false => exact ⟨'f', "alse".toList, rfl, by decide⟩
      | true => exact ⟨'t', "rue".toList, rfl, by decide⟩

theorem dump_member_shape (fp : Doubles D) (depth : Nat) (key : Text) (value : JSON D) (entries : List (Text × JSON D)) :
    dumpMembers fp depth ((key, value) :: entries) =
      pad depth ++ '"' :: (key ++ '"' :: ' ' :: ':' :: ' ' :: (dump fp (depth + 1) value ++
        if entries = [] then [] else ',' :: '\n' :: dumpMembers fp depth entries)) := by
  cases entries <;> simp [dumpMembers]

theorem dump_element_shape (fp : Doubles D) (depth : Nat) (value : JSON D) (elements : List (JSON D)) :
    dumpElements fp depth (value :: elements) = dump fp (depth + 1) value ++
      if elements = [] then [] else ',' :: ' ' :: dumpElements fp depth elements := by
  cases elements <;> simp [dumpElements]

mutual
theorem parse_dump (fp : Doubles D) (json : JSON D) (depth fuel : Nat) (rest : Text) (printable : Reprintable fp json)
    (follows : Number json → Follows rest) (enough : (dump fp depth json).length ≤ fuel) :
    parseNext (convert fp) fuel (some (dump fp depth json ++ rest)) = .ok (reloaded fp json, some rest) := by
  obtain ⟨c, tail, head, solid, _⟩ := dump_head fp depth json printable
  cases fuel with
  | zero =>
      rw [head] at enough
      simp at enough
  | succ fuel =>
      match json with
      | .null => exact parse_next_null (convert fp) fuel rest
      | .boolean true => exact parse_next_true (convert fp) fuel rest
      | .boolean false => exact parse_next_false (convert fp) fuel rest
      | .integral n =>
          exact parse_next_number (convert fp) fuel _ rest _ (show_int_number n) (follows trivial) (convert_int fp n printable)
      | .floating d =>
          exact parse_next_number (convert fp) fuel _ rest _ (finite_number fp d printable).1 (follows trivial)
            (convert_finite fp d printable)
      | .string value =>
          have shape : dump fp depth (.string value) ++ rest = '"' :: (jsonEscape value ++ '"' :: rest) := by
            simp [dump]
          rw [shape]
          exact parse_next_text (convert fp) fuel value rest
      | .array elements =>
          rw [parse_next_array (convert fp) fuel _ (dumpElements fp depth elements ++ ']' :: rest)
            (by simpa [dump] using consume_ws_here '[' _ rfl)]
          cases elements with
          | nil => rfl
          | cons first others =>
              obtain ⟨d, back, opens, dark, other⟩ := dump_head fp (depth + 1) first printable.1
              obtain ⟨back, begins⟩ : ∃ back, dumpElements fp depth (first :: others) ++ ']' :: rest = d :: back :=
                ⟨_, by rw [dump_element_shape, opens]; rfl⟩
              have inside : consumeWs (some (dumpElements fp depth (first :: others) ++ ']' :: rest)) =
                  .ok (some (dumpElements fp depth (first :: others) ++ ']' :: rest)) := by
                rw [begins]
                exact consume_ws_here d back dark
              rw [inside]
              have open_ : ¬charAt (some (dumpElements fp depth (first :: others) ++ ']' :: rest)) = .ok ']' := by
                rw [begins]
                simp [charAt, other]
              simp only [bind, Except.bind, if_neg open_]
              exact array_loop_dump fp (first :: others) [] depth fuel rest printable (by simp)
                (by simp [dump] at enough; omega)
      | .object entries =>
          have blank : ∀ c ∈ '\n' :: pad (depth - 1), isspace c = true := fun c member =>
            (List.mem_cons.mp member).elim (fun same => by rw [same]; rfl) (pad_blank _ c)
          have shape : dump fp depth (.object entries) ++ rest =
              '\x7b' :: (['\n'] ++ (dumpMembers fp depth entries ++ (('\n' :: pad (depth - 1)) ++ '\x7d' :: rest))) := by
            simp [dump]
          rw [shape, parse_next_object (convert fp) fuel _ _ (consume_ws_here '\x7b' _ rfl),
            consume_ws_append ['\n'] _ (by simp [isspace])]
          cases entries with
          | nil =>
              rw [dumpMembers, List.nil_append, consume_ws_append _ _ blank, consume_ws_here '\x7d' rest rfl]
              rfl
          | cons first others =>
              have later := object_loop_dump fp (first :: others) [] depth fuel _ rest printable (by simp) blank
                (by simp [dump] at enough; omega)
              obtain ⟨key, value⟩ := first
              rw [dump_member_shape, List.append_assoc] at later ⊢
              rw [object_loop_ws (convert fp) fuel [] _ _ (pad_blank depth)] at later
              rw [consume_ws_append _ _ (pad_blank depth), List.cons_append, consume_ws_here '"' _ rfl]
              exact later
theorem array_loop_dump (fp : Doubles D) (elements : List (JSON D)) (read : List (JSON D)) (depth fuel : Nat)
    (rest : Text) (printable : ReprintableElements fp elements) (nonempty : elements ≠ [])
    (enough : (dumpElements fp depth elements).length < fuel) :
    arrayLoop (convert fp) fuel read (some (dumpElements fp depth elements ++ ']' :: rest)) =
      .ok (.array (read ++ reloadElements fp elements), some rest) := by
  cases fuel with
  | zero => omega
  | succ fuel =>
      match elements with
      | [] => exact absurd rfl nonempty
      | [value] =>
          have parsed := parse_dump fp value (depth + 1) fuel (']' :: rest) printable.1 (fun _ => ⟨']', rest, rfl, rfl⟩)
            (by simp only [dumpElements] at enough; omega)
          exact array_loop_step (convert fp) fuel read _ _ ']' rest parsed rfl
      | value :: next :: others =>
          have follow : dumpElements fp depth (value :: next :: others) ++ ']' :: rest =
              dump fp (depth + 1) value ++ ',' :: ([' '] ++ (dumpElements fp depth (next :: others) ++ ']' :: rest)) := by
            simp [dumpElements]
          have length : (dumpElements fp depth (value :: next :: others)).length =
              (dump fp (depth + 1) value).length + 2 + (dumpElements fp depth (next :: others)).length := by
            simp [dumpElements]
            omega
          have parsed := parse_dump fp value (depth + 1) fuel
            (',' :: ([' '] ++ (dumpElements fp depth (next :: others) ++ ']' :: rest))) printable.1
            (fun _ => ⟨',', _, rfl, rfl⟩) (by omega)
          have later := array_loop_dump fp (next :: others) (read ++ [reloaded fp value]) depth fuel rest printable.2
            (by simp) (by omega)
          rw [follow, array_loop_step (convert fp) fuel read _ _ ',' _ parsed rfl, if_pos rfl,
            array_loop_ws (convert fp) fuel _ [' '] _ (by simp [isspace]), later, List.append_assoc]
          rfl
theorem object_loop_dump (fp : Doubles D) (entries : List (Text × JSON D)) (read : List (Text × JSON D))
    (depth fuel : Nat) (space rest : Text) (printable : ReprintableMembers fp entries) (nonempty : entries ≠ [])
    (blank : ∀ c ∈ space, isspace c = true) (enough : (dumpMembers fp depth entries).length ≤ fuel) :
    objectLoop (convert fp) fuel read (some (dumpMembers fp depth entries ++ (space ++ '\x7d' :: rest))) =
      .ok (.object (reloadMembers fp read entries), some rest) := by
  match entries with
  | [] => exact absurd rfl nonempty
  | (key, value) :: others =>
      obtain ⟨⟨raw, escaped⟩, valuePrintable, othersPrintable⟩ := printable
      have length := congrArg List.length (dump_member_shape fp depth key value others)
      simp only [List.length_append, List.length_cons] at length
      obtain ⟨fuel, rfl⟩ : ∃ less, fuel = less + 1 + 1 := ⟨fuel - 2, by omega⟩
      have keyRead (behind : Text) : parseNext (convert fp) (fuel + 1)
          (some (pad depth ++ '"' :: (key ++ '"' :: behind))) = .ok (.string raw, some behind) := by
        rw [parse_next_ws (convert fp) (fuel + 1) _ _ (pad_blank depth), escaped]
        exact parse_next_text (convert fp) fuel raw behind
      have keyText : (JSON.string raw : JSON D).asText = key := escaped.symm
      have valueRead (behind : Text) (follows : Follows behind) : parseNext (convert fp) (fuel + 1)
          (some ([' '] ++ (dump fp (depth + 1) value ++ behind))) = .ok (reloaded fp value, some behind) := by
        rw [parse_next_ws (convert fp) (fuel + 1) [' '] _ (by simp [isspace])]
        exact parse_dump fp value (depth + 1) (fuel + 1) behind valuePrintable (fun _ => follows) (by omega)
      match others with
      | [] =>
          have follow : dumpMembers fp depth [(key, value)] ++ (space ++ '\x7d' :: rest) = pad depth ++ '"' ::
              (key ++ '"' :: ([' '] ++ ':' :: ([' '] ++ (dump fp (depth + 1) value ++ (space ++ '\x7d' :: rest))))) := by
            simp [dumpMembers]
          rw [follow, object_loop_step (convert fp) (fuel + 1) read _ _ _ [' '] _ space rest '\x7d' (by simp [isspace]) blank
            rfl (keyRead _) (valueRead _ (follows_space space rest '\x7d' blank rfl)), if_neg (by decide), if_pos rfl, keyText]
          rfl
      | next :: others =>
          have follow : dumpMembers fp depth ((key, value) :: next :: others) ++ (space ++ '\x7d' :: rest) = pad depth ++ '"' ::
              (key ++ '"' :: ([' '] ++ ':' :: ([' '] ++ (dump fp (depth + 1) value ++ ([] ++ ',' ::
                (['\n'] ++ (dumpMembers fp depth (next :: others) ++ (space ++ '\x7d' :: rest)))))))) := by
            simp [dumpMembers]
          have later := object_loop_dump fp (next :: others) (putMember key (reloaded fp value) read) depth (fuel + 1) space
            rest othersPrintable (by simp) blank (by simp at length ⊢; omega)
          rw [follow, object_loop_step (convert fp) (fuel + 1) read _ _ _ [' '] _ [] _ ',' (by simp [isspace]) (by simp) rfl
            (keyRead _) (valueRead _ ⟨',', _, rfl, rfl⟩), if_pos rfl, keyText,
            object_loop_ws (convert fp) (fuel + 1) _ ['\n'] _ (by simp [isspace]), later]
          rfl
end

theorem load_reprinted (fp : Doubles D) (json : JSON D) (printable : Reprintable fp json) (closed : ¬Number json) :
    load fp (json.dump fp) = .ok (reloaded fp json) := by
  have parsed := parse_dump fp json 1 (2 * (json.dump fp).length + 1) [] printable (fun number => absurd number closed)
    (by simp only [JSON.dump]; omega)
  rw [List.append_nil] at parsed
  dsimp only [load, loadWith, JSON.dump] at parsed ⊢
  rw [parsed]
  rfl

theorem load_dump (fp : Doubles D) (json : JSON D) (printable : Printable fp json) (closed : ¬Number json) :
    load fp (json.dump fp) = .ok (reloaded fp json) :=
  load_reprinted fp json (printable_reprintable fp json printable) closed

def showMillionths (n : Nat) : Text :=
  let fraction := Nat.toDigits 10 (n % 10 ^ 6)
  Nat.toDigits 10 (n / 10 ^ 6) ++ '.' :: (List.replicate (6 - fraction.length) '0' ++ fraction)

def readMillionths (text : Text) : Except LoadFault Nat :=
  let whole := text.takeWhile Char.isDigit
  let fraction := ((text.dropWhile Char.isDigit).drop 1).takeWhile Char.isDigit
  if whole = [] ∧ fraction = [] then .error .invalidArgument
  else .ok (digitsValue (whole ++ (fraction ++ List.replicate 6 '0').take 6))

-- Doubles that are whole numbers of millionths, for runs on decimal texts.
def Doubles.micro : Doubles Int where
  zero := 0
  ofInt := fun n => n * 10 ^ 6
  pow10 := fun n => 10 ^ (n + 6).toNat
  mul := fun a b => a * b / 10 ^ 6
  stod := fun text =>
    match text with
    | '-' :: rest => (readMillionths rest).map fun (n : Nat) => -(n : Int)
    | _ => (readMillionths text).map fun (n : Nat) => (n : Int)
  toText := fun n => (if n < 0 then ['-'] else []) ++ showMillionths n.natAbs
  stod_raises := by
    intro text fault raised
    have unsigned (text : Text) (sign : Nat → Int) (failed : (readMillionths text).map sign = .error fault) :
        fault = .invalidArgument := by
      dsimp only [readMillionths] at failed
      split at failed
      · cases failed
        rfl
      · cases failed
    split at raised <;> exact Or.inl (unsigned _ _ raised)

theorem millionths_fraction (n : Nat) (small : n < 10 ^ 6) :
    (List.replicate (6 - (Nat.toDigits 10 n).length) '0' ++ Nat.toDigits 10 n).length = 6 ∧
      (∀ c ∈ List.replicate (6 - (Nat.toDigits 10 n).length) '0' ++ Nat.toDigits 10 n, c.isDigit = true) ∧
      Nat.ofDigitChars 10 (List.replicate (6 - (Nat.toDigits 10 n).length) '0' ++ Nat.toDigits 10 n) 0 = n := by
  have short : (Nat.toDigits 10 n).length ≤ 6 := (Nat.length_toDigits_le_iff (by decide) (by decide)).mpr small
  refine ⟨by simp; omega, fun c member => ?_, ?_⟩
  · rcases List.mem_append.mp member with zero | digit
    · rw [List.eq_of_mem_replicate zero]
      rfl
    · exact shown_digit n c digit
  · rw [Nat.ofDigitChars_append, Nat.ofDigitChars_replicate_zero, Nat.mul_zero, Nat.ofDigitChars_ten_toDigits]

theorem read_show_millionths (n : Nat) : readMillionths (showMillionths n) = .ok n := by
  obtain ⟨length, digits, value⟩ := millionths_fraction (n % 10 ^ 6) (Nat.mod_lt n (by decide))
  dsimp only [showMillionths]
  generalize List.replicate (6 - (Nat.toDigits 10 (n % 10 ^ 6)).length) '0' ++ Nat.toDigits 10 (n % 10 ^ 6) = fraction
    at length digits value
  have wholeDigits : ∀ c ∈ Nat.toDigits 10 (n / 10 ^ 6), c.isDigit = true := fun c member =>
    shown_digit _ c member
  have taken : (Nat.toDigits 10 (n / 10 ^ 6) ++ '.' :: fraction).takeWhile Char.isDigit = Nat.toDigits 10 (n / 10 ^ 6) := by
    rw [List.takeWhile_append_of_pos wholeDigits, List.takeWhile_cons_of_neg (by decide), List.append_nil]
  have dropped : (Nat.toDigits 10 (n / 10 ^ 6) ++ '.' :: fraction).dropWhile Char.isDigit = '.' :: fraction := by
    rw [List.dropWhile_append_of_pos wholeDigits, List.dropWhile_cons_of_neg (by decide)]
  have padded : (fraction ++ List.replicate 6 '0').take 6 = fraction := by
    rw [← length, List.take_left]
  have read : digitsValue (Nat.toDigits 10 (n / 10 ^ 6) ++ fraction) = n := by
    have split : Nat.ofDigitChars 10 (Nat.toDigits 10 (n / 10 ^ 6) ++ fraction) 0 = n := by
      rw [Nat.ofDigitChars_append, Nat.ofDigitChars_ten_toDigits, Nat.ofDigitChars_eq_ofDigitChars_zero, length, value]
      exact Nat.div_add_mod n (10 ^ 6)
    rw [Nat.ofDigitChars_eq_foldl] at split
    exact split
  dsimp only [readMillionths]
  rw [taken, dropped, List.drop_succ_cons, List.drop_zero, List.takeWhile_eq_self_iff.mpr digits,
    if_neg (fun both => Nat.toDigits_ne_nil both.1), padded, read]

theorem micro_stod (n : Int) : Doubles.micro.stod (Doubles.micro.toText n) = .ok n := by
  dsimp only [Doubles.micro]
  by_cases negative : n < 0
  · rw [if_pos negative]
    change (readMillionths (showMillionths n.natAbs)).map (fun (n : Nat) => -(n : Int)) = _
    have value : -(n.natAbs : Int) = n := by omega
    rw [read_show_millionths]
    exact congrArg Except.ok value
  · obtain ⟨c, tail, head, digit⟩ := digits_head (n.natAbs / 10 ^ 6)
    have unsigned : ∀ rest, showMillionths n.natAbs ≠ '-' :: rest := by
      intro rest same
      simp only [showMillionths, head, List.cons_append, List.cons.injEq] at same
      rw [same.1] at digit
      cases digit
    rw [if_neg negative, List.nil_append]
    split
    · rename_i rest same
      exact absurd same (unsigned rest)
    · have value : (n.natAbs : Int) = n := by omega
      rw [read_show_millionths]
      exact congrArg Except.ok value

theorem micro_finite (n : Int) : Doubles.micro.Finite n where
  decimal := by
    obtain ⟨_, digits, _⟩ := millionths_fraction (n.natAbs % 10 ^ 6) (Nat.mod_lt _ (by decide))
    refine ⟨if n < 0 then ['-'] else [], Nat.toDigits 10 (n.natAbs / 10 ^ 6), _, (List.append_assoc _ _ _).symm, ?_,
      Nat.toDigits_ne_nil, fun c member => ?_⟩
    · split
      · exact Or.inr rfl
      · exact Or.inl rfl
    · rcases List.mem_append.mp member with whole | fraction
      · exact shown_digit _ c whole
      · exact digits c fraction
  again := by
    have product : n * 10 ^ 6 / 10 ^ 6 = n := Int.mul_ediv_cancel n (by decide)
    exact ⟨n, micro_stod n, congrArg Doubles.micro.toText product⟩

end TradingFeed.Json
