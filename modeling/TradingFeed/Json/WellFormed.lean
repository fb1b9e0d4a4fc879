import TradingFeed.Json.RoundTrip
import TradingFeed.Library.JsonGrammar

set_option autoImplicit false

namespace TradingFeed.Json

open Library.JsonGrammar

variable {D : Type}

-- A parse that reads on to `rest`, unless it gets to a number that does not convert.
def Reads (conv : NumberToken → Except LoadFault (JSON D)) (parse : Except LoadFault (JSON D × Cursor)) (rest : Text) :
    Prop :=
  (∃ value, parse = .ok (value, some rest)) ∨ ∃ token fault, conv token = .error fault ∧ parse = .error fault

theorem blank_space (space : Text) (blank : Blank space) : ∀ c ∈ space, isspace c = true := by
  intro c member
  have kind := blank c member
  simp only [isBlank, Bool.or_eq_true, decide_eq_true_eq] at kind
  obtain ((rfl | rfl) | rfl) | rfl := kind <;> rfl

theorem value_start (text rest : Text) (value : Derives .value text rest) :
    ∃ c tail, text = c :: tail ∧ isspace c = false ∧ c ≠ ']' := by
  obtain ⟨c, tail, same, head⟩ := value_head text rest value
  refine ⟨c, tail, same, ?_⟩
  cases head with
  | inl digit => exact number_space c (digit_number c digit)
  | inr known =>
      simp only [List.mem_cons, List.not_mem_nil, or_false] at known
      obtain rfl | rfl | rfl | rfl | rfl | rfl | rfl := known <;> decide

theorem elements_start (text rest : Text) (elements : Derives .elements text rest) :
    ∃ c tail, text = c :: tail ∧ isspace c = false ∧ c ≠ ']' := by
  cases elements with
  | element _ behind _ value ends => exact value_start text behind value

theorem members_start (text rest : Text) (members : Derives .members text rest) : ∃ tail, text = '"' :: tail := by
  cases members with
  | member name => exact ⟨name, rfl⟩

theorem digits_then (digits rest : Text) (all : Digits digits) (follows : Follows rest) :
    (digits ++ rest).takeWhile Char.isDigit = digits ∧ (digits ++ rest).dropWhile Char.isDigit = rest := by
  obtain ⟨c, tail, rfl, ends⟩ := follows
  have other : c.isDigit = false := by
    cases digit : c.isDigit with
    | false => rfl
    | true =>
        have number := digit_number c digit
        rw [(ends_number_other c ends).1] at number
        cases number
  constructor
  · rw [List.takeWhile_append_of_pos all, List.takeWhile_cons_of_neg (by simp [other]), List.append_nil]
  · rw [List.dropWhile_append_of_pos all, List.dropWhile_cons_of_neg (by simp [other])]

theorem scan_exponent_skips (val left rest : Text) (cursor : Cursor) (c : Char) (here : charAt cursor = .ok c)
    (skipped : (if c = '-' then advance (advance cursor) else advance cursor) = some (left ++ rest)) (all : Digits left)
    (follows : Follows rest) :
    scanExponent val cursor = .ok (some ⟨val, some ((if c = '-' then ['-'] else []) ++ left)⟩, some rest) := by
  obtain ⟨taken, dropped⟩ := digits_then left rest all follows
  obtain ⟨last, tail, rfl, ends⟩ := follows
  have stop : charAt (some (last :: tail)) = .ok last := rfl
  simp only [scanExponent, here, skipped, taken, dropped, bind, Except.bind, stop, ends, if_true]

-- The digits of an exponent that parse_number keeps: the first character behind
-- the letter is lost unless it is a '-', which costs the first digit.
def keptExponent : Text → Text
  | '-' :: digits => '-' :: digits.tail
  | text => text.tail

theorem scan_exponent_digits (val sign digits rest : Text) (signs : sign = [] ∨ sign = ['+'] ∨ sign = ['-'])
    (nonempty : digits ≠ []) (all : Digits digits) (follows : Follows rest) :
    scanExponent val (some (sign ++ digits ++ rest)) =
      .ok (some ⟨val, some (keptExponent (sign ++ digits))⟩, some rest) := by
  obtain ⟨d, more, rfl⟩ := List.exists_cons_of_ne_nil nonempty
  have digit : d.isDigit = true := all d (by simp)
  have fewer : Digits more := fun c member => all c (by simp [member])
  obtain rfl | rfl | rfl := signs
  · have plain : d ≠ '-' := fun same => absurd digit (by rw [same]; decide)
    have kept : keptExponent (d :: more) = more := by
      rw [keptExponent]
      · rfl
      · exact fun _ same => plain (List.cons.inj same).1
    have scanned := scan_exponent_skips val more rest (some (d :: (more ++ rest))) d rfl (by rw [if_neg plain]; rfl) fewer
      follows
    rw [if_neg plain] at scanned
    rw [List.nil_append, kept]
    exact scanned
  · exact scan_exponent_skips val (d :: more) rest _ '+' rfl rfl all follows
  · exact scan_exponent_skips val more rest _ '-' rfl rfl fewer follows

theorem whole_number (whole : Text) (integer : Whole whole) : ∀ c ∈ whole, numberChar c = true := by
  intro c member
  cases integer with
  | zero =>
      rw [List.mem_singleton.mp member]
      rfl
  | other d digits digit _ more =>
      cases List.mem_cons.mp member with
      | inl same => exact digit_number c (same ▸ digit)
      | inr later => exact digit_number c (more c later)

theorem fraction_number (fraction : Text) (decimals : Fraction fraction) : ∀ c ∈ fraction, numberChar c = true := by
  intro c member
  cases decimals with
  | none => cases member
  | some digits _ all =>
      cases List.mem_cons.mp member with
      | inl same =>
          rw [same]
          rfl
      | inr later => exact digit_number c (all c later)

def cutNumber (number : Text) : NumberToken :=
  ⟨number.takeWhile numberChar,
    match number.dropWhile numberChar with
    | [] => none
    | _ :: text => some (keptExponent text)⟩

theorem mantissa_number (sign whole fraction : Text) (signs : sign = [] ∨ sign = ['-']) (integer : Whole whole)
    (decimals : Fraction fraction) : ∀ c ∈ sign ++ whole ++ fraction, numberChar c = true := by
  intro c member
  rcases List.mem_append.mp member with early | later
  · rcases List.mem_append.mp early with first | inside
    · rcases signs with rfl | rfl
      · cases first
      · rw [List.mem_singleton.mp first]
        rfl
    · exact whole_number whole integer c inside
  · exact fraction_number fraction decimals c later

theorem exponent_letter (e : Char) (letter : e = 'e' ∨ e = 'E') : numberChar e = false := by
  rcases letter with rfl | rfl <;> rfl

theorem cut_plain (mantissa : Text) (number : ∀ c ∈ mantissa, numberChar c = true) : cutNumber mantissa = ⟨mantissa, none⟩ := by
  dsimp only [cutNumber]
  rw [List.takeWhile_eq_self_iff.mpr number, List.dropWhile_eq_nil_iff.mpr number]

theorem cut_scientific (mantissa text : Text) (e : Char) (number : ∀ c ∈ mantissa, numberChar c = true)
    (letter : e = 'e' ∨ e = 'E') : cutNumber (mantissa ++ e :: text) = ⟨mantissa, some (keptExponent text)⟩ := by
  have other := exponent_letter e letter
  dsimp only [cutNumber]
  rw [List.takeWhile_append_of_pos number, List.dropWhile_append_of_pos number,
    List.takeWhile_cons_of_neg (by simp [other]), List.dropWhile_cons_of_neg (by simp [other]), List.append_nil]

theorem scan_number_derived (text rest : Text) (number : Library.JsonGrammar.Number text) (follows : Follows rest) :
    scanNumber (text ++ rest) = .ok (some (cutNumber text), some rest) := by
  cases number with
  | mk sign whole fraction exponent signs integer decimals power =>
      have mantissa := mantissa_number sign whole fraction signs integer decimals
      cases power with
      | none =>
          rw [List.append_nil, cut_plain _ mantissa]
          exact scan_number_text _ rest mantissa follows
      | some e sign' digits letter signs' nonempty all =>
          have other := exponent_letter e letter
          have split : sign ++ whole ++ fraction ++ e :: (sign' ++ digits) ++ rest =
              sign ++ whole ++ fraction ++ e :: (sign' ++ digits ++ rest) := by simp
          have taken : (sign ++ whole ++ fraction ++ e :: (sign' ++ digits ++ rest)).takeWhile numberChar =
              sign ++ whole ++ fraction := by
            rw [List.takeWhile_append_of_pos mantissa, List.takeWhile_cons_of_neg (by simp [other]), List.append_nil]
          have dropped : (sign ++ whole ++ fraction ++ e :: (sign' ++ digits ++ rest)).dropWhile numberChar =
              e :: (sign' ++ digits ++ rest) := by
            rw [List.dropWhile_append_of_pos mantissa, List.dropWhile_cons_of_neg (by simp [other])]
          have scanned := scan_exponent_digits (sign ++ whole ++ fraction) sign' digits rest signs' nonempty all follows
          rw [split, cut_scientific _ _ e mantissa letter]
          simp only [scanNumber, taken, dropped, charAt, bind, Except.bind, if_pos letter.symm, advance]
          exact scanned

theorem hex_same (c : Char) : isHexDigit c = isHex c := rfl

theorem chars_read (text rest : Text) (chars : Chars text rest) (val : Text) :
    ∃ value, (parseString val text : Except LoadFault (JSON D × Cursor)) = .ok (value, some rest) := by
  induction chars generalizing val with
  | close rest => exact ⟨.string val, by rw [parseString]⟩
  | plain c text rest plain more ih =>
      simp only [isPlain, Bool.and_eq_true, decide_eq_true_eq] at plain
      obtain ⟨⟨_, quote⟩, slash⟩ := plain
      obtain ⟨value, read⟩ := ih (val ++ [c])
      refine ⟨value, ?_⟩
      rw [parseString.eq_def]
      split <;> simp_all
  | escaped c text rest known more ih =>
      simp only [List.mem_cons, List.not_mem_nil, or_false] at known
      obtain rfl | rfl | rfl | rfl | rfl | rfl | rfl | rfl := known <;> exact ih _
  | unicode a b c d text rest hex more ih =>
      have digits : (isHex a && isHex b && isHex c && isHex d) = true := by
        simpa [hex_same, and_assoc] using hex
      obtain ⟨value, read⟩ := ih (val ++ ['\\', 'u', a, b, c, d])
      exact ⟨value, by rw [parseString, if_pos digits, read]⟩

section

variable (conv : NumberToken → Except LoadFault (JSON D))

theorem reads_ok (value : JSON D) (rest : Text) : Reads conv (.ok (value, some rest)) rest := Or.inl ⟨value, rfl⟩

theorem reads_bind (first : Except LoadFault (JSON D × Cursor))
    (next : JSON D × Cursor → Except LoadFault (JSON D × Cursor)) (behind rest : Text) (begins : Reads conv first behind)
    (goes : ∀ value, Reads conv (next (value, some behind)) rest) : Reads conv (first >>= next) rest := by
  cases begins with
  | inl read =>
      obtain ⟨value, rfl⟩ := read
      exact goes value
  | inr raised =>
      obtain ⟨token, fault, raises, rfl⟩ := raised
      exact Or.inr ⟨token, fault, raises, rfl⟩

theorem parse_next_cut (text rest : Text) (number : Library.JsonGrammar.Number text) (follows : Follows rest) (fuel : Nat) :
    parseNext conv (fuel + 1) (some (text ++ rest)) = (conv (cutNumber text)).map fun value => (value, some rest) := by
  obtain ⟨c, tail, rfl, head⟩ := number_head text number
  have scanned := scan_number_derived _ rest number follows
  have first : numberChar c = true := by
    cases head with
    | inl digit => exact digit_number c digit
    | inr minus =>
        rw [minus]
        rfl
  have other : c ≠ '[' ∧ c ≠ '\x7b' ∧ c ≠ '"' ∧ c ≠ 't' ∧ c ≠ 'f' ∧ c ≠ 'n' := number_other c first
  rw [List.cons_append] at scanned ⊢
  rw [parse_next_plain conv fuel _ c (tail ++ rest) (consume_ws_here c _ (number_space c first).1) other.1 other.2.1
    other.2.2.1, if_neg (by simp [other]), if_neg (by simp [other]), if_pos head, parseNumber, scanned]
  cases converted : conv (cutNumber (c :: tail)) with
  | ok number => simp [bind, Except.bind, converted, Except.map]
  | error fault => simp [bind, Except.bind, converted, Except.map]

theorem reads_number (text rest : Text) (number : Library.JsonGrammar.Number text) (follows : Follows rest) (fuel : Nat) :
    Reads conv (parseNext conv (fuel + 1) (some (text ++ rest))) rest := by
  rw [parse_next_cut conv text rest number follows fuel]
  cases converted : conv (cutNumber text) with
  | ok number => exact Or.inl ⟨number, rfl⟩
  | error fault => exact Or.inr ⟨cutNumber text, fault, converted, rfl⟩

theorem parse_next_bracket (fuel : Nat) (space text : Text) (c : Char) (blank : Blank space) (solid : isspace c = false) :
    parseNext conv (fuel + 1) (some ('[' :: (space ++ c :: text))) =
      if c = ']' then .ok (.array [], some text) else arrayLoop conv fuel [] (some (c :: text)) := by
  rw [parse_next_array conv fuel _ _ (consume_ws_here '[' _ rfl),
    consume_ws_space space text c (blank_space space blank) solid]
  simp [bind, Except.bind, charAt, advance]

theorem parse_next_brace (fuel : Nat) (space text : Text) (c : Char) (blank : Blank space) (solid : isspace c = false) :
    parseNext conv (fuel + 1) (some ('\x7b' :: (space ++ c :: text))) =
      if c = '\x7d' then .ok (.object [], some text) else objectLoop conv fuel [] (some (c :: text)) := by
  rw [parse_next_object conv fuel _ _ (consume_ws_here '\x7b' _ rfl),
    consume_ws_space space text c (blank_space space blank) solid]
  simp [bind, Except.bind, charAt, advance]

-- What the parser does at the start of each part of the grammar. The fuel is as
-- for the loops of Load: a value costs one unit more than twice its text.
def Accepts : Part → Text → Text → Prop
  | .value, text, rest =>
      Follows rest → ∀ fuel, 2 * text.length + 1 ≤ fuel → Reads conv (parseNext conv fuel (some text)) rest
  | .object, text, rest => ∀ fuel, 2 * text.length + 1 ≤ fuel → Reads conv (parseNext conv fuel (some text)) rest
  | .elements, text, rest =>
      ∀ fuel read, 2 * text.length + 2 ≤ fuel → Reads conv (arrayLoop conv fuel read (some text)) rest
  | .elementEnd, text, rest => Follows text ∧
      ∀ fuel read, 2 * text.length ≤ fuel → Reads conv (elementBehind conv fuel read (some text)) rest
  | .members, text, rest =>
      ∀ fuel read, 2 * text.length + 2 ≤ fuel → Reads conv (objectLoop conv fuel read (some text)) rest
  | .memberEnd, text, rest => Follows text ∧
      ∀ fuel read, 2 * text.length ≤ fuel → Reads conv (memberBehind conv fuel read (some text)) rest

theorem accepts_derived (part : Part) (text rest : Text) (derived : Derives part text rest) :
    Accepts conv part text rest := by
  induction derived with
  | null rest =>
      intro follows fuel enough
      obtain ⟨fuel, rfl⟩ := Nat.exists_eq_succ_of_ne_zero (show fuel ≠ 0 by omega)
      exact reads_ok conv .null rest
  | true_ rest =>
      intro follows fuel enough
      obtain ⟨fuel, rfl⟩ := Nat.exists_eq_succ_of_ne_zero (show fuel ≠ 0 by omega)
      exact reads_ok conv (.boolean true) rest
  | false_ rest =>
      intro follows fuel enough
      obtain ⟨fuel, rfl⟩ := Nat.exists_eq_succ_of_ne_zero (show fuel ≠ 0 by omega)
      exact reads_ok conv (.boolean false) rest
  | number text rest number =>
      intro follows fuel enough
      obtain ⟨fuel, rfl⟩ := Nat.exists_eq_succ_of_ne_zero (show fuel ≠ 0 by omega)
      exact reads_number conv text rest number follows fuel
  | string text rest chars =>
      intro follows fuel enough
      obtain ⟨fuel, rfl⟩ := Nat.exists_eq_succ_of_ne_zero (show fuel ≠ 0 by omega)
      rw [parse_next_string conv fuel _ _ (consume_ws_here '"' _ rfl)]
      exact Or.inl (chars_read text rest chars [])
  | emptyArray space rest blank =>
      intro follows fuel enough
      obtain ⟨fuel, rfl⟩ := Nat.exists_eq_succ_of_ne_zero (show fuel ≠ 0 by omega)
      rw [parse_next_bracket conv fuel space rest ']' blank rfl, if_pos rfl]
      exact reads_ok conv _ rest
  | array space text rest blank elements ih =>
      intro follows fuel enough
      simp only [List.length_cons, List.length_append] at enough
      obtain ⟨fuel, rfl⟩ := Nat.exists_eq_succ_of_ne_zero (show fuel ≠ 0 by omega)
      obtain ⟨c, tail, rfl, solid, filled⟩ := elements_start text rest elements
      rw [parse_next_bracket conv fuel space tail c blank solid, if_neg filled]
      exact ih fuel [] (by omega)
  | nested text rest object ih => exact fun _ => ih
  | emptyObject space rest blank =>
      intro fuel enough
      obtain ⟨fuel, rfl⟩ := Nat.exists_eq_succ_of_ne_zero (show fuel ≠ 0 by omega)
      rw [parse_next_brace conv fuel space rest '\x7d' blank rfl, if_pos rfl]
      exact reads_ok conv _ rest
  | object space text rest blank members ih =>
      intro fuel enough
      simp only [List.length_cons, List.length_append] at enough
      obtain ⟨fuel, rfl⟩ := Nat.exists_eq_succ_of_ne_zero (show fuel ≠ 0 by omega)
      obtain ⟨tail, rfl⟩ := members_start text rest members
      rw [parse_next_brace conv fuel space tail '"' blank rfl, if_neg (by decide)]
      exact ih fuel [] (by omega)
  | element text behind rest value ends valueRead endRead =>
      intro fuel read enough
      have shorter := (derives_suffix _ _ _ value).length_le
      obtain ⟨fuel, rfl⟩ := Nat.exists_eq_succ_of_ne_zero (show fuel ≠ 0 by omega)
      rw [array_loop_end]
      exact reads_bind conv _ _ behind rest (valueRead endRead.1 fuel (by omega)) fun found =>
        endRead.2 fuel _ (by omega)
  | lastElement space rest blank =>
      refine ⟨follows_space space rest ']' (blank_space space blank) rfl, fun fuel read enough => ?_⟩
      rw [element_behind_step conv fuel read space rest ']' (blank_space space blank) rfl, if_neg (by decide), if_pos rfl]
      exact reads_ok conv _ rest
  | nextElement space start text rest blank blanks elements ih =>
      refine ⟨follows_space space _ ',' (blank_space space blank) rfl, fun fuel read enough => ?_⟩
      simp only [List.length_cons, List.length_append] at enough
      rw [element_behind_step conv fuel read space _ ',' (blank_space space blank) rfl, if_pos rfl,
        array_loop_ws conv fuel read start text (blank_space start blanks)]
      exact ih fuel read (by omega)
  | member name space start text behind rest blank blanks chars value ends valueRead endRead =>
      intro fuel read enough
      have shorter := (chars_suffix _ _ chars).length_le
      have within := (derives_suffix _ _ _ value).length_le
      simp only [List.length_cons, List.length_append] at enough shorter
      obtain ⟨fuel, rfl⟩ := Nat.exists_eq_add_of_le (show 2 ≤ fuel by omega)
      obtain ⟨key, keyRead⟩ := chars_read (D := D) name _ chars []
      have named : parseNext conv (fuel + 1) (some ('"' :: name)) = .ok (key, some (space ++ ':' :: (start ++ text))) := by
        rw [parse_next_string conv fuel _ _ (consume_ws_here '"' _ rfl), keyRead]
      rw [Nat.add_comm 2 fuel, object_loop_end conv (fuel + 1) read _ key space _ (blank_space space blank) named,
        parse_next_ws conv (fuel + 1) start text (blank_space start blanks)]
      exact reads_bind conv _ _ behind rest (valueRead endRead.1 (fuel + 1) (by omega)) fun found =>
        endRead.2 (fuel + 1) _ (by omega)
  | lastMember space rest blank =>
      refine ⟨follows_space space rest '\x7d' (blank_space space blank) rfl, fun fuel read enough => ?_⟩
      rw [member_behind_step conv fuel read space rest '\x7d' (blank_space space blank) rfl, if_neg (by decide), if_pos rfl]
      exact reads_ok conv _ rest
  | nextMember space start text rest blank blanks members ih =>
      refine ⟨follows_space space _ ',' (blank_space space blank) rfl, fun fuel read enough => ?_⟩
      simp only [List.length_cons, List.length_append] at enough
      rw [member_behind_step conv fuel read space _ ',' (blank_space space blank) rfl, if_pos rfl,
        object_loop_ws conv fuel read start text (blank_space start blanks)]
      exact ih fuel read (by omega)

-- Whatever an object is broken by, what was read of it is an object.
theorem object_loop_object (fuel : Nat) (members : List (Text × JSON D)) (cursor rest : Cursor) (value : JSON D)
    (parsed : objectLoop conv fuel members cursor = .ok (value, rest)) : ∃ entries, value = .object entries := by
  induction fuel generalizing members cursor with
  | zero => cases parsed
  | succ fuel ih =>
      dsimp only [objectLoop] at parsed
      obtain ⟨⟨key, behind⟩, _, parsed⟩ := (bind_returns _ _ _).mp parsed
      obtain ⟨here, _, parsed⟩ := (bind_returns _ _ _).mp parsed
      obtain ⟨c, _, parsed⟩ := (bind_returns _ _ _).mp parsed
      split at parsed
      · cases parsed
        exact ⟨members, rfl⟩
      · obtain ⟨start, _, parsed⟩ := (bind_returns _ _ _).mp parsed
        obtain ⟨⟨found, after⟩, _, parsed⟩ := (bind_returns _ _ _).mp parsed
        obtain ⟨last, _, parsed⟩ := (bind_returns _ _ _).mp parsed
        obtain ⟨stop, _, parsed⟩ := (bind_returns _ _ _).mp parsed
        split at parsed
        · exact ih _ _ parsed
        · split at parsed
          · cases parsed
            exact ⟨_, rfl⟩
          · cases parsed
            exact ⟨_, rfl⟩

theorem brace_object (fuel : Nat) (space body : Text) (blank : ∀ c ∈ space, isspace c = true) (rest : Cursor)
    (value : JSON D) (parsed : parseNext conv fuel (some (space ++ '\x7b' :: body)) = .ok (value, rest)) :
    ∃ entries, value = .object entries := by
  cases fuel with
  | zero => cases parsed
  | succ fuel =>
      rw [parse_next_object conv fuel _ body ((consume_ws_append space _ blank).trans (consume_ws_here '\x7b' body rfl))]
        at parsed
      obtain ⟨inside, _, parsed⟩ := (bind_returns _ _ _).mp parsed
      split at parsed
      · cases parsed
        exact ⟨[], rfl⟩
      · exact object_loop_object conv fuel [] inside rest value parsed

end

theorem load_object (fp : Doubles D) (text : Text) (object : Object text) :
    (∃ entries, load fp text = .ok (.object entries)) ∨
      ∃ token fault, convert fp token = .error fault ∧ load fp text = .error fault := by
  obtain ⟨before, body, after, rfl, blank, _, derived⟩ := object
  obtain ⟨inner, rfl⟩ := object_head body after derived
  have blanks := blank_space before blank
  have read := accepts_derived (convert fp) .object _ after derived (2 * (before ++ '\x7b' :: inner).length + 1)
    (by simp only [List.length_append, List.length_cons]; omega)
  rw [← parse_next_ws (convert fp) _ before _ blanks] at read
  dsimp only [load, loadWith]
  cases read with
  | inl parsed =>
      obtain ⟨value, parsed⟩ := parsed
      obtain ⟨entries, rfl⟩ := brace_object (convert fp) _ before inner blanks _ value parsed
      exact Or.inl ⟨entries, by rw [parsed]; rfl⟩
  | inr raised =>
      obtain ⟨token, fault, raises, raised⟩ := raised
      exact Or.inr ⟨token, fault, raises, by rw [raised]; rfl⟩

theorem load_object_inside (fp : Doubles D) (text : Text) (object : Object text) : load fp text ≠ .error .pastEnd := by
  intro past
  obtain ⟨entries, loaded⟩ | ⟨token, fault, raises, raised⟩ := load_object fp text object
  · rw [loaded] at past
    cases past
  · rw [raised] at past
    cases past
    cases convert_raises fp token _ raises with
    | inl invalid => cases invalid
    | inr range => cases range

end TradingFeed.Json
