import Mathlib.Data.List.Basic

set_option autoImplicit false

namespace Library.JsonGrammar

def isBlank (c : Char) : Bool := c = ' ' || c = '\t' || c = '\n' || c = '\r'

def isPlain (c : Char) : Bool := ' ' ≤ c && c ≠ '"' && c ≠ '\\'

def isHexDigit (c : Char) : Bool := c.isDigit || ('a' ≤ c && c ≤ 'f') || ('A' ≤ c && c ≤ 'F')

def Blank (space : List Char) : Prop := ∀ c ∈ space, isBlank c = true

def Digits (digits : List Char) : Prop := ∀ c ∈ digits, c.isDigit = true

inductive Whole : List Char → Prop where
  | zero : Whole ['0']
  | other (c : Char) (digits : List Char) (digit : c.isDigit = true) (leading : c ≠ '0') (more : Digits digits) :
      Whole (c :: digits)

inductive Fraction : List Char → Prop where
  | none : Fraction []
  | some (digits : List Char) (nonempty : digits ≠ []) (all : Digits digits) : Fraction ('.' :: digits)

inductive Exponent : List Char → Prop where
  | none : Exponent []
  | some (e : Char) (sign digits : List Char) (letter : e = 'e' ∨ e = 'E')
      (signs : sign = [] ∨ sign = ['+'] ∨ sign = ['-']) (nonempty : digits ≠ []) (all : Digits digits) :
      Exponent (e :: (sign ++ digits))

inductive Number : List Char → Prop where
  | mk (sign whole fraction exponent : List Char) (signs : sign = [] ∨ sign = ['-']) (integer : Whole whole)
      (decimals : Fraction fraction) (power : Exponent exponent) : Number (sign ++ whole ++ fraction ++ exponent)

inductive Chars : List Char → List Char → Prop where
  | close (rest : List Char) : Chars ('"' :: rest) rest
  | plain (c : Char) (text rest : List Char) (plain : isPlain c = true) (more : Chars text rest) : Chars (c :: text) rest
  | escaped (c : Char) (text rest : List Char) (known : c ∈ ['"', '\\', '/', 'b', 'f', 'n', 'r', 't'])
      (more : Chars text rest) : Chars ('\\' :: c :: text) rest
  | unicode (a b c d : Char) (text rest : List Char) (hex : [a, b, c, d].all isHexDigit = true)
      (more : Chars text rest) : Chars ('\\' :: 'u' :: a :: b :: c :: d :: text) rest

-- A value, or what is left of an array or an object: from the start of an element
-- or a member on, or from its end on.
inductive Part where
  | value
  | object
  | elements
  | elementEnd
  | members
  | memberEnd

-- `Derives part text rest`: the text is such a part and then `rest`.
inductive Derives : Part → List Char → List Char → Prop where
  | null (rest : List Char) : Derives .value ("null".toList ++ rest) rest
  | true_ (rest : List Char) : Derives .value ("true".toList ++ rest) rest
  | false_ (rest : List Char) : Derives .value ("false".toList ++ rest) rest
  | number (text rest : List Char) (number : Number text) : Derives .value (text ++ rest) rest
  | string (text rest : List Char) (chars : Chars text rest) : Derives .value ('"' :: text) rest
  | emptyArray (space rest : List Char) (blank : Blank space) : Derives .value ('[' :: (space ++ ']' :: rest)) rest
  | array (space text rest : List Char) (blank : Blank space) (elements : Derives .elements text rest) :
      Derives .value ('[' :: (space ++ text)) rest
  | nested (text rest : List Char) (object : Derives .object text rest) : Derives .value text rest
  | emptyObject (space rest : List Char) (blank : Blank space) : Derives .object ('\x7b' :: (space ++ '\x7d' :: rest)) rest
  | object (space text rest : List Char) (blank : Blank space) (members : Derives .members text rest) :
      Derives .object ('\x7b' :: (space ++ text)) rest
  | element (text behind rest : List Char) (value : Derives .value text behind) (ends : Derives .elementEnd behind rest) :
      Derives .elements text rest
  | lastElement (space rest : List Char) (blank : Blank space) : Derives .elementEnd (space ++ ']' :: rest) rest
  | nextElement (space start text rest : List Char) (blank : Blank space) (blanks : Blank start)
      (elements : Derives .elements text rest) : Derives .elementEnd (space ++ ',' :: (start ++ text)) rest
  | member (name space start text behind rest : List Char) (blank : Blank space) (blanks : Blank start)
      (chars : Chars name (space ++ ':' :: (start ++ text))) (value : Derives .value text behind)
      (ends : Derives .memberEnd behind rest) : Derives .members ('"' :: name) rest
  | lastMember (space rest : List Char) (blank : Blank space) : Derives .memberEnd (space ++ '\x7d' :: rest) rest
  | nextMember (space start text rest : List Char) (blank : Blank space) (blanks : Blank start)
      (members : Derives .members text rest) : Derives .memberEnd (space ++ ',' :: (start ++ text)) rest

def Object (text : List Char) : Prop :=
  ∃ before body after, text = before ++ body ∧ Blank before ∧ Blank after ∧ Derives .object body after

theorem number_head (text : List Char) (number : Number text) :
    ∃ c tail, text = c :: tail ∧ (c.isDigit = true ∨ c = '-') := by
  cases number with
  | mk sign whole fraction exponent signs integer _ _ =>
      have start : ∃ c digits, whole = c :: digits ∧ c.isDigit = true := by
        cases integer with
        | zero => exact ⟨'0', [], rfl, rfl⟩
        | other c digits digit _ _ => exact ⟨c, digits, rfl, digit⟩
      obtain ⟨c, digits, rfl, digit⟩ := start
      cases signs with
      | inl none => exact ⟨c, digits ++ fraction ++ exponent, by simp [none], Or.inl digit⟩
      | inr minus => exact ⟨'-', c :: digits ++ fraction ++ exponent, by simp [minus], Or.inr rfl⟩

theorem object_head (text rest : List Char) (object : Derives .object text rest) : ∃ body, text = '\x7b' :: body := by
  cases object with
  | emptyObject space _ blank => exact ⟨_, rfl⟩
  | object space text _ blank members => exact ⟨_, rfl⟩

theorem value_head (text rest : List Char) (value : Derives .value text rest) :
    ∃ c tail, text = c :: tail ∧ (c.isDigit = true ∨ c ∈ ['-', 'n', 't', 'f', '"', '[', '\x7b']) := by
  cases value with
  | null => exact ⟨'n', _, rfl, Or.inr (by simp)⟩
  | true_ => exact ⟨'t', _, rfl, Or.inr (by simp)⟩
  | false_ => exact ⟨'f', _, rfl, Or.inr (by simp)⟩
  | number text _ number =>
      obtain ⟨c, tail, rfl, head⟩ := number_head text number
      exact ⟨c, tail ++ rest, rfl, head.imp_right fun minus => by simp [minus]⟩
  | string text _ chars => exact ⟨'"', text, rfl, Or.inr (by simp)⟩
  | emptyArray space _ blank => exact ⟨'[', _, rfl, Or.inr (by simp)⟩
  | array space text _ blank elements => exact ⟨'[', _, rfl, Or.inr (by simp)⟩
  | nested _ _ object =>
      obtain ⟨body, rfl⟩ := object_head text rest object
      exact ⟨'\x7b', body, rfl, Or.inr (by simp)⟩

theorem chars_plain (text rest : List Char) (plain : ∀ c ∈ text, isPlain c = true) : Chars (text ++ '"' :: rest) rest := by
  induction text with
  | nil => exact .close rest
  | cons c text ih => exact .plain c _ rest (plain c (by simp)) (ih fun d member => plain d (by simp [member]))

theorem chars_suffix (text rest : List Char) (chars : Chars text rest) : rest <:+ text := by
  induction chars with
  | close rest => exact List.suffix_cons _ rest
  | plain c text rest _ _ ih => exact ih.trans (List.suffix_cons _ text)
  | escaped c text rest _ _ ih => exact ih.trans (List.suffix_append ['\\', c] text)
  | unicode a b c d text rest _ _ ih => exact ih.trans (List.suffix_append ['\\', 'u', a, b, c, d] text)

theorem behind_suffix (front : List Char) (c : Char) (rest : List Char) : rest <:+ front ++ c :: rest :=
  (List.suffix_cons c rest).trans (List.suffix_append front _)

theorem derives_suffix (part : Part) (text rest : List Char) (derived : Derives part text rest) : rest <:+ text := by
  induction derived with
  | null rest => exact List.suffix_append _ rest
  | true_ rest => exact List.suffix_append _ rest
  | false_ rest => exact List.suffix_append _ rest
  | number text rest _ => exact List.suffix_append text rest
  | string text rest chars => exact (chars_suffix text rest chars).trans (List.suffix_cons _ text)
  | emptyArray space rest _ => exact (behind_suffix space _ rest).trans (List.suffix_cons _ _)
  | array space text rest _ _ ih => exact ih.trans ((List.suffix_append space text).trans (List.suffix_cons _ _))
  | nested _ _ _ ih => exact ih
  | emptyObject space rest _ => exact (behind_suffix space _ rest).trans (List.suffix_cons _ _)
  | object space text rest _ _ ih => exact ih.trans ((List.suffix_append space text).trans (List.suffix_cons _ _))
  | element text behind rest _ _ value ends => exact ends.trans value
  | lastElement space rest _ => exact behind_suffix space _ rest
  | nextElement space start text rest _ _ _ ih =>
      exact ih.trans ((List.suffix_append start text).trans (behind_suffix space _ _))
  | member name space start text behind rest _ _ chars _ _ value ends =>
      have inner := ((List.suffix_append start text).trans (behind_suffix space _ _)).trans (chars_suffix _ _ chars)
      exact (ends.trans value).trans (inner.trans (List.suffix_cons _ name))
  | lastMember space rest _ => exact behind_suffix space _ rest
  | nextMember space start text rest _ _ _ ih =>
      exact ih.trans ((List.suffix_append start text).trans (behind_suffix space _ _))

theorem derives_brace (part : Part) (text rest : List Char) (derived : Derives part text rest)
    (inside : part = .object ∨ part = .members ∨ part = .memberEnd) : '\x7d' ∈ text := by
  induction derived with
  | emptyObject space rest _ => simp
  | object space text rest _ _ ih => simp [ih]
  | member name space start text behind rest _ _ chars value ends _ closes =>
      have suffix := (derives_suffix _ _ _ value).trans
        (((List.suffix_append start text).trans (behind_suffix space _ _)).trans (chars_suffix _ _ chars))
      exact List.mem_cons_of_mem _ (suffix.subset (closes (by simp)))
  | lastMember space rest _ => simp
  | nextMember space start text rest _ _ _ ih => simp [ih]
  | _ => simp at inside

theorem object_brace (text : List Char) (object : Object text) : '\x7d' ∈ text := by
  obtain ⟨before, body, after, rfl, _, _, derived⟩ := object
  exact List.mem_append_right before (derives_brace .object body after derived (Or.inl rfl))

-- A character that stands in a text of the grammar: no control character but a blank.
def isPrinted (c : Char) : Bool := ' ' ≤ c || isBlank c

theorem blank_printed (space : List Char) (blank : Blank space) (c : Char) (member : c ∈ space) : isPrinted c = true := by
  rw [isPrinted, blank c member, Bool.or_true]

theorem digits_printed (digits : List Char) (all : Digits digits) (c : Char) (member : c ∈ digits) : isPrinted c = true := by
  have digit := all c member
  simp only [Char.isDigit, Bool.and_eq_true, decide_eq_true_eq] at digit
  have low : ' ' ≤ c := UInt32.le_trans (by decide : ' '.val ≤ '0'.val) digit.1
  simp [isPrinted, low]

theorem number_printed (text : List Char) (number : Number text) (c : Char) (member : c ∈ text) : isPrinted c = true := by
  cases number with
  | mk sign whole fraction exponent signs integer decimals power =>
      simp only [List.mem_append] at member
      rcases member with ((signed | inside) | behind) | last
      · rcases signs with rfl | rfl
        · cases signed
        · rw [List.mem_singleton.mp signed]
          decide
      · cases integer with
        | zero =>
            rw [List.mem_singleton.mp inside]
            decide
        | other first digits digit _ more => exact digits_printed _ (List.forall_mem_cons.mpr ⟨digit, more⟩) c inside
      · cases decimals with
        | none => cases behind
        | some digits _ all =>
            rcases List.mem_cons.mp behind with rfl | later
            · decide
            · exact digits_printed digits all c later
      · cases power with
        | none => cases last
        | some e sign digits letter signs _ all =>
            rcases List.mem_cons.mp last with rfl | later
            · rcases letter with rfl | rfl <;> decide
            · rcases List.mem_append.mp later with signed | digit
              · rcases signs with rfl | rfl | rfl
                · cases signed
                · rw [List.mem_singleton.mp signed]
                  decide
                · rw [List.mem_singleton.mp signed]
                  decide
              · exact digits_printed digits all c digit

theorem plain_printed (c : Char) (plain : isPlain c = true) : isPrinted c = true := by
  simp only [isPlain, Bool.and_eq_true, decide_eq_true_eq] at plain
  simp [isPrinted, plain.1.1]

theorem escape_printed (c : Char) (known : c ∈ ['"', '\\', '/', 'b', 'f', 'n', 'r', 't']) : isPrinted c = true :=
  (List.all_eq_true (p := isPrinted)).mp rfl c known

theorem hex_printed (c : Char) (hex : isHexDigit c = true) : isPrinted c = true := by
  have low : ' ' ≤ c := by
    simp only [isHexDigit, Char.isDigit, Bool.or_eq_true, Bool.and_eq_true, decide_eq_true_eq] at hex
    rcases hex with (⟨low, _⟩ | ⟨low, _⟩) | ⟨low, _⟩
    · exact UInt32.le_trans (by decide : ' '.val ≤ '0'.val) low
    · exact UInt32.le_trans (by decide : ' '.val ≤ 'a'.val) low
    · exact UInt32.le_trans (by decide : ' '.val ≤ 'A'.val) low
  simp [isPrinted, low]

theorem chars_printed (text rest : List Char) (chars : Chars text rest) (c : Char) (member : c ∈ text) :
    isPrinted c = true ∨ c ∈ rest := by
  induction chars with
  | close rest =>
      rcases List.mem_cons.mp member with rfl | later
      · exact Or.inl (by decide)
      · exact Or.inr later
  | plain first text rest plain _ ih =>
      rcases List.mem_cons.mp member with rfl | later
      · exact Or.inl (plain_printed c plain)
      · exact ih later
  | escaped first text rest known _ ih =>
      rcases List.mem_cons.mp member with rfl | later
      · exact Or.inl (by decide)
      rcases List.mem_cons.mp later with rfl | behind
      · exact Or.inl (escape_printed c known)
      · exact ih behind
  | unicode a b d e text rest hex _ ih =>
      rcases List.mem_cons.mp member with rfl | later
      · exact Or.inl (by decide)
      rcases List.mem_cons.mp later with rfl | behind
      · exact Or.inl (by decide)
      rcases List.mem_append.mp (show c ∈ [a, b, d, e] ++ text from behind) with digit | inside
      · exact Or.inl (hex_printed c (List.all_eq_true.mp hex c digit))
      · exact ih inside

theorem behind_printed (c first : Char) (space text : List Char) (printed : isPrinted first = true) (blank : Blank space)
    (member : c ∈ first :: (space ++ text)) : isPrinted c = true ∨ c ∈ text := by
  rcases List.mem_cons.mp member with rfl | later
  · exact Or.inl printed
  · exact (List.mem_append.mp later).imp_left (blank_printed space blank c)

theorem between_printed (c middle : Char) (space start text : List Char) (printed : isPrinted middle = true)
    (blank : Blank space) (blanks : Blank start) (member : c ∈ space ++ middle :: (start ++ text)) :
    isPrinted c = true ∨ c ∈ text := by
  rcases List.mem_append.mp member with front | later
  · exact Or.inl (blank_printed space blank c front)
  · exact behind_printed c middle start text printed blanks later

theorem derives_printed (part : Part) (text rest : List Char) (derived : Derives part text rest) (c : Char) (member : c ∈ text) :
    isPrinted c = true ∨ c ∈ rest := by
  have literal (word : List Char) (all : word.all isPrinted = true) (rest : List Char) (inside : c ∈ word ++ rest) :
      isPrinted c = true ∨ c ∈ rest :=
    (List.mem_append.mp inside).imp_left (List.all_eq_true.mp all c)
  have none : Blank [] := fun _ never => absurd never List.not_mem_nil
  induction derived with
  | null rest => exact literal _ (by decide) rest member
  | true_ rest => exact literal _ (by decide) rest member
  | false_ rest => exact literal _ (by decide) rest member
  | number text rest number => exact (List.mem_append.mp member).imp_left (number_printed text number c)
  | string text rest chars =>
      rcases List.mem_cons.mp member with rfl | later
      · exact Or.inl (by decide)
      · exact chars_printed text rest chars c later
  | emptyArray space rest blank =>
      rcases behind_printed c '[' space _ (by decide) blank member with printed | later
      · exact Or.inl printed
      · exact behind_printed c ']' [] rest (by decide) none later
  | array space text rest blank _ ih =>
      rcases behind_printed c '[' space text (by decide) blank member with printed | later
      · exact Or.inl printed
      · exact ih later
  | nested _ _ _ ih => exact ih member
  | emptyObject space rest blank =>
      rcases behind_printed c '\x7b' space _ (by decide) blank member with printed | later
      · exact Or.inl printed
      · exact behind_printed c '\x7d' [] rest (by decide) none later
  | object space text rest blank _ ih =>
      rcases behind_printed c '\x7b' space text (by decide) blank member with printed | later
      · exact Or.inl printed
      · exact ih later
  | element text behind rest _ _ value ends => exact (value member).elim Or.inl ends
  | lastElement space rest blank => exact between_printed c ']' space [] rest (by decide) blank none member
  | nextElement space start text rest blank blanks _ ih =>
      exact (between_printed c ',' space start text (by decide) blank blanks member).elim Or.inl ih
  | member name space start text behind rest blank blanks chars _ _ value ends =>
      rcases List.mem_cons.mp member with rfl | later
      · exact Or.inl (by decide)
      rcases chars_printed name _ chars c later with printed | inside
      · exact Or.inl printed
      rcases between_printed c ':' space start text (by decide) blank blanks inside with printed | last
      · exact Or.inl printed
      · exact (value last).elim Or.inl ends
  | lastMember space rest blank => exact between_printed c '\x7d' space [] rest (by decide) blank none member
  | nextMember space start text rest blank blanks _ ih =>
      exact (between_printed c ',' space start text (by decide) blank blanks member).elim Or.inl ih

end Library.JsonGrammar
