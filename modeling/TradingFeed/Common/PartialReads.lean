import TradingFeed.Common.HttpClient

set_option autoImplicit false

namespace TradingFeed.Common

open TradingFeed.Json

def HttpResponse.status (response : HttpResponse) : Nat := digitsValue response.code

theorem take_until (p : Char → Bool) (text : Text) :
    text.takeWhile (fun c => !p c) = text.take ((text.findIdx? p).getD text.length) := by
  induction text with
  | nil => rfl
  | cons c text ih =>
      rw [List.findIdx?_cons]
      cases found : p c with
      | true => simp [found]
      | false =>
          rw [List.takeWhile_cons_of_pos (by simp [found]), ih]
          cases text.findIdx? p <;> simp

theorem substr_rest (text : Text) (pos : Nat) (inside : pos ≤ text.length) (small : text.length ≤ npos) :
    substr text pos npos = some (text.drop pos) := by
  rw [substr, if_pos inside, List.take_of_length_le (by rw [List.length_drop]; omega)]

theorem read_status (received rest : Text) (headerEnd : Nat) (small : received.length ≤ 4096)
    (found : (Library.find "\r\n\r\n".toList received).getD npos = headerEnd)
    (header : received.take headerEnd = "HTTP/1.1 ".toList ++ rest) :
    readResponse received = (substr received ((headerEnd + 4) % 2 ^ 64) npos).bind fun responseBody =>
      (stoi (rest.takeWhile (fun c => !decide (c = ' ')))).bind fun statusCode =>
        if statusCode ≠ 200 then none else some responseBody := by
  have length : rest.length ≤ 4096 := by
    have whole := congrArg List.length header
    simp only [List.length_take, List.length_append] at whole
    omega
  have whole : substr received 0 headerEnd = some ("HTTP/1.1 ".toList ++ rest) := by
    rw [substr, if_pos (Nat.zero_le _), List.drop_zero, header]
  have start : ((("HTTP/1.1 ".toList ++ rest).findIdx? fun c => decide (c = ' ')).getD npos + 1) % 2 ^ 64 = 9 := rfl
  have behind : ("HTTP/1.1 ".toList ++ rest).drop 9 = rest := rfl
  have code : substr ("HTTP/1.1 ".toList ++ rest) 9
      (((rest.findIdx? fun c => decide (c = ' ')).map (· + 9)).getD npos - 9) =
        some (rest.takeWhile fun c => !decide (c = ' ')) := by
    rw [substr, if_pos (by simp), behind, take_until]
    cases rest.findIdx? fun c => decide (c = ' ') with
    | none =>
        rw [Option.map_none, Option.getD_none, Option.getD_none, List.take_of_length_le (by rw [npos]; omega),
          List.take_length]
    | some i => rfl
  dsimp only [readResponse]
  rw [found, whole]
  simp only [Option.bind_eq_bind, Option.bind_some, start, behind, code]

theorem digits_fold (digits : Text) (value : Nat) (all : ∀ c ∈ digits, c.isDigit = true) :
    digits.foldl (fun value c => 10 * value + (c.toNat - '0'.toNat)) value < (value + 1) * 10 ^ digits.length := by
  induction digits generalizing value with
  | nil => simp
  | cons c digits ih =>
      have digit := all c (by simp)
      have small : c.toNat - '0'.toNat ≤ 9 := by
        simp only [Char.isDigit, Bool.and_eq_true, decide_eq_true_eq] at digit
        have high : c.toNat ≤ 57 := digit.2
        have zero : '0'.toNat = 48 := rfl
        omega
      have later := ih (10 * value + (c.toNat - '0'.toNat)) fun d member => all d (by simp [member])
      rw [List.foldl_cons, List.length_cons, Nat.pow_succ]
      refine Nat.lt_of_lt_of_le later ?_
      calc (10 * value + (c.toNat - '0'.toNat) + 1) * 10 ^ digits.length
          ≤ (10 * (value + 1)) * 10 ^ digits.length := Nat.mul_le_mul_right _ (by omega)
        _ = (value + 1) * (10 ^ digits.length * 10) := by
            rw [Nat.mul_comm 10, Nat.mul_assoc, Nat.mul_comm 10]

theorem digits_below (digits : Text) (all : ∀ c ∈ digits, c.isDigit = true) : digitsValue digits < 10 ^ digits.length := by
  have bound := digits_fold digits 0 all
  rw [Nat.zero_add, Nat.one_mul] at bound
  exact bound

theorem digit_unsigned (c : Char) (digit : c.isDigit = true) : isspace c = false ∧ c ≠ '-' ∧ c ≠ '+' := by
  refine ⟨(number_space c (digit_number c digit)).1, ?_, ?_⟩ <;> exact fun same => by rw [same] at digit; cases digit

theorem stoi_digits (digits : Text) (filled : digits ≠ []) (short : digits.length ≤ 3)
    (all : ∀ c ∈ digits, c.isDigit = true) : stoi digits = some (digitsValue digits : Int) := by
  obtain ⟨c, rest, rfl⟩ := List.exists_cons_of_ne_nil filled
  obtain ⟨dark, minus, plus⟩ := digit_unsigned c (all c (by simp))
  have below := digits_below (c :: rest) all
  have bound : 10 ^ (c :: rest).length ≤ 10 ^ 3 := Nat.pow_le_pow_right (by decide) short
  have taken : (c :: rest).takeWhile Char.isDigit = c :: rest := List.takeWhile_eq_self_iff.mpr all
  have skipped : (c :: rest).dropWhile isspace = c :: rest := List.dropWhile_cons_of_neg (by simp [dark])
  simp only [stoi, skipped, List.head?_cons, Option.some.injEq, minus, plus, or_self, if_false, taken, filled]
  rw [if_pos (by omega)]

theorem stoi_code (code : Text) (digits : code.length = 3 ∧ ∀ c ∈ code, c.isDigit = true) :
    stoi code = some (digitsValue code : Int) := by
  have filled : code ≠ [] := fun empty => absurd (empty ▸ digits.1) (by decide)
  exact stoi_digits code filled (Nat.le_of_eq digits.1) digits.2

theorem find_blank_line (line body : Text) (lines : List Text) (plain : ¬crlf <:+: line)
    (fields : ∀ line ∈ lines, line ≠ [] ∧ ¬crlf <:+: line) :
    Library.find "\r\n\r\n".toList (line ++ (crlf ++ ((lines.flatMap fun line => line ++ crlf) ++ (crlf ++ body)))) =
      some (line.length + (lines.flatMap fun line => line ++ crlf).length) := by
  have skip := Library.find_line '\r' '\n' ['\r', '\n'] line
    ((lines.flatMap fun line => line ++ crlf) ++ (crlf ++ body)) (by decide) plain
  induction lines generalizing line with
  | nil =>
      have here : Library.find ['\r', '\n', '\r', '\n'] (['\r', '\n', '\r', '\n'] ++ body) = some 0 := Library.find_here _ body
      simp only [List.flatMap_nil, List.nil_append, crlf, List.cons_append] at skip here ⊢
      rw [show "\r\n\r\n".toList = ['\r', '\n', '\r', '\n'] from rfl, skip, here]
      simp
  | cons next lines ih =>
      obtain ⟨filled, quiet⟩ := fields next (by simp)
      have later := ih next quiet (fun line member => fields line (by simp [member]))
        (Library.find_line '\r' '\n' ['\r', '\n'] next _ (by decide) quiet)
      rw [show "\r\n\r\n".toList = ['\r', '\n', '\r', '\n'] from rfl] at later ⊢
      simp only [List.flatMap_cons, crlf, List.cons_append, List.nil_append, List.append_assoc] at skip later ⊢
      rw [skip, Library.find_skip _ _ '\r', Library.find_skip _ _ '\n', later]
      · simp
        omega
      · exact fun front => absurd (List.cons_prefix_cons.mp front).1 (by decide)
      · -- The next line would be empty or start with a CRLF.
        intro front
        have third := (List.cons_prefix_cons.mp (List.cons_prefix_cons.mp front).2).2
        obtain ⟨c, tail, rfl⟩ := List.exists_cons_of_ne_nil filled
        obtain ⟨rfl, fourth⟩ := List.cons_prefix_cons.mp third
        cases tail with
        | nil => exact absurd (List.cons_prefix_cons.mp fourth).1 (by decide)
        | cons d tail =>
            obtain ⟨rfl, _⟩ := List.cons_prefix_cons.mp fourth
            exact quiet ⟨[], tail, rfl⟩

theorem no_break (line : Text) (plain : '\r' ∉ line) : ¬crlf <:+: line :=
  fun inside => plain (inside.subset (by simp [crlf]))

theorem digits_plain (code : Text) (digits : ∀ c ∈ code, c.isDigit = true) : ' ' ∉ code :=
  fun member => absurd (digits ' ' member) (by decide)

theorem status_line_plain (code reason : Text) (digits : ∀ c ∈ code, c.isDigit = true) (phrase : '\r' ∉ reason) :
    '\r' ∉ "HTTP/1.1 ".toList ++ (code ++ ' ' :: reason) := by
  have version : '\r' ∉ "HTTP/1.1 ".toList := by decide
  have quiet : '\r' ∉ code := fun member => absurd (digits '\r' member) (by decide)
  have space : '\r' ≠ ' ' := by decide
  generalize "HTTP/1.1 ".toList = start at version ⊢
  simp only [List.mem_append, List.mem_cons, not_or]
  exact ⟨version, quiet, space, phrase⟩

namespace HttpResponse

variable (response : HttpResponse)

theorem code_plain : ' ' ∉ response.code := digits_plain response.code response.digits.2

theorem line_plain : '\r' ∉ response.statusLine :=
  status_line_plain response.code response.reason response.digits.2 response.phrase.1

theorem find_blank : Library.find "\r\n\r\n".toList response.text = some (response.head.length - 2) := by
  have found := find_blank_line response.statusLine response.body response.headers (no_break _ response.line_plain)
    fun header member => ⟨(response.fields header member).1, no_break header (response.fields header member).2.1⟩
  have shape : response.text = response.statusLine ++
      (crlf ++ ((response.headers.flatMap fun line => line ++ crlf) ++ (crlf ++ response.body))) := by
    rw [text, head, List.append_assoc, List.append_assoc]
  have length : response.head.length - 2 =
      response.statusLine.length + (response.headers.flatMap fun line => line ++ crlf).length := by
    rw [head, List.length_append, List.length_append, show crlf.length = 2 from rfl]
    omega
  rw [shape, found, length]

end HttpResponse

theorem take_plain (text : Text) (plain : ' ' ∉ text) : text.takeWhile (fun c => !decide (c = ' ')) = text := by
  refine List.takeWhile_eq_self_iff.mpr fun c member => ?_
  simp only [Bool.not_eq_true', decide_eq_false_iff_not]
  exact fun same => plain (same ▸ member)

theorem take_code (code tail : Text) (plain : ' ' ∉ code) :
    (code ++ ' ' :: tail).takeWhile (fun c => !decide (c = ' ')) = code := by
  have stop : (!decide (' ' = ' ')) = false := rfl
  have front := take_plain code plain
  rw [List.takeWhile_append_of_pos (List.takeWhile_eq_self_iff.mp front), List.takeWhile_cons, stop]
  exact List.append_nil code

namespace HttpResponse

variable (response : HttpResponse)

theorem text_code : ∃ tail, response.text = ("HTTP/1.1 ".toList ++ response.code) ++ ' ' :: tail := by
  refine ⟨response.reason ++
    (crlf ++ ((response.headers.flatMap fun header => header ++ crlf) ++ (crlf ++ response.body))), ?_⟩
  dsimp only [text, head, statusLine]
  generalize "HTTP/1.1 ".toList = version
  simp only [List.append_assoc, List.cons_append]

theorem code_end : ("HTTP/1.1 ".toList ++ response.code).length = 12 := by
  rw [List.length_append, response.digits.1]
  rfl

theorem head_long : 15 ≤ response.head.length := by
  have version := response.code_end
  have line : response.statusLine.length = 13 + response.reason.length := by
    dsimp only [statusLine]
    generalize "HTTP/1.1 ".toList = start at version ⊢
    simp only [List.length_append, List.length_cons] at version ⊢
    omega
  rw [head, List.length_append, List.length_append, line, show crlf.length = 2 from rfl]
  omega

theorem cut_code (cut : Text) (front : cut <+: response.text) (long : 12 ≤ cut.length) :
    ∃ rest, cut = "HTTP/1.1 ".toList ++ rest ∧ rest.takeWhile (fun c => !decide (c = ' ')) = response.code := by
  obtain ⟨tail, whole⟩ := response.text_code
  have code : ("HTTP/1.1 ".toList ++ response.code) <+: response.text := ⟨' ' :: tail, whole.symm⟩
  obtain ⟨more, rfl⟩ := List.prefix_of_prefix_length_le code front (by rw [response.code_end]; exact long)
  refine ⟨response.code ++ more, List.append_assoc _ _ _, ?_⟩
  cases more with
  | nil =>
      rw [List.append_nil]
      exact take_plain response.code response.code_plain
  | cons c more =>
      rw [whole, List.prefix_append_right_inj] at front
      rw [(List.cons_prefix_cons.mp front).1]
      exact take_code response.code more response.code_plain

theorem find_part (part : Text) (front : part <+: response.text) :
    Library.find "\r\n\r\n".toList part =
      if response.head.length + 2 ≤ part.length then some (response.head.length - 2) else none := by
  have long := response.head_long
  rw [Library.find_cut _ response.text part _ (by decide) response.find_blank front]
  by_cases room : response.head.length + 2 ≤ part.length
  · rw [if_pos room, if_pos (by rw [show "\r\n\r\n".toList.length = 4 from rfl]; omega)]
  · rw [if_neg room, if_neg (by rw [show "\r\n\r\n".toList.length = 4 from rfl]; omega)]

theorem text_length : response.text.length = response.head.length + 2 + response.body.length := by
  rw [text, List.length_append, List.length_append, Nat.add_assoc, show crlf.length = 2 from rfl]

theorem blank_inside : response.head.length + 2 ≤ response.text.length := by
  rw [response.text_length]
  exact Nat.le_add_right _ _

theorem body_read (part : Text) (front : part <+: response.text) (blank : response.head.length + 2 ≤ part.length) :
    part.drop (response.head.length + 2) = response.body ↔ part = response.text := by
  have length := response.text_length
  constructor
  · intro body
    have same := congrArg List.length body
    rw [List.length_drop] at same
    exact front.eq_of_length (by omega)
  · intro whole
    have start : (response.head ++ crlf).length = response.head.length + 2 := by
      rw [List.length_append, show crlf.length = 2 from rfl]
    rw [whole, text, ← List.append_assoc, ← start, List.drop_left]

theorem body_reported_iff (part : Text) (front : part <+: response.text) :
    part.drop (if response.head.length + 2 ≤ part.length then response.head.length + 2 else 3) = response.body ↔
      part = response.text ∨ part.length < response.head.length + 2 ∧ response.body = part.drop 3 := by
  by_cases blank : response.head.length + 2 ≤ part.length
  · rw [if_pos blank, response.body_read part front blank]
    exact ⟨Or.inl, fun either => either.elim id fun cut => absurd cut.1 (Nat.not_lt_of_le blank)⟩
  · rw [if_neg blank]
    refine ⟨fun same => Or.inr ⟨Nat.lt_of_not_le blank, same.symm⟩, fun either => ?_⟩
    cases either with
    | inl whole => exact absurd (whole ▸ response.blank_inside) blank
    | inr cut => exact cut.2.symm

-- Where the blank line was not read whole, find gives npos, the header is all
-- that was read, and the body starts at (npos + 4) mod 2^64.
theorem read_part (part : Text) (front : part <+: response.text) (room : part.length ≤ 4096) (long : 12 ≤ part.length) :
    readResponse part =
      if response.status = 200 then
        some (part.drop (if response.head.length + 2 ≤ part.length then response.head.length + 2 else 3))
      else none := by
  have code := stoi_code response.code response.digits
  have found := response.find_part part front
  have start := response.head_long
  have same : ((digitsValue response.code : Int) = 200) ↔ response.status = 200 := by
    rw [status]
    omega
  by_cases read : response.head.length + 2 ≤ part.length
  · rw [if_pos read] at found
    have cut : part.take (response.head.length - 2) <+: response.text := (List.take_prefix _ _).trans front
    obtain ⟨rest, header, token⟩ := response.cut_code _ cut (by rw [List.length_take]; omega)
    have offset : (response.head.length - 2 + 4) % 2 ^ 64 = response.head.length + 2 := by omega
    rw [read_status part rest _ room (by rw [found]; rfl) header, offset,
      substr_rest part _ read (by rw [npos]; omega), token, code, if_pos read]
    simp only [Option.bind_some, ite_not, same]
  · rw [if_neg read] at found
    obtain ⟨rest, header, token⟩ := response.cut_code part front long
    have all : part.take npos = part := List.take_of_length_le (by rw [npos]; omega)
    have offset : (npos + 4) % 2 ^ 64 = 3 := rfl
    rw [read_status part rest npos room (by rw [found]; rfl) (all.trans header), offset,
      substr_rest part 3 (by omega) (by rw [npos]; omega), token, code, if_neg read]
    simp only [Option.bind_some, ite_not, same]

theorem read_short (part : Text) (front : part <+: response.text) (short : part.length < 12) :
    readResponse part = none := by
  obtain ⟨tail, whole⟩ := response.text_code
  have start := response.head_long
  have code : ("HTTP/1.1 ".toList ++ response.code) <+: response.text := ⟨' ' :: tail, whole.symm⟩
  have inside := List.prefix_of_prefix_length_le front code (by rw [response.code_end]; omega)
  have taken := List.prefix_iff_eq_take.mp inside
  by_cases early : part.length ≤ 8
  · have versions : ∀ n < 9, readResponse ("HTTP/1.1 ".toList.take n) = none := by decide +kernel
    rw [List.take_append_of_le_length (Nat.le_succ_of_le early)] at taken
    rw [taken]
    exact versions _ (Nat.lt_succ_of_le early)
  · have header : part = "HTTP/1.1 ".toList ++ response.code.take (part.length - 9) := by
      rw [List.take_append, List.take_of_length_le (by rw [show "HTTP/1.1 ".toList.length = 9 from rfl]; omega)] at taken
      exact taken
    have found := response.find_part part front
    rw [if_neg (by omega)] at found
    have all : part.take npos = part := List.take_of_length_le (by rw [npos]; omega)
    have digits : ∀ c ∈ response.code.take (part.length - 9), c.isDigit = true := fun c member =>
      response.digits.2 c (List.mem_of_mem_take member)
    have token : (response.code.take (part.length - 9)).takeWhile (fun c => !decide (c = ' ')) =
        response.code.take (part.length - 9) := take_plain _ fun member => response.code_plain (List.mem_of_mem_take member)
    rw [read_status part _ npos (by omega) (by rw [found]; rfl) (all.trans header),
      show (npos + 4) % 2 ^ 64 = 3 from rfl, substr_rest part 3 (by omega) (by rw [npos]; omega), token]
    by_cases empty : response.code.take (part.length - 9) = []
    · rw [empty]
      rfl
    · have length : (response.code.take (part.length - 9)).length ≤ 2 := by
        rw [List.length_take]
        omega
      have below := digits_below _ digits
      have bound : 10 ^ (response.code.take (part.length - 9)).length ≤ 10 ^ 2 := Nat.pow_le_pow_right (by decide) length
      have other : (digitsValue (response.code.take (part.length - 9)) : Int) ≠ 200 := by omega
      rw [stoi_digits _ empty (by omega) digits]
      simp only [Option.bind_some, if_pos other]

end HttpResponse

theorem send_request_read (exchange : Text → Option Text) (m_baseUrl type path body result part : Text)
    (room : part.length ≤ 4096) (read : exchange (requestText m_baseUrl type path body) = some part) :
    sendRequest exchange m_baseUrl type path body result =
      match readResponse part with
      | some responseBody => (true, responseBody)
      | none => (false, result) := by
  cases found : readResponse part with
  | none => simp only [sendRequest, read, Option.bind_some, List.take_of_length_le room, found]
  | some responseBody => simp only [sendRequest, read, Option.bind_some, List.take_of_length_le room, found]

theorem send_request_ok (exchange : Text → Option Text) (m_baseUrl type path body result part : Text)
    (response : HttpResponse) (front : part <+: response.text) (long : 12 ≤ part.length) (ok : response.status = 200)
    (read : exchange (requestText m_baseUrl type path body) = some part) :
    (sendRequest exchange m_baseUrl type path body result).1 = true := by
  have taken : part.take 4096 <+: response.text := (List.take_prefix _ _).trans front
  have code := response.read_part _ taken (by rw [List.length_take]; omega) (by rw [List.length_take]; omega)
  rw [if_pos ok] at code
  rw [sendRequest, read, Option.bind_some, code]

theorem success_whole_iff (exchange : Text → Option Text) (m_baseUrl type path body result : Text)
    (response : HttpResponse) (part : Text) (front : part <+: response.text) (room : part.length ≤ 4096)
    (read : exchange (requestText m_baseUrl type path body) = some part) :
    ((sendRequest exchange m_baseUrl type path body result).1 = true →
        (sendRequest exchange m_baseUrl type path body result).2 = response.body) ↔
      response.status ≠ 200 ∨ part = response.text ∨ part.length < 12 ∨
        part.length < response.head.length + 2 ∧ response.body = part.drop 3 := by
  rw [send_request_read exchange m_baseUrl type path body result part room read]
  by_cases short : part.length < 12
  · rw [response.read_short part front short]
    exact ⟨fun _ => Or.inr (Or.inr (Or.inl short)), fun _ success => nomatch success⟩
  rw [response.read_part part front room (Nat.le_of_not_lt short)]
  by_cases ok : response.status = 200
  · rw [if_pos ok]
    have reported := response.body_reported_iff part front
    refine ⟨fun exact_ => Or.inr ?_, fun condition _ => reported.mpr ?_⟩
    · exact (reported.mp (exact_ rfl)).elim Or.inl fun cut => Or.inr (Or.inr cut)
    · rcases condition with other | whole | few | cut
      · exact absurd ok other
      · exact Or.inl whole
      · exact absurd few short
      · exact Or.inr cut
  · rw [if_neg ok]
    exact ⟨fun _ => Or.inl ok, fun _ success => nomatch success⟩

theorem success_digits : "200".toList.length = 3 ∧ ∀ c ∈ "200".toList, c.isDigit = true :=
  ⟨rfl, List.all_eq_true.mp (by decide)⟩

def greeting : HttpResponse where
  code := "200".toList
  reason := "OK".toList
  headers := ["Content-Length: 2".toList]
  body := "hi".toList
  digits := success_digits
  phrase := by decide
  fields := by decide

-- A read that ends inside the status line: its text is no whole response, and what is
-- taken for the body is not one either.
theorem success_whole_iff_greeting :
    ((sendRequest (fun _ => some "HTTP/1.1 200 ".toList) [] "GET".toList "/api/symbols/TSLA".toList [] []).1 = true →
        (sendRequest (fun _ => some "HTTP/1.1 200 ".toList) [] "GET".toList "/api/symbols/TSLA".toList [] []).2 =
          greeting.body) ↔
      greeting.status ≠ 200 ∨ "HTTP/1.1 200 ".toList = greeting.text ∨ "HTTP/1.1 200 ".toList.length < 12 ∨
        "HTTP/1.1 200 ".toList.length < greeting.head.length + 2 ∧ greeting.body = "HTTP/1.1 200 ".toList.drop 3 :=
  success_whole_iff (fun _ => some "HTTP/1.1 200 ".toList) [] "GET".toList "/api/symbols/TSLA".toList [] [] greeting
    "HTTP/1.1 200 ".toList ⟨"OK\r\nContent-Length: 2\r\n\r\nhi".toList, by decide +kernel⟩ (by decide) rfl

-- Cut behind the blank line, the response is reported with an empty body.
theorem partial_read_succeeds :
    ¬∀ (exchange : Text → Option Text) (m_baseUrl type path body result : Text) (response : HttpResponse) (part : Text),
      response.Announced → part <+: response.text → part ≠ [] → part.length ≤ 4096 →
      exchange (requestText m_baseUrl type path body) = some part →
      (sendRequest exchange m_baseUrl type path body result).1 = true →
        (sendRequest exchange m_baseUrl type path body result).2 = response.body := by
  intro claim
  have announced : greeting.Announced := by
    dsimp only [HttpResponse.Announced]
    decide +kernel
  have wrong := claim (fun _ => some (greeting.head ++ crlf)) [] "GET".toList "/api/symbols/TSLA".toList [] [] greeting
    (greeting.head ++ crlf) announced (List.prefix_append_right_inj _ |>.mpr (List.prefix_append _ _)) (by decide +kernel)
    (by decide +kernel) rfl (by decide +kernel)
  exact absurd wrong (by decide +kernel)

end TradingFeed.Common
