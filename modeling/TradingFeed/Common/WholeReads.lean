import TradingFeed.Common.PartialReads

set_option autoImplicit false

namespace TradingFeed.Common

open TradingFeed.Json

-- A status line, header lines, a blank line and a body. A header line is any
-- text that is not empty and in which no line ends.
structure WholeResponse where
  code : Text
  reason : Text
  headers : List Text
  body : Text
  digits : code.length = 3 ∧ ∀ c ∈ code, c.isDigit = true
  phrase : '\r' ∉ reason ∧ '\n' ∉ reason
  fields : ∀ header ∈ headers, header ≠ [] ∧ ¬crlf <:+: header

theorem three_digits (code : Text) (three : code.length = 3) (digits : ∀ c ∈ code, c.isDigit = true) :
    digitsValue code = 200 ↔ code = "200".toList := by
  have range : ∀ c ∈ code, 48 ≤ c.toNat ∧ c.toNat ≤ 57 := by
    intro c member
    have digit := digits c member
    simp only [Char.isDigit, Bool.and_eq_true, decide_eq_true_eq] at digit
    exact digit
  obtain ⟨a, b, c, rfl⟩ := List.length_eq_three.mp three
  have first := range a (by simp)
  have second := range b (by simp)
  have third := range c (by simp)
  have value : digitsValue [a, b, c] = 10 * (10 * (a.toNat - 48) + (b.toNat - 48)) + (c.toNat - 48) := by
    simp [digitsValue]
  rw [value]
  constructor
  · intro same
    have hundreds : a = '2' := Char.toNat_inj.mp (show a.toNat = 50 by omega)
    have tens : b = '0' := Char.toNat_inj.mp (show b.toNat = 48 by omega)
    have ones : c = '0' := Char.toNat_inj.mp (show c.toNat = 48 by omega)
    rw [hundreds, tens, ones]
    rfl
  · intro same
    cases same
    rfl

namespace WholeResponse

def statusLine (response : WholeResponse) : Text := "HTTP/1.1 ".toList ++ (response.code ++ ' ' :: response.reason)

def headerLines (response : WholeResponse) : Text := response.headers.flatMap fun header => header ++ crlf

def text (response : WholeResponse) : Text :=
  response.statusLine ++ (crlf ++ (response.headerLines ++ (crlf ++ response.body)))

variable (response : WholeResponse)

def blank : Nat := response.statusLine.length + response.headerLines.length

theorem find_blank : Library.find "\r\n\r\n".toList response.text = some response.blank :=
  find_blank_line response.statusLine response.body response.headers
    (no_break _ (status_line_plain response.code response.reason response.digits.2 response.phrase.1)) response.fields

theorem text_length : response.text.length = response.blank + 4 + response.body.length := by
  simp only [text, blank, List.length_append, show crlf.length = 2 from rfl]
  omega

theorem body_behind : response.text.drop (response.blank + 4) = response.body := by
  have front : response.text = (response.statusLine ++ (crlf ++ (response.headerLines ++ crlf))) ++ response.body := by
    simp only [text, List.append_assoc]
  have length : (response.statusLine ++ (crlf ++ (response.headerLines ++ crlf))).length = response.blank + 4 := by
    simp only [blank, List.length_append, show crlf.length = 2 from rfl]
    omega
  rw [front, ← length, List.drop_left]

theorem header_code : ∃ tail, response.text.take response.blank = "HTTP/1.1 ".toList ++ (response.code ++ ' ' :: tail) := by
  have split : response.text.take response.blank =
      response.statusLine ++ (crlf ++ (response.headerLines ++ (crlf ++ response.body))).take response.headerLines.length := by
    rw [text, blank, List.take_length_add_append]
  refine ⟨response.reason ++
    (crlf ++ (response.headerLines ++ (crlf ++ response.body))).take response.headerLines.length, ?_⟩
  refine split.trans ?_
  dsimp only [statusLine]
  generalize "HTTP/1.1 ".toList = version
  simp only [List.append_assoc, List.cons_append]

theorem read_whole (room : response.text.length ≤ 4096) :
    readResponse response.text = if response.code = "200".toList then some response.body else none := by
  have code := stoi_code response.code response.digits
  have ok := three_digits response.code response.digits.1 response.digits.2
  have length := response.text_length
  have offset : (response.blank + 4) % 2 ^ 64 = response.blank + 4 := by omega
  obtain ⟨tail, header⟩ := response.header_code
  have token := take_code response.code tail (digits_plain response.code response.digits.2)
  rw [read_status response.text _ response.blank room (by rw [response.find_blank]; rfl) header, offset,
    substr_rest response.text _ (by omega) (by rw [npos]; omega), response.body_behind, token, code]
  have same : (digitsValue response.code : Int) = 200 ↔ response.code = "200".toList := by
    rw [← ok]
    omega
  simp only [Option.bind_some, ite_not, same]

end WholeResponse

theorem send_request_whole (exchange : Text → Option Text) (m_baseUrl type path body result : Text)
    (response : WholeResponse) (room : response.text.length ≤ 4096)
    (read : exchange (requestText m_baseUrl type path body) = some response.text) :
    ((sendRequest exchange m_baseUrl type path body result).1 = true ↔ response.code = "200".toList) ∧
      (response.code = "200".toList → (sendRequest exchange m_baseUrl type path body result).2 = response.body) ∧
      ((sendRequest exchange m_baseUrl type path body result).1 = false →
        (sendRequest exchange m_baseUrl type path body result).2 = result) := by
  rw [send_request_read exchange m_baseUrl type path body result response.text room read, response.read_whole room]
  by_cases ok : response.code = "200".toList
  · rw [if_pos ok]
    exact ⟨⟨fun _ => ok, fun _ => rfl⟩, fun _ => rfl, fun failed => nomatch failed⟩
  · rw [if_neg ok]
    exact ⟨⟨fun success => (nomatch success), fun same => absurd same ok⟩, fun same => absurd same ok, fun _ => rfl⟩

def paragraphs : WholeResponse where
  code := "200".toList
  reason := []
  headers := []
  body := "one\r\n\r\ntwo".toList
  digits := success_digits
  phrase := by decide
  fields := fun _ member => absurd member List.not_mem_nil

theorem send_request_whole_paragraphs :
    ((sendRequest (fun _ => some paragraphs.text) [] "GET".toList "/api/symbols/TSLA".toList [] []).1 = true ↔
      paragraphs.code = "200".toList) ∧
      (paragraphs.code = "200".toList →
        (sendRequest (fun _ => some paragraphs.text) [] "GET".toList "/api/symbols/TSLA".toList [] []).2 = paragraphs.body) ∧
      ((sendRequest (fun _ => some paragraphs.text) [] "GET".toList "/api/symbols/TSLA".toList [] []).1 = false →
        (sendRequest (fun _ => some paragraphs.text) [] "GET".toList "/api/symbols/TSLA".toList [] []).2 = []) :=
  send_request_whole (fun _ => some paragraphs.text) [] "GET".toList "/api/symbols/TSLA".toList [] [] paragraphs
    (by decide +kernel) rfl

end TradingFeed.Common
