import TradingFeed.Json.RoundTrip
import TradingFeed.Library.Search

set_option autoImplicit false

namespace TradingFeed.Common

open TradingFeed.Json

def npos : Nat := 2 ^ 64 - 1

-- `none` stands for a std::out_of_range or a std::invalid_argument.
def substr (text : Text) (pos count : Nat) : Option Text :=
  if pos ≤ text.length then some ((text.drop pos).take count) else none

def stoi (text : Text) : Option Int :=
  let signed := text.dropWhile isspace
  let negative := signed.head? = some '-'
  let unsigned := if negative ∨ signed.head? = some '+' then signed.tail else signed
  let digits := unsigned.takeWhile Char.isDigit
  let n : Int := if negative then -digitsValue digits else digitsValue digits
  if digits = [] then none
  else if -2 ^ 31 ≤ n ∧ n ≤ 2 ^ 31 - 1 then some n
  else none

def requestText (m_baseUrl type path body : Text) : Text :=
  let request := type ++ " ".toList ++ path ++ " HTTP/1.1\r\nHost: ".toList ++ m_baseUrl
  let request :=
    if body ≠ [] then
      request ++ "\r\nContent-Type: application/json".toList ++ "\r\nContent-Length: ".toList ++ Nat.toDigits 10 body.length
    else request
  request ++ "\r\n\r\n".toList ++ body

-- sendRequest behind read_some: the body it takes from what was read, or `none`
-- where it returns false or an exception goes to its catch clause. The offsets
-- are of type size_t, so npos + 4 is 3 and npos + 1 is 0.
def readResponse (responseStr : Text) : Option Text := do
  let headerEnd := (Library.find "\r\n\r\n".toList responseStr).getD npos
  let header ← substr responseStr 0 headerEnd
  let responseBody ← substr responseStr ((headerEnd + 4) % 2 ^ 64) npos
  let statusCodeStart := ((header.findIdx? (· = ' ')).getD npos + 1) % 2 ^ 64
  let statusCodeEnd := (((header.drop statusCodeStart).findIdx? (· = ' ')).map (· + statusCodeStart)).getD npos
  let statusCode ← stoi (← substr header statusCodeStart (statusCodeEnd - statusCodeStart))
  if statusCode ≠ 200 then none else some responseBody

-- `exchange` writes a request and makes one call of read_some with room for 4096
-- bytes; `none` is an error of asio. `result` is only assigned on success.
def sendRequest (exchange : Text → Option Text) (m_baseUrl type path body result : Text) : Bool × Text :=
  match (exchange (requestText m_baseUrl type path body)).bind fun received => readResponse (received.take 4096) with
  | some responseBody => (true, responseBody)
  | none => (false, result)

def getSymbol (exchange : Text → Option Text) (m_baseUrl symbolId : Text) : Text :=
  (sendRequest exchange m_baseUrl "GET".toList ("/api/symbols/".toList ++ symbolId) [] []).2

def postSymbol (exchange : Text → Option Text) (m_baseUrl symbolId : Text) : Text :=
  (sendRequest exchange m_baseUrl "POST".toList ("/api/symbols/".toList ++ symbolId) [] []).2

def deleteAllPrices (exchange : Text → Option Text) (m_baseUrl : Text) : Text :=
  (sendRequest exchange m_baseUrl "DELETE".toList "/api/prices".toList [] []).2

def crlf : Text := ['\r', '\n']

structure HttpResponse where
  code : Text
  reason : Text
  headers : List Text
  body : Text
  digits : code.length = 3 ∧ ∀ c ∈ code, c.isDigit = true
  phrase : '\r' ∉ reason ∧ '\n' ∉ reason
  fields : ∀ header ∈ headers, header ≠ [] ∧ '\r' ∉ header ∧ '\n' ∉ header

namespace HttpResponse

def statusLine (response : HttpResponse) : Text := "HTTP/1.1 ".toList ++ (response.code ++ ' ' :: response.reason)

def head (response : HttpResponse) : Text :=
  response.statusLine ++ crlf ++ response.headers.flatMap fun header => header ++ crlf

def text (response : HttpResponse) : Text := response.head ++ (crlf ++ response.body)

def Announced (response : HttpResponse) : Prop :=
  "Content-Length: ".toList ++ Nat.toDigits 10 response.body.length ∈ response.headers

end HttpResponse

example : readResponse "HTTP/1.1 200 OK\r\nContent-Length: 2\r\n\r\nhi".toList = some "hi".toList := by decide +kernel

end TradingFeed.Common
