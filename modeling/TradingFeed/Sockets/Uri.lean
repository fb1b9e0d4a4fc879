import TradingFeed.Json.RoundTrip

set_option autoImplicit false

namespace TradingFeed.Sockets

open TradingFeed.Json

def uri_default_port : Nat := 80

def uri_default_secure_port : Nat := 443

structure Uri where
  m_scheme : Text
  m_host : Text
  m_resource : Text
  m_port : Nat
  m_secure : Bool
deriving DecidableEq

-- Why a constructor leaves no such object: m_valid stays false, or atoi is asked for
-- a number that no int holds, which has no defined result.
inductive UriFault where
  | invalid
  | undefined
deriving DecidableEq

def atoi (text : Text) : Option Int :=
  let text := text.dropWhile isspace
  let digits := (if text.head? = some '-' ∨ text.head? = some '+' then text.tail else text).takeWhile Char.isDigit
  let n : Int := if text.head? = some '-' then -digitsValue digits else digitsValue digits
  if -2 ^ 31 ≤ n ∧ n < 2 ^ 31 then some n else none

def defaultPort (secure : Bool) : Nat := if secure then uri_default_secure_port else uri_default_port

def get_port_from_string (m_secure : Bool) (port : Text) : Except UriFault Nat :=
  if port = [] then .ok (defaultPort m_secure)
  else
    match atoi port with
    | none => .error .undefined
    | some n =>
        let t_port := (n % 2 ^ 32).toNat
        if t_port > 65535 then .error .invalid
        else if t_port = 0 then .error .invalid
        else .ok t_port

-- m_secure, m_scheme and the text behind them. Something has to follow a scheme.
def scheme (uri_string : Text) : Option (Bool × Text × Text) :=
  let uri_len := uri_string.length
  if uri_len ≥ 7 ∧ uri_string.take 6 = "wss://".toList then some (true, "wss".toList, uri_string.drop 6)
  else if uri_len ≥ 6 ∧ uri_string.take 5 = "ws://".toList then some (false, "ws".toList, uri_string.drop 5)
  else if uri_len ≥ 8 ∧ uri_string.take 7 = "http://".toList then some (false, "http".toList, uri_string.drop 7)
  else if uri_len ≥ 9 ∧ uri_string.take 8 = "https://".toList then some (true, "https".toList, uri_string.drop 8)
  else none

-- m_host, whether a port follows (state 1, not 2), and the text behind. Only one of
-- these may stand behind the bracket of an IPv6 literal.
def behindLiteral : Text → Option (Bool × Text)
  | [] => some (false, [])
  | '/' :: behind => some (false, behind)
  | ':' :: behind => some (true, behind)
  | _ => none

def literalHost (inside : Text) : Option (Text × Bool × Text) :=
  match inside.dropWhile (· ≠ ']') with
  | [] => none
  | _ :: rest => (behindLiteral rest).map fun behind => (inside.takeWhile (· ≠ ']'), behind)

def inName (c : Char) : Bool := c ≠ '/' ∧ c ≠ ':'

def namedHost (text : Text) : Text × Bool × Text :=
  match text.dropWhile inName with
  | [] => (text.takeWhile inName, false, [])
  | c :: behind => (text.takeWhile inName, c = ':', behind)

def host (text : Text) : Option (Text × Bool × Text) :=
  match text with
  | '[' :: inside => literalHost inside
  | text => some (namedHost text)

def portText (follows : Bool) (text : Text) : Text × Text :=
  if follows then (text.takeWhile (· ≠ '/'), (text.dropWhile (· ≠ '/')).drop 1) else ([], text)

def uri (uri_string : Text) : Except UriFault Uri :=
  match scheme uri_string with
  | none => .error .invalid
  | some (m_secure, m_scheme, behind) =>
      match host behind with
      | none => .error .invalid
      | some (m_host, follows, behind) =>
          let port := portText follows behind
          (get_port_from_string m_secure port.1).map fun m_port => ⟨m_scheme, m_host, '/' :: port.2, m_port, m_secure⟩

def Uri.str (u : Uri) : Text :=
  u.m_scheme ++ "://".toList ++ u.m_host ++
    (if u.m_port ≠ defaultPort u.m_secure then ':' :: Nat.toDigits 10 u.m_port else []) ++ u.m_resource

example : (uri "ws://h:9001/a".toList).toOption.map Uri.str = some "ws://h:9001/a".toList := by decide

inductive HostText : Text → Text → Prop where
  | named (name : Text) (plain : ∀ c ∈ name, inName c = true) (open_ : name.head? ≠ some '[') : HostText name name
  | literal (name : Text) (closed : ']' ∉ name) : HostText ('[' :: (name ++ [']'])) name

inductive PortText (secure : Bool) : Text → Nat → Prop where
  | absent : PortText secure [] (defaultPort secure)
  | empty : PortText secure [':'] (defaultPort secure)
  | number (port : Text) (n : Nat) (filled : port ≠ []) (plain : '/' ∉ port) (read : atoi port = some n) (low : 0 < n)
      (high : n ≤ 65535) : PortText secure (':' :: port) n

inductive ResourceText : Text → Text → Prop where
  | absent : ResourceText [] ['/']
  | path (rest : Text) : ResourceText ('/' :: rest) ('/' :: rest)

inductive SchemeText : Text → Bool → Prop where
  | ws : SchemeText "ws".toList false
  | wss : SchemeText "wss".toList true
  | http : SchemeText "http".toList false
  | https : SchemeText "https".toList true

structure Written (text : Text) (u : Uri) (name port resource : Text) : Prop where
  whole : text = u.m_scheme ++ "://".toList ++ (name ++ port ++ resource)
  filled : name ++ port ++ resource ≠ []
  schemed : SchemeText u.m_scheme u.m_secure
  hosted : HostText name u.m_host
  ported : PortText u.m_secure port u.m_port
  placed : ResourceText resource u.m_resource

theorem scheme_text (word rest : Text) (secure : Bool) (known : SchemeText word secure) (filled : rest ≠ []) :
    scheme (word ++ "://".toList ++ rest) = some (secure, word, rest) := by
  have long : 0 < rest.length := List.length_pos_iff.mpr filled
  cases known with
  | ws => simp [scheme]; omega
  | wss => simp [scheme]; omega
  | http => simp [scheme]; omega
  | https => simp [scheme]; omega

theorem scheme_some (text word rest : Text) (secure : Bool) (found : scheme text = some (secure, word, rest)) :
    SchemeText word secure ∧ text = word ++ "://".toList ++ rest ∧ rest ≠ [] := by
  have behind (n : Nat) (front : Text) (long : text.length ≥ n + 1) (starts : text.take n = front) :
      text = front ++ text.drop n ∧ text.drop n ≠ [] := by
    refine ⟨by rw [← starts, List.take_append_drop], fun empty => ?_⟩
    have length : (text.drop n).length = text.length - n := List.length_drop
    rw [empty] at length
    simp only [List.length_nil] at length
    omega
  dsimp only [scheme] at found
  split at found
  · rename_i taken
    cases found
    exact ⟨.wss, behind 6 _ taken.1 taken.2⟩
  split at found
  · rename_i taken
    cases found
    exact ⟨.ws, behind 5 _ taken.1 taken.2⟩
  split at found
  · rename_i taken
    cases found
    exact ⟨.http, behind 7 _ taken.1 taken.2⟩
  split at found
  · rename_i taken
    cases found
    exact ⟨.https, behind 8 _ taken.1 taken.2⟩
  · cases found

inductive Behind : Text → Bool → Text → Prop where
  | nothing : Behind [] false []
  | path (rest : Text) : Behind ('/' :: rest) false rest
  | port (rest : Text) : Behind (':' :: rest) true rest

theorem behind_literal_iff (rest behind : Text) (follows : Bool) :
    behindLiteral rest = some (follows, behind) ↔ Behind rest follows behind := by
  constructor
  · intro found
    unfold behindLiteral at found
    split at found <;> cases found
    · exact .nothing
    · exact .path _
    · exact .port _
  · intro ends
    cases ends <;> rfl

section

variable (written name rest behind text : Text) (follows : Bool)

theorem host_other (open_ : text.head? ≠ some '[') : host text = some (namedHost text) := by
  unfold host
  split
  · exact absurd rfl open_
  · rfl

theorem host_named (plain : ∀ c ∈ name, inName c = true) (open_ : name.head? ≠ some '[')
    (ends : Behind rest follows behind) : host (name ++ rest) = some (name, follows, behind) := by
  have other : (name ++ rest).head? ≠ some '[' := by
    cases name with
    | nil => cases ends <;> simp
    | cons c name => exact open_
  rw [host_other _ other, namedHost, List.dropWhile_append_of_pos plain, List.takeWhile_append_of_pos plain]
  cases ends <;> simp [inName]

theorem host_literal (closed : ']' ∉ name) (ends : Behind rest follows behind) :
    host ('[' :: (name ++ [']']) ++ rest) = some (name, follows, behind) := by
  have all : ∀ c ∈ name, decide (c ≠ ']') = true := fun c member => decide_eq_true fun same => closed (same ▸ member)
  have read := (behind_literal_iff rest behind follows).mpr ends
  rw [List.cons_append, List.append_assoc, List.singleton_append, host, literalHost, List.dropWhile_append_of_pos all,
    List.takeWhile_append_of_pos all]
  simp [read]

theorem host_written (named : HostText written name) (ends : Behind rest follows behind) :
    host (written ++ rest) = some (name, follows, behind) := by
  cases named with
  | named _ plain open_ => exact host_named written rest behind follows plain open_ ends
  | literal _ closed => exact host_literal _ rest behind follows closed ends

theorem literal_host_some (inside : Text) (found : literalHost inside = some (name, follows, behind)) :
    ∃ rest, inside = name ++ ']' :: rest ∧ ']' ∉ name ∧ Behind rest follows behind := by
  have closed : ']' ∉ inside.takeWhile fun c => decide (c ≠ ']') := fun member =>
    absurd (List.mem_takeWhile_imp member) (by decide)
  have whole := List.takeWhile_append_dropWhile (p := fun c => decide (c ≠ ']')) (l := inside)
  unfold literalHost at found
  split at found
  · cases found
  · rename_i c rest left
    have stop : c = ']' := by
      have first := List.head?_dropWhile_not (fun c => decide (c ≠ ']')) inside
      rw [left] at first
      simpa using first
    obtain ⟨ends, read, same⟩ := Option.map_eq_some_iff.mp found
    cases same
    rw [left, stop] at whole
    exact ⟨rest, whole.symm, closed, (behind_literal_iff rest _ _).mp read⟩

theorem named_host_behind (found : namedHost text = (name, follows, behind)) :
    ∃ rest, text = name ++ rest ∧ (∀ c ∈ name, inName c = true) ∧ Behind rest follows behind := by
  have whole := List.takeWhile_append_dropWhile (p := inName) (l := text)
  have plain : ∀ c ∈ text.takeWhile inName, inName c = true := fun c member => List.mem_takeWhile_imp member
  unfold namedHost at found
  split at found
  · rename_i left
    cases found
    exact ⟨[], by rw [← left, whole], plain, .nothing⟩
  · rename_i c later left
    have stop : inName c = false := by
      have first := List.head?_dropWhile_not inName text
      rw [left] at first
      simpa using first
    cases found
    refine ⟨c :: behind, by rw [← left, whole], plain, ?_⟩
    by_cases port : c = ':'
    · subst c
      exact .port _
    · have path : c = '/' := by simpa [inName, port] using stop
      subst c
      exact .path _

theorem host_some (found : host text = some (name, follows, behind)) :
    ∃ written rest, text = written ++ rest ∧ HostText written name ∧ Behind rest follows behind := by
  unfold host at found
  split at found
  · rename_i inside
    obtain ⟨rest, rfl, closed, ends⟩ := literal_host_some name behind follows inside found
    exact ⟨'[' :: (name ++ [']']), rest, by simp, .literal name closed, ends⟩
  · rename_i open_
    obtain ⟨rest, rfl, plain, ends⟩ := named_host_behind name behind text follows (Option.some.inj found)
    refine ⟨name, rest, rfl, .named name plain fun first => ?_, ends⟩
    cases name with
    | nil => cases first
    | cons c name =>
        cases first
        exact open_ (name ++ rest) rfl

end

theorem atoi_range (text : Text) (n : Int) (read : atoi text = some n) : -2 ^ 31 ≤ n ∧ n < 2 ^ 31 := by
  dsimp only [atoi] at read
  obtain ⟨range, same⟩ := Option.ite_none_right_eq_some.mp read
  cases same
  exact range

theorem checked_port (t_port n : Nat) :
    (if t_port > 65535 then .error .invalid else if t_port = 0 then .error .invalid else .ok t_port :
      Except UriFault Nat) = .ok n ↔ t_port = n ∧ 0 < n ∧ n ≤ 65535 := by
  split
  · rename_i large
    exact iff_of_false (fun taken => by cases taken) (by omega)
  split
  · rename_i none_
    exact iff_of_false (fun taken => by cases taken) (by omega)
  · rw [Except.ok.injEq]
    omega

-- The cast to unsigned int makes every negative number too large.
theorem cast_port (m : Int) (n : Nat) (range : -2 ^ 31 ≤ m ∧ m < 2 ^ 31) (high : n ≤ 65535) :
    (m % 2 ^ 32).toNat = n ↔ m = n := by
  omega

theorem get_port_ok (secure : Bool) (port : Text) (n : Nat) :
    get_port_from_string secure port = .ok n ↔
      port = [] ∧ n = defaultPort secure ∨ port ≠ [] ∧ atoi port = some n ∧ 0 < n ∧ n ≤ 65535 := by
  unfold get_port_from_string
  by_cases empty : port = []
  · simp [empty, eq_comm]
  · rw [if_neg empty]
    cases read : atoi port with
    | none => simp [empty]
    | some m =>
        refine (checked_port _ n).trans ?_
        rw [and_congr_left fun bounds => cast_port m n (atoi_range port m read) bounds.2]
        simp [empty]

theorem port_taken (port resource behind : Text) (plain : '/' ∉ port) (placed : ResourceText resource ('/' :: behind)) :
    portText true (port ++ resource) = (port, behind) := by
  have all : ∀ c ∈ port, decide (c ≠ '/') = true := fun c member => decide_eq_true fun same => plain (same ▸ member)
  rw [portText, if_pos rfl, List.takeWhile_append_of_pos all, List.dropWhile_append_of_pos all]
  cases placed <;> simp

theorem port_split (text : Text) :
    ∃ resource, text = (portText true text).1 ++ resource ∧ '/' ∉ (portText true text).1 ∧
      ResourceText resource ('/' :: (portText true text).2) := by
  have whole := List.takeWhile_append_dropWhile (p := fun c => decide (c ≠ '/')) (l := text)
  have first := List.head?_dropWhile_not (fun c => decide (c ≠ '/')) text
  refine ⟨text.dropWhile fun c => decide (c ≠ '/'), whole.symm, fun member => ?_, ?_⟩
  · exact absurd (List.mem_takeWhile_imp member) (by decide)
  · rw [portText, if_pos rfl]
    cases left : text.dropWhile fun c => decide (c ≠ '/') with
    | nil => exact .absent
    | cons c rest =>
        rw [left] at first
        have slash : c = '/' := by simpa using first
        subst c
        exact .path rest

theorem resource_written (resource m_resource : Text) (placed : ResourceText resource m_resource) :
    ∃ behind, m_resource = '/' :: behind := by
  cases placed with
  | absent => exact ⟨[], rfl⟩
  | path rest => exact ⟨rest, rfl⟩

theorem written_uri (text : Text) (u : Uri) (name port resource : Text) (written : Written text u name port resource) :
    uri text = .ok u := by
  obtain ⟨m_scheme, m_host, m_resource, m_port, m_secure⟩ := u
  obtain ⟨rfl, filled, schemed, hosted, ported, placed⟩ := written
  dsimp only at schemed hosted ported placed filled ⊢
  have begins := scheme_text m_scheme _ m_secure schemed filled
  obtain ⟨behind, rfl⟩ := resource_written _ _ placed
  have numbered (given : Text) (read : get_port_from_string m_secure given = .ok m_port) (follows : Bool) (after : Text)
      (found : host (name ++ port ++ resource) = some (m_host, follows, after))
      (taken : portText follows after = (given, behind)) :
      uri (m_scheme ++ "://".toList ++ (name ++ port ++ resource)) =
        .ok ⟨m_scheme, m_host, '/' :: behind, m_port, m_secure⟩ := by
    unfold uri
    rw [begins]
    dsimp only
    rw [found]
    dsimp only
    rw [taken, read]
    rfl
  cases ported with
  | absent =>
      have read := (get_port_ok m_secure [] _).mpr (Or.inl ⟨rfl, rfl⟩)
      cases placed with
      | absent =>
          refine numbered [] read false [] ?_ rfl
          rw [List.append_nil]
          exact host_written name m_host [] [] false hosted .nothing
      | path rest =>
          refine numbered [] read false behind ?_ rfl
          rw [List.append_nil]
          exact host_written name m_host _ behind false hosted (.path behind)
  | empty =>
      refine numbered [] ((get_port_ok m_secure [] _).mpr (Or.inl ⟨rfl, rfl⟩)) true resource ?_
        (port_taken [] resource behind (by simp) placed)
      rw [List.append_assoc]
      exact host_written name m_host _ resource true hosted (.port resource)
  | number given _ nonempty plain read low high =>
      refine numbered given ((get_port_ok m_secure given _).mpr (Or.inr ⟨nonempty, read, low, high⟩)) true
        (given ++ resource) ?_ (port_taken given resource behind plain placed)
      rw [List.append_assoc]
      exact host_written name m_host _ _ true hosted (.port (given ++ resource))

theorem uri_written (text : Text) (u : Uri) (parsed : uri text = .ok u) :
    ∃ name port resource, Written text u name port resource := by
  unfold uri at parsed
  split at parsed
  · cases parsed
  · rename_i m_secure m_scheme rest found
    obtain ⟨schemed, whole, filled⟩ := scheme_some text m_scheme rest m_secure found
    split at parsed
    · cases parsed
    · rename_i m_host follows behind hostFound
      obtain ⟨name, after, split, hosted, ends⟩ := host_some m_host behind rest follows hostFound
      cases read : get_port_from_string m_secure (portText follows behind).1 with
      | error fault =>
          dsimp only at parsed
          rw [read] at parsed
          cases parsed
      | ok m_port =>
          dsimp only at parsed
          rw [read] at parsed
          cases parsed
          have numbered := (get_port_ok m_secure _ m_port).mp read
          have build (port resource : Text) (parts : after = port ++ resource) (ported : PortText m_secure port m_port)
              (placed : ResourceText resource ('/' :: (portText follows behind).2)) :
              Written text ⟨m_scheme, m_host, '/' :: (portText follows behind).2, m_port, m_secure⟩ name port resource := by
            have same : name ++ port ++ resource = rest := by rw [List.append_assoc, ← parts, ← split]
            exact ⟨by rw [same]; exact whole, by rw [same]; exact filled, schemed, hosted, ported, placed⟩
          cases ends with
          | nothing =>
              obtain ⟨_, rfl⟩ := numbered.resolve_right fun other => other.1 rfl
              exact ⟨name, [], [], build [] [] rfl .absent .absent⟩
          | path =>
              obtain ⟨_, rfl⟩ := numbered.resolve_right fun other => other.1 rfl
              exact ⟨name, [], _, build [] _ rfl .absent (.path behind)⟩
          | port =>
              obtain ⟨resource, parts, plain, placed⟩ := port_split behind
              rcases numbered with ⟨empty, rfl⟩ | ⟨nonempty, number, low, high⟩
              · rw [empty] at parts
                exact ⟨name, [':'], resource, build [':'] resource (by rw [parts]; rfl) .empty placed⟩
              · refine ⟨name, ':' :: (portText true behind).1, resource, build _ resource ?_ ?_ placed⟩
                · rw [List.cons_append, ← parts]
                · exact .number _ m_port nonempty plain number low high

theorem uri_ok_iff (text : Text) (u : Uri) :
    uri text = .ok u ↔ ∃ name port resource, Written text u name port resource :=
  ⟨uri_written text u, fun ⟨name, port, resource, written⟩ => written_uri text u name port resource written⟩

theorem atoi_digits (n : Nat) (small : n < 2 ^ 31) : atoi (Nat.toDigits 10 n) = some (n : Int) := by
  obtain ⟨c, tail, digits, digit⟩ := digits_head n
  have solid : isspace c = false := (number_space c (digit_number c digit)).1
  have plain : (Nat.toDigits 10 n).dropWhile isspace = Nat.toDigits 10 n := by rw [digits]; simp [solid]
  have unsigned : ¬(Nat.toDigits 10 n).head? = some '-' := by
    rw [digits]
    rintro ⟨⟩
    simp [Char.isDigit] at digit
  have unmarked : ¬(Nat.toDigits 10 n).head? = some '+' := by
    rw [digits]
    rintro ⟨⟩
    simp [Char.isDigit] at digit
  have range : -2 ^ 31 ≤ (n : Int) ∧ (n : Int) < 2 ^ 31 := by omega
  simp only [atoi, plain, unsigned, unmarked, or_self, if_false, digits_taken, digits_value, range, and_self, if_true]

theorem port_written (secure : Bool) (port : Text) (n : Nat) (written : PortText secure port n) : 0 < n ∧ n ≤ 65535 := by
  cases written with
  | absent => cases secure <;> decide
  | empty => cases secure <;> decide
  | number _ _ _ _ _ low high => exact ⟨low, high⟩

def PlainHost (m_host : Text) : Prop := (∀ c ∈ m_host, inName c = true) ∧ m_host.head? ≠ some '['

def Uri.portPart (u : Uri) : Text :=
  if u.m_port ≠ defaultPort u.m_secure then ':' :: Nat.toDigits 10 u.m_port else []

theorem port_part (u : Uri) (low : 0 < u.m_port) (high : u.m_port ≤ 65535) : PortText u.m_secure u.portPart u.m_port := by
  unfold Uri.portPart
  split
  · refine .number _ _ Nat.toDigits_ne_nil (fun member => ?_) (atoi_digits _ (by omega)) low high
    have digit := shown_digit _ _ member
    simp [Char.isDigit] at digit
  · rename_i usual
    rw [not_not.mp usual]
    exact .absent

theorem str_whole (u : Uri) : u.str = u.m_scheme ++ "://".toList ++ (u.m_host ++ u.portPart ++ u.m_resource) := by
  simp only [Uri.str, Uri.portPart, List.append_assoc]

theorem shifted_head (c : Char) (front rest behind : Text) (shifted : front ++ rest = c :: (front ++ behind)) :
    rest.head? = some c := by
  induction front with
  | nil => exact congrArg List.head? shifted
  | cons first front hyp =>
      obtain ⟨rfl, later⟩ := List.cons.inj shifted
      exact hyp later

theorem uri_str_iff (text : Text) (u : Uri) (parsed : uri text = .ok u) : uri u.str = .ok u ↔ PlainHost u.m_host := by
  obtain ⟨name, port, resource, _, _, schemed, _, ported, placed⟩ := uri_written text u parsed
  obtain ⟨low, high⟩ := port_written _ _ _ ported
  obtain ⟨rest, resourced⟩ := resource_written _ _ placed
  constructor
  · intro again
    obtain ⟨name, port, resource, whole, _, _, hosted, _, _⟩ := uri_written u.str u again
    rw [str_whole] at whole
    have same := List.append_cancel_left whole
    rw [List.append_assoc, List.append_assoc] at same
    generalize u.m_host = m_host at hosted same ⊢
    cases hosted with
    | named _ plain open_ => exact ⟨plain, open_⟩
    | literal _ closed =>
        -- The text behind the host starts with ':' or '/', never with '['.
        rw [List.cons_append, List.append_assoc] at same
        have first := shifted_head '[' _ _ _ same
        rw [resourced, Uri.portPart] at first
        split at first
        · cases first
        · cases first
  · intro plain
    refine written_uri u.str u u.m_host u.portPart u.m_resource ⟨str_whole u, ?_, schemed, .named _ plain.1 plain.2, ?_, ?_⟩
    · rw [resourced]
      simp
    · exact port_part u low high
    · rw [resourced]
      exact .path rest

theorem uri_str_iff_port : uri "ws://h:9001/a".toList =
      .ok ⟨"ws".toList, "h".toList, "/a".toList, 9001, false⟩ ∧
    (uri (Uri.str ⟨"ws".toList, "h".toList, "/a".toList, 9001, false⟩) =
      .ok ⟨"ws".toList, "h".toList, "/a".toList, 9001, false⟩ ↔ PlainHost "h".toList) :=
  have parsed : uri "ws://h:9001/a".toList = .ok ⟨"ws".toList, "h".toList, "/a".toList, 9001, false⟩ := by decide
  ⟨parsed, uri_str_iff _ _ parsed⟩

inductive ConnectFault where
  | invalid_uri
  | endpoint_not_secure
  | undefined
deriving DecidableEq

-- The clients have no TLS.
def get_connection (u : Text) : Except ConnectFault Uri :=
  match uri u with
  | .error .invalid => .error .invalid_uri
  | .error .undefined => .error .undefined
  | .ok location => if location.m_secure then .error .endpoint_not_secure else .ok location

def dialled (host : Text) : Bool := (get_connection host).toOption.isSome

def Address (text : Text) : Prop := ∃ u name port resource, Written text u name port resource ∧ u.m_secure = false

theorem dialled_iff (host : Text) : dialled host = true ↔ Address host := by
  unfold dialled get_connection
  constructor
  · intro found
    split at found
    · cases found
    · cases found
    · rename_i location parsed
      obtain ⟨name, port, resource, written⟩ := uri_written host location parsed
      refine ⟨location, name, port, resource, written, ?_⟩
      cases secure : location.m_secure with
      | false => rfl
      | true =>
          rw [secure] at found
          cases found
  · rintro ⟨u, name, port, resource, written, insecure⟩
    rw [written_uri host u name port resource written]
    dsimp only
    rw [insecure]
    rfl

end TradingFeed.Sockets
