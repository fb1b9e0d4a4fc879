import Mathlib.Data.List.Forall2
import TradingFeed.Common.HttpClient
import TradingFeed.Common.Utils

set_option autoImplicit false

namespace TradingFeed.Startup

open TradingFeed.Json TradingFeed.Common

-- Why a main does not come to its server: what std::stoi throws leaves it, or it has
-- read an argument that is not there.
inductive StartFault where
  | uncaught
  | undefined
deriving DecidableEq

def envPort (envVariables : Std.ExtTreeMap Text Text) (key : Text) (port : Int) : Except StartFault Int :=
  match envVariables[key]? with
  | none => .ok port
  | some value => (stoi value).elim (.error .uncaught) .ok

def envPorts (envVariables : Std.ExtTreeMap Text Text) : List (Text × Int) → Except StartFault (List Int)
  | [] => .ok []
  | (key, port) :: rest => do
      let first ← envPort envVariables key port
      let others ← envPorts envVariables rest
      return first :: others

def storageKeys : List (Text × Int) := [("STORAGE_API_PORT".toList, 3000)]

def broadcasterKeys : List (Text × Int) := [("WS_CONSUMER_PORT".toList, 9000), ("STORAGE_API_PORT".toList, 3000)]

def aggregatorKeys : List (Text × Int) := [("WS_CONSUMER_PORT".toList, 9100), ("STORAGE_API_PORT".toList, 3000)]

def dataProviderKeys : List (Text × Int) := [("WS_DATA_PROVIDER_PORT".toList, 9001)]

-- The four mains up to the constructor of the server. `argv` leaves the name of the
-- program out, and `envFile` is the text of its file of environment variables.
def storageMain (envFile : Option Text) : Except StartFault (List Int) := envPorts (parseEnvFile envFile) storageKeys

def broadcasterMain (envFile : Option Text) : Except StartFault (List Int) :=
  envPorts (parseEnvFile envFile) broadcasterKeys

def dataProviderMain (argv : List Text) (envFile : Option Text) : Except StartFault (List Int) :=
  match argv with
  | port :: _ => .ok [(stoi port).getD 9001]
  | [] => envPorts (parseEnvFile envFile) dataProviderKeys

-- Where the first argument is no number, the second is not read; where it is one and
-- the second is missing, stoi gets the null pointer that ends argv.
def aggregatorMain (argv : List Text) (envFile : Option Text) : Except StartFault (List Int) :=
  match argv with
  | [] => envPorts (parseEnvFile envFile) aggregatorKeys
  | wsPort :: rest =>
      match stoi wsPort, rest with
      | none, _ => .ok [9100, 3000]
      | some _, [] => .error .undefined
      | some wsPort, storageAPIPort :: _ => .ok [wsPort, (stoi storageAPIPort).getD 3000]

structure Parts (text blanks sign digits rest : Text) : Prop where
  written : text = blanks ++ (sign ++ (digits ++ rest))
  blank : ∀ c ∈ blanks, isspace c = true
  solid : ∀ c, (sign ++ (digits ++ rest)).head? = some c → isspace c = false
  signs : sign = [] ∨ sign = ['+'] ∨ sign = ['-']
  unsigned : sign = [] → (digits ++ rest).head? ≠ some '-' ∧ (digits ++ rest).head? ≠ some '+'
  all : ∀ c ∈ digits, c.isDigit = true
  stops : ∀ c, rest.head? = some c → c.isDigit = false

def signedValue (sign digits : Text) : Int := if sign = ['-'] then -digitsValue digits else digitsValue digits

def IntText (text : Text) (n : Int) : Prop :=
  ∃ blanks sign digits rest, Parts text blanks sign digits rest ∧ digits ≠ [] ∧ n = signedValue sign digits ∧
    -2 ^ 31 ≤ n ∧ n ≤ 2 ^ 31 - 1

theorem drop_head (kind : Char → Bool) (text : Text) (c : Char) (first : (text.dropWhile kind).head? = some c) :
    kind c = false := by
  have stop := List.head?_dropWhile_not kind text
  rw [first] at stop
  simpa using stop

theorem parts_exist (text : Text) : ∃ blanks sign digits rest, Parts text blanks sign digits rest := by
  have blank : ∀ c ∈ text.takeWhile isspace, isspace c = true := fun c member => List.mem_takeWhile_imp member
  have solid := drop_head isspace text
  have whole := List.takeWhile_append_dropWhile (p := isspace) (l := text)
  generalize text.takeWhile isspace = blanks at blank whole
  generalize text.dropWhile isspace = signed at solid whole
  have cut (sign unsigned : Text) (same : signed = sign ++ unsigned) (signs : sign = [] ∨ sign = ['+'] ∨ sign = ['-'])
      (none_ : sign = [] → unsigned.head? ≠ some '-' ∧ unsigned.head? ≠ some '+') :
      ∃ blanks sign digits rest, Parts text blanks sign digits rest := by
    have split := List.takeWhile_append_dropWhile (p := Char.isDigit) (l := unsigned)
    refine ⟨blanks, sign, unsigned.takeWhile Char.isDigit, unsigned.dropWhile Char.isDigit, ?_⟩
    exact {
      written := by rw [split, ← same, whole]
      blank := blank
      solid := by rw [split, ← same]; exact solid
      signs := signs
      unsigned := by rw [split]; exact none_
      all := fun c member => List.mem_takeWhile_imp member
      stops := drop_head Char.isDigit unsigned }
  by_cases minus : signed.head? = some '-'
  · exact cut ['-'] signed.tail (List.eq_cons_of_mem_head? minus) (Or.inr (Or.inr rfl)) (fun never => by cases never)
  by_cases plus : signed.head? = some '+'
  · exact cut ['+'] signed.tail (List.eq_cons_of_mem_head? plus) (Or.inr (Or.inl rfl)) (fun never => by cases never)
  · exact cut [] signed rfl (Or.inl rfl) fun _ => ⟨minus, plus⟩

theorem stoi_parts (text blanks sign digits rest : Text) (parts : Parts text blanks sign digits rest) :
    stoi text =
      if digits = [] then none
      else if -2 ^ 31 ≤ signedValue sign digits ∧ signedValue sign digits ≤ 2 ^ 31 - 1 then some (signedValue sign digits)
      else none := by
  have signed : text.dropWhile isspace = sign ++ (digits ++ rest) := by
    rw [parts.written, List.dropWhile_append_of_pos parts.blank]
    cases same : sign ++ (digits ++ rest) with
    | nil => rfl
    | cons c later => exact List.dropWhile_cons_of_neg (by simp [parts.solid c (by rw [same]; rfl)])
  have taken : (digits ++ rest).takeWhile Char.isDigit = digits := by
    rw [List.takeWhile_append_of_pos parts.all]
    cases behind : rest with
    | nil => simp
    | cons d later => simp [parts.stops d (by rw [behind]; rfl)]
  dsimp only [stoi, signedValue]
  rw [signed]
  rcases parts.signs with rfl | rfl | rfl
  · obtain ⟨minus, plus⟩ := parts.unsigned rfl
    simp only [List.nil_append, minus, plus, or_self, if_false, taken]
    rfl
  · simp [taken]
  · simp [taken]

theorem stoi_iff (text : Text) (n : Int) : stoi text = some n ↔ IntText text n := by
  constructor
  · intro read
    obtain ⟨blanks, sign, digits, rest, parts⟩ := parts_exist text
    rw [stoi_parts text blanks sign digits rest parts] at read
    obtain ⟨filled, inside⟩ := Option.ite_none_left_eq_some.mp read
    obtain ⟨range, same⟩ := Option.ite_none_right_eq_some.mp inside
    cases same
    exact ⟨blanks, sign, digits, rest, parts, filled, rfl, range⟩
  · rintro ⟨blanks, sign, digits, rest, parts, filled, rfl, range⟩
    rw [stoi_parts text blanks sign digits rest parts, if_neg filled, if_pos range]

theorem last_member {α : Type} (holds : α → Prop) (items : List α) (some_ : ∃ item ∈ items, holds item) :
    ∃ before item after, items = before ++ item :: after ∧ holds item ∧ ∀ later ∈ after, ¬holds later := by
  induction items with
  | nil =>
      obtain ⟨_, member, _⟩ := some_
      cases member
  | cons first items ih =>
      by_cases later : ∃ item ∈ items, holds item
      · obtain ⟨before, item, after, rfl, here, last⟩ := ih later
        exact ⟨first :: before, item, after, rfl, here, last⟩
      · obtain ⟨item, member, here⟩ := some_
        rcases List.mem_cons.mp member with rfl | inside
        · exact ⟨[], item, items, rfl, here, fun other among also => later ⟨other, among, also⟩⟩
        · exact absurd ⟨item, inside, here⟩ later

def LastAssigns (file key value : Text) : Prop :=
  ∃ before line after, file.splitOn '\n' = before ++ line :: after ∧ Assigns line key value ∧
    ∀ later ∈ after, ∀ other, ¬Assigns later key other

inductive Configured (envFile : Option Text) (key : Text) (port : Int) : Int → Prop where
  | unset (nothing : ∀ file, envFile = some file → ∀ line ∈ file.splitOn '\n', ∀ value, ¬Assigns line key value) :
      Configured envFile key port port
  | assigned (file value : Text) (n : Int) (here : envFile = some file) (last : LastAssigns file key value)
      (read : IntText value n) : Configured envFile key port n

theorem unassigned (file key : Text) (found : (parseEnvFile (some file))[key]? = none) (line : Text)
    (member : line ∈ file.splitOn '\n') (value : Text) : ¬Assigns line key value := by
  intro assigns
  obtain ⟨before, last, after, split, ⟨given, here⟩, later⟩ :=
    last_member (fun line => ∃ value, Assigns line key value) _ ⟨line, member, value, assigns⟩
  have stored := (get_parse_env_file file key given).mpr
    ⟨before, last, after, split, here, fun other among value also => later other among ⟨value, also⟩⟩
  exact Option.some_ne_none given (stored.symm.trans found)

theorem env_port_iff (envFile : Option Text) (key : Text) (port n : Int) :
    envPort (parseEnvFile envFile) key port = .ok n ↔ Configured envFile key port n := by
  unfold envPort
  cases envFile with
  | none =>
      have empty : (parseEnvFile none)[key]? = none := by simp [parseEnvFile]
      rw [empty]
      constructor
      · intro same
        cases same
        exact .unset fun file here => by cases here
      · rintro (_ | ⟨file, value, _, here, _, _⟩)
        · rfl
        · cases here
  | some file =>
      cases found : (parseEnvFile (some file))[key]? with
      | none =>
          constructor
          · intro same
            cases same
            refine .unset fun other here => ?_
            cases here
            exact unassigned file key found
          · rintro (_ | ⟨other, value, _, here, last, _⟩)
            · rfl
            · cases here
              exact absurd ((get_parse_env_file file key value).mpr last) (found ▸ Option.some_ne_none value ∘ Eq.symm)
      | some value =>
          have last : LastAssigns file key value := (get_parse_env_file file key value).mp found
          dsimp only
          constructor
          · intro read
            cases number : stoi value with
            | none =>
                rw [number] at read
                cases read
            | some m =>
                rw [number] at read
                cases read
                exact .assigned file value n rfl last ((stoi_iff value n).mp number)
          · rintro (nothing | ⟨other, assigned, _, here, also, read⟩)
            · obtain ⟨before, line, after, split, assigns, _⟩ := last
              exact absurd assigns (nothing file rfl line (by rw [split]; simp) value)
            · cases here
              have same := ((get_parse_env_file file key assigned).mpr also).symm.trans found
              cases same
              rw [(stoi_iff value n).mpr read]
              rfl

inductive Program where
  | storage
  | broadcaster
  | dataProvider
  | aggregator

namespace Program

def keys : Program → List (Text × Int)
  | storage => storageKeys
  | broadcaster => broadcasterKeys
  | dataProvider => dataProviderKeys
  | aggregator => aggregatorKeys

-- main of StorageApi and TradingBroadcaster takes no arguments.
def main (argv : List Text) (envFile : Option Text) : Program → Except StartFault (List Int)
  | storage => storageMain envFile
  | broadcaster => broadcasterMain envFile
  | dataProvider => dataProviderMain argv envFile
  | aggregator => aggregatorMain argv envFile

end Program

theorem env_ports_iff (envFile : Option Text) (keys : List (Text × Int)) (ports : List Int) :
    envPorts (parseEnvFile envFile) keys = .ok ports ↔
      List.Forall₂ (fun entry port => Configured envFile entry.1 entry.2 port) keys ports := by
  induction keys generalizing ports with
  | nil =>
      rw [List.forall₂_nil_left_iff]
      exact ⟨fun same => (Except.ok.inj same).symm, fun same => congrArg Except.ok same.symm⟩
  | cons entry keys ih =>
      obtain ⟨key, port⟩ := entry
      rw [List.forall₂_cons_left_iff]
      rw [envPorts]
      cases first : envPort (parseEnvFile envFile) key port with
      | error fault =>
          constructor
          · intro same
            cases same
          · rintro ⟨n, _, configured, _, _⟩
            exact absurd ((env_port_iff envFile key port n).mpr configured) (by rw [first]; exact fun same => by cases same)
      | ok n =>
          have here := (env_port_iff envFile key port n).mp first
          cases others : envPorts (parseEnvFile envFile) keys with
          | error fault =>
              constructor
              · intro same
                cases same
              · rintro ⟨_, rest, _, configured, _⟩
                exact absurd ((ih rest).mpr configured) (by rw [others]; exact fun same => by cases same)
          | ok rest =>
              constructor
              · intro same
                cases same
                exact ⟨n, rest, here, (ih rest).mp others, rfl⟩
              · rintro ⟨m, more, configured, later, rfl⟩
                have one := (env_port_iff envFile key port m).mpr configured
                have two := (ih more).mpr later
                rw [first] at one
                rw [others] at two
                cases one
                cases two
                rfl

theorem env_port_fails (envVariables : Std.ExtTreeMap Text Text) (key : Text) (port : Int) (fault : StartFault)
    (failed : envPort envVariables key port = .error fault) : fault = .uncaught := by
  unfold envPort at failed
  split at failed
  · cases failed
  · rename_i value _
    cases read : stoi value with
    | none =>
        rw [read] at failed
        exact (Except.error.inj failed).symm
    | some n =>
        rw [read] at failed
        cases failed

theorem env_ports_fail (envVariables : Std.ExtTreeMap Text Text) (keys : List (Text × Int)) (fault : StartFault)
    (failed : envPorts envVariables keys = .error fault) : fault = .uncaught := by
  induction keys with
  | nil => cases failed
  | cons entry keys ih =>
      obtain ⟨key, port⟩ := entry
      rw [envPorts] at failed
      cases first : envPort envVariables key port with
      | error other =>
          rw [first] at failed
          cases failed
          exact env_port_fails envVariables key port fault first
      | ok n =>
          cases others : envPorts envVariables keys with
          | error other =>
              rw [first, others] at failed
              cases failed
              exact ih others
          | ok rest =>
              rw [first, others] at failed
              cases failed

theorem program_ports (program : Program) (envFile : Option Text) :
    program.main [] envFile = envPorts (parseEnvFile envFile) program.keys := by
  cases program <;> rfl

theorem program_starts_iff (program : Program) (envFile : Option Text) :
    (∀ ports, program.main [] envFile = .ok ports ↔
      List.Forall₂ (fun entry port => Configured envFile entry.1 entry.2 port) program.keys ports) ∧
    ∀ fault, program.main [] envFile = .error fault → fault = .uncaught := by
  rw [program_ports]
  exact ⟨env_ports_iff envFile program.keys, env_ports_fail _ program.keys⟩

theorem arguments_fail_iff (program : Program) (argv : List Text) (given : argv ≠ [])
    (reads : program = .dataProvider ∨ program = .aggregator) (envFile : Option Text) (fault : StartFault) :
    program.main argv envFile = .error fault ↔
      program = .aggregator ∧ fault = .undefined ∧ ∃ port n, argv = [port] ∧ IntText port n := by
  obtain ⟨first, rest, rfl⟩ := List.exists_cons_of_ne_nil given
  rcases reads with rfl | rfl
  · simp [Program.main, dataProviderMain]
  · simp only [Program.main, aggregatorMain, true_and]
    cases read : stoi first with
    | none =>
        constructor
        · intro same
          cases same
        · rintro ⟨_, port, n, same, int⟩
          cases same
          exact absurd ((stoi_iff first n).mpr int) (by rw [read]; exact Option.some_ne_none n ∘ Eq.symm)
    | some n =>
        cases rest with
        | nil =>
            constructor
            · intro same
              cases same
              exact ⟨rfl, first, n, rfl, (stoi_iff first n).mp read⟩
            · rintro ⟨rfl, _⟩
              rfl
        | cons second rest =>
            constructor
            · intro same
              cases same
            · rintro ⟨_, port, n, same, _⟩
              cases same

end TradingFeed.Startup
