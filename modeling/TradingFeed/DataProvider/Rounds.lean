import TradingFeed.DataProvider.Server

set_option autoImplicit false

namespace TradingFeed.DataProvider

open TradingFeed.Json TradingFeed.Sockets TradingFeed.Common Library

variable {D : Type}

abbrev Step (D : Type) := Event (State D) Action (List (Output D))

def sentTo (hdl : Hdl) (outputs : List (Output D)) : List (DataProviderMessage D) :=
  outputs.filterMap fun | .send receiver message => if receiver = hdl then some message else none

def published (hdl : Hdl) (events : List (Step D)) : List (DataProviderMessage D) :=
  events.flatMap fun event => sentTo hdl event.out

def reading : Action → Option Int64
  | .update _ now => some now
  | _ => none

def readings (events : List (Step D)) : List Int64 := events.filterMap fun event => reading event.action

-- The j-th message is the j-th of the list, taken round and round, as
-- updateTimestamp leaves it at the j-th of the readings.
def Rounds (created : List (TimedMessage D)) (clock : List Int64) (sent : List (DataProviderMessage D)) : Prop :=
  sent.length = clock.length ∧ ∀ (j : Nat) (now : Int64), clock[j]? = some now →
    ∃ message, created[j % created.length]? = some message ∧
      sent[j]? = some (message.updateTimestamp now).toDataProviderMessage

theorem rounds_append (created : List (TimedMessage D)) (clock : List Int64) (sent : List (DataProviderMessage D))
    (message : TimedMessage D) (now : Int64) (rounds : Rounds created clock sent)
    (next : created[clock.length % created.length]? = some message) :
    Rounds created (clock ++ [now]) (sent ++ [(message.updateTimestamp now).toDataProviderMessage]) := by
  obtain ⟨length, each⟩ := rounds
  refine ⟨by simp [length], fun j given here => ?_⟩
  by_cases before : j < clock.length
  · rw [List.getElem?_append_left before] at here
    obtain ⟨other, base, same⟩ := each j given here
    exact ⟨other, base, by rw [List.getElem?_append_left (by omega), same]⟩
  · have last : j = clock.length := by
      have bound := (List.getElem?_eq_some_iff.mp here).1
      simp only [List.length_append, List.length_singleton] at bound
      omega
    subst last
    have value : now = given := by simpa using here
    subst value
    exact ⟨message, next, by rw [← length]; simp⟩

def Phase.passed (size : Nat) : Phase → Nat
  | .updating iteration index => size * iteration + index
  | .sending iteration index => size * iteration + index
  | .done => size * NUMBER_OF_MESSAGE_SEND_INTERATIONS
  | _ => 0

def Phase.Inside (size : Nat) : Phase → Prop
  | .updating iteration index => iteration < NUMBER_OF_MESSAGE_SEND_INTERATIONS ∧ index < size
  | .sending iteration index => iteration < NUMBER_OF_MESSAGE_SEND_INTERATIONS ∧ index < size
  | _ => True

theorem passed_bound (size : Nat) (phase : Phase) (inside : phase.Inside size) :
    phase.passed size ≤ size * NUMBER_OF_MESSAGE_SEND_INTERATIONS := by
  have within (iteration index : Nat) (early : iteration < NUMBER_OF_MESSAGE_SEND_INTERATIONS) (low : index < size) :
      size * iteration + index ≤ size * NUMBER_OF_MESSAGE_SEND_INTERATIONS := by
    have step : size * (iteration + 1) ≤ size * NUMBER_OF_MESSAGE_SEND_INTERATIONS := Nat.mul_le_mul_left size early
    rw [Nat.mul_succ] at step
    omega
  cases phase with
  | updating iteration index => exact within iteration index inside.1 inside.2
  | sending iteration index => exact within iteration index inside.1 inside.2
  | done => exact Nat.le_refl _
  | launched => exact Nat.zero_le _
  | broken => exact Nat.zero_le _

theorem first_inside (s : State D) : s.first.Inside s.m_messages.length ∧ s.first.passed s.m_messages.length = 0 := by
  dsimp only [State.first]
  split
  · rename_i empty
    simp [Phase.Inside, Phase.passed, empty]
  · rename_i filled
    exact ⟨⟨by decide, List.length_pos_iff.mpr filled⟩, by simp [Phase.passed]⟩

theorem next_inside (s : State D) (iteration index : Nat) (early : iteration < NUMBER_OF_MESSAGE_SEND_INTERATIONS)
    (low : index < s.m_messages.length) :
    (s.next iteration index).Inside s.m_messages.length ∧
      (s.next iteration index).passed s.m_messages.length = s.m_messages.length * iteration + index + 1 := by
  dsimp only [State.next]
  split
  · rename_i more
    exact ⟨⟨early, more⟩, rfl⟩
  · have last : index + 1 = s.m_messages.length := by omega
    have whole : s.m_messages.length * (iteration + 1) = s.m_messages.length * iteration + index + 1 := by
      rw [Nat.mul_succ]
      omega
    split
    · rename_i again
      exact ⟨⟨again, by omega⟩, by simpa [Phase.passed] using whole⟩
    · have final : iteration + 1 = NUMBER_OF_MESSAGE_SEND_INTERATIONS := by omega
      exact ⟨trivial, (congrArg (s.m_messages.length * ·) final).symm.trans whole⟩

structure Catalog (created : List (TimedMessage D)) (s : State D) : Prop where
  length : s.m_messages.length = created.length
  same : ∀ (m : Nat) (message : TimedMessage D), s.m_messages[m]? = some message →
    ∃ base, created[m]? = some base ∧ ∀ now, message.updateTimestamp now = base.updateTimestamp now

-- A task between its update and its send finds the message stamped by its own
-- update or by a later one of another task.
structure Paced (created : List (TimedMessage D)) (events : List (Step D)) (s : State D) (hdl : Hdl) (phase : Phase)
    (clock : List Int64) : Prop where
  inside : phase.Inside created.length
  rounds : Rounds created clock (published hdl events)
  behind : clock.length ≤ phase.passed created.length
  level : s.m_server.alive hdl = true → clock.length = phase.passed created.length
  read : clock.Sublist (readings events)
  stamped : ∀ iteration index, phase = .sending iteration index →
    ∃ now base, created[index]? = some base ∧ s.m_messages[index]? = some (base.updateTimestamp now) ∧
      (clock ++ [now]).Sublist (readings events)

structure Sound (created : List (TimedMessage D)) (events : List (Step D)) (s : State D) : Prop where
  catalog : Catalog created s
  count : s.m_sendFutures.length = s.m_server.connections.length
  silent : ∀ hdl : Nat, s.m_sendFutures[hdl]? = none → published hdl events = []
  paced : ∀ (hdl : Nat) (task : Task), s.m_sendFutures[hdl]? = some task →
    task.hdl = hdl ∧ ∃ clock, Paced created events s hdl task.phase clock

theorem sound_init (created : List (TimedMessage D)) : Sound created [] (.init created) where
  catalog := ⟨rfl, fun m message here => ⟨message, here, fun now => rfl⟩⟩
  count := rfl
  silent := fun hdl _ => rfl
  paced := fun hdl task found => by simp [State.init] at found

section

variable (created : List (TimedMessage D)) (past : List (Step D)) (s t : State D) (action : Action) (out : List (Output D))

theorem published_snoc (hdl : Hdl) :
    published hdl (past ++ [⟨s, action, out⟩]) = published hdl past ++ sentTo hdl out := by
  simp [published]

theorem readings_snoc : readings (past ++ [⟨s, action, out⟩]) = readings past ++ (reading action).toList := by
  cases action <;> simp [readings, reading]

theorem paced_kept (hdl : Hdl) (phase : Phase) (clock : List Int64) (paced : Paced created past s hdl phase clock)
    (silent : sentTo hdl out = []) (alive : t.m_server.alive hdl = true → s.m_server.alive hdl = true)
    (same : t.m_messages = s.m_messages) : Paced created (past ++ [⟨s, action, out⟩]) t hdl phase clock where
  inside := paced.inside
  rounds := by
    rw [published_snoc, silent, List.append_nil]
    exact paced.rounds
  behind := paced.behind
  level := fun now => paced.level (alive now)
  read := by
    rw [readings_snoc]
    exact paced.read.trans (List.sublist_append_left _ _)
  stamped := by
    intro iteration index sending
    obtain ⟨now, base, here, stamp, before⟩ := paced.stamped iteration index sending
    rw [readings_snoc, same]
    exact ⟨now, base, here, stamp, before.trans (List.sublist_append_left _ _)⟩

theorem restamped_message (catalog : Catalog created s) (m index : Nat) (now : Int64) (message : TimedMessage D)
    (here : (s.m_messages.modify index fun message => message.updateTimestamp now)[m]? = some message) :
    ∃ base, created[m]? = some base ∧ (∀ now, message.updateTimestamp now = base.updateTimestamp now) ∧
      (if m = index then message = base.updateTimestamp now else s.m_messages[m]? = some message) := by
  rw [List.getElem?_modify] at here
  obtain ⟨old, found, rfl⟩ := Option.map_eq_some_iff.mp here
  obtain ⟨base, based, same⟩ := catalog.same m old found
  by_cases this : index = m
  · rw [if_pos this]
    refine ⟨base, based, fun later => ?_, ?_⟩
    · rw [update_twice, same later]
    · rw [if_pos this.symm, same now]
  · rw [if_neg this]
    exact ⟨base, based, same, by rw [if_neg (Ne.symm this)]; exact found⟩

theorem catalog_restamped (catalog : Catalog created s) (index : Nat) (now : Int64)
    (changed : t.m_messages = s.m_messages.modify index fun message => message.updateTimestamp now) :
    Catalog created t where
  length := by rw [changed, List.length_modify, catalog.length]
  same := by
    intro m message here
    rw [changed] at here
    obtain ⟨base, based, same, _⟩ := restamped_message created s catalog m index now message here
    exact ⟨base, based, same⟩

theorem paced_restamped (hdl : Hdl) (before phase : Phase) (clock : List Int64) (i index : Nat) (now : Int64)
    (catalog : Catalog created s) (paced : Paced created past s hdl before clock) (alive : t.m_server = s.m_server)
    (changed : t.m_messages = s.m_messages.modify index fun message => message.updateTimestamp now)
    (inside : phase.Inside created.length) (level : phase.passed created.length = before.passed created.length)
    (next : phase = before ∨ ∃ iteration, phase = .sending iteration index ∧ index < created.length) :
    Paced created (past ++ [⟨s, .update i now, []⟩]) t hdl phase clock where
  inside := inside
  rounds := by
    rw [published_snoc]
    simpa [sentTo] using paced.rounds
  behind := by
    rw [level]
    exact paced.behind
  level := by
    rw [level, alive]
    exact paced.level
  read := by
    rw [readings_snoc]
    exact paced.read.trans (List.sublist_append_left _ _)
  stamped := by
    intro iteration m sending
    rw [readings_snoc]
    by_cases this : m = index
    · have low : m < t.m_messages.length := by
        rw [changed, List.length_modify, catalog.length]
        rcases next with same | ⟨_, _, low⟩
        · rw [sending] at inside
          exact inside.2
        · omega
      obtain ⟨message, here⟩ : ∃ message, t.m_messages[m]? = some message := ⟨_, List.getElem?_eq_getElem low⟩
      have old := here
      rw [changed] at old
      obtain ⟨base, based, _, stamp⟩ := restamped_message created s catalog m index now message old
      rw [if_pos this] at stamp
      exact ⟨now, base, based, by rw [here, stamp], paced.read.append (List.Sublist.refl [now])⟩
    · rcases next with same | ⟨_, same, _⟩
      · rw [same] at sending
        obtain ⟨earlier, base, based, stamp, before_⟩ := paced.stamped iteration m sending
        refine ⟨earlier, base, based, ?_, before_.trans (List.sublist_append_left _ _)⟩
        rw [changed, List.getElem?_modify, stamp]
        simp [Ne.symm this]
      · rw [same] at sending
        cases sending
        exact absurd rfl this

theorem sent_to_one (hdl receiver : Hdl) (alive : Bool) (message : DataProviderMessage D) :
    sentTo hdl (if alive = true then [.send receiver message] else []) =
      if alive = true ∧ receiver = hdl then [message] else [] := by
  cases alive with
  | false => simp [sentTo]
  | true => by_cases same : receiver = hdl <;> simp [sentTo, same]

theorem paced_sent (hdl : Hdl) (clock : List Int64) (iteration index : Nat) (message : TimedMessage D)
    (catalog : Catalog created s) (paced : Paced created past s hdl (.sending iteration index) clock)
    (here : s.m_messages[index]? = some message) (server : t.m_server = s.m_server) :
    ∃ after, Paced created
      (past ++ [⟨s, .send hdl, if s.m_server.alive hdl then [.send hdl message.toDataProviderMessage] else []⟩]) t hdl
      (s.next iteration index) after := by
  obtain ⟨now, base, based, stamp, read⟩ := paced.stamped iteration index rfl
  obtain ⟨early, low⟩ := paced.inside
  have length := catalog.length
  obtain ⟨inside, passed⟩ := next_inside s iteration index early (by omega)
  rw [length] at inside passed
  have updates : ∀ other later, s.next iteration index ≠ .sending other later := by
    intro other later
    dsimp only [State.next]
    split
    · exact fun same => by cases same
    · split <;> exact fun same => by cases same
  by_cases alive : s.m_server.alive hdl = true
  · have level : clock.length = created.length * iteration + index := paced.level alive
    have place : clock.length % created.length = index := by
      rw [level, Nat.mul_add_mod, Nat.mod_eq_of_lt low]
    refine ⟨clock ++ [now], inside, ?_, ?_, fun _ => ?_, ?_, fun other later same => absurd same (updates other later)⟩
    · rw [published_snoc, sent_to_one, if_pos ⟨alive, rfl⟩]
      rw [here] at stamp
      cases stamp
      exact rounds_append created clock _ base now paced.rounds (by rw [place]; exact based)
    · rw [passed, List.length_append, level]
      exact Nat.le_refl _
    · rw [passed, List.length_append, level]
      rfl
    · rw [readings_snoc]
      simpa [reading] using read
  · refine ⟨clock, inside, ?_, ?_, fun still => ?_, ?_, fun other later same => absurd same (updates other later)⟩
    · rw [published_snoc, sent_to_one, if_neg (fun both => alive both.1), List.append_nil]
      exact paced.rounds
    · rw [passed]
      exact Nat.le_succ_of_le paced.behind
    · rw [server] at still
      exact absurd still alive
    · rw [readings_snoc]
      simpa [reading] using paced.read

end

theorem task_set (s : State D) (i hdl : Nat) (to_ before task : Task) (found : s.m_sendFutures[i]? = some before)
    (here : (s.m_sendFutures.set i to_)[hdl]? = some task) :
    (hdl = i ∧ task = to_) ∨ (hdl ≠ i ∧ s.m_sendFutures[hdl]? = some task) := by
  by_cases same : hdl = i
  · subst same
    rw [List.getElem?_set_self (List.getElem?_eq_some_iff.mp found).1] at here
    cases here
    exact Or.inl ⟨rfl, rfl⟩
  · rw [List.getElem?_set_ne (Ne.symm same)] at here
    exact Or.inr ⟨same, here⟩

theorem alive_accepted (s : State D) (hdl : Nat) (known : hdl < s.m_server.connections.length)
    (alive : s.m_server.accept.alive hdl = true) : s.m_server.alive hdl = true := by
  rw [Server.alive_accept] at alive
  rcases Bool.or_eq_true_iff.mp alive with old | new
  · exact old
  · have same : hdl = s.m_server.connections.length := eq_of_beq new
    omega

theorem sound_connected (created : List (TimedMessage D)) (past : List (Step D)) (s : State D)
    (sound : Sound created past s) : Sound created (past ++ [⟨s, .connected, []⟩]) (onConnection s) where
  catalog := ⟨sound.catalog.length, sound.catalog.same⟩
  count := by simp [onConnection, Server.accept, sound.count]
  silent := by
    intro hdl absent
    rw [published_snoc, sound.silent hdl (List.getElem?_eq_none (by
      have beyond := List.getElem?_eq_none_iff.mp absent
      simp only [onConnection, List.length_append, List.length_singleton] at beyond
      omega))]
    rfl
  paced := by
    intro hdl task found
    by_cases known : hdl < s.m_sendFutures.length
    · have old : s.m_sendFutures[hdl]? = some task := by
        rwa [onConnection, List.getElem?_append_left known] at found
      obtain ⟨named, clock, paced⟩ := sound.paced hdl task old
      refine ⟨named, clock, ?_⟩
      exact paced_kept created past s _ _ [] hdl task.phase clock paced rfl
        (alive_accepted s hdl (by rw [← sound.count]; exact known)) rfl
    · have last : hdl = s.m_sendFutures.length := by
        have bound : hdl < (onConnection s).m_sendFutures.length := (List.getElem?_eq_some_iff.mp found).1
        simp only [onConnection, List.length_append, List.length_singleton] at bound
        omega
      subst last
      have new : task = ⟨s.m_server.connections.length, .launched⟩ := by simpa [onConnection] using found.symm
      subst new
      refine ⟨sound.count.symm, [], trivial, ?_, Nat.le_refl _, fun _ => rfl, List.nil_sublist _, ?_⟩
      · rw [published_snoc, sound.silent _ (List.getElem?_eq_none (Nat.le_refl _))]
        exact ⟨rfl, fun j now here => by cases here⟩
      · intro iteration index sending
        cases sending

section

variable (created : List (TimedMessage D)) (past : List (Step D)) (s t : State D) (action : Action) (out : List (Output D))

theorem sound_kept (sound : Sound created past s) (futures : t.m_sendFutures = s.m_sendFutures)
    (messages : t.m_messages = s.m_messages) (count : t.m_server.connections.length = s.m_server.connections.length)
    (alive : ∀ hdl, t.m_server.alive hdl = true → s.m_server.alive hdl = true) :
    Sound created (past ++ [⟨s, action, []⟩]) t where
  catalog := ⟨by rw [messages, sound.catalog.length], by rw [messages]; exact sound.catalog.same⟩
  count := by rw [futures, count, sound.count]
  silent := by
    intro hdl absent
    rw [futures] at absent
    rw [published_snoc, sound.silent hdl absent]
    rfl
  paced := by
    intro hdl task found
    rw [futures] at found
    obtain ⟨named, clock, paced⟩ := sound.paced hdl task found
    exact ⟨named, clock, paced_kept created past s t action [] hdl task.phase clock paced rfl (alive hdl) messages⟩

theorem sound_task (sound : Sound created past s) (i receiver : Nat) (before after : Phase)
    (found : s.m_sendFutures[i]? = some ⟨receiver, before⟩) (catalog : Catalog created t) (server : t.m_server = s.m_server)
    (futures : t.m_sendFutures = s.m_sendFutures.set i ⟨receiver, after⟩) (quiet : ∀ hdl, hdl ≠ i → sentTo hdl out = [])
    (others : ∀ hdl phase clock, hdl ≠ i → Paced created past s hdl phase clock →
      Paced created (past ++ [⟨s, action, out⟩]) t hdl phase clock)
    (own : ∀ clock, Paced created past s i before clock →
      ∃ longer, Paced created (past ++ [⟨s, action, out⟩]) t i after longer) :
    Sound created (past ++ [⟨s, action, out⟩]) t where
  catalog := catalog
  count := by rw [futures, server, List.length_set, sound.count]
  silent := by
    intro hdl absent
    have gone : s.m_sendFutures[hdl]? = none := by simpa [futures] using absent
    have other : hdl ≠ i := by
      rintro rfl
      rw [found] at gone
      cases gone
    rw [published_snoc, sound.silent hdl gone, quiet hdl other]
    rfl
  paced := by
    intro hdl task here
    rw [futures] at here
    rcases task_set s i hdl _ _ task found here with ⟨rfl, rfl⟩ | ⟨other, old⟩
    · obtain ⟨same, clock, paced⟩ := sound.paced hdl _ found
      exact ⟨same, own clock paced⟩
    · obtain ⟨same, clock, paced⟩ := sound.paced hdl task old
      exact ⟨same, clock, others hdl task.phase clock other paced⟩

theorem paced_started (hdl : Hdl) (phase : Phase) (clock : List Int64) (catalog : Catalog created s)
    (paced : Paced created past s hdl .launched clock) (server : t.m_server = s.m_server)
    (messages : t.m_messages = s.m_messages) (begins : phase = s.first ∨ phase = .broken) :
    Paced created (past ++ [⟨s, action, []⟩]) t hdl phase clock := by
  have kept := paced_kept created past s t action [] hdl .launched clock paced rfl (by rw [server]; exact id) messages
  have none_ : clock = [] := List.eq_nil_of_length_eq_zero (Nat.le_zero.mp paced.behind)
  have begun : phase.Inside created.length ∧ phase.passed created.length = 0 := by
    rw [← catalog.length]
    rcases begins with rfl | rfl
    · exact first_inside s
    · exact ⟨trivial, rfl⟩
  refine ⟨begun.1, kept.rounds, by rw [none_]; exact Nat.zero_le _, fun _ => ?_, kept.read, ?_⟩
  · rw [begun.2, none_]
    rfl
  · intro iteration index sending
    rcases begins with rfl | rfl
    · dsimp only [State.first] at sending
      split at sending <;> cases sending
    · cases sending

end

theorem sound_step (created : List (TimedMessage D)) (past : List (Step D)) (s t : State D) (action : Action)
    (out : List (Output D)) (sound : Sound created past s) (taken : step s action = some (t, out)) :
    Sound created (past ++ [⟨s, action, out⟩]) t := by
  cases step_transition s t action out taken with
  | connected => exact sound_connected created past s sound
  | disconnected gone alive =>
      refine sound_kept created past s _ _ sound rfl rfl (by simp [Server.drop]) fun hdl still => ?_
      rw [Server.alive_drop, Bool.and_eq_true_iff] at still
      exact still.1
  | printed gone payload => exact sound_kept created past s s _ sound rfl rfl rfl fun _ => id
  | started i receiver found =>
      refine sound_task created past s _ _ [] sound i receiver _ _ found ⟨sound.catalog.length, sound.catalog.same⟩ rfl rfl
        (fun _ _ => rfl) (fun hdl phase clock _ paced => ?_) fun clock paced => ⟨clock, ?_⟩
      · exact paced_kept created past s _ _ [] hdl phase clock paced rfl id rfl
      · refine paced_started created past s _ _ i _ clock sound.catalog paced rfl rfl ?_
        split
        · exact Or.inl rfl
        · exact Or.inr rfl
  | updated i now receiver iteration index found =>
      refine sound_task created past s _ _ [] sound i receiver _ _ found
        (catalog_restamped created s _ sound.catalog index now rfl) rfl rfl (fun _ _ => rfl)
        (fun hdl phase clock _ paced => ?_) fun clock paced => ⟨clock, ?_⟩
      · exact paced_restamped created past s _ hdl phase phase clock i index now sound.catalog paced rfl rfl paced.inside
          rfl (Or.inl rfl)
      · exact paced_restamped created past s _ i _ _ clock i index now sound.catalog paced rfl rfl paced.inside rfl
          (Or.inr ⟨iteration, rfl, paced.inside.2⟩)
  | sent i receiver iteration index message found at_ =>
      have mine : receiver = i := (sound.paced i _ found).1
      subst mine
      have apart (hdl : Hdl) (other : hdl ≠ receiver) : sentTo hdl (if s.m_server.alive receiver = true then
          [Output.send receiver message.toDataProviderMessage] else []) = [] := by
        rw [sent_to_one, if_neg (fun both => other both.2.symm)]
      refine sound_task created past s _ _ _ sound receiver _ _ _ found ⟨sound.catalog.length, sound.catalog.same⟩ rfl rfl
        apart (fun hdl phase clock other paced => ?_) fun clock paced => ?_
      · exact paced_kept created past s _ _ _ hdl phase clock paced (apart hdl other) id rfl
      · exact paced_sent created past s _ receiver clock iteration index message sound.catalog paced at_ rfl

theorem path_sound (created : List (TimedMessage D)) (events : List (Step D)) (s : State D)
    (path : provider.Path (.init created) events s) : Sound created events s :=
  provider.path_history (.init created) (Sound created) (sound_init created)
    (fun past s action t out _ sound taken => sound_step created past s t action out sound taken) events s path

theorem messages_length (fp : Doubles D) (boot : Nat → Int64) : (messages fp boot).length = 5 := rfl

theorem sound_rounds (fp : Doubles D) (boot : Nat → Int64) (events : List (Step D)) (s : State D) (hdl : Hdl)
    (sound : Sound (messages fp boot) events s) :
    ∃ clock, clock.Sublist (readings events) ∧ clock.length ≤ 500 ∧
      Rounds (messages fp boot) clock (published hdl events) := by
  cases found : s.m_sendFutures[hdl]? with
  | none =>
      rw [sound.silent hdl found]
      exact ⟨[], List.nil_sublist _, Nat.zero_le _, rfl, fun j now here => by cases here⟩
  | some task =>
      obtain ⟨_, clock, paced⟩ := sound.paced hdl task found
      have bound := Nat.le_trans paced.behind (passed_bound _ _ paced.inside)
      rw [messages_length] at bound
      exact ⟨clock, paced.read, bound, paced.rounds⟩

theorem provider_rounds (fp : Doubles D) (boot : Nat → Int64) (events : List (Step D)) (s : State D) (hdl : Hdl)
    (path : provider.Path (.init (messages fp boot)) events s) :
    ∃ clock, clock.Sublist (readings events) ∧ clock.length ≤ 500 ∧
      Rounds (messages fp boot) clock (published hdl events) :=
  sound_rounds fp boot events s hdl (path_sound (messages fp boot) events s path)

def twoTasks : List Action :=
  [.connected, .connected, .start 0, .start 1, .update 0 7, .update 1 9, .send 0, .send 1, .disconnected 1, .update 1 12,
    .send 1]

theorem provider_rounds_two : ∃ (events : List (Step Int)) (clock : List Int64),
    events.map Event.action = twoTasks ∧ clock.Sublist (readings events) ∧ clock.length ≤ 500 ∧
      Rounds (messages Doubles.micro fun _ => 3) clock (published 0 events) := by
  obtain ⟨s, log, ran, _⟩ := (provider (D := Int)).run_check (.init (messages Doubles.micro fun _ => 3)) twoTasks
    (fun _ => true) (by decide +kernel)
  obtain ⟨events, path, actions, _⟩ := provider.run_path _ s twoTasks log ran
  obtain ⟨clock, rounds⟩ := provider_rounds Doubles.micro (fun _ => 3) events s 0 path
  exact ⟨events, clock, actions, rounds⟩

end TradingFeed.DataProvider
