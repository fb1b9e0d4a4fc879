import TradingFeed.Broadcaster.Repost
import TradingFeed.Library.Walks

set_option autoImplicit false

namespace TradingFeed.Broadcaster

open TradingFeed.Json TradingFeed.Sockets

variable {D : Type}

-- A data callback that has read m_clearedPrices as set. Its iterator stands on the
-- last of the symbols it has posted; `ended` is the end of its loop.
structure Reposting (D : Type) where
  sub : Subscription
  status : JSON D
  seen : List Text
  ended : Bool

-- The Broadcaster with the callback taken apart. One call is enough: an EndPoint
-- is made once the one before has been joined, and each has one thread.
structure Interleaved (D : Type) where
  shared : State D
  call : Option (Reposting D)

def Interleaved.init : Interleaved D := ⟨.init, none⟩

-- A callback that posts reads the flag, posts one symbol after the other, comes to
-- the end of the set and resets the flag. All else is a step of the Broadcaster.
inductive Move where
  | whole (action : Action)
  | test (conn : Conn) (data : Text)
  | post
  | finish
  | reset

def byEndPoint : Action → Bool
  | .opened _ | .silenced _ | .failed _ | .lost _ | .closed _ | .received _ _ => true
  | _ => false

def reposts (p : Platform D) (s : State D) (action : Action) : Bool := handles p s action && s.m_clearedPrices

-- What the callback does behind its loop is for the thread of the EndPoint alone.
def resetCall (call : Reposting D) (s : State D) : State D × List (Output D) :=
  deliver call.sub call.status { s with m_clearedPrices := false }

def interleave (p : Platform D) (s : Interleaved D) (move : Move) : Option (Interleaved D × List (Output D)) :=
  if s.shared.fault.isSome then none
  else
    match move, s.call with
    | .whole action, call =>
        if reposts p s.shared action || (call.isSome && byEndPoint action) then none
        else (step p s.shared action).map fun (t, out) => (⟨t, call⟩, out)
    | .test conn data, none =>
        match s.shared.handsTo p conn data, load p.fp data with
        | some sub, .ok status =>
            if reposts p s.shared (.received conn data) then some (⟨s.shared, some ⟨sub, status, [], false⟩⟩, [])
            else none
        | _, _ => none
    | .post, some call =>
        if call.ended then none
        else
          (Library.following call.seen s.shared.m_symbols).map fun symbol =>
            (⟨s.shared, some { call with seen := call.seen ++ [symbol] }⟩, [.postSymbol symbol])
    | .finish, some call =>
        if call.ended || (Library.following call.seen s.shared.m_symbols).isSome then none
        else some (⟨s.shared, some { call with ended := true }⟩, [])
    | .reset, some call =>
        if call.ended then some (⟨(resetCall call s.shared).1, none⟩, (resetCall call s.shared).2) else none
    | _, _ => none

def interleaved (p : Platform D) : Library.System (Interleaved D) Move (List (Output D)) := ⟨interleave p⟩

inductive Moves (p : Platform D) (s : Interleaved D) : Move → Interleaved D → List (Output D) → Prop where
  | whole (action : Action) (t : State D) (out : List (Output D)) (plain : reposts p s.shared action = false)
      (free : s.call = none ∨ byEndPoint action = false) (taken : step p s.shared action = some (t, out)) :
      Moves p s (.whole action) ⟨t, s.call⟩ out
  | test (conn : Conn) (data : Text) (sub : Subscription) (status : JSON D) (free : s.call = none)
      (raised : reposts p s.shared (.received conn data) = true) (handed : s.shared.handsTo p conn data = some sub)
      (loaded : load p.fp data = .ok status) :
      Moves p s (.test conn data) ⟨s.shared, some ⟨sub, status, [], false⟩⟩ []
  | post (call : Reposting D) (symbol : Text) (running : s.call = some call) (looping : call.ended = false)
      (found : Library.following call.seen s.shared.m_symbols = some symbol) :
      Moves p s .post ⟨s.shared, some { call with seen := call.seen ++ [symbol] }⟩ [.postSymbol symbol]
  | finish (call : Reposting D) (running : s.call = some call) (looping : call.ended = false)
      (ended : Library.following call.seen s.shared.m_symbols = none) :
      Moves p s .finish ⟨s.shared, some { call with ended := true }⟩ []
  | reset (call : Reposting D) (running : s.call = some call) (ended : call.ended = true) :
      Moves p s .reset ⟨(resetCall call s.shared).1, none⟩ (resetCall call s.shared).2

theorem interleave_moves (p : Platform D) (s t : Interleaved D) (move : Move) (out : List (Output D))
    (taken : interleave p s move = some (t, out)) : s.shared.fault = none ∧ Moves p s move t out := by
  obtain ⟨shared, call⟩ := s
  dsimp only [interleave] at taken
  cases sound : shared.fault with
  | some fault => simp [sound] at taken
  | none =>
      refine ⟨rfl, ?_⟩
      rw [if_neg (by simp [sound])] at taken
      cases move with
      | whole action =>
          obtain ⟨clear, stepped⟩ := Option.ite_none_left_eq_some.mp taken
          obtain ⟨plain, free⟩ := not_or.mp (fun either => clear (Bool.or_eq_true_iff.mpr either))
          obtain ⟨⟨next, seen⟩, done, same⟩ := Option.map_eq_some_iff.mp stepped
          cases same
          refine .whole action next seen (Bool.eq_false_iff.mpr plain) ?_ done
          cases call with
          | none => exact Or.inl rfl
          | some running => exact Or.inr (Bool.eq_false_iff.mpr free)
      | test conn data =>
          cases call with
          | some running => cases taken
          | none =>
              dsimp only at taken
              split at taken
              · rename_i sub status handed loaded
                obtain ⟨raised, same⟩ := Option.ite_none_right_eq_some.mp taken
                cases same
                exact .test conn data sub status rfl raised handed loaded
              · cases taken
      | post =>
          cases call with
          | none => cases taken
          | some running =>
              obtain ⟨looping, stepped⟩ := Option.ite_none_left_eq_some.mp taken
              obtain ⟨symbol, found, same⟩ := Option.map_eq_some_iff.mp stepped
              cases same
              exact .post running symbol rfl (Bool.eq_false_iff.mpr looping) found
      | finish =>
          cases call with
          | none => cases taken
          | some running =>
              obtain ⟨clear, same⟩ := Option.ite_none_left_eq_some.mp taken
              obtain ⟨looping, ended⟩ := not_or.mp (fun either => clear (Bool.or_eq_true_iff.mpr either))
              cases same
              exact .finish running rfl (Bool.eq_false_iff.mpr looping) (Option.not_isSome_iff_eq_none.mp ended)
      | reset =>
          cases call with
          | none => cases taken
          | some running =>
              obtain ⟨ended, same⟩ := Option.ite_none_right_eq_some.mp taken
              cases same
              exact .reset running rfl ended

theorem interleave_whole (p : Platform D) (s t : State D) (action : Action) (out : List (Output D))
    (plain : reposts p s action = false) (taken : step p s action = some (t, out)) :
    interleave p ⟨s, none⟩ (.whole action) = some (⟨t, none⟩, out) := by
  have sound := (step_transition p s t action out taken).1
  simp [interleave, sound, plain, taken]

theorem interleaved_posts (p : Platform D) (s : State D) (sub : Subscription) (status : JSON D) (seen rest : List Text)
    (sound : s.fault = none) (whole : s.m_symbols.toList = seen ++ rest) :
    (interleaved p).run ⟨s, some ⟨sub, status, seen, false⟩⟩ (rest.map fun _ => .post) =
      some (⟨s, some ⟨sub, status, seen ++ rest, false⟩⟩, rest.map fun symbol => [.postSymbol symbol]) := by
  induction rest generalizing seen with
  | nil => simp [Library.System.run]
  | cons symbol rest ih =>
      have found := Library.following_next seen rest s.m_symbols symbol whole
      have taken : interleave p ⟨s, some ⟨sub, status, seen, false⟩⟩ .post =
          some (⟨s, some ⟨sub, status, seen ++ [symbol], false⟩⟩, [.postSymbol symbol]) := by
        simp [interleave, sound, found]
      have later := ih (seen ++ [symbol]) (by simpa using whole)
      rw [List.append_assoc] at later
      exact ((interleaved p).run_cons _ _ _ _ _).mpr ⟨_, _, _, taken, later, rfl⟩

theorem handles_handed (p : Platform D) (s : State D) (conn : Conn) (data : Text) (sub : Subscription)
    (handled : handles p s (.received conn data) = true) (handed : s.handsTo p conn data = some sub) :
    s.m_server.alive sub.hdl = true ∧
      (sub.channel = "broadcast".toList ∨ sub.channel = "latest-price".toList) := by
  simp only [handles, callbackOn, handed] at handled
  rcases Bool.or_eq_true_iff.mp handled with same | same
  · obtain ⟨alive, channel⟩ := Option.ite_none_right_eq_some.mp (of_decide_eq_true same)
    exact ⟨alive, Or.inl (Option.some.inj channel)⟩
  · obtain ⟨alive, channel⟩ := Option.ite_none_right_eq_some.mp (of_decide_eq_true same)
    exact ⟨alive, Or.inr (Option.some.inj channel)⟩

theorem deliver_raised (sub : Subscription) (status : JSON D) (s : State D) (raised : s.m_clearedPrices = true)
    (channel : sub.channel = "broadcast".toList ∨ sub.channel = "latest-price".toList) :
    deliver sub status s =
      ((deliver sub status { s with m_clearedPrices := false }).1,
        s.m_symbols.toList.map .postSymbol ++ (deliver sub status { s with m_clearedPrices := false }).2) := by
  dsimp only [deliver, repost]
  rw [raised]
  rcases channel with same | same
  · simp [same]
  · simp [same]

-- A callback that nothing comes between: its read, its posts and its reset are
-- the one step of the Broadcaster.
theorem interleaved_call (p : Platform D) (s : State D) (conn : Conn) (data : Text) (sub : Subscription)
    (status : JSON D) (sound : s.fault = none) (raised : reposts p s (.received conn data) = true)
    (handed : s.handsTo p conn data = some sub) (loaded : load p.fp data = .ok status) :
    ∃ moves log, (interleaved p).run ⟨s, none⟩ moves = some (⟨(deliver sub status s).1, none⟩, log) ∧
      log.flatten = (deliver sub status s).2 := by
  obtain ⟨handled, cleared⟩ := Bool.and_eq_true_iff.mp raised
  have atomic := deliver_raised sub status s cleared (handles_handed p s conn data sub handled handed).2
  have tested : interleave p ⟨s, none⟩ (.test conn data) = some (⟨s, some ⟨sub, status, [], false⟩⟩, []) := by
    simp [interleave, sound, raised, handed, loaded]
  have looped := interleaved_posts p s sub status [] s.m_symbols.toList sound rfl
  have ended : interleave p ⟨s, some ⟨sub, status, s.m_symbols.toList, false⟩⟩ .finish =
      some (⟨s, some ⟨sub, status, s.m_symbols.toList, true⟩⟩, []) := by
    simp [interleave, sound, Library.following_end]
  have lowered : interleave p ⟨s, some ⟨sub, status, s.m_symbols.toList, true⟩⟩ .reset =
      some (⟨(deliver sub status { s with m_clearedPrices := false }).1, none⟩,
        (deliver sub status { s with m_clearedPrices := false }).2) := by
    simp [interleave, sound, resetCall]
  have closing := ((interleaved p).run_cons _ _ .finish [.reset] _).mpr
    ⟨_, _, _, ended, ((interleaved p).run_single _ _ .reset _).mpr ⟨_, lowered, rfl⟩, rfl⟩
  have calling := (interleaved p).run_trans _ _ _ _ _ _ _ looped closing
  have ran := ((interleaved p).run_cons _ _ (.test conn data) _ _).mpr ⟨_, _, _, tested, calling, rfl⟩
  have singles : (s.m_symbols.toList.map fun symbol => [(.postSymbol symbol : Output D)]).flatten =
      s.m_symbols.toList.map .postSymbol := by
    rw [← List.flatMap_def, List.map_eq_flatMap]
  rw [atomic]
  exact ⟨_, _, ran, by simp [singles]⟩

theorem reposts_received (p : Platform D) (s : State D) (action : Action) (raised : reposts p s action = true) :
    ∃ conn data sub status, action = .received conn data ∧ s.handsTo p conn data = some sub ∧
      load p.fp data = .ok status := by
  have handled := (Bool.and_eq_true_iff.mp raised).1
  cases action with
  | received conn data =>
      cases handed : s.handsTo p conn data with
      | none => simp [handles, callbackOn, handed] at handled
      | some sub =>
          obtain ⟨_, status, loaded⟩ := (hands_to_some p s conn data sub).mp handed
          exact ⟨conn, data, sub, status, rfl, handed, loaded⟩
  | _ => exact absurd handled (by simp [handles, callbackOn])

theorem interleaved_step (p : Platform D) (s t : State D) (action : Action) (out : List (Output D))
    (taken : step p s action = some (t, out)) :
    ∃ moves log, (interleaved p).run ⟨s, none⟩ moves = some (⟨t, none⟩, log) ∧ log.flatten = out := by
  cases raised : reposts p s action with
  | false =>
      have moved := interleave_whole p s t action out raised taken
      exact ⟨_, _, ((interleaved p).run_single _ _ (.whole action) _).mpr ⟨_, moved, rfl⟩, by simp⟩
  | true =>
      obtain ⟨conn, data, sub, status, rfl, handed, loaded⟩ := reposts_received p s action raised
      have sound := (step_transition p s t _ out taken).1
      have handled := (Bool.and_eq_true_iff.mp raised).1
      obtain ⟨force, _⟩ := (hands_to_some p s conn data sub).mp handed
      have alive := (handles_handed p s conn data sub handled handed).1
      have atomic := step_received_ok p s conn sub data status sound force alive loaded
      have same : deliver sub status s = (t, out) := Option.some.inj (atomic.symm.trans taken)
      have called := interleaved_call p s conn data sub status sound raised handed loaded
      rw [same] at called
      exact called

theorem interleaved_run (p : Platform D) (actions : List Action) (s t : State D) (log : List (List (Output D)))
    (ran : (broadcaster p).run s actions = some (t, log)) :
    ∃ moves fine, (interleaved p).run ⟨s, none⟩ moves = some (⟨t, none⟩, fine) ∧ fine.flatten = log.flatten := by
  induction actions generalizing s log with
  | nil =>
      obtain ⟨rfl, rfl⟩ := ((broadcaster p).run_nil s t log).mp ran
      exact ⟨[], [], rfl, rfl⟩
  | cons action rest ih =>
      obtain ⟨next, out, tail, taken, later, rfl⟩ := ((broadcaster p).run_cons s t action rest log).mp ran
      obtain ⟨first, head, began, same⟩ := interleaved_step p s next action out taken
      obtain ⟨moves, fine, finished, equal⟩ := ih next tail later
      refine ⟨first ++ moves, head ++ fine, (interleaved p).run_trans _ _ _ _ _ _ _ began finished, ?_⟩
      rw [List.flatten_append, same, equal, List.flatten_cons]

theorem command_symbols (p : Platform D) (s : State D) (hdl : Hdl) (payload : Text) (request : JSON D) :
    ∀ symbol ∈ s.m_symbols, symbol ∈ (command p s hdl payload request).1.m_symbols := by
  intro symbol member
  dsimp only [command]
  split
  · rw [(steady_add_aggregator p s hdl request).symbols]
    exact member
  · split
    · rw [(steady_clear_aggregator s hdl).symbols]
      exact member
    · split
      · dsimp only [handleAddProvider]
        split
        · exact member
        · exact Std.TreeSet.mem_insertMany_list.mpr (Or.inl member)
      · split
        · exact member
        · split <;> exact member

theorem symbols_grow (p : Platform D) (s t : State D) (action : Action) (out : List (Output D))
    (taken : step p s action = some (t, out)) : ∀ symbol ∈ s.m_symbols, symbol ∈ t.m_symbols := by
  have same (u : State D) (kept : u.m_symbols = s.m_symbols) : ∀ symbol ∈ s.m_symbols, symbol ∈ u.m_symbols :=
    fun symbol member => kept ▸ member
  obtain ⟨_, transition⟩ := step_transition p s t action out taken
  cases transition with
  | handled hdl payload request =>
      obtain ⟨tasks, launched, _⟩ := subscribe_part_same p s hdl request
      have grown := command_symbols p (subscribePart p s hdl request) hdl payload request
      rw [launched] at grown ⊢
      exact grown
  | added call => exact same _ (steady_wake_adding p s call).symbols
  | deleted e rest => exact same _ (steady_destroy s rest).symbols
  | joined e rest => exact same _ (steady_destroy _ rest).symbols
  | delivered conn data handler sub status => exact same _ (deliver_registry sub status s).symbols
  | _ => exact same _ rfl

-- What is known of the past. `due`: prices have been cleared since the last
-- handled message read the flag. `flagged`: clear-providers has been asked for
-- since a handled message last reset the flag or found it unset. The others are
-- both of these, and the symbols, as the running callback found them at its read.
structure Watch where
  due : Bool
  flagged : Bool
  wasDue : Bool
  wasFlagged : Bool
  present : List Text

def Watch.init : Watch := ⟨false, false, false, false, []⟩

def watch (p : Platform D) (s : Interleaved D) (move : Move) (past : Watch) : Watch :=
  match move with
  | .whole action =>
      { past with
        due := clearedBehind "clear-prices".toList p s.shared past.due action
        flagged := clearedBehind "clear-providers".toList p s.shared past.flagged action }
  | .test _ _ =>
      { past with
        due := false, wasDue := past.due, wasFlagged := past.flagged, present := s.shared.m_symbols.toList }
  | .reset => { past with flagged := false }
  | _ => past

-- The first message handled after prices were cleared posts every symbol that
-- stands in the set at its read, and none twice, before its data is delivered;
-- no other message posts any.
def PostsOnce (p : Platform D) (now : Interleaved D × Watch) (move : Move) : Prop :=
  ∀ next out, interleave p now.1 move = some (next, out) →
    match move with
    | .whole action =>
        posted out = [] ∧ (handles p now.1.shared action = true → now.2.due = true → now.1.shared.m_symbols.toList = [])
    | .post =>
        now.2.wasDue = true ∧ ∃ call symbol, now.1.call = some call ∧ posted out = [symbol] ∧
          symbol ∈ now.1.shared.m_symbols ∧ symbol ∉ call.seen
    | .reset =>
        posted out = [] ∧ ∃ call, now.1.call = some call ∧
          (now.2.wasDue = true → ∀ symbol ∈ now.2.present, symbol ∈ call.seen)
    | _ => posted out = []

-- At every handled message with a symbol to post, clear-prices has been asked for
-- since the last one read the flag exactly if clear-providers has been asked for
-- since one last reset it.
def ClearsAgree (p : Platform D) (now : Interleaved D × Watch) (move : Move) : Prop :=
  ∀ next out, interleave p now.1 move = some (next, out) →
    match move with
    | .whole action =>
        handles p now.1.shared action = true → now.1.shared.m_symbols.toList ≠ [] → now.2.due = now.2.flagged
    | .post => now.2.wasDue = now.2.wasFlagged
    | _ => True

structure Tracks (now : Interleaved D × Watch) : Prop where
  flagged : now.2.flagged = now.1.shared.m_clearedPrices
  raised : ∀ call, now.1.call = some call → now.2.wasFlagged = true
  channel : ∀ call, now.1.call = some call →
    call.sub.channel = "broadcast".toList ∨ call.sub.channel = "latest-price".toList
  walks : ∀ call, now.1.call = some call → call.ended = false →
    Library.Walks now.2.present call.seen now.1.shared.m_symbols
  walked : ∀ call, now.1.call = some call → call.ended = true → ∀ symbol ∈ now.2.present, symbol ∈ call.seen

theorem tracks_free (shared : State D) (past : Watch) (flagged : past.flagged = shared.m_clearedPrices) :
    Tracks (⟨shared, none⟩, past) := by
  constructor
  · exact flagged
  all_goals
    intro call running
    cases running

theorem posted_free (outputs : List (Output D)) (free : ∀ output ∈ outputs, isPost output = false) :
    posted outputs = [] := by
  refine List.filterMap_eq_nil_iff.mpr fun output member => ?_
  have off := free output member
  cases output with
  | postSymbol symbol => cases off
  | _ => rfl

theorem reset_quiet (call : Reposting D) (s : State D)
    (channel : call.sub.channel = "broadcast".toList ∨ call.sub.channel = "latest-price".toList) :
    (resetCall call s).1.m_clearedPrices = false ∧ posted (resetCall call s).2 = [] := by
  obtain ⟨lowered, rest, same, free⟩ := deliver_handled call.sub call.status { s with m_clearedPrices := false } channel
  refine ⟨lowered, ?_⟩
  dsimp only [resetCall]
  rw [same]
  exact posted_free rest free

theorem plain_quiet (p : Platform D) (s t : State D) (action : Action) (out : List (Output D))
    (plain : reposts p s action = false) (taken : step p s action = some (t, out)) : posted out = [] := by
  obtain ⟨rest, free, same⟩ := (step_posts p s t action out taken).posts
  dsimp only [reposts] at plain
  rw [plain] at same
  rw [same]
  exact posted_free rest free

theorem tracks_whole (p : Platform D) (s : Interleaved D) (past : Watch) (action : Action) (t : State D)
    (out : List (Output D)) (tracks : Tracks (s, past)) (taken : step p s.shared action = some (t, out)) :
    Tracks (⟨t, s.call⟩, watch p s (.whole action) past) where
  flagged := by
    have flag := (step_posts p s.shared t action out taken).flag
    rw [flag, ← tracks.flagged]
    rfl
  raised := tracks.raised
  channel := tracks.channel
  walks := fun call running looping =>
    Library.walks_grow _ _ _ _ (symbols_grow p s.shared t action out taken) (tracks.walks call running looping)
  walked := tracks.walked

theorem tracks_move (p : Platform D) (now later : Interleaved D × Watch) (move : Move) (out : List (Output D))
    (tracks : Tracks now) (taken : ((interleaved p).recorded (watch p)).step now move = some (later, out)) :
    Tracks later := by
  obtain ⟨s, past⟩ := now
  obtain ⟨t, after⟩ := later
  obtain ⟨stepped, rfl⟩ := ((interleaved p).recorded_step (watch p) s t past after move out).mp taken
  obtain ⟨_, moved⟩ := interleave_moves p s t move out stepped
  cases moved with
  | whole action t out plain free done => exact tracks_whole p s past action t out tracks done
  | test conn data sub status free raised handed =>
      obtain ⟨handled, cleared⟩ := Bool.and_eq_true_iff.mp raised
      refine ⟨tracks.flagged, ?_, ?_, ?_, ?_⟩
      · exact fun _ _ => tracks.flagged.trans cleared
      · rintro call ⟨⟩
        exact (handles_handed p s.shared conn data sub handled handed).2
      · rintro call ⟨⟩ _
        exact Library.walks_start s.shared.m_symbols
      · rintro call ⟨⟩ ended
        cases ended
  | post call symbol running looping found =>
      refine ⟨tracks.flagged, fun _ _ => tracks.raised call running, ?_, ?_, ?_⟩
      · rintro next ⟨⟩
        exact tracks.channel call running
      · rintro next ⟨⟩ _
        exact (Library.walks_next _ _ _ symbol (tracks.walks call running looping) found).1
      · rintro next ⟨⟩ ended
        exact absurd (looping.symm.trans ended) Bool.false_ne_true
  | finish call running looping ended =>
      refine ⟨tracks.flagged, fun _ _ => tracks.raised call running, ?_, ?_, ?_⟩
      · rintro next ⟨⟩
        exact tracks.channel call running
      · rintro next ⟨⟩ again
        cases again
      · rintro next ⟨⟩ _
        exact Library.walks_end _ _ _ (tracks.walks call running looping) ended
  | reset call running ended => exact tracks_free _ _ (reset_quiet call s.shared (tracks.channel call running)).1.symm

theorem posts_once_agree (p : Platform D) (now : Interleaved D × Watch) (move : Move) (tracks : Tracks now) :
    PostsOnce p now move ↔ ClearsAgree p now move := by
  refine forall_congr' fun next => forall_congr' fun out => forall_congr' fun taken => ?_
  obtain ⟨s, past⟩ := now
  obtain ⟨_, moved⟩ := interleave_moves p s next move out taken
  cases moved with
  | whole action t out plain free done =>
      have quiet := plain_quiet p s.shared t action out plain done
      have unset (handled : handles p s.shared action = true) : past.flagged = false := by
        dsimp only [reposts] at plain
        rw [handled, Bool.true_and] at plain
        exact tracks.flagged.trans plain
      constructor
      · rintro ⟨_, empty⟩ handled present
        cases due : past.due with
        | false => exact (unset handled).symm
        | true => exact absurd (empty handled due) present
      · refine fun agrees => ⟨quiet, fun handled due => ?_⟩
        by_contra present
        have raised : past.flagged = true := (agrees handled present).symm.trans due
        exact Bool.false_ne_true ((unset handled).symm.trans raised)
  | test conn data sub status free raised => exact ⟨fun _ => trivial, fun _ => rfl⟩
  | post call symbol running looping found =>
      obtain ⟨_, member, fresh⟩ := Library.walks_next _ _ _ symbol (tracks.walks call running looping) found
      have raised : past.wasFlagged = true := tracks.raised call running
      constructor
      · exact fun served => served.1.trans raised.symm
      · exact fun same => ⟨same.trans raised, call, symbol, running, rfl, member, fresh⟩
  | finish => exact ⟨fun _ => trivial, fun _ => rfl⟩
  | reset call running ended =>
      refine ⟨fun _ => trivial, fun _ => ⟨(reset_quiet call s.shared (tracks.channel call running)).2, call, running, ?_⟩⟩
      exact fun _ => tracks.walked call running ended

theorem reposts_once_iff (p : Platform D) (moves : List Move) :
    ((interleaved p).recorded (watch p)).Along (PostsOnce p) (.init, .init) moves ↔
      ((interleaved p).recorded (watch p)).Along (ClearsAgree p) (.init, .init) moves := by
  refine Library.System.along_iff _ (PostsOnce p) (ClearsAgree p) Tracks ?_ ?_ moves _ (tracks_free .init .init rfl)
  · exact fun now move later out tracks taken => tracks_move p now later move out tracks taken
  · exact fun now move tracks => posts_once_agree p now move tracks

def clearedRun : List Action :=
  subscribedRun ++
    [.message 0 "\x7b\"action\":\"add-provider\",\"symbols\":[\"EURUSD\"]\x7d".toList,
      .message 0 "\x7b\"action\":\"clear-prices\"\x7d".toList, .received ⟨0, 0⟩ priceText]

def clearedMoves : List Move := clearedRun.map .whole

theorem cleared_prices_not_reposted :
    ¬ ((interleaved .plain).recorded (watch .plain)).Along (PostsOnce .plain) (.init, .init) clearedMoves ∧
      ∃ s log, (interleaved .plain).run .init clearedMoves = some (s, log) ∧ s.shared.fault = none ∧
        s.shared.m_symbols.toList = ["EURUSD".toList] ∧ posted log.flatten = [] := by
  constructor
  · intro served
    obtain ⟨now, log, ran, checked⟩ := ((interleaved .plain).recorded (watch .plain)).run_check (.init, .init)
      clearedMoves.dropLast (fun done =>
        (interleave .plain done.1.1 (.whole (.received ⟨0, 0⟩ priceText))).isSome ∧
          handles .plain done.1.1.shared (.received ⟨0, 0⟩ priceText) = true ∧ done.1.2.due = true ∧
            done.1.1.shared.m_symbols.toList ≠ []) (by decide +kernel)
    obtain ⟨taken, handled, due, present⟩ := of_decide_eq_true checked
    obtain ⟨⟨next, out⟩, taken⟩ := Option.isSome_iff_exists.mp taken
    have last : clearedMoves = clearedMoves.dropLast ++ [.whole (.received ⟨0, 0⟩ priceText)] := rfl
    rw [last] at served
    have here := (Library.System.along_snoc _ (PostsOnce .plain) _ now _ _ log served ran).2
    exact present ((here next out taken).2 handled due)
  · obtain ⟨s, log, ran, checked⟩ := (interleaved .plain).run_check .init clearedMoves
      (fun done => done.1.shared.fault = none ∧ done.1.shared.m_symbols.toList = ["EURUSD".toList] ∧
        posted done.2.flatten = []) (by decide +kernel)
    exact ⟨s, log, ran, of_decide_eq_true checked⟩

def clearPayloads : List Text :=
  ["\x7b\"action\":\"clear-providers\"\x7d".toList, "\x7b\"action\":\"clear-prices\"\x7d".toList]

-- Both commands between the end of the loop and the reset: the clear is lost, and
-- the next message finds the flag unset.
def lostMoves : List Move :=
  clearedRun.dropLast.map .whole ++ clearPayloads.map (fun payload => .whole (.message 0 payload)) ++
    [.test ⟨0, 0⟩ priceText, .post, .finish] ++ clearPayloads.map (fun payload => .whole (.message 0 payload)) ++
    [.reset, .whole (.received ⟨0, 0⟩ priceText)]

example : ((interleaved .plain).run .init lostMoves).map (fun done => posted done.2.flatten) =
    some ["EURUSD".toList] := by decide +kernel

end TradingFeed.Broadcaster
