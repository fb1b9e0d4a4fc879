import TradingFeed.Broadcaster.Delivery

set_option autoImplicit false

namespace TradingFeed.Broadcaster

open TradingFeed.Json TradingFeed.Sockets

variable {D : Type}

def callbackOn (p : Platform D) (s : State D) : Action → Option Text
  | .received conn data =>
      match s.handsTo p conn data with
      | some sub => if s.m_server.alive sub.hdl then some sub.channel else none
      | none => none
  | _ => none

def handles (p : Platform D) (s : State D) (action : Action) : Bool :=
  callbackOn p s action = some "broadcast".toList || callbackOn p s action = some "latest-price".toList

def asksFor (p : Platform D) (word : Text) : Action → Bool
  | .message _ payload =>
      match load p.fp payload with
      | .ok request => (request.index "action".toList).asText = word
      | .error _ => false
  | _ => false

-- Whether prices count as cleared behind a step when `word` is the command that
-- clears them. A callback on the channel "unsubscribe" deletes all prices.
def clearedBehind (word : Text) (p : Platform D) (s : State D) (before : Bool) (action : Action) : Bool :=
  if asksFor p word action || callbackOn p s action = some "unsubscribe".toList then true
  else if handles p s action then false
  else before

def isPost : Output D → Bool
  | .postSymbol _ => true
  | _ => false

def posted (outputs : List (Output D)) : List Text :=
  outputs.filterMap fun output =>
    match output with
    | .postSymbol symbol => some symbol
    | _ => none

theorem cleared_behind_silent (word : Text) (p : Platform D) (s : State D) (before : Bool) (action : Action)
    (silent : callbackOn p s action = none) :
    clearedBehind word p s before action = (asksFor p word action || before) ∧ handles p s action = false := by
  have unhandled : handles p s action = false := by
    dsimp only [handles]
    rw [silent]
    rfl
  refine ⟨?_, unhandled⟩
  dsimp only [clearedBehind]
  rw [silent, unhandled]
  cases asksFor p word action <;> simp

theorem cleared_behind_callback (word : Text) (p : Platform D) (s : State D) (before : Bool) (conn : Conn)
    (data channel : Text) (called : callbackOn p s (.received conn data) = some channel) :
    clearedBehind word p s before (.received conn data) =
      if channel = "unsubscribe".toList then true
      else if handles p s (.received conn data) then false else before := by
  dsimp only [clearedBehind]
  rw [called]
  by_cases unsubscribe : channel = "unsubscribe".toList
  · rw [if_pos unsubscribe, if_pos]
    exact Bool.or_eq_true_iff.mpr (Or.inr (decide_eq_true (congrArg some unsubscribe)))
  · rw [if_neg unsubscribe, if_neg]
    intro either
    rcases Bool.or_eq_true_iff.mp either with asked | same
    · cases asked
    · exact unsubscribe (Option.some.inj (of_decide_eq_true same))

theorem callback_on_delivered (p : Platform D) (s : State D) (conn : Conn) (data : Text)
    (handler : ClientHandler Subscription) (sub : Subscription) (status : JSON D) (found : s.handler conn = some handler)
    (receives : handler.receives = true) (slot : handler.dataReceivedSignal = .call sub)
    (alive : s.m_server.alive sub.hdl = true) (loaded : load p.fp data = .ok status) :
    callbackOn p s (.received conn data) = some sub.channel := by
  have handed : s.handsTo p conn data = some sub :=
    (hands_to_some p s conn data sub).mpr ⟨⟨handler, found, receives, slot⟩, status, loaded⟩
  simp only [callbackOn, handed, alive, if_true]

theorem callback_on_ignored (p : Platform D) (s : State D) (conn : Conn) (data : Text)
    (handler : ClientHandler Subscription) (found : s.handler conn = some handler)
    (slot : handler.dataReceivedSignal = .ignore) : callbackOn p s (.received conn data) = none := by
  have unhanded : s.handsTo p conn data = none := by
    dsimp only [State.handsTo, loadText]
    rw [found]
    cases load p.fp data <;> simp [slot]
  simp only [callbackOn, unhanded]

theorem callback_on_escaped (p : Platform D) (s : State D) (conn : Conn) (data : Text)
    (handler : ClientHandler Subscription) (fault : Fault) (found : s.handler conn = some handler)
    (raised : clientOnMessage p handler data s = .error fault) : callbackOn p s (.received conn data) = none := by
  cases handed : s.handsTo p conn data with
  | none => simp only [callbackOn, handed]
  | some sub =>
      obtain ⟨⟨other, again, _, slot⟩, status, loaded⟩ := (hands_to_some p s conn data sub).mp handed
      cases found.symm.trans again
      simp only [callbackOn, handed]
      apply if_neg
      intro alive
      have called := (client_on_message_ok p handler data s _).mpr ⟨status, loaded, Or.inr ⟨sub, slot, alive, rfl⟩⟩
      rw [raised] at called
      cases called

theorem repost_lowers (s : State D) : (repost s).1.m_clearedPrices = false := by
  dsimp only [repost]
  split
  · rfl
  · rename_i down
    exact Bool.eq_false_iff.mpr down

theorem repost_outputs (s : State D) :
    (repost s).2 = (if s.m_clearedPrices then s.m_symbols.toList else []).map Output.postSymbol := by
  dsimp only [repost]
  split <;> rfl

theorem deliver_handled (sub : Subscription) (status : JSON D) (s : State D)
    (either : sub.channel = "broadcast".toList ∨ sub.channel = "latest-price".toList) :
    (deliver sub status s).1.m_clearedPrices = false ∧
      ∃ rest, (deliver sub status s).2 =
          (if s.m_clearedPrices then s.m_symbols.toList else []).map Output.postSymbol ++ rest ∧
        ∀ output ∈ rest, isPost output = false := by
  dsimp only [deliver]
  by_cases broadcast : sub.channel = "broadcast".toList
  · rw [if_pos broadcast]
    refine ⟨(batch_cleared _ _ _).trans (repost_lowers s), (batch (repost s).1 sub.hdl status).2, ?_, ?_⟩
    · rw [← repost_outputs]
    · dsimp only [batch]
      split <;> simp [isPost]
  · rw [if_neg broadcast, if_pos (either.resolve_left broadcast)]
    refine ⟨repost_lowers s, [.send sub.hdl (.latestPrice status)], ?_, by simp [isPost]⟩
    rw [← repost_outputs]

theorem deliver_other (sub : Subscription) (status : JSON D) (s : State D)
    (broadcast : sub.channel ≠ "broadcast".toList) (latest : sub.channel ≠ "latest-price".toList) :
    (deliver sub status s).1.m_clearedPrices =
        (if sub.channel = "unsubscribe".toList then true else s.m_clearedPrices) ∧
      ∀ output ∈ (deliver sub status s).2, isPost output = false := by
  dsimp only [deliver]
  rw [if_neg broadcast, if_neg latest]
  by_cases unsubscribe : sub.channel = "unsubscribe".toList
  · simp [unsubscribe, isPost]
  · rw [if_neg unsubscribe, if_neg unsubscribe]
    split <;> simp [isPost]

theorem answers_free (outputs : List (Output D)) (answers : ∀ output ∈ outputs, isAnswer output = true) :
    ∀ output ∈ outputs, isPost output = false := by
  intro output member
  have answer := answers output member
  cases output with
  | postSymbol symbol => cases answer
  | _ => rfl

theorem command_flag (p : Platform D) (s : State D) (hdl : Hdl) (payload : Text) (request : JSON D) :
    (command p s hdl payload request).1.m_clearedPrices =
      if (request.index "action".toList).asText = "clear-providers".toList then true else s.m_clearedPrices := by
  dsimp only [command]
  generalize (request.index "action".toList).asText = action
  by_cases add : action = "add-trading-aggregator".toList
  · rw [if_pos add, if_neg (by rw [add]; decide)]
    exact (steady_add_aggregator p s hdl request).cleared
  · rw [if_neg add]
    by_cases clear : action = "clear-trading-aggregators".toList
    · rw [if_pos clear, if_neg (by rw [clear]; decide)]
      exact (steady_clear_aggregator s hdl).cleared
    · rw [if_neg clear]
      by_cases provider : action = "add-provider".toList
      · rw [if_pos provider, if_neg (by rw [provider]; decide)]
        dsimp only [handleAddProvider]
        split <;> rfl
      · rw [if_neg provider]
        by_cases providers : action = "clear-providers".toList
        · rw [if_pos providers, if_pos providers]
          rfl
        · rw [if_neg providers, if_neg providers]
          split <;> rfl

structure PostsByFlag (p : Platform D) (s t : State D) (action : Action) (out : List (Output D)) : Prop where
  flag : t.m_clearedPrices = clearedBehind "clear-providers".toList p s s.m_clearedPrices action
  posts : ∃ rest, (∀ output ∈ rest, isPost output = false) ∧
    out = (if handles p s action && s.m_clearedPrices then s.m_symbols.toList else []).map Output.postSymbol ++ rest

theorem posts_silent (p : Platform D) (s t : State D) (action : Action) (out : List (Output D))
    (silent : callbackOn p s action = none) (other : asksFor p "clear-providers".toList action = false)
    (same : t.m_clearedPrices = s.m_clearedPrices) (free : ∀ output ∈ out, isPost output = false) :
    PostsByFlag p s t action out := by
  obtain ⟨behind, unhandled⟩ := cleared_behind_silent "clear-providers".toList p s s.m_clearedPrices action silent
  constructor
  · rw [behind, other, same]
    rfl
  · rw [unhandled]
    exact ⟨out, free, rfl⟩

theorem posts_message (p : Platform D) (s : State D) (hdl : Hdl) (payload : Text) (request : JSON D)
    (loaded : load p.fp payload = .ok request) :
    PostsByFlag p s (command p (subscribePart p s hdl request) hdl payload request).1 (.message hdl payload)
      (command p (subscribePart p s hdl request) hdl payload request).2 := by
  obtain ⟨tasks, launched, _⟩ := subscribe_part_same p s hdl request
  have flag := command_flag p (subscribePart p s hdl request) hdl payload request
  obtain ⟨behind, unhandled⟩ :=
    cleared_behind_silent "clear-providers".toList p s s.m_clearedPrices (.message hdl payload) rfl
  have asked : asksFor p "clear-providers".toList (.message hdl payload) =
      decide ((request.index "action".toList).asText = "clear-providers".toList) := by
    simp only [asksFor, loaded]
  constructor
  · rw [behind, asked, flag, launched]
    by_cases clears : (request.index "action".toList).asText = "clear-providers".toList
    · rw [if_pos clears, decide_eq_true clears, Bool.true_or]
    · rw [if_neg clears, decide_eq_false clears, Bool.false_or]
  · rw [unhandled]
    exact ⟨_, answers_free _ (command_answers p _ hdl payload request), rfl⟩

theorem posts_delivered (p : Platform D) (s : State D) (conn : Conn) (data : Text) (sub : Subscription)
    (status : JSON D) (called : callbackOn p s (.received conn data) = some sub.channel) :
    PostsByFlag p s (deliver sub status s).1 (.received conn data) (deliver sub status s).2 := by
  have behind := cleared_behind_callback "clear-providers".toList p s s.m_clearedPrices conn data sub.channel called
  by_cases either : sub.channel = "broadcast".toList ∨ sub.channel = "latest-price".toList
  · have handled : handles p s (.received conn data) = true := by
      dsimp only [handles]
      rw [called]
      apply Bool.or_eq_true_iff.mpr
      exact either.imp (fun same => decide_eq_true (congrArg some same)) fun same => decide_eq_true (congrArg some same)
    have other : sub.channel ≠ "unsubscribe".toList := by
      rcases either with same | same <;> rw [same] <;> decide
    obtain ⟨lowered, rest, posts, free⟩ := deliver_handled sub status s either
    constructor
    · rw [behind, if_neg other, handled]
      exact lowered
    · rw [handled, Bool.true_and]
      exact ⟨rest, free, posts⟩
  · obtain ⟨broadcast, latest⟩ := not_or.mp either
    have unhandled : handles p s (.received conn data) = false := by
      dsimp only [handles]
      rw [called, decide_eq_false fun same => broadcast (Option.some.inj same),
        decide_eq_false fun same => latest (Option.some.inj same)]
      rfl
    have effect := deliver_other sub status s broadcast latest
    constructor
    · rw [behind, unhandled]
      exact effect.1
    · rw [unhandled]
      exact ⟨_, effect.2, rfl⟩

theorem step_posts (p : Platform D) (s t : State D) (action : Action) (out : List (Output D))
    (taken : step p s action = some (t, out)) : PostsByFlag p s t action out := by
  obtain ⟨_, transition⟩ := step_transition p s t action out taken
  cases transition with
  | malformed hdl payload fault _ _ raised =>
      exact posts_silent p s _ _ _ rfl (by simp only [asksFor, raised]) rfl (by simp)
  | handled hdl payload request _ _ loaded => exact posts_message p s hdl payload request loaded
  | added call =>
      exact posts_silent p s _ _ _ rfl rfl (steady_wake_adding p s call).cleared
        (answers_free _ (wake_adding_answers p s call))
  | deleted e rest => exact posts_silent p s _ _ _ rfl rfl (steady_destroy s rest).cleared (by simp)
  | joined e rest => exact posts_silent p s _ _ _ rfl rfl (steady_destroy _ rest).cleared (by simp)
  | ignored conn data handler _ found _ slot =>
      exact posts_silent p s _ _ _ (callback_on_ignored p s conn data handler found slot) rfl rfl (by simp)
  | delivered conn data handler sub status found receives slot alive loaded =>
      apply posts_delivered p s conn data sub status
      exact callback_on_delivered p s conn data handler sub status found receives slot alive loaded
  | escaped conn data handler fault found _ raised =>
      exact posts_silent p s _ _ _ (callback_on_escaped p s conn data handler fault found raised) rfl rfl (by simp)
  | _ => exact posts_silent p s _ _ _ rfl rfl rfl (by simp)

end TradingFeed.Broadcaster
