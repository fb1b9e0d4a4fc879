import TradingFeed.Broadcaster.LatestPrice
import TradingFeed.Feed.Transport

set_option autoImplicit false

namespace TradingFeed.Feed

open TradingFeed.Json TradingFeed.Sockets TradingFeed.Common Library

-- Where an element of a broadcast array has its content from: a message of a data
-- provider on one of its connections, or a reply of an aggregator on one of its own.
inductive Origin (P A : Type) where
  | provider (provider : P) (hdl : Hdl)
  | aggregator (aggregator : A) (hdl : Hdl)
deriving DecidableEq

section

variable {P A : Type} [DecidableEq P] [DecidableEq A] (wiring : Wiring P A)

def origin (conn : Broadcaster.Conn) : Option Int → Origin P A
  | some id => .provider (wiring.provider (wiring.aggregator conn).1 id).1 (wiring.provider (wiring.aggregator conn).1 id).2
  | none => .aggregator (wiring.aggregator conn).1 (wiring.aggregator conn).2

variable {α : Type} (items : List (Broadcaster.Conn × Option Int × α))

def byOrigin : List (Origin P A × α) := items.map fun item => (origin wiring item.1 item.2.1, item.2.2)

theorem by_origin_one (conn : Broadcaster.Conn) (source : Option Int) (key : Origin P A)
    (only : ∀ item ∈ items, origin wiring item.1 item.2.1 = key ↔ item.1 = conn ∧ item.2.1 = source) :
    under key (byOrigin wiring items) = ((under conn items).filter fun item => item.1 = source).map Prod.snd := by
  induction items with
  | nil => rfl
  | cons item items ih =>
      obtain ⟨from_, via, value⟩ := item
      have here := only _ (List.mem_cons_self)
      rw [byOrigin, List.map_cons, under_cons, under_cons]
      change (if _ then _ :: under key (byOrigin wiring items) else under key (byOrigin wiring items)) = _
      rw [ih fun other member => only other (List.mem_cons_of_mem _ member)]
      by_cases mine : origin wiring from_ via = key
      · obtain ⟨same, given⟩ := here.mp mine
        rw [if_pos mine, if_pos same, List.filter_cons_of_pos (by simpa using given)]
        rfl
      · rw [if_neg mine]
        by_cases same : from_ = conn
        · have other : via ≠ source := fun given => mine (here.mpr ⟨same, given⟩)
          rw [if_pos same, List.filter_cons_of_neg (by simpa using other)]
        · rw [if_neg same]

theorem origin_met (key : Origin P A) :
    under key (byOrigin wiring items) = [] ∨ ∃ item ∈ items, origin wiring item.1 item.2.1 = key := by
  by_cases met : ∃ item ∈ items, origin wiring item.1 item.2.1 = key
  · exact Or.inr met
  · refine Or.inl (under_absent key _ fun pair member same => ?_)
    obtain ⟨item, among, rfl⟩ := List.mem_map.mp member
    exact met ⟨item, among, same⟩

end

variable {D : Type}

-- What JSON::Load makes of a message of a provider at the aggregator, and of what
-- the aggregator prints for it at the broadcaster.
def relayed (fp : Doubles D) (message : DataProviderMessage D) : Option (JSON D) :=
  (load fp (message.toJson fp)).toOption.bind fun response => (load fp (response.dump fp)).toOption

theorem relayed_texts (fp : Doubles D) (messages : List (DataProviderMessage D)) :
    ((messages.map fun message => message.toJson fp).filterMap fun data => (load fp data).toOption).filterMap
      (fun response => (load fp (response.dump fp)).toOption) = messages.filterMap (relayed fp) := by
  rw [List.filterMap_filterMap, List.filterMap_map]
  rfl

section

variable {P A : Type} [DecidableEq P] [DecidableEq A] (p : Platform D) (wiring : Wiring P A)

def loaded (fp : Doubles D) (given : List (Option Int × JSON D)) : List (Option Int × JSON D) :=
  given.filterMap fun response => (load fp (response.2.dump fp)).toOption.map fun value => (response.1, value)

theorem loaded_source (fp : Doubles D) (source : Option Int) (given : List (Option Int × JSON D)) :
    ((loaded fp given).filter fun response => response.1 = source).map Prod.snd =
      ((given.filter fun response => response.1 = source).map Prod.snd).filterMap
        fun response => (load fp (response.dump fp)).toOption := by
  induction given with
  | nil => rfl
  | cons response given ih =>
      obtain ⟨from_, value⟩ := response
      dsimp only [loaded] at ih ⊢
      cases read : (load fp (value.dump fp)).toOption with
      | none => by_cases mine : from_ = source <;> simp [read, mine, ih]
      | some again => by_cases mine : from_ = source <;> simp [read, mine, ih]

theorem mem_loaded (fp : Doubles D) (given : List (Option Int × JSON D)) (source : Option Int) (value : JSON D)
    (member : (source, value) ∈ loaded fp given) :
    ∃ response, (source, response) ∈ given ∧ load fp (response.dump fp) = .ok value := by
  obtain ⟨⟨from_, response⟩, among, same⟩ := List.mem_filterMap.mp member
  obtain ⟨read, here, equal⟩ := Option.map_eq_some_iff.mp same
  obtain ⟨rfl, rfl⟩ := Prod.mk.inj equal
  refine ⟨response, among, ?_⟩
  dsimp only at here
  cases done : load fp (response.dump fp) with
  | ok again =>
      rw [done] at here
      cases here
      rfl
  | error fault =>
      rw [done] at here
      cases here

theorem arrivals_data (id : Int) (steps : List (Aggregator.Step D)) :
    Aggregator.arrivals p id steps = (dataOn id steps).filterMap fun data => (load p.fp data).toOption := by
  rw [dataOn, List.filterMap_filterMap, Aggregator.arrivals]
  refine List.filterMap_congr fun step _ => ?_
  cases action : step.action with
  | received other data =>
      by_cases same : other = id <;> simp [Aggregator.arrival, dataOf, same]
  | _ => rfl

theorem arrivals_from (conn : Broadcaster.Conn) (steps : List (Broadcaster.Step D)) :
    under conn (steps.filterMap (Broadcaster.arrival p)) =
      (dataFrom conn steps).filterMap fun data => (load p.fp data).toOption := by
  rw [dataFrom, under, List.filterMap_filterMap, List.filterMap_filterMap]
  refine List.filterMap_congr fun step _ => ?_
  dsimp only [Broadcaster.arrival]
  cases action : step.action with
  | received other data =>
      cases read : (load p.fp data).toOption with
      | none => by_cases same : other = conn <;> simp [dataFor, same, read]
      | some value => by_cases same : other = conn <;> simp [dataFor, same, read]
  | _ => rfl

end

section

variable {P A : Type} [DecidableEq P] [DecidableEq A] (p : Platform D) (wiring : Wiring P A) (boot : P → Nat → Int64)
  (final : State P A D) (events : List (FeedStep P A D))
  (path : (feed p wiring).Path (init p boot) events final)

include path

theorem inner_path : (parts p).Path (init p boot).1 (events.map innerEvent) final.1 := wired_path _ _ _ _ _ path

theorem quotes_delivered (g : A) (id : Int) :
    (dataOn id (aggregatorSteps g (events.map innerEvent))) <+:
      (DataProvider.published (wiring.provider g id).2
        (providerSteps (wiring.provider g id).1 (events.map innerEvent))).map fun message => message.toJson p.fp := by
  have inner := inner_path p wiring boot final events path
  rw [← taken_quotes p wiring _ _ _ inner g id, ← given_quotes p wiring _ _ _ inner]
  exact wired_prefix _ _ _ _ _ _ path

theorem replies_delivered (conn : Broadcaster.Conn) :
    (dataFrom conn (broadcasterSteps (events.map innerEvent))) <+:
      (Aggregator.responses (wiring.aggregator conn).2
        (aggregatorSteps (wiring.aggregator conn).1 (events.map innerEvent))).map fun response => response.2.dump p.fp := by
  have inner := inner_path p wiring boot final events path
  rw [← taken_replies p wiring _ _ _ inner conn, ← given_replies p wiring _ _ _ inner]
  exact wired_prefix _ _ _ _ _ _ path

theorem arrivals_relayed (g : A) (id : Int) (hdl : Hdl) :
    ((Aggregator.fromSource id (Aggregator.responses hdl (aggregatorSteps g (events.map innerEvent)))).filterMap
        fun response => (load p.fp (response.dump p.fp)).toOption).Sublist
      ((DataProvider.published (wiring.provider g id).2
        (providerSteps (wiring.provider g id).1 (events.map innerEvent))).filterMap (relayed p.fp)) := by
  have inner := inner_path p wiring boot final events path
  have arrived := (Aggregator.path_sourced p _ _ (aggregator_path p _ _ _ inner g)).arrived hdl id
  have delivered := (quotes_delivered p wiring boot final events path g id).sublist
  rw [← relayed_texts]
  refine List.Sublist.filterMap _ (arrived.trans ?_)
  rw [arrivals_data]
  exact delivered.filterMap _

theorem arrived_loaded (items : List (Broadcaster.Conn × JSON D)) (conn : Broadcaster.Conn)
    (arrived : items.Sublist ((broadcasterSteps (events.map innerEvent)).filterMap (Broadcaster.arrival p))) :
    (under conn items).Sublist
      ((loaded p.fp (Aggregator.responses (wiring.aggregator conn).2
        (aggregatorSteps (wiring.aggregator conn).1 (events.map innerEvent)))).map Prod.snd) := by
  have arrives := under_sublist conn _ _ arrived
  have delivered := (replies_delivered p wiring boot final events path conn).sublist
  rw [arrivals_from] at arrives
  refine arrives.trans ((delivered.filterMap _).trans ?_)
  rw [List.filterMap_map, loaded, List.map_filterMap]
  refine (List.filterMap_congr fun response _ => ?_) ▸ List.Sublist.refl _
  dsimp only [Function.comp_apply]
  cases (load p.fp (response.2.dump p.fp)).toOption <;> rfl

end

-- How values that the broadcaster sends come, in their order, from messages of the
-- providers and from replies that the aggregators have sent: each connection of
-- either contributes in order, and nothing that it was given twice.
structure Originated {P A : Type} [DecidableEq P] [DecidableEq A] (p : Platform D) (events : List (Step P A D))
    (values : List (JSON D)) (origins : List (Origin P A × JSON D)) : Prop where
  whole : origins.map Prod.snd = values
  quotes : ∀ provider hdl, (under (.provider provider hdl) origins).Sublist
    ((DataProvider.published hdl (providerSteps provider events)).filterMap (relayed p.fp))
  replies : ∀ g hdl, (under (.aggregator g hdl) origins).Sublist
    ((Aggregator.ownReplies (Aggregator.responses hdl (aggregatorSteps g events))).filterMap
      fun reply => (load p.fp (reply.dump p.fp)).toOption)
  statuses : ∀ g hdl, ∀ reply ∈ Aggregator.ownReplies (Aggregator.responses hdl (aggregatorSteps g events)),
    ∃ status message, reply = statusObject status message

section

variable {P A : Type} [DecidableEq P] [DecidableEq A] (p : Platform D) (wiring : Wiring P A) (boot : P → Nat → Int64)
  (final : State P A D) (events : List (FeedStep P A D))
  (path : (feed p wiring).Path (init p boot) events final)

include path

theorem one_way (whole : List (Broadcaster.Conn × Option Int × JSON D))
    (given : ∀ item ∈ whole, ∃ response, (item.2.1, response) ∈ Aggregator.responses (wiring.aggregator item.1).2
      (aggregatorSteps (wiring.aggregator item.1).1 (events.map innerEvent)))
    (conn : Broadcaster.Conn) (source : Option Int) (value : JSON D) (member : (conn, source, value) ∈ whole)
    (item : Broadcaster.Conn × Option Int × JSON D) (among : item ∈ whole) :
    origin wiring item.1 item.2.1 = origin wiring conn source ↔ item.1 = conn ∧ item.2.1 = source := by
  obtain ⟨other, from_, seen⟩ := item
  dsimp only
  refine ⟨fun same => ?_, fun ⟨here, there⟩ => by rw [here, there]⟩
  cases from_ with
  | none =>
      cases source with
      | some id => cases same
      | none =>
          injection same with peer accepted
          exact ⟨wiring.one_aggregator other conn (Prod.ext peer accepted), rfl⟩
  | some otherId =>
      cases source with
      | none => cases same
      | some id =>
          injection same with provider hdl
          obtain ⟨one, rfl⟩ := wiring.one_provider _ _ _ _ (Prod.ext provider hdl)
          obtain ⟨_, first⟩ := given _ member
          obtain ⟨_, second⟩ := given _ among
          dsimp only at first second
          rw [one] at second
          have inner := inner_path p wiring boot final events path
          have receiver := Aggregator.one_receiver p _ _ (aggregator_path p _ _ _ inner _) _ _ _ _ _ second first
          exact ⟨wiring.one_aggregator other conn (Prod.ext one receiver), rfl⟩

section

variable (whole : List (Broadcaster.Conn × Option Int × JSON D))
  (each : ∀ conn, (under conn whole).Sublist (loaded p.fp (Aggregator.responses (wiring.aggregator conn).2
    (aggregatorSteps (wiring.aggregator conn).1 (events.map innerEvent)))))

include each

omit [DecidableEq P] path in
theorem tagged_given (item : Broadcaster.Conn × Option Int × JSON D) (member : item ∈ whole) :
    ∃ response, (item.2.1, response) ∈ Aggregator.responses (wiring.aggregator item.1).2
      (aggregatorSteps (wiring.aggregator item.1).1 (events.map innerEvent)) ∧
        load p.fp (response.dump p.fp) = .ok item.2.2 :=
  mem_loaded p.fp _ item.2.1 item.2.2 ((each item.1).subset ((mem_under item.1 whole item.2).mpr member))

theorem tagged_source (conn : Broadcaster.Conn) (source : Option Int) (value : JSON D)
    (member : (conn, source, value) ∈ whole) :
    (under (origin wiring conn source) (byOrigin wiring whole)).Sublist
      ((((Aggregator.responses (wiring.aggregator conn).2
        (aggregatorSteps (wiring.aggregator conn).1 (events.map innerEvent))).filter
          fun response => response.1 = source).map Prod.snd).filterMap
            fun response => (load p.fp (response.dump p.fp)).toOption) := by
  have only := one_way p wiring boot final events path whole
    (fun item among => (tagged_given p wiring events whole each item among).imp fun _ both => both.1)
    conn source value member
  rw [by_origin_one wiring whole conn source _ only, ← loaded_source]
  exact ((each conn).filter fun item => item.1 = source).map Prod.snd

theorem tagged_quotes (provider : P) (hdl : Hdl) : (under (.provider provider hdl) (byOrigin wiring whole)).Sublist
    ((DataProvider.published hdl (providerSteps provider (events.map innerEvent))).filterMap (relayed p.fp)) := by
  rcases origin_met wiring whole (.provider provider hdl) with absent | ⟨⟨conn, source, value⟩, member, mine⟩
  · rw [absent]
    exact List.nil_sublist _
  · cases source with
    | none => cases mine
    | some id =>
        have among := tagged_source p wiring boot final events path whole each conn (some id) value member
        have relays := arrivals_relayed p wiring boot final events path (wiring.aggregator conn).1 id
          (wiring.aggregator conn).2
        rw [show origin wiring conn (some id) = .provider provider hdl from mine] at among
        injection mine with peer accepted
        rw [peer, accepted] at relays
        exact among.trans relays

theorem tagged_replies (g : A) (hdl : Hdl) : (under (.aggregator g hdl) (byOrigin wiring whole)).Sublist
    ((Aggregator.ownReplies (Aggregator.responses hdl (aggregatorSteps g (events.map innerEvent)))).filterMap
      fun reply => (load p.fp (reply.dump p.fp)).toOption) := by
  rcases origin_met wiring whole (.aggregator g hdl) with absent | ⟨⟨conn, source, value⟩, member, mine⟩
  · rw [absent]
    exact List.nil_sublist _
  · cases source with
    | some id => cases mine
    | none =>
        have among := tagged_source p wiring boot final events path whole each conn none value member
        rw [show origin wiring conn none = .aggregator g hdl from mine] at among
        injection mine with peer accepted
        rw [peer, accepted] at among
        exact among

end

theorem own_statuses (g : A) (hdl : Hdl) (reply : JSON D)
    (member : reply ∈ Aggregator.ownReplies (Aggregator.responses hdl (aggregatorSteps g (events.map innerEvent)))) :
    ∃ status message, reply = statusObject status message := by
  have inner := inner_path p wiring boot final events path
  obtain ⟨⟨source, response⟩, among, rfl⟩ := List.mem_map.mp member
  obtain ⟨sent, own⟩ := List.mem_filter.mp among
  obtain rfl : source = none := of_decide_eq_true own
  exact (Aggregator.path_sourced p _ _ (aggregator_path p _ _ _ inner g)).replies hdl response sent

theorem arrived_originated (items : List (Broadcaster.Conn × JSON D))
    (arrived : items.Sublist ((broadcasterSteps (events.map innerEvent)).filterMap (Broadcaster.arrival p))) :
    ∃ origins : List (Origin P A × JSON D), Originated p (events.map innerEvent) (items.map Prod.snd) origins := by
  obtain ⟨whole, untagged, each⟩ := under_tagged items _ fun conn =>
    arrived_loaded p wiring boot final events path items conn arrived
  refine ⟨byOrigin wiring whole, ?_, tagged_quotes p wiring boot final events path whole each,
    tagged_replies p wiring boot final events path whole each, own_statuses p wiring boot final events path⟩
  rw [← untagged, byOrigin, List.map_map, List.map_map]
  rfl

theorem latest_originated : ∃ origins : List (Origin P A × JSON D), Originated p (events.map innerEvent)
    ((broadcasterSteps (events.map innerEvent)).flatMap fun step => Broadcaster.latestIn step.out) origins := by
  have inner := inner_path p wiring boot final events path
  obtain ⟨values, arrived⟩ := Broadcaster.path_latest p _ _ _ (broadcaster_path p _ _ _ inner)
  obtain ⟨origins, originated⟩ := arrived_originated p wiring boot final events path _ arrived
  rw [values] at originated
  exact ⟨origins, originated⟩

end

-- A run with one provider, one aggregator and one consumer: each connection of the
-- broadcaster leads to an aggregator of its own, each of an aggregator's to a
-- provider of its own.
def apart : Wiring (Broadcaster.Conn × Int) Broadcaster.Conn where
  provider := fun g id => ((g, id), 0)
  aggregator := fun conn => (conn, 0)
  client := fun g hdl => if hdl = 0 then some g else none
  one_provider := by
    intro g other id otherId same
    cases same
    exact ⟨rfl, rfl⟩
  one_client := by
    intro g hdl conn
    by_cases first : hdl = 0
    · simp [first, eq_comm]
    · simp [first, Ne.symm first]

def fromProvider (action : DataProvider.Action) : Action (Broadcaster.Conn × Int) Broadcaster.Conn :=
  .inl ((⟨0, 0⟩, 0), action)

def fromAggregator (action : Aggregator.Action) : Action (Broadcaster.Conn × Int) Broadcaster.Conn :=
  .inr (.inl (⟨0, 0⟩, action))

def fromBroadcaster (action : Broadcaster.Action) : Action (Broadcaster.Conn × Int) Broadcaster.Conn :=
  .inr (.inr action)

def replyText : Text :=
  (statusObject "processed".toList "connecting to \"ws://p:1\"".toList : JSON Int).dump Doubles.micro

def connectedRun : List (Action (Broadcaster.Conn × Int) Broadcaster.Conn) :=
  [.connected, .message 0 Broadcaster.addRequest, .wake].map fromBroadcaster ++ [fromAggregator .connected] ++
    [.opened ⟨0, 0⟩, .silenced ⟨0, 0⟩, .message 0 Broadcaster.subscribeRequest, .start 0, .visit 0,
      .message 0 Aggregator.providerRequest].map fromBroadcaster ++
    [fromAggregator (.message 0 Aggregator.providerRequest), fromProvider .connected] ++
    [.opened 0, .silenced 0, .wake, .wake, .wake, .start 0, .install 0].map fromAggregator ++
    [fromBroadcaster (.received ⟨0, 0⟩ replyText)]

def quote (index : Nat) (now : Int64) : Text :=
  ((DataProvider.messages Doubles.micro fun _ => 0)[index]?.map fun message =>
    (message.updateTimestamp now).toJson Doubles.micro).getD []

def reprinted (data : Text) : Text :=
  ((load Doubles.micro data).toOption.map fun value => value.dump Doubles.micro).getD []

def twoQuotes : List (Action (Broadcaster.Conn × Int) Broadcaster.Conn) :=
  [.start 0, .update 0 7, .send 0, .update 0 9, .send 0].map fromProvider ++
    [.received 0 (quote 0 7), .received 0 (quote 1 9)].map fromAggregator ++
    [.received ⟨0, 0⟩ (reprinted (quote 0 7)), .received ⟨0, 0⟩ (reprinted (quote 1 9))].map fromBroadcaster

def quotedRun : List (Action (Broadcaster.Conn × Int) Broadcaster.Conn) := connectedRun ++ twoQuotes

theorem quoted_path : ∃ events final,
    (feed Broadcaster.microPlatform apart).Path (init Broadcaster.microPlatform fun _ _ => 0) events final ∧
      events.map Event.action = quotedRun := by
  obtain ⟨final, log, ran, _⟩ := (feed Broadcaster.microPlatform apart).run_check
    (init Broadcaster.microPlatform fun _ _ => 0) quotedRun (fun _ => true) (by decide +kernel)
  obtain ⟨events, path, actions, _⟩ := (feed Broadcaster.microPlatform apart).run_path _ final quotedRun log ran
  exact ⟨events, final, path, actions⟩

theorem latest_originated_quoted : ∃ (events : List (FeedStep (Broadcaster.Conn × Int) Broadcaster.Conn Int))
    (origins : List (Origin (Broadcaster.Conn × Int) Broadcaster.Conn × JSON Int)), events.map Event.action = quotedRun ∧
    Originated Broadcaster.microPlatform (events.map innerEvent)
      ((broadcasterSteps (events.map innerEvent)).flatMap fun step => Broadcaster.latestIn step.out) origins := by
  obtain ⟨events, final, path, actions⟩ := quoted_path
  obtain ⟨origins, originated⟩ := latest_originated Broadcaster.microPlatform apart (fun _ _ => 0) final events path
  exact ⟨events, origins, actions, originated⟩

end TradingFeed.Feed
