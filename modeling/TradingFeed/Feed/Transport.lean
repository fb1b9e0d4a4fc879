import TradingFeed.Feed.Network

set_option autoImplicit false

namespace TradingFeed.Feed

open TradingFeed.Json TradingFeed.Sockets Library

variable {P A D : Type} [DecidableEq P] [DecidableEq A] (p : Platform D) (wiring : Wiring P A)

def dataOf (id : Int) : Aggregator.Action → Option Text
  | .received other data => if other = id then some data else none
  | _ => none

def dataFor (conn : Broadcaster.Conn) : Broadcaster.Action → Option Text
  | .received other data => if other = conn then some data else none
  | _ => none

def dataOn (id : Int) (events : List (Aggregator.Step D)) : List Text := events.filterMap fun event => dataOf id event.action

def dataFrom (conn : Broadcaster.Conn) (events : List (Broadcaster.Step D)) : List Text :=
  events.filterMap fun event => dataFor conn event.action

section

variable (provider : P) (g : A) (hdl : Hdl) (id : Int) (conn : Broadcaster.Conn) (key : Channel P A)

theorem quotes_posted (out : List (DataProvider.Output D)) (s : DataProvider.State D) :
    under (.quotes provider hdl) ((providerPorts (A := A) p provider).gives s out) =
      (DataProvider.sentTo hdl out).map fun message => message.toJson p.fp := by
  dsimp only [providerPorts]
  induction out with
  | nil => rfl
  | cons output rest ih =>
      obtain ⟨receiver, message⟩ := output
      rw [List.map_cons, under_cons, ih]
      by_cases same : receiver = hdl
      · subst same
        simp [DataProvider.sentTo]
      · simp [DataProvider.sentTo, same]

theorem quotes_apart (apart : ∀ hdl, key ≠ .quotes provider hdl) (out : List (DataProvider.Output D))
    (s : DataProvider.State D) : under key ((providerPorts p provider).gives s out) = [] := by
  refine under_absent key _ fun message member => ?_
  obtain ⟨⟨receiver, sent⟩, _, rfl⟩ := List.mem_map.mp member
  exact Ne.symm (apart receiver)

theorem replies_posted (out : List (Aggregator.Output D)) (s : Aggregator.State) :
    under (.replies g hdl) ((aggregatorPorts p wiring g).gives s out) =
      (Aggregator.sentTo hdl out).map fun response => response.dump p.fp := by
  dsimp only [aggregatorPorts]
  induction out with
  | nil => rfl
  | cons output rest ih =>
      cases output with
      | send receiver response =>
          rw [List.filterMap_cons, under_cons, ih]
          by_cases same : receiver = hdl
          · subst same
            simp [Aggregator.sentTo]
          · simp [Aggregator.sentTo, same]
      | _ => exact ih

theorem replies_apart (apart : ∀ hdl, key ≠ .replies g hdl) (out : List (Aggregator.Output D)) (s : Aggregator.State) :
    under key ((aggregatorPorts p wiring g).gives s out) = [] := by
  refine under_absent key _ fun message member => ?_
  obtain ⟨output, _, same⟩ := List.mem_filterMap.mp member
  cases output with
  | send receiver response =>
      cases same
      exact Ne.symm (apart receiver)
  | _ => cases same

theorem commands_apart (apart : ∀ conn, key ≠ .commands conn) (out : List (Broadcaster.Output D))
    (s : Broadcaster.State D) : under key ((broadcasterPorts wiring).gives s out) = [] := by
  refine under_absent key _ fun message member => ?_
  obtain ⟨output, _, same⟩ := List.mem_filterMap.mp member
  cases output with
  | aggregatorSend other payload =>
      obtain ⟨_, same⟩ := Option.ite_none_right_eq_some.mp same
      cases same
      exact Ne.symm (apart other)
  | _ => cases same

theorem aggregator_deaf (quotes : ∀ id, key ≠ .quotes (wiring.provider g id).1 (wiring.provider g id).2)
    (commands : ∀ conn hdl, wiring.client g hdl = some conn → key ≠ .commands conn) (action : Aggregator.Action) :
    under key ((aggregatorPorts (D := D) p wiring g).takes action).toList = [] := by
  refine under_absent key _ fun message member => ?_
  cases action with
  | received id data =>
      cases List.mem_singleton.mp member
      exact Ne.symm (quotes id)
  | message hdl payload =>
      obtain ⟨conn, client, rfl⟩ := Option.map_eq_some_iff.mp (Option.mem_toList.mp member)
      exact Ne.symm (commands conn hdl client)
  | _ => cases member

theorem broadcaster_deaf (replies : ∀ conn, key ≠ .replies (wiring.aggregator conn).1 (wiring.aggregator conn).2)
    (action : Broadcaster.Action) : under key ((broadcasterPorts (D := D) wiring).takes action).toList = [] := by
  refine under_absent key _ fun message member => ?_
  cases action with
  | received conn data =>
      cases List.mem_singleton.mp member
      exact Ne.symm (replies conn)
  | _ => cases member

theorem quotes_received (action : Aggregator.Action) :
    under (.quotes (wiring.provider g id).1 (wiring.provider g id).2)
      ((aggregatorPorts (D := D) p wiring g).takes action).toList = (dataOf id action).toList := by
  cases action with
  | received other data =>
      by_cases same : other = id
      · subst same
        simp [aggregatorPorts, under, dataOf]
      · have apart : (wiring.provider g other).1 ≠ (wiring.provider g id).1 ∨
            (wiring.provider g other).2 ≠ (wiring.provider g id).2 := by
          by_contra both
          push Not at both
          exact same (wiring.one_provider g g other id (Prod.ext both.1 both.2)).2
        simp only [dataOf, if_neg same, Option.toList_none]
        refine under_absent _ _ fun message member => ?_
        cases List.mem_singleton.mp member
        rintro equal
        injection equal with q hdl
        exact apart.elim (fun no => no q) (fun no => no hdl)
  | message hdl payload =>
      refine under_absent _ _ fun message member => ?_
      obtain ⟨conn, _, rfl⟩ := Option.map_eq_some_iff.mp (Option.mem_toList.mp member)
      simp
  | _ => rfl

theorem replies_received (action : Broadcaster.Action) :
    under (.replies (wiring.aggregator conn).1 (wiring.aggregator conn).2)
      ((broadcasterPorts (D := D) wiring).takes action).toList = (dataFor conn action).toList := by
  cases action with
  | received other data =>
      by_cases same : other = conn
      · subst same
        simp [broadcasterPorts, under, dataFor]
      · simp only [dataFor, if_neg same, Option.toList_none]
        refine under_absent _ _ fun message member => ?_
        cases List.mem_singleton.mp member
        rintro equal
        injection equal with g hdl
        exact same (wiring.one_aggregator other conn (Prod.ext g hdl))
  | _ => rfl

end

section

variable (s t : Parts P A D) (events : List (Step P A D)) (path : (parts p).Path s events t)

include path

theorem given_quotes (provider : P) (hdl : Hdl) :
    (ports p wiring).given (.quotes provider hdl) events =
      (DataProvider.published hdl (providerSteps provider events)).map fun message => message.toJson p.fp := by
  have silent : ∀ both out, under (.quotes provider hdl)
      ((Ports.parallel (.family (aggregatorPorts p wiring)) (broadcasterPorts (D := D) wiring)).gives both out) = [] := by
    intro both out
    cases out with
    | inl out => exact replies_apart p wiring out.1 _ (fun hdl same => by cases same) out.2 (both.1 out.1)
    | inr out => exact commands_apart wiring _ (fun conn same => by cases same) out _
  have alone : (ports p wiring).given (.quotes provider hdl) events =
      (providerPorts (A := A) p provider).given (.quotes provider hdl) (providerSteps provider events) := by
    dsimp only [ports, providerSteps]
    rw [given_left _ _ _ _ s t events _ silent path]
    exact given_member _ _ _ _ _ _ provider
      (fun other different s out => quotes_apart p other _ (fun hdl same => by cases same; exact different rfl) out s)
      (System.parallel_left _ _ _ _ _ path)
  rw [alone, Ports.given, DataProvider.published, List.map_flatMap]
  exact List.flatMap_congr fun event _ => quotes_posted p provider hdl event.out event.before

theorem given_replies (g : A) (hdl : Hdl) :
    (ports p wiring).given (.replies g hdl) events =
      (Aggregator.responses hdl (aggregatorSteps g events)).map fun response => response.2.dump p.fp := by
  have silent : ∀ states out, under (.replies g hdl) ((Ports.family (providerPorts (P := P) (A := A) p)).gives states out) = [] :=
    fun states out => quotes_apart p out.1 _ (fun hdl same => by cases same) out.2 (states out.1)
  have alone : (ports p wiring).given (.replies g hdl) events =
      (aggregatorPorts p wiring g).given (.replies g hdl) (aggregatorSteps g events) := by
    have behind := System.parallel_right _ _ _ _ _ path
    dsimp only [ports, aggregatorSteps]
    rw [given_right _ _ _ _ s t events _ silent path,
      given_left _ _ _ _ s.2 t.2 _ _ (fun state out => commands_apart wiring _ (fun conn same => by cases same) out state) behind]
    exact given_member _ _ _ _ _ _ g
      (fun other different s out => replies_apart p wiring other _ (fun hdl same => by cases same; exact different rfl) out s)
      (System.parallel_left _ _ _ _ _ behind)
  rw [alone, Ports.given, Aggregator.responses, List.map_flatMap]
  refine List.flatMap_congr fun event _ => ?_
  rw [replies_posted, List.map_map]
  rfl

theorem taken_quotes (g : A) (id : Int) :
    (ports p wiring).taken (.quotes (wiring.provider g id).1 (wiring.provider g id).2) events =
      dataOn id (aggregatorSteps g events) := by
  have alone : (ports p wiring).taken (.quotes (wiring.provider g id).1 (wiring.provider g id).2) events =
      (aggregatorPorts p wiring g).taken (.quotes (wiring.provider g id).1 (wiring.provider g id).2)
        (aggregatorSteps g events) := by
    have behind := System.parallel_right _ _ _ _ _ path
    dsimp only [ports, aggregatorSteps]
    rw [taken_right _ _ _ _ s t events _ (fun _ => rfl) path,
      taken_left _ _ _ _ s.2 t.2 _ _ (broadcaster_deaf wiring _ fun conn same => by cases same) behind]
    refine taken_member _ _ _ _ _ _ g (fun other different => aggregator_deaf p wiring other _ (fun otherId same => ?_)
      fun conn hdl _ same => by cases same) (System.parallel_left _ _ _ _ _ behind)
    injection same with q hdl
    exact different (wiring.one_provider g other id otherId (Prod.ext q hdl)).1.symm
  rw [alone, Ports.taken, dataOn, List.filterMap_eq_flatMap_toList]
  exact List.flatMap_congr fun event _ => quotes_received p wiring g id event.action

theorem taken_replies (conn : Broadcaster.Conn) :
    (ports p wiring).taken (.replies (wiring.aggregator conn).1 (wiring.aggregator conn).2) events =
      dataFrom conn (broadcasterSteps events) := by
  have alone : (ports p wiring).taken (.replies (wiring.aggregator conn).1 (wiring.aggregator conn).2) events =
      (broadcasterPorts wiring).taken (.replies (wiring.aggregator conn).1 (wiring.aggregator conn).2)
        (broadcasterSteps events) := by
    have behind := System.parallel_right _ _ _ _ _ path
    dsimp only [ports, broadcasterSteps]
    rw [taken_right _ _ _ _ s t events _ (fun _ => rfl) path]
    exact taken_right _ _ _ _ s.2 t.2 _ _
      (fun action => aggregator_deaf p wiring action.1 _ (fun id same => by cases same) (fun conn hdl _ same => by cases same)
        action.2) behind
  rw [alone, Ports.taken, dataFrom, List.filterMap_eq_flatMap_toList]
  exact List.flatMap_congr fun event _ => replies_received wiring conn event.action

end

end TradingFeed.Feed
