import Mathlib.Data.List.Flatten
import TradingFeed.Broadcaster.Forwarded
import TradingFeed.Feed.Origins

set_option autoImplicit false

namespace TradingFeed.Feed

open TradingFeed.Json TradingFeed.Sockets Library

variable {P A D : Type} [DecidableEq P] [DecidableEq A] (p : Platform D) (wiring : Wiring P A)

def requestAt (hdl : Hdl) : Aggregator.Action → Option Text
  | .message other payload => if other = hdl then some payload else none
  | _ => none

def requestsAt (hdl : Hdl) (events : List (Aggregator.Step D)) : List Text :=
  events.filterMap fun event => requestAt hdl event.action

section

variable (g : A) (hdl : Hdl) (conn : Broadcaster.Conn) (client : wiring.client g hdl = some conn)

theorem commands_posted (out : List (Broadcaster.Output D)) (s : Broadcaster.State D) :
    (under (.commands conn) ((broadcasterPorts wiring).gives s out)).Sublist (Broadcaster.sentOn conn out) := by
  dsimp only [broadcasterPorts]
  induction out with
  | nil => exact List.nil_sublist _
  | cons output rest ih =>
      cases output with
      | aggregatorSend other payload =>
          rw [Broadcaster.sentOn, List.filterMap_cons, List.filterMap_cons]
          by_cases opened : (s.handler other).map ClientHandler.session = some .opened
          · simp only [if_pos opened, under_cons, Channel.commands.injEq]
            by_cases same : other = conn
            · simp only [if_pos same]
              exact ih.cons_cons payload
            · simp only [if_neg same]
              exact ih
          · simp only [if_neg opened]
            by_cases same : other = conn
            · simp only [if_pos same]
              exact ih.cons payload
            · simp only [if_neg same]
              exact ih
      | _ => exact ih

include client

theorem commands_received (action : Aggregator.Action) :
    under (.commands conn) ((aggregatorPorts (D := D) p wiring g).takes action).toList = (requestAt hdl action).toList := by
  cases action with
  | message other payload =>
      by_cases same : other = hdl
      · subst same
        simp [aggregatorPorts, client, under, requestAt]
      · simp only [requestAt, if_neg same, Option.toList_none]
        refine under_absent _ _ fun message member => ?_
        obtain ⟨from_, there, rfl⟩ := Option.map_eq_some_iff.mp (Option.mem_toList.mp member)
        rintro equal
        injection equal with here
        rw [here] at there
        have both := ((wiring.one_client g other conn).mp there).symm.trans ((wiring.one_client g hdl conn).mp client)
        exact same (Prod.mk.inj both).2
  | received id data =>
      refine under_absent _ _ fun message member => ?_
      cases List.mem_singleton.mp member
      simp
  | _ => rfl

end

section

variable (s t : Parts P A D) (events : List (Step P A D)) (path : (parts p).Path s events t)

include path

theorem given_commands (conn : Broadcaster.Conn) :
    ((ports p wiring).given (.commands conn) events).Sublist (Broadcaster.handedTo conn (broadcasterSteps events)) := by
  have alone : (ports p wiring).given (.commands conn) events =
      (broadcasterPorts wiring).given (.commands conn) (broadcasterSteps events) := by
    dsimp only [ports, broadcasterSteps]
    rw [given_right _ _ _ _ s t events _
      (fun states out => quotes_apart p out.1 _ (fun hdl same => by cases same) out.2 (states out.1)) path]
    exact given_right _ _ _ _ s.2 t.2 _ _
      (fun states out => replies_apart p wiring out.1 _ (fun hdl same => by cases same) out.2 (states out.1))
      (System.parallel_right _ _ _ _ _ path)
  rw [alone, Ports.given, Broadcaster.handedTo]
  exact List.Sublist.flatMap_right _ fun event _ => commands_posted wiring conn event.out event.before

theorem taken_commands (g : A) (hdl : Hdl) (conn : Broadcaster.Conn) (client : wiring.client g hdl = some conn) :
    (ports p wiring).taken (.commands conn) events = requestsAt hdl (aggregatorSteps g events) := by
  have behind := System.parallel_right _ _ _ _ _ path
  have alone : (ports p wiring).taken (.commands conn) events =
      (aggregatorPorts p wiring g).taken (.commands conn) (aggregatorSteps g events) := by
    dsimp only [ports, aggregatorSteps]
    rw [taken_right _ _ _ _ s t events _ (fun _ => rfl) path,
      taken_left _ _ _ _ s.2 t.2 _ _ (broadcaster_deaf wiring _ fun conn same => by cases same) behind]
    refine taken_member _ _ _ _ _ _ g (fun other different => aggregator_deaf p wiring other _
      (fun id same => by cases same) fun otherConn otherHdl there same => ?_) (System.parallel_left _ _ _ _ _ behind)
    injection same with here
    rw [← here] at there
    have both := ((wiring.one_client other otherHdl conn).mp there).symm.trans ((wiring.one_client g hdl conn).mp client)
    exact different (Prod.mk.inj both).1
  rw [alone, Ports.taken, requestsAt, List.filterMap_eq_flatMap_toList]
  exact List.flatMap_congr fun event _ => commands_received p wiring g hdl conn client event.action

end

section

variable (boot : P → Nat → Int64) (final : State P A D) (events : List (FeedStep P A D))
  (path : (feed p wiring).Path (init p boot) events final)

include path

theorem commands_delivered (g : A) (hdl : Hdl) (conn : Broadcaster.Conn) (client : wiring.client g hdl = some conn) :
    (requestsAt hdl (aggregatorSteps g (events.map innerEvent))) <+:
      (ports p wiring).given (.commands conn) (events.map innerEvent) := by
  rw [← taken_commands p wiring _ _ _ (inner_path p wiring boot final events path) g hdl conn client]
  exact wired_prefix _ _ _ _ _ _ path

theorem commands_follow_consumers (g : A) (hdl : Hdl) (conn : Broadcaster.Conn) (client : wiring.client g hdl = some conn) :
    (requestsAt hdl (aggregatorSteps g (events.map innerEvent))).Sublist
      (Broadcaster.requests p (broadcasterSteps (events.map innerEvent))) := by
  have inner := inner_path p wiring boot final events path
  have handed := Broadcaster.path_forwards p _ _ conn (broadcaster_path p _ _ _ inner)
  exact ((commands_delivered p wiring boot final events path g hdl conn client).sublist.trans
    (given_commands p wiring _ _ _ inner conn)).trans handed

end

theorem commands_follow_consumers_quoted : ∃ events : List (FeedStep (Broadcaster.Conn × Int) Broadcaster.Conn Int),
    events.map Event.action = quotedRun ∧
    (requestsAt 0 (aggregatorSteps ⟨0, 0⟩ (events.map innerEvent))).Sublist
      (Broadcaster.requests Broadcaster.microPlatform (broadcasterSteps (events.map innerEvent))) := by
  obtain ⟨events, final, path, actions⟩ := quoted_path
  exact ⟨events, actions,
    commands_follow_consumers Broadcaster.microPlatform apart (fun _ _ => 0) final events path ⟨0, 0⟩ 0 ⟨0, 0⟩ rfl⟩

end TradingFeed.Feed
