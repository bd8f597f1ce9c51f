import Qpid.Broker.Invariant
import Qpid.Broker.ExecutionSync

/-!
What the peer learns about completion and acceptance, over every run of the threads and whatever
frames the peer sends. Accepts are neither lost nor duplicated. Which accepts the peer has when it
sees a sync's completion depends on the path: a sync that completes at once is preceded by a
`message.accept` of everything pending, a deferred one that the loop of `completeRcvMsg` releases
only when the message whose completion releases it is itself sync-flagged. `handleIn` passes a
command frame that ends its frameset but not its segment to `handleCommand` without moving the
command point, so the next command frame is handled under the same id: it completes a deferred
execution.sync while an earlier command is incomplete, and reports nothing.
-/

namespace Qpid.Broker.Completion
open Framing Session Threads ExecutionSync Accept Invariant

variable {w : World}

/-- A single-frame message.transfer that requires accept, without the sync flag. -/
def transferFrame : Frame := ⟨some ⟨.messageTransfer true, false⟩, true, true, true, true⟩

/-- A single-frame execution.sync with the sync flag. -/
def syncFrame : Frame := ⟨some ⟨.executionSync, true⟩, true, true, true, true⟩

/-- The envelope the session builds from `transferFrame` as command 0. -/
def transferMsg : Msg := ⟨0, ⟨.messageTransfer true, false⟩, [transferFrame, dummyHeader]⟩

/-- The sync-flagged execution.sync 1 is deferred behind command 0, whose async completion is
popped by a drain that is about to complete it. -/
def releaseRun : List Action :=
  [.frame transferFrame false ⟨false, 0, false⟩, .frame syncFrame false ⟨false, 0, false⟩,
    .callback transferMsg false, .resumePush transferMsg, .startDrain, .drainStep, .drainStep]

/-- The drain completes command 0, which releases execution.sync 1. -/
def deferredSyncRun : List Action := releaseRun ++ [.drainStep]

/-- Every completed message that requires accept is in exactly one `message.accept` sent or
else pending in `accepted`, and no other id is in either. -/
theorem accepts_neither_lost_nor_duplicated (reachable : Reachable w) (id : Nat) :
    acceptCount w.session.outbound id = if id ∈ acceptIds w.session.registry.completed then 1 else 0 :=
  (ReachableBy.inv reachable).accept id

theorem accepts_neither_lost_nor_duplicated_pending :
    ∃ w, Reachable w ∧ 0 ∈ acceptIds w.session.registry.completed ∧ acceptCount w.session.outbound 0 = 1 := by
  obtain ⟨w, reachable, holds⟩ := @reach_of_run (fun _ => True) none 0 deferredSyncRun
    (fun w => decide (0 ∈ acceptIds w.session.registry.completed)) (fun _ _ => trivial) (by decide)
  rw [decide_eq_true_eq] at holds
  exact ⟨w, reachable, holds, by rw [accepts_neither_lost_nor_duplicated reachable 0, if_pos holds]⟩

theorem deferred_sync_leaves_accept_pending :
    ∃ w, Reachable w ∧ 1 ∈ w.session.execution.executionSyncs ∧
      1 ∉ w.session.execution.receiver.incomplete ∧ transferMsg ∈ w.session.registry.completed ∧
      0 ∈ w.session.outbound.accepted := by
  obtain ⟨w, reachable, holds⟩ := @reach_of_run (fun _ => True) none 0 deferredSyncRun
    (fun w => decide (1 ∈ w.session.execution.executionSyncs) &&
      decide (1 ∉ w.session.execution.receiver.incomplete) &&
      decide (transferMsg ∈ w.session.registry.completed) && decide (0 ∈ w.session.outbound.accepted))
    (fun _ _ => trivial) (by decide)
  simp only [Bool.and_eq_true, decide_eq_true_eq] at holds
  exact ⟨w, reachable, holds.1.1.1, holds.1.1.2, holds.1.2, holds.2⟩

/-- A frame whose handling pops a deferred sync completed a message on the recorded session,
after which it sent only what accepts nothing. -/
theorem received_releases (inv : Inv w) {frame : Frame} {completesNow : Bool} {rate : RateAnswers}
    {s : SessionState} {S : Nat} (ok : w.session.received frame completesNow rate = .ok s)
    (queued : S ∈ w.session.execution.pendingExecutionSyncs)
    (popped : S ∉ s.execution.pendingExecutionSyncs) :
    ∃ msg commands ws, s.registry.completed = w.session.registry.completed ++ [msg] ∧
      s.outbound.accepted =
        (if msg.isSync then ∅ else acceptedWith w.session.outbound.accepted msg) ∧
      S ∈ commands ∧ (∀ x ∈ ws, x.accepts = ∅) ∧
      s.outbound.wire = w.session.outbound.wire ++
        ((if msg.isSync then acceptWire (acceptedWith w.session.outbound.accepted msg) else []) ++
          [.completion commands]) ++ ws := by
  rcases SessionState.received_ok ok with ⟨method, s₁, kind, -, -, handled, rfl⟩ |
    ⟨s₁, s₂, -, assembled, ⟨-, -, execution, registry, accepted, ws, wire, silent⟩, rfl⟩
  · obtain ⟨-, -, -, -, -, pending⟩ := SessionState.handleCommand_frame kind handled
    refine absurd ?_ popped
    rcases pending with same | added
    · exact same ▸ queued
    · exact added ▸ List.mem_append_left _ queued
  · simp only [SessionState.withReceiver_execution, execution] at popped
    obtain ⟨msg, -, rest⟩ := SessionState.assembleContent_owned assembled
    split at rest
    · rcases SessionState.endReceiveCompletion_ok rest with ⟨-, -, complete⟩ | ⟨-, -, rfl⟩ | ⟨-, rfl⟩
      · have begun : S < (w.session.withReceiver Receiver.record).execution.receiver.next :=
          (inv.queued S queued).trans_le (Receiver.next_le_record_next _)
        obtain ⟨commands, reported, sent⟩ :=
          SessionState.completeRcvMsg_releases complete begun queued popped
        refine ⟨msg, commands, ws, ?_, ?_, reported, silent, ?_⟩
        · rw [SessionState.withReceiver_registry, registry,
            (SessionState.completeRcvMsg_frame complete).2.2.2.2.1]; rfl
        · rw [SessionState.withReceiver_outbound, accepted, SessionState.completeRcvMsg_accepted complete]; rfl
        · rw [SessionState.withReceiver_outbound, wire, sent]; rfl
      all_goals exact absurd queued popped
    · subst rest
      exact absurd queued popped

/-- A sync-flagged execution.sync that completes at once is preceded by the `message.accept` of
everything pending. A deferred sync that the loop of `completeRcvMsg` of some message pops is
reported by the completion that call sends, preceded by a `message.accept` emptying `accepted`
only when that message is sync-flagged; otherwise the accepts stay pending. -/
theorem sync_accepts_by_path (reachable : Reachable w) :
    (∀ {frame : Frame} {completesNow : Bool} {rate : RateAnswers} {w' : World},
      step w (.frame frame completesNow rate) = some w' → w'.fault = none →
      frame.method = some ⟨.executionSync, true⟩ →
      w.session.execution.receiver.closedBound ∉ w.session.execution.receiver.completedCommands →
      w.session.execution.receiver.closedBound ∉ w'.session.execution.receiver.incomplete →
      w'.session.outbound.accepted = ∅ ∧ ∃ commands, w'.session.outbound.wire =
        w.session.outbound.wire ++ (acceptWire w.session.outbound.accepted ++ [.completion commands])) ∧
    ∀ {a : Action} {w' : World} {S : Nat}, step w a = some w' →
      S ∈ w.session.execution.pendingExecutionSyncs → S ∉ w'.session.execution.pendingExecutionSyncs →
      ∃ msg commands ws, w'.session.registry.completed = w.session.registry.completed ++ [msg] ∧
        w'.session.outbound.accepted =
          (if msg.isSync then ∅ else acceptedWith w.session.outbound.accepted msg) ∧
        S ∈ commands ∧ (∀ x ∈ ws, x.accepts = ∅) ∧
        w'.session.outbound.wire = w.session.outbound.wire ++
          ((if msg.isSync then acceptWire (acceptedWith w.session.outbound.accepted msg) else []) ++
            [.completion commands]) ++ ws := by
  have inv := ReachableBy.inv reachable
  refine ⟨fun stepped running method fresh done => ?_, @fun _ _ S stepped queued popped => ?_⟩
  · obtain ⟨-, ok⟩ := step_frame stepped running
    exact received_executionSync inv.begun method ok fresh done
  rcases step_session stepped with still | ⟨frame, completesNow, rate, rfl, -, ok⟩ | ⟨msg, -, ok⟩
  · exact absurd (by rw [still.1]; exact queued) popped
  · exact received_releases inv ok queued popped
  · obtain ⟨commands, reported, sent⟩ :=
      SessionState.completeRcvMsg_releases ok (inv.queued S queued) queued popped
    exact ⟨msg, commands, [], by rw [(SessionState.completeRcvMsg_frame ok).2.2.2.2.1],
      SessionState.completeRcvMsg_accepted ok, reported, nofun, by rw [sent, List.append_nil]⟩

theorem sync_accepts_by_path_runs :
    (∃ w w', Reachable w ∧ step w (.frame syncFrame false ⟨false, 0, false⟩) = some w' ∧
      w'.fault = none ∧
      w.session.execution.receiver.closedBound ∉ w.session.execution.receiver.completedCommands ∧
      w.session.execution.receiver.closedBound ∉ w'.session.execution.receiver.incomplete ∧
      w'.session.outbound.accepted = ∅ ∧ ∃ commands, w'.session.outbound.wire =
        w.session.outbound.wire ++ (acceptWire w.session.outbound.accepted ++ [.completion commands])) ∧
    ∃ w w', Reachable w ∧ step w .drainStep = some w' ∧
      1 ∈ w.session.execution.pendingExecutionSyncs ∧ 1 ∉ w'.session.execution.pendingExecutionSyncs ∧
      ∃ msg commands ws, w'.session.registry.completed = w.session.registry.completed ++ [msg] ∧
        w'.session.outbound.accepted =
          (if msg.isSync then ∅ else acceptedWith w.session.outbound.accepted msg) ∧
        1 ∈ commands ∧ (∀ x ∈ ws, x.accepts = ∅) ∧
        w'.session.outbound.wire = w.session.outbound.wire ++
          ((if msg.isSync then acceptWire (acceptedWith w.session.outbound.accepted msg) else []) ++
            [.completion commands]) ++ ws := by
  obtain ⟨w, w', reachable, stepped, holds⟩ := @step_of_run (fun _ => True) none 0
    [.frame transferFrame true ⟨false, 0, false⟩] (.frame syncFrame false ⟨false, 0, false⟩)
    (fun w w' => decide (w'.fault = none) &&
      decide (w.session.execution.receiver.closedBound ∉ w.session.execution.receiver.completedCommands) &&
      decide (w.session.execution.receiver.closedBound ∉ w'.session.execution.receiver.incomplete))
    (fun _ _ => trivial) (by decide)
  obtain ⟨v, v', reached, released, pending⟩ := @step_of_run (fun _ => True) none 0 releaseRun
    .drainStep (fun w w' => decide (1 ∈ w.session.execution.pendingExecutionSyncs) &&
      decide (1 ∉ w'.session.execution.pendingExecutionSyncs))
    (fun _ _ => trivial) (by decide)
  simp only [Bool.and_eq_true, decide_eq_true_eq] at holds pending
  exact ⟨⟨w, w', reachable, stepped, holds.1.1, holds.1.2, holds.2,
      (sync_accepts_by_path reachable).1 stepped holds.1.1 rfl holds.1.2 holds.2⟩,
    v, v', reached, released, pending.1, pending.2,
      (sync_accepts_by_path reached).2 released pending.1 pending.2⟩

/-- An execution.sync without the sync flag in a frame that ends its frameset but not its segment:
the first frame of a two-frame command segment, which `handleIn` does not refuse. -/
def splitSyncFrame : Frame := ⟨some ⟨.executionSync, false⟩, true, true, true, false⟩

/-- A one-frame command the adapter handles, without the sync flag. -/
def commandFrame : Frame := ⟨some ⟨.other true false, false⟩, true, true, true, true⟩

/-- Transfer 0 waits for its async completion, and execution.sync 1 arrives in `splitSyncFrame`
and is deferred behind it. -/
def splitSyncRun : List Action :=
  [.frame transferFrame false ⟨false, 0, false⟩, .frame splitSyncFrame false ⟨false, 0, false⟩]

end Qpid.Broker.Completion
