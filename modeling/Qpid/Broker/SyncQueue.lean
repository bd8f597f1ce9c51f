import Qpid.Broker.WellFramed

/-!
The queue of deferred execution.sync commands, and the `front()` of the incomplete set that
`addPendingExecutionSync` and the loop of `completeRcvMsg` read. In the model `front()` of an
empty set stops the world with `emptyIncomplete`. Every operation a step runs avoids it once the
session keeps `SyncInv` and the command being handled is incomplete, so no well-framed run
reaches it, and on such runs the queue stays sorted, incomplete and blocked. A command frame that
ends its frameset but not its segment breaks this: the sync it defers is completed by the next
command, and the loop of `completeRcvMsg` then reads `front()` of an empty set.
-/

namespace Qpid.Broker.SyncQueue
open Framing Session Threads ExecutionSync Invariant WellFramed

/-- A result that did not stop at `front()` of an empty incomplete set. -/
def NoEmptyFront {α : Type} (result : Except Failure α) : Prop := result ≠ .error .emptyIncomplete

theorem NoEmptyFront.pure {α : Type} (a : α) : NoEmptyFront (pure a : Except Failure α) := nofun

theorem NoEmptyFront.bind {α β : Type} {x : Except Failure α} {f : α → Except Failure β}
    (first : NoEmptyFront x) (rest : ∀ a, x = .ok a → NoEmptyFront (f a)) :
    NoEmptyFront (x >>= f) := by
  cases x with
  | error e =>
    rw [error_bind]
    rintro ⟨⟩
    exact first rfl
  | ok a => rw [ok_bind]; exact rest a rfl

namespace SessionState
open Session.SessionState
variable {s : SessionState}

theorem use_noEmptyFront (via : HandlerUse) : NoEmptyFront (s.use via) := by
  unfold use; split <;> nofun

theorem send_noEmptyFront (via : HandlerUse) (w : Wire) : NoEmptyFront (s.send via w) := by
  unfold send; split <;> nofun

theorem processSendCredit_noEmptyFront (msgs : Nat) (rate : RateAnswers) :
    NoEmptyFront (s.processSendCredit msgs rate) := by
  unfold processSendCredit
  split
  · exact (send_noEmptyFront _ _).bind fun _ _ => .pure _
  split
  · exact (send_noEmptyFront _ _).bind fun _ _ => .pure _
  · exact .pure _

theorem readyToSend_noEmptyFront : NoEmptyFront s.readyToSend := by
  unfold readyToSend
  dsimp only
  split
  · exact .pure _
  · exact (send_noEmptyFront _ _).bind fun _ _ => send_noEmptyFront _ _

theorem deliver_noEmptyFront (sync : Bool) : NoEmptyFront (s.deliver sync) := by
  unfold deliver
  refine (use_noEmptyFront _).bind fun _ _ => (send_noEmptyFront _ _).bind fun _ _ => ?_
  split
  · exact send_noEmptyFront _ _
  · exact .pure _

theorem sendCredit_noEmptyFront (task : Nat) (rate : RateAnswers) :
    NoEmptyFront (s.sendCredit task rate) :=
  (processSendCredit_noEmptyFront _ _).bind fun _ _ => .pure _

theorem sendAcceptAndCompletion_noEmptyFront : NoEmptyFront s.sendAcceptAndCompletion := by
  unfold sendAcceptAndCompletion
  dsimp only
  split
  · exact (NoEmptyFront.pure _).bind fun _ _ => send_noEmptyFront _ _
  · exact (send_noEmptyFront _ _).bind fun _ _ => (NoEmptyFront.pure _).bind fun _ _ =>
      send_noEmptyFront _ _

/-- The loop of `completeRcvMsg` meets a non-empty set while queued syncs are left. -/
theorem completeRcvMsg_noEmptyFront (inv : SyncInv s.execution) {msg : Msg}
    (notSync : msg.id ∉ s.execution.executionSyncs) : NoEmptyFront (s.completeRcvMsg msg) := by
  obtain ⟨result, released⟩ := @releaseExecutionSyncs_isOk _ (s.execution.receiver.completed msg.id)
    inv.sorted.nodup fun S member => Finset.mem_erase.2
      ⟨fun same => notSync (same ▸ inv.pending_sync S member), inv.pending_incomplete S member⟩
  have loop : NoEmptyFront (releaseExecutionSyncs s.execution.pendingExecutionSyncs
      (s.execution.receiver.completed msg.id)) := by rw [released]; nofun
  unfold completeRcvMsg
  refine loop.bind fun ⟨_, _, _⟩ _ => ?_
  dsimp only
  split
  · exact sendAcceptAndCompletion_noEmptyFront
  split
  · exact send_noEmptyFront _ _
  · exact .pure _

/-- `addPendingExecutionSync` reads the front of a set that holds the current command. -/
theorem addPendingExecutionSync_noEmptyFront
    (member : s.execution.receiver.current ∈ s.execution.receiver.incomplete) :
    NoEmptyFront s.addPendingExecutionSync := by
  obtain ⟨first, front⟩ := Receiver.front_isSome member
  unfold addPendingExecutionSync
  rw [front]
  dsimp only
  split <;> nofun

theorem invoke_noEmptyFront (member : s.execution.receiver.current ∈ s.execution.receiver.incomplete)
    (method : MethodBody) : NoEmptyFront (s.invoke method) := by
  unfold invoke
  split
  · refine NoEmptyFront.bind ?_ fun _ _ => .pure _
    exact addPendingExecutionSync_noEmptyFront member
  all_goals exact .pure _

theorem handleCommand_noEmptyFront
    (member : s.execution.receiver.current ∈ s.execution.receiver.incomplete) (method : MethodBody)
    (id : Nat) : NoEmptyFront (s.handleCommand method id) := by
  have finish : ∀ t : SessionState, NoEmptyFront
      (if (method.sync && t.execution.currentCommandComplete) = true then t.sendAcceptAndCompletion
        else pure t) := fun t => by
    split
    · exact sendAcceptAndCompletion_noEmptyFront
    · exact .pure _
  unfold handleCommand
  dsimp only
  refine NoEmptyFront.bind (invoke_noEmptyFront ?_ method) fun ⟨_, _⟩ _ => ?_
  · exact member
  dsimp only
  split
  · nofun
  split
  · exact (send_noEmptyFront _ _).bind fun t _ => finish t
  · exact (NoEmptyFront.pure _).bind fun t _ => finish t

theorem buildMessage_noEmptyFront (frame : Frame) (id : Nat) :
    NoEmptyFront (s.buildMessage frame id) := by
  unfold buildMessage
  have built : ∀ builder : Option Msg, NoEmptyFront (match builder with
      | some msg => pure { msg with frames := msg.frames ++ [frame] }
      | none => (.error .noMessage : Except Failure Msg)) := fun builder => by
    split <;> nofun
  dsimp only
  split
  · split
    · exact (NoEmptyFront.pure _).bind fun _ _ => built _
    · exact NoEmptyFront.bind nofun fun _ _ => built _
  · exact (NoEmptyFront.pure _).bind fun _ _ => built _

theorem endReceiveCompletion_noEmptyFront (inv : SyncInv s.execution) {msg : Msg}
    (notSync : msg.id ∉ s.execution.executionSyncs) (completesNow : Bool) :
    NoEmptyFront (s.endReceiveCompletion msg completesNow) := by
  unfold endReceiveCompletion
  split
  · split
    · exact completeRcvMsg_noEmptyFront inv notSync
    · exact .pure _
  · exact .pure _

/-- On a recorded frame the message `assembleContent` may complete is the current command, which
no sync shares. -/
theorem assembleContent_noEmptyFront (inv : SyncInv s.execution) (assembling : Assembling s)
    (frame : Frame) (completesNow : Bool) :
    NoEmptyFront ((s.withReceiver Receiver.record).assembleContent frame
      (s.withReceiver Receiver.record).receiverGetCurrent completesNow) := by
  have recorded : SyncInv (s.withReceiver Receiver.record).execution := inv.record
  unfold assembleContent
  refine (buildMessage_noEmptyFront _ _).bind fun msg built => ?_
  have owner : msg.id = s.execution.receiver.record.current := by
    rcases buildMessage_id built with same | ⟨b, held, same⟩
    · exact same
    · obtain ⟨busy, current⟩ := assembling.builder b held
      simp only [same, current, Receiver.record, busy, if_true]
  have notSync : msg.id ∉ (s.withReceiver Receiver.record).execution.executionSyncs := fun sync =>
    (recorded.sync_lt_current (Receiver.record_inCommand _) _ sync).ne owner
  split
  · refine (use_noEmptyFront _).bind fun _ _ => endReceiveCompletion_noEmptyFront ?_ ?_ _
    · exact recorded
    · split <;> exact notSync
  · exact .pure _

theorem contentFlowControl_noEmptyFront (frame : Frame) (rate : RateAnswers) :
    NoEmptyFront (s.contentFlowControl frame rate) := by
  unfold contentFlowControl
  split
  · exact (processSendCredit_noEmptyFront _ _).bind fun _ _ => .pure _
  · exact .pure _

/-- Every frame the peer frames well is handled without `front()` of an empty set. -/
theorem received_noEmptyFront (inv : SyncInv s.execution) (assembling : Assembling s)
    {frame : Frame} (fits : frame.fits s.execution.receiver.inCommand) (completesNow : Bool)
    (rate : RateAnswers) : NoEmptyFront (s.received frame completesNow rate) := by
  have content : NoEmptyFront ((s.withReceiver Receiver.record).handleContent frame
      (s.withReceiver Receiver.record).receiverGetCurrent completesNow rate) :=
    (assembleContent_noEmptyFront inv assembling frame completesNow).bind fun _ _ =>
      contentFlowControl_noEmptyFront _ _
  unfold received handleIn
  refine NoEmptyFront.bind ?_ fun _ _ => .pure _
  dsimp only
  split
  · split
    · exact content
    split
    next bounds =>
      have idle := Frame.fits_bof fits (by simp only [Bool.and_eq_true] at bounds; exact bounds.1)
      exact handleCommand_noEmptyFront (Receiver.record_current_mem idle).1 _ _
    · nofun
  · exact content

end SessionState

variable {w w' : World}

theorem update_noEmptyFront {α : Type} {result : Except Failure α} {next : α → World}
    (running : w.fault = none) (safe : NoEmptyFront result) (kept : ∀ x, (next x).fault = w.fault) :
    (w.update result next).fault ≠ some .emptyIncomplete := by
  cases result with
  | error failure =>
    simp only [World.update, ne_eq, Option.some.injEq]
    rintro rfl
    exact safe rfl
  | ok x => rw [World.update, kept, running]; nofun

theorem callback_fault (msg : Msg) (sync : Bool) : (w.callback msg sync).fault = w.fault := by
  unfold World.callback
  dsimp only
  split_ifs <;> rfl

/-- No well-framed step from a world that keeps the well-framed invariant stops at `front()` of an
empty set. -/
theorem step_noEmptyFront (framed : FramedInv w) {a : Action} (fits : a.framed w = true)
    (stepped : step w a = some w') : w'.fault ≠ some .emptyIncomplete := by
  obtain ⟨running, effect⟩ := step_eq_some stepped
  have clean : w.fault ≠ some .emptyIncomplete := by rw [running]; nofun
  have completes : ∀ {msg : Msg}, msg ∈ places w → NoEmptyFront (w.session.completeRcvMsg msg) :=
    fun member => SessionState.completeRcvMsg_noEmptyFront framed.sync (framed.notSync _ member)
  cases a with
  | frame frame completesNow rate =>
    obtain ⟨-, -, -, -, rfl⟩ := effect
    exact update_noEmptyFront running
      (SessionState.received_noEmptyFront framed.sync framed.assembling fits _ _) fun _ => rfl
  | readyToSend =>
    obtain ⟨-, -, -, -, rfl⟩ := effect
    exact update_noEmptyFront running SessionState.readyToSend_noEmptyFront fun _ => rfl
  | deliver sync =>
    obtain ⟨-, -, -, -, rfl⟩ := effect
    exact update_noEmptyFront running (SessionState.deliver_noEmptyFront sync) fun _ => rfl
  | detach | attach | startDrain =>
    obtain ⟨-, -, -, rfl⟩ := effect
    exact clean
  | drainStep =>
    obtain ⟨d, held, rfl⟩ := effect
    cases d with
    | check =>
      simp only [World.drainStep]
      split <;> exact clean
    | pop msg => exact clean
    | complete msg =>
      simp only [World.drainStep]
      split
      · exact update_noEmptyFront running (completes (by simp [places, drainHeld, held])) fun _ => rfl
      · exact clean
  | sendCredit task rate =>
    obtain ⟨-, -, -, rfl⟩ := effect
    split
    · nofun
    · exact update_noEmptyFront running (SessionState.sendCredit_noEmptyFront task rate) fun _ => rfl
  | fire task =>
    obtain ⟨-, rfl⟩ := effect
    unfold World.fire
    split
    · nofun
    · exact update_noEmptyFront running (SessionState.use_noEmptyFront _) fun _ => rfl
  | callback msg sync =>
    obtain ⟨-, -, -, -, rfl⟩ := effect
    rw [callback_fault]
    exact clean
  | resumePush msg =>
    obtain ⟨-, rfl⟩ := effect
    unfold World.resumePush
    split
    · exact update_noEmptyFront running (SessionState.use_noEmptyFront _) fun _ => rfl
    · exact clean
  | resumeComplete msg =>
    obtain ⟨waiting, rfl⟩ := effect
    exact update_noEmptyFront running (completes (by simp [places, waiting])) fun _ => rfl
  | destroy =>
    obtain ⟨-, -, -, -, rfl⟩ := effect
    exact clean

/-- No well-framed run stops at `front()` of an empty set. -/
theorem noEmptyFront_of_framed (framed : Framed w) : w.fault ≠ some .emptyIncomplete := by
  induction framed with
  | initial => nofun
  | step before fits stepped _ =>
    exact step_noEmptyFront (invariants_of_framed before).2 fits stepped

/-- Transfer 0 and execution.sync 1 are in; a second execution.sync arrives next. -/
def oneSyncRun : List Action :=
  [.frame Completion.transferFrame false ⟨false, 0, false⟩,
    .frame Completion.syncFrame false ⟨false, 0, false⟩]

/-- After `splitSyncRun` and the command frame that completes execution.sync 1 ahead of transfer
0, transfer 0 completes asynchronously and a drain is about to complete it. -/
def emptyFrontRun : List Action :=
  Completion.splitSyncRun ++ [.frame Completion.commandFrame false ⟨false, 0, false⟩,
    .callback Completion.transferMsg false, .resumePush Completion.transferMsg, .startDrain,
    .drainStep, .drainStep]

end Qpid.Broker.SyncQueue
