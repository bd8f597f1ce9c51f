import Qpid.Broker.SyncQueue

/-!
Which thread can stop a session, and with which failure, over every run and whatever frames the
peer sends. The I/O thread's own actions (`readyToSend`, `deliver`, `detach`, `attach`, the
destructor) and the first half of a completer callback never fail; a frame fails only on what the
peer sent (a command the adapter does not handle, a command in several frames, content with no
message begun) or at `front()` of an empty incomplete set, which a drain and the second half of a
sync callback may also meet; and a null `handler` or a freed session is met only by the timer's
`fire`, a posted `sendCredit`, and the second half of an async callback.

Each session operation gets one lemma, `Guarded`: the failures it may end with, and that every
result keeps the handler and the output flag it started from. The world's step then reads its
failures off these, with the invariant that an active output or a sync callback half way has a
handler.
-/

namespace Qpid.Broker.Faults
open Framing Session Threads ExecutionSync Invariant SyncQueue

/-- The failures the peer's frames cause: a command the adapter does not handle, a command in more
than one frame, and content with no message begun. -/
def ByPeer (f : Failure) : Prop := f = .notImplemented ∨ f = .multiFrameCommand ∨ f = .noMessage

/-- A session operation, started on a session with `handler` and output flag `active`, that fails
only with a failure of `allowed` or, with no handler, a use of the null handler; and whose every
result keeps that handler and that flag. -/
structure Guarded {α : Type} (result : Except Failure α) (allowed : Failure → Prop)
    (handler : Option Nat) (active : Bool) (state : α → SessionState) : Prop where
  fails : ∀ f, result = .error f → allowed f ∨ handler = none ∧ ∃ via, f = .detached via
  keeps : ∀ a, result = .ok a → (state a).handler = handler ∧ (state a).outputActive = active

namespace Guarded
variable {α β : Type} {allowed allowed' : Failure → Prop} {handler : Option Nat} {active : Bool}
  {state : α → SessionState}

theorem pure {a : α} (same : (state a).handler = handler ∧ (state a).outputActive = active) :
    Guarded (pure a : Except Failure α) allowed handler active state :=
  ⟨fun _ failed => (nomatch failed), fun _ ok => by cases ok; exact same⟩

theorem error {f : Failure} (bad : allowed f) :
    Guarded (.error f : Except Failure α) allowed handler active state :=
  ⟨fun _ failed => by cases failed; exact .inl bad, fun _ ok => nomatch ok⟩

theorem bind {x : Except Failure α} {g : α → Except Failure β} {state' : β → SessionState}
    (first : Guarded x allowed handler active state)
    (rest : ∀ a, x = .ok a → Guarded (g a) allowed (state a).handler (state a).outputActive state') :
    Guarded (x >>= g) allowed handler active state' := by
  cases x with
  | error e =>
    refine ⟨fun f failed => ?_, fun _ ok => nomatch ok⟩
    cases failed
    exact first.fails e rfl
  | ok a =>
    obtain ⟨same, flag⟩ := first.keeps a rfl
    have later := rest a rfl
    rw [same, flag] at later
    exact later

theorem mono {x : Except Failure α} (guarded : Guarded x allowed handler active state)
    (wider : ∀ f, allowed f → allowed' f) : Guarded x allowed' handler active state :=
  ⟨fun f failed => (guarded.fails f failed).imp (wider f) id, guarded.keeps⟩

end Guarded

namespace SessionState
open Session.SessionState

variable {s : SessionState}

/-- A use of the handler fails exactly on a session with no handler. -/
theorem use_guarded (via : HandlerUse) :
    Guarded (s.use via) (fun _ => False) s.handler s.outputActive (fun _ => s) := by
  refine ⟨fun f failed => .inr ?_, fun _ _ => ⟨rfl, rfl⟩⟩
  unfold use at failed
  split at failed
  · cases failed
  next detached =>
    cases failed
    exact ⟨Option.not_isSome_iff_eq_none.1 detached, via, rfl⟩

theorem send_guarded (via : HandlerUse) (w : Wire) :
    Guarded (s.send via w) (fun _ => False) s.handler s.outputActive id := by
  refine ⟨fun f failed => .inr ?_, fun t ok => by obtain ⟨-, rfl⟩ := send_ok.1 ok; exact ⟨rfl, rfl⟩⟩
  unfold send at failed
  split at failed
  · cases failed
  next detached =>
    cases failed
    exact ⟨Option.not_isSome_iff_eq_none.1 detached, via, rfl⟩

theorem processSendCredit_guarded (msgs : Nat) (rate : RateAnswers) :
    Guarded (s.processSendCredit msgs rate) (fun _ => False) s.handler s.outputActive Prod.fst := by
  unfold processSendCredit
  split
  · exact (send_guarded _ _).bind fun _ _ => .pure ⟨rfl, rfl⟩
  split
  · exact (send_guarded _ _).bind fun _ _ => .pure ⟨rfl, rfl⟩
  · exact .pure ⟨rfl, rfl⟩

theorem sendCredit_guarded (task : Nat) (rate : RateAnswers) :
    Guarded (s.sendCredit task rate) (fun _ => False) s.handler s.outputActive id :=
  (processSendCredit_guarded _ _).bind fun ⟨_, credited⟩ _ => .pure (by cases credited <;> exact ⟨rfl, rfl⟩)

/-- `readyToSend` turns the output flag on, and fails only without a handler. -/
theorem readyToSend_guarded : Guarded s.readyToSend (fun _ => False) s.handler true id := by
  unfold readyToSend
  dsimp only
  split
  · exact .pure ⟨rfl, rfl⟩
  · exact (send_guarded _ _).bind fun _ _ => send_guarded _ _

theorem deliver_guarded (sync : Bool) :
    Guarded (s.deliver sync) (fun _ => False) s.handler s.outputActive id := by
  unfold deliver
  refine (use_guarded _).bind fun _ _ => (send_guarded _ _).bind fun _ _ => ?_
  split
  · exact send_guarded _ _
  · exact .pure ⟨rfl, rfl⟩

theorem sendAcceptAndCompletion_guarded :
    Guarded s.sendAcceptAndCompletion (fun _ => False) s.handler s.outputActive id := by
  unfold sendAcceptAndCompletion
  dsimp only
  split
  · exact (Guarded.pure ⟨rfl, rfl⟩).bind fun _ _ => send_guarded _ _
  · exact (send_guarded _ _).bind fun _ _ => (Guarded.pure ⟨rfl, rfl⟩).bind fun _ _ => send_guarded _ _

theorem releaseExecutionSyncs_guarded (s : SessionState) :
    ∀ (q : List Nat) (r : Receiver), Guarded (releaseExecutionSyncs q r) (· = .emptyIncomplete)
      s.handler s.outputActive (fun _ => s)
  | [], _ => .pure ⟨rfl, rfl⟩
  | id :: rest, r => by
    unfold releaseExecutionSyncs
    split
    · exact .error rfl
    split
    · exact (releaseExecutionSyncs_guarded s rest _).bind fun _ _ => .pure ⟨rfl, rfl⟩
    · exact .pure ⟨rfl, rfl⟩

/-- `completeRcvMsg` fails only at `front()` of an empty incomplete set, or without a handler. -/
theorem completeRcvMsg_guarded (msg : Msg) :
    Guarded (s.completeRcvMsg msg) (· = .emptyIncomplete) s.handler s.outputActive id := by
  unfold completeRcvMsg
  refine (releaseExecutionSyncs_guarded _ _ _).bind fun ⟨_, _, _⟩ _ => ?_
  dsimp only
  split
  · exact sendAcceptAndCompletion_guarded.mono nofun
  split
  · exact (send_guarded _ _).mono nofun
  · exact .pure ⟨rfl, rfl⟩

theorem addPendingExecutionSync_guarded :
    Guarded s.addPendingExecutionSync (· = .emptyIncomplete) s.handler s.outputActive id := by
  unfold addPendingExecutionSync
  dsimp only
  split
  · exact .error rfl
  · split <;> exact .pure ⟨rfl, rfl⟩

theorem invoke_guarded (method : MethodBody) :
    Guarded (s.invoke method) (· = .emptyIncomplete) s.handler s.outputActive Prod.fst := by
  unfold invoke
  split
  · exact addPendingExecutionSync_guarded.bind fun _ _ => .pure ⟨rfl, rfl⟩
  all_goals exact .pure ⟨rfl, rfl⟩

theorem handleCommand_guarded (method : MethodBody) (command : Nat) :
    Guarded (s.handleCommand method command) (fun f => f = .notImplemented ∨ f = .emptyIncomplete)
      s.handler s.outputActive id := by
  unfold handleCommand
  refine ((invoke_guarded method).mono fun _ => .inr).bind fun ⟨t, invocation⟩ _ => ?_
  have finish : ∀ u : SessionState, Guarded
      (if (method.sync && u.execution.currentCommandComplete) = true then u.sendAcceptAndCompletion
        else pure u) (fun f => f = .notImplemented ∨ f = .emptyIncomplete) u.handler u.outputActive id :=
      fun u => by
    split
    · exact sendAcceptAndCompletion_guarded.mono nofun
    · exact .pure ⟨rfl, rfl⟩
  have completed : (if t.execution.currentCommandComplete then t.receiverCompleted command else t).handler =
      t.handler ∧ (if t.execution.currentCommandComplete then t.receiverCompleted command else t).outputActive =
      t.outputActive := by
    split <;> exact ⟨rfl, rfl⟩
  dsimp only
  rw [← completed.1, ← completed.2]
  split
  · exact .error (.inl rfl)
  split
  · exact ((send_guarded _ _).mono nofun).bind fun u _ => finish u
  · exact (Guarded.pure ⟨rfl, rfl⟩).bind fun u _ => finish u

theorem buildMessage_guarded (frame : Frame) (command : Nat) :
    Guarded (s.buildMessage frame command) (· = .noMessage) s.handler s.outputActive (fun _ => s) := by
  have built : ∀ builder : Option Msg, Guarded
      (match builder with
        | some msg => pure { msg with frames := msg.frames ++ [frame] }
        | none => (.error .noMessage : Except Failure Msg))
      (· = .noMessage) s.handler s.outputActive (fun _ => s) := fun builder => by
    split
    · exact .pure ⟨rfl, rfl⟩
    · exact .error rfl
  have none : Guarded (.error .noMessage : Except Failure (Option Msg)) (· = .noMessage) s.handler
      s.outputActive fun _ => s := .error rfl
  unfold buildMessage
  dsimp only
  split
  · split
    · exact (Guarded.pure ⟨rfl, rfl⟩).bind fun _ _ => built _
    · exact none.bind fun _ _ => built _
  · exact (Guarded.pure ⟨rfl, rfl⟩).bind fun _ _ => built _

theorem endReceiveCompletion_guarded (msg : Msg) (completesNow : Bool) :
    Guarded (s.endReceiveCompletion msg completesNow) (· = .emptyIncomplete) s.handler
      s.outputActive id := by
  unfold endReceiveCompletion
  split
  · split
    · exact completeRcvMsg_guarded msg
    · exact .pure ⟨rfl, rfl⟩
  · exact .pure ⟨rfl, rfl⟩

theorem assembleContent_guarded (frame : Frame) (command : Nat) (completesNow : Bool) :
    Guarded (s.assembleContent frame command completesNow) (fun f => f = .noMessage ∨ f = .emptyIncomplete)
      s.handler s.outputActive id := by
  unfold assembleContent
  refine ((buildMessage_guarded frame command).mono fun _ => .inl).bind fun _ _ => ?_
  split
  · exact ((use_guarded _).mono nofun).bind fun _ _ =>
      (endReceiveCompletion_guarded _ _).mono fun _ => .inr
  · exact .pure ⟨rfl, rfl⟩

theorem contentFlowControl_guarded (frame : Frame) (rate : RateAnswers) :
    Guarded (s.contentFlowControl frame rate) (fun _ => False) s.handler s.outputActive id := by
  unfold contentFlowControl
  split
  · exact (processSendCredit_guarded _ _).bind fun ⟨_, credited⟩ _ =>
      .pure (by cases credited <;> exact ⟨rfl, rfl⟩)
  · exact .pure ⟨rfl, rfl⟩

/-- Handling a frame fails only on what the peer sent, at `front()` of an empty incomplete set,
or without a handler; and keeps the handler and the output flag. -/
theorem received_guarded (frame : Frame) (completesNow : Bool) (rate : RateAnswers) :
    Guarded (s.received frame completesNow rate) (fun f => ByPeer f ∨ f = .emptyIncomplete) s.handler
      s.outputActive id := by
  have content : ∀ command, Guarded
      ((s.withReceiver Receiver.record).handleContent frame command completesNow rate)
      (fun f => ByPeer f ∨ f = .emptyIncomplete) s.handler s.outputActive id := fun command =>
    ((assembleContent_guarded frame command completesNow).mono fun f allowed =>
        allowed.elim (fun none => .inl (.inr (.inr none))) .inr).bind fun _ _ =>
      (contentFlowControl_guarded frame rate).mono nofun
  unfold received handleIn
  refine Guarded.bind (?_ : Guarded _ _ s.handler s.outputActive id) fun _ _ => .pure ⟨rfl, rfl⟩
  dsimp only
  split
  · split
    · exact content _
    split
    · exact (handleCommand_guarded _ _).mono fun f allowed =>
        allowed.elim (fun unhandled => .inl (.inl unhandled)) .inr
    · exact .error (.inl (.inr (.inl rfl)))
  · exact content _

end SessionState

/-! ### The threads' steps -/

variable {w w' : World}

/-- A session whose output is active, or whose sync callback is half way, has a handler:
`readyToSend` turns the output on and a sync callback goes on only on an attached session, and
`detach`, which drops the handler, waits for the I/O thread. -/
structure Attached (w : World) : Prop where
  output : w.session.outputActive = true → w.session.isAttached = true
  completing : w.completing ≠ [] → w.session.isAttached = true

theorem Attached.of_link (holds : Attached w)
    (handler : w'.session.handler = w.session.handler)
    (active : w'.session.outputActive = w.session.outputActive)
    (fewer : w'.completing ⊆ w.completing) : Attached w' := by
  have attached : w'.session.isAttached = w.session.isAttached := by
    simp only [SessionState.isAttached, handler]
  exact ⟨fun output => attached ▸ holds.output (active ▸ output),
    fun waiting => attached ▸ holds.completing fun none => waiting (List.subset_nil.1 (none ▸ fewer))⟩

/-- A world that ran a guarded session operation keeps the handler and the output flag. -/
theorem Attached.update {α : Type} {result : Except Failure α} {next : α → World}
    {allowed : Failure → Prop} {state : α → SessionState} (holds : Attached w)
    (guarded : Guarded result allowed w.session.handler w.session.outputActive state)
    (kept : ∀ a, (next a).session.handler = (state a).handler ∧
      (next a).session.outputActive = (state a).outputActive ∧ (next a).completing ⊆ w.completing) :
    Attached (w.update result next) := by
  cases ok : result with
  | error => exact ⟨holds.1, holds.2⟩
  | ok a =>
    obtain ⟨handler, active⟩ := guarded.keeps a ok
    exact holds.of_link ((kept a).1.trans handler) ((kept a).2.1.trans active) (kept a).2.2

theorem callback_link (msg : Msg) (sync : Bool) :
    (w.callback msg sync).session.handler = w.session.handler ∧
      (w.callback msg sync).session.outputActive = w.session.outputActive := by
  unfold World.callback
  dsimp only
  split_ifs <;> exact ⟨rfl, rfl⟩

/-- A sync callback adds to `completing` only on an attached session. -/
theorem Attached.callback (holds : Attached w) (msg : Msg) (sync : Bool) :
    Attached (w.callback msg sync) := by
  obtain ⟨handler, active⟩ := @callback_link w msg sync
  have attached : (w.callback msg sync).session.isAttached = w.session.isAttached := by
    simp only [SessionState.isAttached, handler]
  refine ⟨fun output => attached ▸ holds.output (active ▸ output), fun waiting => attached ▸ ?_⟩
  simp only [World.callback] at waiting
  split_ifs at waiting <;> first | assumption | exact holds.completing waiting

theorem Attached.step (holds : Attached w) {a : Action}
    (stepped : Threads.step w a = some w') : Attached w' := by
  have same : w.completing ⊆ w.completing := List.Subset.refl _
  obtain ⟨-, effect⟩ := step_eq_some stepped
  cases a with
  | frame frame completesNow rate =>
    obtain ⟨-, -, -, -, rfl⟩ := effect
    exact holds.update (SessionState.received_guarded _ _ _) fun _ => ⟨rfl, rfl, same⟩
  | readyToSend =>
    obtain ⟨-, -, -, attached, rfl⟩ := effect
    cases ready : w.session.readyToSend with
    | error => simp only [World.update, ready]; exact ⟨holds.1, holds.2⟩
    | ok s =>
      have handler : s.handler = w.session.handler := (SessionState.readyToSend_guarded.keeps s ready).1
      have now : s.isAttached = true := by rw [SessionState.isAttached, handler]; exact attached
      simp only [World.update, ready]
      exact ⟨fun _ => now, fun _ => now⟩
  | deliver sync =>
    obtain ⟨-, -, -, -, rfl⟩ := effect
    exact holds.update (SessionState.deliver_guarded _) fun _ => ⟨rfl, rfl, same⟩
  | detach =>
    obtain ⟨-, settled, -, rfl⟩ := effect
    exact ⟨nofun, fun waiting => absurd settled waiting⟩
  | attach handler =>
    obtain ⟨-, -, -, rfl⟩ := effect
    exact ⟨fun _ => rfl, fun _ => rfl⟩
  | startDrain =>
    obtain ⟨-, -, -, rfl⟩ := effect
    exact ⟨holds.1, holds.2⟩
  | drainStep =>
    obtain ⟨d, -, rfl⟩ := effect
    cases d with
    | check =>
      cases queued : w.session.registry.scheduledRcvMsgs <;> simp only [World.drainStep, queued] <;>
        exact ⟨holds.1, holds.2⟩
    | pop msg => exact ⟨holds.1, holds.2⟩
    | complete msg =>
      simp only [World.drainStep]
      split
      · exact holds.update (SessionState.completeRcvMsg_guarded _) fun _ => ⟨rfl, rfl, same⟩
      · exact ⟨holds.1, holds.2⟩
  | sendCredit task rate =>
    obtain ⟨-, -, -, rfl⟩ := effect
    split
    · exact ⟨holds.1, holds.2⟩
    · exact holds.update (SessionState.sendCredit_guarded _ _) fun _ => ⟨rfl, rfl, same⟩
  | fire task =>
    obtain ⟨-, rfl⟩ := effect
    unfold World.fire
    split
    · exact ⟨holds.1, holds.2⟩
    · exact holds.update (SessionState.use_guarded _) fun _ => ⟨rfl, rfl, same⟩
  | callback msg sync =>
    obtain ⟨-, -, -, -, rfl⟩ := effect
    exact holds.callback msg sync
  | resumePush msg =>
    obtain ⟨-, rfl⟩ := effect
    unfold World.resumePush
    split
    · exact holds.update (SessionState.use_guarded _) fun _ => ⟨rfl, rfl, same⟩
    · exact ⟨holds.1, holds.2⟩
  | resumeComplete msg =>
    obtain ⟨-, rfl⟩ := effect
    exact holds.update (SessionState.completeRcvMsg_guarded _) fun _ =>
      ⟨rfl, rfl, List.erase_subset _ _⟩
  | destroy =>
    obtain ⟨-, -, -, -, rfl⟩ := effect
    exact ⟨holds.1, holds.2⟩

theorem ReachableBy.attached {allowed : Action → Prop} (reachable : ReachableBy allowed w) :
    Attached w := by
  induction reachable with
  | initial => exact ⟨nofun, fun waiting => absurd rfl waiting⟩
  | step _ _ stepped holds => exact holds.step stepped

/-- A step that stopped the world on a session operation: the operation failed so. -/
theorem update_error {α : Type} {result : Except Failure α} {next : α → World} {f : Failure}
    (faulted : (w.update result next).fault = some f) (running : ∀ a, (next a).fault = none) :
    result = .error f := by
  cases result with
  | error e =>
    simp only [World.update, Option.some.injEq] at faulted
    rw [faulted]
  | ok a =>
    rw [World.update, running a] at faulted
    cases faulted

/-- A step that stopped the world on a guarded session operation stopped it with a failure the
operation allows, or on a use of a missing handler. -/
theorem Guarded.stopped {α : Type} {result : Except Failure α} {next : α → World} {f : Failure}
    {allowed : Failure → Prop} {handler : Option Nat} {active : Bool} {state : α → SessionState}
    (guarded : Guarded result allowed handler active state)
    (faulted : (w.update result next).fault = some f) (running : ∀ a, (next a).fault = none) :
    allowed f ∨ handler = none ∧ ∃ via, f = .detached via :=
  guarded.fails f (update_error faulted running)

/-- Which action can stop a session, and with what, from every reachable world: a frame only on
what the peer sent or at `front()` of an empty incomplete set; a drain and the second half of a
sync callback only at that `front()`; the timer's `fire` and a posted `sendCredit` only after the
destructor or on a session with no handler; the second half of an async callback only on a
session with no handler; and no other action at all. -/
theorem fault_sources {a : Action} {f : Failure} (reachable : Reachable w)
    (stepped : Threads.step w a = some w') (faulted : w'.fault = some f) :
    match a with
    | .frame _ _ _ => ByPeer f ∨ f = .emptyIncomplete
    | .drainStep | .resumeComplete _ => f = .emptyIncomplete
    | .fire _ | .sendCredit _ _ =>
      w.destroyed = true ∧ f = .useAfterFree ∨ w.session.handler = none ∧ ∃ via, f = .detached via
    | .resumePush _ => w.session.handler = none ∧ ∃ via, f = .detached via
    | _ => False := by
  have attachedness := ReachableBy.attached reachable
  obtain ⟨running, effect⟩ := step_eq_some stepped
  have kept : ∀ {w₁ : World}, w₁.fault = w.fault → w₁.fault ≠ some f := fun same => by
    rw [same, running]; nofun
  have attachedOnly : ∀ {allowed : Prop}, w.session.isAttached = true →
      (allowed ∨ w.session.handler = none ∧ ∃ via, f = .detached via) → allowed :=
    fun attached failed => failed.resolve_right fun ⟨absent, _⟩ => by
      simp [SessionState.isAttached, absent] at attached
  cases a with
  | frame frame completesNow rate =>
    obtain ⟨-, -, -, attached, rfl⟩ := effect
    exact attachedOnly attached ((SessionState.received_guarded _ _ _).stopped faulted fun _ => running)
  | readyToSend =>
    obtain ⟨-, -, -, attached, rfl⟩ := effect
    exact attachedOnly attached (SessionState.readyToSend_guarded.stopped faulted fun _ => running)
  | deliver sync =>
    obtain ⟨-, -, -, active, rfl⟩ := effect
    exact attachedOnly (attachedness.output active)
      ((SessionState.deliver_guarded _).stopped faulted fun _ => running)
  | detach | attach | startDrain =>
    obtain ⟨-, -, -, rfl⟩ := effect
    exact kept rfl faulted
  | drainStep =>
    obtain ⟨d, -, rfl⟩ := effect
    cases d with
    | check => cases queued : w.session.registry.scheduledRcvMsgs <;>
        simp only [World.drainStep, queued] at faulted <;> exact (kept rfl faulted).elim
    | pop msg => exact (kept rfl faulted).elim
    | complete msg =>
      simp only [World.drainStep] at faulted
      split at faulted
      next live =>
        simp only [Bool.and_eq_true] at live
        exact attachedOnly live.2 ((SessionState.completeRcvMsg_guarded _).stopped faulted fun _ => running)
      · exact (kept rfl faulted).elim
  | sendCredit task rate =>
    obtain ⟨-, -, -, rfl⟩ := effect
    split at faulted
    next destroyed =>
      cases faulted
      exact .inl ⟨destroyed, rfl⟩
    · exact .inr (((SessionState.sendCredit_guarded _ _).stopped faulted fun _ => running).resolve_left id)
  | fire task =>
    obtain ⟨-, rfl⟩ := effect
    unfold World.fire at faulted
    split at faulted
    next destroyed =>
      cases faulted
      exact .inl ⟨destroyed, rfl⟩
    · exact .inr (((SessionState.use_guarded _).stopped faulted fun _ => running).resolve_left id)
  | callback msg sync =>
    obtain ⟨-, -, -, -, rfl⟩ := effect
    exact kept (callback_fault msg sync) faulted
  | resumePush msg =>
    obtain ⟨-, rfl⟩ := effect
    unfold World.resumePush at faulted
    split at faulted
    · exact ((SessionState.use_guarded _).stopped faulted fun _ => running).resolve_left id
    · exact (kept rfl faulted).elim
  | resumeComplete msg =>
    obtain ⟨waiting, rfl⟩ := effect
    exact attachedOnly (attachedness.completing (List.ne_nil_of_mem waiting))
      ((SessionState.completeRcvMsg_guarded _).stopped faulted fun _ => running)
  | destroy =>
    obtain ⟨-, -, -, -, rfl⟩ := effect
    exact kept rfl faulted

theorem fault_sources_fire : ∃ w w', Reachable w ∧ Threads.step w (.fire 0) = some w' ∧
    w'.fault = some (.detached .getConnection) ∧
    (w.destroyed = true ∧ Failure.detached .getConnection = .useAfterFree ∨
      w.session.handler = none ∧ ∃ via, Failure.detached .getConnection = .detached via) := by
  obtain ⟨w, w', reachable, stepped, holds⟩ := @step_of_run (fun _ => True) (some 10) 0
    [.frame creditFrame true ⟨false, 0, true⟩, .detach] (.fire 0)
    (fun _ w' => w'.fault == some (.detached .getConnection)) (fun _ _ => trivial) (by decide)
  have faulted : w'.fault = some (.detached .getConnection) := by simpa using holds
  exact ⟨w, w', reachable, stepped, faulted, fault_sources reachable stepped faulted⟩

end Qpid.Broker.Faults
