import Qpid.Broker.Session

/-!
One spec lemma per operation of the broker session: what it returns when it returns normally,
stated over the state it starts from. The invariants of the later modules cite these lemmas and
never unfold the operations. `Quiet` collects the operations that only send flow-control and
delivery commands.
-/

namespace Qpid.Broker.Session
open Framing

theorem releaseExecutionSyncs_ok {q : List Nat} {r : Receiver} {result : List Nat × Receiver × Bool}
    (ok : releaseExecutionSyncs q r = .ok result) :
    ∃ k, result = (q.drop k, { r with incomplete := r.incomplete \ (q.take k).toFinset }, decide (0 < k)) ∧
      (∀ S ∈ q.take k, ∀ c ∈ r.incomplete \ (q.take k).toFinset, S ≤ c) ∧
      (∀ S ∈ (q.drop k).head?, ∃ c ∈ r.incomplete \ (q.take k).toFinset, c < S) := by
  induction q generalizing r result with
  | nil =>
    simp only [releaseExecutionSyncs, Except.ok.injEq] at ok
    exact ⟨0, by simp [← ok], by simp, by simp⟩
  | cons id rest ih =>
    simp only [releaseExecutionSyncs] at ok
    cases front_eq : r.front with
    | none => simp [front_eq] at ok
    | some first =>
      obtain ⟨first_mem, least⟩ := Receiver.front_eq_some.1 front_eq
      simp only [front_eq] at ok
      split at ok
      next ready =>
        obtain ⟨⟨pending, r', flag⟩, inner, done⟩ := bind_eq_ok.1 ok
        simp only [pure_eq_ok, Except.ok.injEq] at done
        subst done
        obtain ⟨k, same, released, blocked⟩ := ih inner
        simp only [Prod.mk.injEq] at same
        obtain ⟨rfl, rfl, rfl⟩ := same
        have remaining : r.incomplete.erase id \ (rest.take k).toFinset =
            r.incomplete \ ((id :: rest).take (k + 1)).toFinset := by
          rw [List.take_succ_cons, List.toFinset_cons, Finset.sdiff_insert, Finset.erase_sdiff_comm]
        refine ⟨k + 1, by simp only [List.drop_succ_cons, Receiver.completed, remaining,
          Nat.succ_pos, decide_True], ?_, ?_⟩
        · intro S member c mem
          rw [← remaining] at mem
          rw [List.take_succ_cons] at member
          rcases List.mem_cons.1 member with rfl | later
          · exact ready.trans (least c (Finset.mem_of_mem_erase (Finset.mem_sdiff.1 mem).1))
          · exact released S later c mem
        · rwa [Receiver.completed_incomplete, remaining, ← List.drop_succ_cons] at blocked
      next waiting =>
        simp only [Except.ok.injEq] at ok
        exact ⟨0, by simp [← ok], by simp, by simpa using ⟨first, first_mem, by omega⟩⟩

/-- The loop never meets an empty incomplete set while the queue is duplicate-free and
incomplete. -/
theorem releaseExecutionSyncs_isOk {q : List Nat} {r : Receiver} (nodup : q.Nodup)
    (incomplete : ∀ S ∈ q, S ∈ r.incomplete) : ∃ result, releaseExecutionSyncs q r = .ok result := by
  induction q generalizing r with
  | nil => exact ⟨_, rfl⟩
  | cons id rest ih =>
    obtain ⟨first, front_eq⟩ := Receiver.front_isSome (incomplete id (List.mem_cons_self _ _))
    simp only [releaseExecutionSyncs, front_eq]
    split
    · have still : ∀ S ∈ rest, S ∈ (r.completed id).incomplete := fun S member =>
        Finset.mem_erase.2 ⟨fun same => (List.nodup_cons.1 nodup).1 (same ▸ member),
          incomplete S (List.mem_cons_of_mem _ member)⟩
      obtain ⟨result, inner⟩ := ih (List.nodup_cons.1 nodup).2 still
      exact ⟨_, by rw [inner]; rfl⟩
    · exact ⟨_, rfl⟩

/-- The `message.accept` that `sendAcceptAndCompletion` sends for `accepted`, if any. -/
def acceptWire (accepted : Finset Nat) : List Wire := if accepted = ∅ then [] else [.accept accepted]

/-- The bookkeeping once `completeRcvMsg` has completed `id` and released the first `k`
queued execution.sync commands. -/
def Execution.afterCompletion (e : Execution) (id k : Nat) : Execution :=
  ⟨⟨e.receiver.next, e.receiver.inCommand,
      e.receiver.incomplete.erase id \ (e.pendingExecutionSyncs.take k).toFinset⟩,
    e.currentCommandComplete, e.pendingExecutionSyncs.drop k, e.executionSyncs⟩

namespace SessionState
variable {s s' : SessionState}

theorem send_ok {via : HandlerUse} {w : Wire} :
    s.send via w = .ok s' ↔ s.isAttached ∧ s' = { s with outbound := s.outbound.push w } := by
  by_cases attached : s.isAttached <;> simp [send, attached, eq_comm]

theorem sendCompletion_ok : s.sendCompletion = .ok s' ↔ s.isAttached ∧
    s' = { s with outbound := s.outbound.push (.completion s.execution.receiver.completedCommands) } :=
  send_ok

theorem sendAcceptAndCompletion_ok : s.sendAcceptAndCompletion = .ok s' ↔ s.isAttached ∧
    s' = { s with outbound := ⟨∅, s.outbound.wire ++
      (acceptWire s.outbound.accepted ++ [.completion s.execution.receiver.completedCommands])⟩ } := by
  unfold sendAcceptAndCompletion sendCompletion acceptWire
  by_cases empty : s.outbound.accepted = ∅
  · simp [empty, send_ok, Outbound.push]
  · simp [empty, send_ok, bind_eq_ok, and_assoc, isAttached, Outbound.push]

theorem addPendingExecutionSync_ok : s.addPendingExecutionSync = .ok s' ↔
    ∃ first, s.execution.receiver.front = some first ∧
      s' = if first < s.execution.receiver.current then
        { s with execution := ⟨s.execution.receiver, false,
          s.execution.pendingExecutionSyncs ++ [s.execution.receiver.current], s.execution.executionSyncs⟩ }
      else s := by
  unfold addPendingExecutionSync receiverGetCurrent
  cases s.execution.receiver.front with
  | none => simp
  | some first => by_cases lt : first < s.execution.receiver.current <;> simp [lt, eq_comm]

/-- `completeRcvMsg` completes the message's command, releases the first `k` queued syncs and
sends what its two branches send. -/
theorem completeRcvMsg_ok {msg : Msg} (ok : s.completeRcvMsg msg = .ok s') :
    ∃ k, s' = { s with
        execution := s.execution.afterCompletion msg.id k
        outbound :=
          if msg.isSync then ⟨∅, s.outbound.wire ++ (acceptWire (acceptedWith s.outbound.accepted msg) ++
            [.completion (s.execution.afterCompletion msg.id k).receiver.completedCommands])⟩
          else if 0 < k then ⟨acceptedWith s.outbound.accepted msg, s.outbound.wire ++
            [.completion (s.execution.afterCompletion msg.id k).receiver.completedCommands]⟩
          else ⟨acceptedWith s.outbound.accepted msg, s.outbound.wire⟩
        registry := ⟨s.registry.incompleteRcvMsgs, s.registry.scheduledRcvMsgs,
          s.registry.completed ++ [msg]⟩ } ∧
      (msg.isSync ∨ 0 < k → s.isAttached) ∧
      (∀ S ∈ s.execution.pendingExecutionSyncs.take k,
        ∀ c ∈ (s.execution.afterCompletion msg.id k).receiver.incomplete, S ≤ c) ∧
      (∀ S ∈ (s.execution.afterCompletion msg.id k).pendingExecutionSyncs.head?,
        ∃ c ∈ (s.execution.afterCompletion msg.id k).receiver.incomplete, c < S) := by
  unfold completeRcvMsg at ok
  obtain ⟨⟨pending, receiver, flag⟩, release, finish⟩ := bind_eq_ok.1 ok
  obtain ⟨k, same, released, blocked⟩ := releaseExecutionSyncs_ok release
  simp only [Prod.mk.injEq] at same
  obtain ⟨rfl, rfl, rfl⟩ := same
  by_cases sync : msg.isSync
  · simp only [sync, if_true] at finish
    obtain ⟨attached, rfl⟩ := sendAcceptAndCompletion_ok.1 finish
    refine ⟨k, ?_, fun _ => attached, released, blocked⟩
    simp [sync, Execution.afterCompletion, receiverCompleted, Execution.complete]
  · simp only [sync, Bool.false_eq_true, if_false, decide_eq_true_eq] at finish
    by_cases some : 0 < k
    · simp only [some, if_true] at finish
      obtain ⟨attached, rfl⟩ := sendCompletion_ok.1 finish
      refine ⟨k, ?_, fun _ => attached, released, blocked⟩
      simp [sync, some, Execution.afterCompletion, receiverCompleted, Execution.complete, Outbound.push]
    · simp only [some, if_false, pure_eq_ok, Except.ok.injEq] at finish
      subst finish
      refine ⟨k, ?_, by simp [sync, some], released, blocked⟩
      simp [sync, some, Execution.afterCompletion, receiverCompleted, Execution.complete]

theorem handleCommand_other_ok {handled hasResult sync : Bool} {id : Nat}
    (ok : s.handleCommand ⟨.other handled hasResult, sync⟩ id = .ok s') :
    handled ∧ (hasResult ∨ sync → s.isAttached) ∧
      s' = { s with
        execution := ⟨s.execution.receiver.completed id, true, s.execution.pendingExecutionSyncs,
          s.execution.executionSyncs⟩
        outbound := ⟨if sync then ∅ else s.outbound.accepted, s.outbound.wire ++
          ((if hasResult then [.result id] else []) ++
            if sync then acceptWire s.outbound.accepted ++
              [.completion (s.execution.receiver.completed id).completedCommands]
            else [])⟩ } := by
  unfold handleCommand invoke at ok
  simp only [ok_bind, pure_eq_ok, receiverCompleted, Execution.complete, if_true] at ok
  cases handled
  · simp at ok
  cases hasResult <;> cases sync <;> simp only [Bool.not_true, Bool.and_true, Bool.and_false,
    if_true, if_false, Bool.false_eq_true, reduceCtorEq] at ok
  · simp only [Except.ok.injEq] at ok
    subst ok
    simp
  · obtain ⟨attached, rfl⟩ := sendAcceptAndCompletion_ok.1 ok
    exact ⟨rfl, fun _ => attached, by simp⟩
  · obtain ⟨y, sent, finish⟩ := bind_eq_ok.1 ok
    obtain ⟨attached, rfl⟩ := send_ok.1 sent
    simp only [Bool.false_and, Bool.false_eq_true, if_false, Except.ok.injEq] at finish
    subst finish
    exact ⟨rfl, fun _ => attached, by simp [Outbound.push]⟩
  · obtain ⟨y, sent, finish⟩ := bind_eq_ok.1 ok
    obtain ⟨attached, rfl⟩ := send_ok.1 sent
    simp only [Bool.true_and, if_true] at finish
    obtain ⟨-, rfl⟩ := sendAcceptAndCompletion_ok.1 finish
    exact ⟨rfl, fun _ => attached, by simp [Outbound.push]⟩

theorem handleCommand_executionSync_ok {sync : Bool} {id : Nat}
    (ok : s.handleCommand ⟨.executionSync, sync⟩ id = .ok s') :
    ∃ first, s.execution.receiver.front = some first ∧
      if first < s.execution.receiver.current then
        s' = { s with execution := ⟨s.execution.receiver, false,
          s.execution.pendingExecutionSyncs ++ [s.execution.receiver.current],
          insert s.execution.receiver.current s.execution.executionSyncs⟩ }
      else (sync → s.isAttached) ∧ s' = { s with
        execution := ⟨s.execution.receiver.completed id, true, s.execution.pendingExecutionSyncs,
          insert s.execution.receiver.current s.execution.executionSyncs⟩
        outbound := if sync then ⟨∅, s.outbound.wire ++ (acceptWire s.outbound.accepted ++
            [.completion (s.execution.receiver.completed id).completedCommands])⟩
          else s.outbound } := by
  unfold handleCommand invoke at ok
  obtain ⟨⟨s1, invocation⟩, invoked, finish⟩ := bind_eq_ok.1 ok
  obtain ⟨s0, pending, done⟩ := bind_eq_ok.1 invoked
  simp only [pure_eq_ok, Except.ok.injEq, Prod.mk.injEq] at done
  obtain ⟨rfl, rfl⟩ := done
  obtain ⟨first, front_eq, rfl⟩ := addPendingExecutionSync_ok.1 pending
  refine ⟨first, front_eq, ?_⟩
  by_cases lt : first < s.execution.receiver.current
  · simp only [lt, if_true, Bool.false_eq_true, if_false, Bool.not_true, Bool.and_false,
      ok_bind, pure_eq_ok, Except.ok.injEq] at finish ⊢
    exact finish.symm
  · simp only [lt, if_true, if_false, Bool.not_true, Bool.false_eq_true, Bool.and_true, ok_bind,
      pure_eq_ok, receiverCompleted, Execution.complete] at finish ⊢
    cases sync
    · simp only [if_false, Bool.false_eq_true, Except.ok.injEq] at finish
      exact ⟨nofun, finish.symm⟩
    · obtain ⟨attached, rfl⟩ := sendAcceptAndCompletion_ok.1 finish
      exact ⟨fun _ => attached, rfl⟩

@[simp] theorem withReceiver_execution (s : SessionState) (step : Receiver → Receiver) :
    (s.withReceiver step).execution = ⟨step s.execution.receiver, s.execution.currentCommandComplete,
      s.execution.pendingExecutionSyncs, s.execution.executionSyncs⟩ := rfl

@[simp] theorem withReceiver_outbound (s : SessionState) (step : Receiver → Receiver) :
    (s.withReceiver step).outbound = s.outbound := rfl

@[simp] theorem withReceiver_registry (s : SessionState) (step : Receiver → Receiver) :
    (s.withReceiver step).registry = s.registry := rfl

@[simp] theorem withReceiver_msgBuilder (s : SessionState) (step : Receiver → Receiver) :
    (s.withReceiver step).msgBuilder = s.msgBuilder := rfl

@[simp] theorem withReceiver_handler (s : SessionState) (step : Receiver → Receiver) :
    (s.withReceiver step).handler = s.handler := rfl

/-- `s'` is `s` with commands sent, none of them a `message.accept`, and with only the flow-control
bookkeeping, the sender point and the output flag otherwise changed. -/
def Quiet (s s' : SessionState) : Prop :=
  s'.handler = s.handler ∧ s'.msgBuilder = s.msgBuilder ∧ s'.execution = s.execution ∧
    s'.registry = s.registry ∧ s'.outbound.accepted = s.outbound.accepted ∧
    ∃ ws : List Wire, s'.outbound.wire = s.outbound.wire ++ ws ∧ ∀ w ∈ ws, w.accepts = ∅

theorem Quiet.refl (s : SessionState) : Quiet s s := ⟨rfl, rfl, rfl, rfl, rfl, [], by simp, nofun⟩

theorem Quiet.credit (s : SessionState) (c : Credit) : Quiet s { s with credit := c } :=
  ⟨rfl, rfl, rfl, rfl, rfl, [], by simp, nofun⟩

theorem Quiet.trans {s₁ s₂ s₃ : SessionState} (first : Quiet s₁ s₂) (second : Quiet s₂ s₃) :
    Quiet s₁ s₃ := by
  obtain ⟨h₁, b₁, e₁, r₁, a₁, ws₁, w₁, q₁⟩ := first
  obtain ⟨h₂, b₂, e₂, r₂, a₂, ws₂, w₂, q₂⟩ := second
  refine ⟨h₂.trans h₁, b₂.trans b₁, e₂.trans e₁, r₂.trans r₁, a₂.trans a₁, ws₁ ++ ws₂,
    by rw [w₂, w₁, List.append_assoc], ?_⟩
  intro w member
  rcases List.mem_append.1 member with first | second
  exacts [q₁ w first, q₂ w second]

theorem send_quiet {via : HandlerUse} {w : Wire} (ok : s.send via w = .ok s')
    (accepts : w.accepts = ∅) : Quiet s s' := by
  obtain ⟨-, rfl⟩ := send_ok.1 ok
  exact ⟨rfl, rfl, rfl, rfl, rfl, [w], rfl, by simpa⟩

theorem processSendCredit_quiet {msgs : Nat} {rate : RateAnswers} {credited : Bool}
    (ok : s.processSendCredit msgs rate = .ok (s', credited)) : Quiet s s' := by
  unfold processSendCredit at ok
  split at ok
  · obtain ⟨y, sent, done⟩ := bind_eq_ok.1 ok
    simp only [pure_eq_ok, Except.ok.injEq, Prod.mk.injEq] at done
    exact done.1 ▸ send_quiet sent rfl
  split at ok
  · obtain ⟨y, sent, done⟩ := bind_eq_ok.1 ok
    simp only [pure_eq_ok, Except.ok.injEq, Prod.mk.injEq] at done
    exact done.1 ▸ send_quiet sent rfl
  · simp only [pure_eq_ok, Except.ok.injEq, Prod.mk.injEq] at ok
    exact ok.1 ▸ Quiet.refl s

theorem scheduleCredit_quiet (s : SessionState) : Quiet s s.scheduleCredit :=
  ⟨rfl, rfl, rfl, rfl, rfl, [], by simp [scheduleCredit], nofun⟩

theorem contentFlowControl_quiet {frame : Frame} {rate : RateAnswers}
    (ok : s.contentFlowControl frame rate = .ok s') : Quiet s s' := by
  unfold contentFlowControl at ok
  split at ok
  · obtain ⟨⟨s₁, credited⟩, credit, done⟩ := bind_eq_ok.1 ok
    simp only [pure_eq_ok, Except.ok.injEq] at done
    subst done
    cases credited
    · exact (processSendCredit_quiet credit).trans (scheduleCredit_quiet s₁)
    · exact processSendCredit_quiet credit
  · simp only [pure_eq_ok, Except.ok.injEq] at ok
    exact ok ▸ Quiet.refl s

theorem readyToSend_quiet (ok : s.readyToSend = .ok s') : Quiet s s' := by
  have active : Quiet s { s with outputActive := true } := ⟨rfl, rfl, rfl, rfl, rfl, [], by simp, nofun⟩
  unfold readyToSend at ok
  dsimp only at ok
  split at ok
  · simp only [pure_eq_ok, Except.ok.injEq] at ok
    exact ok ▸ active
  · obtain ⟨s₁, mode, flow⟩ := bind_eq_ok.1 ok
    exact (active.trans (send_quiet mode rfl)).trans (send_quiet flow rfl)

theorem deliver_quiet {sync : Bool} (ok : s.deliver sync = .ok s') : Quiet s s' := by
  unfold deliver at ok
  obtain ⟨-, -, ok⟩ := bind_eq_ok.1 ok
  obtain ⟨s₁, sent, ok⟩ := bind_eq_ok.1 ok
  have moved : Quiet s₁ { s₁ with senderNext := s.senderNext + 1 } :=
    ⟨rfl, rfl, rfl, rfl, rfl, [], by simp, nofun⟩
  have transfer := (send_quiet sent rfl).trans moved
  cases sync
  · simp only [if_false, Bool.false_eq_true, pure_eq_ok, Except.ok.injEq] at ok
    exact ok ▸ transfer
  · exact transfer.trans (send_quiet ok rfl)

theorem sendCredit_quiet {task : Nat} {rate : RateAnswers} (ok : s.sendCredit task rate = .ok s') :
    Quiet s s' := by
  unfold sendCredit at ok
  obtain ⟨⟨s₁, credited⟩, credit, done⟩ := bind_eq_ok.1 ok
  simp only [pure_eq_ok, Except.ok.injEq] at done
  subst done
  have quiet := processSendCredit_quiet credit
  cases credited
  · exact quiet.trans ⟨rfl, rfl, rfl, rfl, rfl, [], by simp, nofun⟩
  · exact quiet

/-- The envelope `buildMessage` returns belongs to the given command or to the one the builder
already holds. -/
theorem buildMessage_id {frame : Frame} {id : Nat} {msg : Msg}
    (ok : s.buildMessage frame id = .ok msg) : msg.id = id ∨ ∃ b, s.msgBuilder = some b ∧ msg.id = b.id := by
  unfold buildMessage at ok
  by_cases start : (frame.bof && frame.bos) = true
  · simp only [start, if_true] at ok
    cases method : frame.method with
    | none => simp [method] at ok
    | some m =>
      simp only [method, pure_eq_ok, ok_bind, Except.ok.injEq] at ok
      exact .inl (by rw [← ok])
  · simp only [start, if_false, Bool.false_eq_true, pure_eq_ok, ok_bind] at ok
    cases builder : s.msgBuilder with
    | none => simp [builder] at ok
    | some b =>
      simp only [builder, pure_eq_ok, Except.ok.injEq] at ok
      exact .inr ⟨b, rfl, by rw [← ok]⟩

theorem endReceiveCompletion_ok {msg : Msg} {completesNow : Bool}
    (ok : s.endReceiveCompletion msg completesNow = .ok s') :
    completesNow ∧ s.isAttached ∧ s.completeRcvMsg msg = .ok s' ∨
      completesNow ∧ s.isAttached = false ∧ s' = s ∨
      completesNow = false ∧ s' = { s with registry := ⟨s.registry.incompleteRcvMsgs ++ [msg],
        s.registry.scheduledRcvMsgs, s.registry.completed⟩ } := by
  unfold endReceiveCompletion at ok
  cases completesNow
  · simp only [Bool.false_eq_true, if_false, pure_eq_ok, Except.ok.injEq] at ok
    exact .inr (.inr ⟨rfl, ok.symm⟩)
  cases attached : s.isAttached
  · simp only [attached, if_true, Bool.false_eq_true, if_false, pure_eq_ok, Except.ok.injEq] at ok
    exact .inr (.inl ⟨rfl, rfl, ok.symm⟩)
  · simp only [attached, if_true] at ok
    exact .inl ⟨rfl, rfl, ok⟩

/-- At the end of a frameset the finished envelope, of the current command, goes to
`endReceiveCompletion`; before it the builder keeps the envelope. -/
theorem assembleContent_ok {frame : Frame} {id : Nat} {completesNow : Bool}
    (ok : s.assembleContent frame id completesNow = .ok s') :
    ∃ msg : Msg, (msg.id = id ∨ ∃ b, s.msgBuilder = some b ∧ msg.id = b.id) ∧
      if frame.eof && frame.eos then
        { s with msgBuilder := none }.endReceiveCompletion msg completesNow = .ok s'
      else s' = { s with msgBuilder := some msg } := by
  unfold assembleContent at ok
  obtain ⟨msg, built, ok⟩ := bind_eq_ok.1 ok
  split at ok
  next ending =>
    obtain ⟨-, -, ok⟩ := bind_eq_ok.1 ok
    have owner := buildMessage_id built
    refine ⟨_, ?_, by rw [if_pos ending]; exact ok⟩
    split <;> exact owner
  next going =>
    simp only [pure_eq_ok, Except.ok.injEq] at ok
    exact ⟨msg, buildMessage_id built, by rw [if_neg going]; exact ok.symm⟩

/-- A frame is a command, which `handleCommand` handles when the frame opens and ends a frameset,
or a frame of a message, assembled and then counted by flow control. -/
theorem received_ok {frame : Frame} {completesNow : Bool} {rate : RateAnswers}
    (ok : s.received frame completesNow rate = .ok s') :
    (∃ method s₁, (method.method = .executionSync ∨
          ∃ handled hasResult, method.method = .other handled hasResult) ∧
        frame.method = some method ∧ (frame.bof && frame.eof) = true ∧
        (s.withReceiver Receiver.record).handleCommand method
          (s.withReceiver Receiver.record).receiverGetCurrent = .ok s₁ ∧
        s' = s₁.withReceiver (·.advance frame)) ∨
      ∃ s₁ s₂, (∀ method, frame.method = some method → method.isContentBearing = true) ∧
        (s.withReceiver Receiver.record).assembleContent frame
          (s.withReceiver Receiver.record).receiverGetCurrent completesNow = .ok s₁ ∧
        Quiet s₁ s₂ ∧ s' = s₂.withReceiver (·.advance frame) := by
  unfold received at ok
  obtain ⟨s₂, handled, done⟩ := bind_eq_ok.1 ok
  simp only [pure_eq_ok, Except.ok.injEq] at done
  subst done
  have content : ∀ {id}, (s.withReceiver Receiver.record).handleContent frame id completesNow rate =
      .ok s₂ → ∃ s₁, (s.withReceiver Receiver.record).assembleContent frame id completesNow = .ok s₁ ∧
        Quiet s₁ s₂ := fun handled => by
    obtain ⟨s₁, assembled, flow⟩ := bind_eq_ok.1 handled
    exact ⟨s₁, assembled, contentFlowControl_quiet flow⟩
  unfold handleIn at handled
  split at handled
  next method found =>
    split at handled
    next bearing =>
      obtain ⟨s₁, assembled, quiet⟩ := content handled
      refine .inr ⟨s₁, s₂, fun m same => ?_, assembled, quiet, rfl⟩
      rwa [← Option.some.inj (found.symm.trans same)]
    split at handled
    next command =>
      refine .inl ⟨method, s₂, ?_, found, command, handled, rfl⟩
      obtain ⟨kind, sync⟩ := method
      cases kind <;> simp_all [MethodBody.isContentBearing]
    · simp at handled
  next absent =>
    obtain ⟨s₁, assembled, quiet⟩ := content handled
    exact .inr ⟨s₁, s₂, fun m same => absurd (absent.symm.trans same) nofun, assembled, quiet, rfl⟩

/-- A well-framed command frame arrives between commands and closes its frameset. -/
theorem received_ok_of_fits {frame : Frame} {completesNow : Bool} {rate : RateAnswers}
    (fits : frame.fits s.execution.receiver.inCommand)
    (ok : s.received frame completesNow rate = .ok s') :
    (∃ method s₁, (method.method = .executionSync ∨
          ∃ handled hasResult, method.method = .other handled hasResult) ∧
        s.execution.receiver.inCommand = false ∧
        (frame.eof && frame.eos) = true ∧
        (s.withReceiver Receiver.record).handleCommand method
          (s.withReceiver Receiver.record).receiverGetCurrent = .ok s₁ ∧
        s' = s₁.withReceiver (·.advance frame)) ∨
      ∃ s₁ s₂, (s.withReceiver Receiver.record).assembleContent frame
          (s.withReceiver Receiver.record).receiverGetCurrent completesNow = .ok s₁ ∧
        Quiet s₁ s₂ ∧ s' = s₂.withReceiver (·.advance frame) := by
  refine (received_ok ok).imp (fun ⟨method, s₁, kind, _, bounds, handled, next⟩ => ?_)
    fun ⟨s₁, s₂, _, assembled, quiet, next⟩ => ⟨s₁, s₂, assembled, quiet, next⟩
  simp only [Bool.and_eq_true] at bounds
  exact ⟨method, s₁, kind, Frame.fits_bof fits bounds.1,
    by simp [bounds.2, Frame.fits_eof fits bounds.2], handled, next⟩

/-- The cursor and the builder while framesets arrive: the builder holds the envelope of the
command whose frames are arriving, and a command in progress has been counted. -/
structure Assembling (s : SessionState) : Prop where
  builder : ∀ b, s.msgBuilder = some b →
    s.execution.receiver.inCommand ∧ b.id = s.execution.receiver.current
  begun : s.execution.receiver.inCommand → 0 < s.execution.receiver.next

theorem Assembling.initial (rate : Option Nat) (handler : Nat) : Assembling (initial rate handler) :=
  ⟨nofun, nofun⟩

theorem Assembling.idle (assembling : Assembling s) (idle : s.execution.receiver.inCommand = false) :
    s.msgBuilder = none :=
  Option.eq_none_iff_forall_not_mem.2 fun b held => by simpa [idle] using (assembling.builder b held).1

/-- A recorded frame belongs to a counted command. -/
theorem Assembling.record_next_pos (assembling : Assembling s) : 0 < s.execution.receiver.record.next := by
  cases idle : s.execution.receiver.inCommand
  · simp [Receiver.record_of_not_inCommand idle]
  · simpa [Receiver.record, idle] using assembling.begun idle

/-- On a recorded frame, the envelope `assembleContent` finishes or keeps is the current command's. -/
theorem assembleContent_current {frame : Frame} {completesNow : Bool} (assembling : Assembling s)
    (ok : (s.withReceiver Receiver.record).assembleContent frame
      (s.withReceiver Receiver.record).receiverGetCurrent completesNow = .ok s') :
    ∃ msg : Msg, msg.id = s.execution.receiver.record.current ∧
      if frame.eof && frame.eos then
        { s.withReceiver Receiver.record with msgBuilder := none }.endReceiveCompletion msg
          completesNow = .ok s'
      else s' = { s.withReceiver Receiver.record with msgBuilder := some msg } := by
  obtain ⟨msg, owner, rest⟩ := assembleContent_ok ok
  refine ⟨msg, ?_, rest⟩
  rcases owner with same | ⟨b, held, same⟩
  · exact same
  · obtain ⟨busy, current⟩ := assembling.builder b held
    simp only [same, current, Receiver.record, busy, if_true]

/-- `handleCommand` leaves the builder, the registry and the cursor's position alone, and adds
at most the current command to the syncs and to the queue of deferred ones. -/
theorem handleCommand_frame {method : MethodBody} {id : Nat}
    (kind : method.method = .executionSync ∨ ∃ handled hasResult, method.method = .other handled hasResult)
    (ok : s.handleCommand method id = .ok s') :
    s'.msgBuilder = s.msgBuilder ∧ s'.registry = s.registry ∧
      s'.execution.receiver.next = s.execution.receiver.next ∧
      s'.execution.receiver.inCommand = s.execution.receiver.inCommand ∧
      (s'.execution.executionSyncs = s.execution.executionSyncs ∨
        s'.execution.executionSyncs = insert s.execution.receiver.current s.execution.executionSyncs) ∧
      (s'.execution.pendingExecutionSyncs = s.execution.pendingExecutionSyncs ∨
        s'.execution.pendingExecutionSyncs =
          s.execution.pendingExecutionSyncs ++ [s.execution.receiver.current]) := by
  obtain ⟨kind, sync⟩ := method
  rcases kind with rfl | ⟨handled, hasResult, rfl⟩
  · obtain ⟨first, -, result⟩ := handleCommand_executionSync_ok ok
    split at result
    · subst result; exact ⟨rfl, rfl, rfl, rfl, .inr rfl, .inr rfl⟩
    · obtain ⟨-, rfl⟩ := result; exact ⟨rfl, rfl, rfl, rfl, .inr rfl, .inl rfl⟩
  · obtain ⟨-, -, rfl⟩ := handleCommand_other_ok ok
    exact ⟨rfl, rfl, rfl, rfl, .inl rfl, .inl rfl⟩

/-- `handleCommand` completes at most the command it handles. -/
theorem handleCommand_incomplete {method : MethodBody} {id : Nat}
    (kind : method.method = .executionSync ∨ ∃ handled hasResult, method.method = .other handled hasResult)
    (ok : s.handleCommand method id = .ok s') :
    s.execution.receiver.incomplete.erase id ⊆ s'.execution.receiver.incomplete := by
  obtain ⟨kind, sync⟩ := method
  rcases kind with rfl | ⟨handled, hasResult, rfl⟩
  · obtain ⟨first, -, result⟩ := handleCommand_executionSync_ok ok
    split at result
    · subst result; exact Finset.erase_subset _ _
    · obtain ⟨-, rfl⟩ := result; exact subset_refl _
  · obtain ⟨-, -, rfl⟩ := handleCommand_other_ok ok
    exact subset_refl _

/-- `completeRcvMsg` leaves the builder, the cursor's position and the syncs alone, records
the message as completed, and only pops deferred syncs. -/
theorem completeRcvMsg_frame {msg : Msg} (ok : s.completeRcvMsg msg = .ok s') :
    s'.msgBuilder = s.msgBuilder ∧ s'.execution.receiver.next = s.execution.receiver.next ∧
      s'.execution.receiver.inCommand = s.execution.receiver.inCommand ∧
      s'.execution.executionSyncs = s.execution.executionSyncs ∧
      s'.registry = ⟨s.registry.incompleteRcvMsgs, s.registry.scheduledRcvMsgs,
        s.registry.completed ++ [msg]⟩ ∧
      ∀ S ∈ s'.execution.pendingExecutionSyncs, S ∈ s.execution.pendingExecutionSyncs := by
  obtain ⟨k, rfl, -⟩ := completeRcvMsg_ok ok
  exact ⟨rfl, rfl, rfl, rfl, rfl, fun S => List.mem_of_mem_drop⟩

/-- What `completeRcvMsg` leaves pending for the next `message.accept`: nothing when the message
is sync-flagged, since `sendAcceptAndCompletion` sent it all, and otherwise `accepted` with the
message's own id added when it requires accept. -/
theorem completeRcvMsg_accepted {msg : Msg} (ok : s.completeRcvMsg msg = .ok s') :
    s'.outbound.accepted = if msg.isSync then ∅ else acceptedWith s.outbound.accepted msg := by
  obtain ⟨k, rfl, -⟩ := completeRcvMsg_ok ok
  by_cases flagged : msg.isSync
  · simp [flagged]
  · by_cases some : 0 < k <;> simp [flagged, some]

/-- A deferred sync that the loop of `completeRcvMsg` pops is reported by the completion the call
sends, after a `message.accept` when the message is sync-flagged and alone otherwise. -/
theorem completeRcvMsg_releases {msg : Msg} {S : Nat} (ok : s.completeRcvMsg msg = .ok s')
    (begun : S < s.execution.receiver.next) (queued : S ∈ s.execution.pendingExecutionSyncs)
    (popped : S ∉ s'.execution.pendingExecutionSyncs) :
    ∃ commands, S ∈ commands ∧ s'.outbound.wire = s.outbound.wire ++
      ((if msg.isSync then acceptWire (acceptedWith s.outbound.accepted msg) else []) ++
        [.completion commands]) := by
  obtain ⟨k, rfl, -⟩ := completeRcvMsg_ok ok
  have taken : S ∈ s.execution.pendingExecutionSyncs.take k := by
    rw [← List.take_append_drop k s.execution.pendingExecutionSyncs, List.mem_append] at queued
    exact queued.resolve_right popped
  have positive : 0 < k := Nat.pos_of_ne_zero (by rintro rfl; simp at taken)
  refine ⟨(s.execution.afterCompletion msg.id k).receiver.completedCommands, ?_, ?_⟩
  · simp only [Receiver.completedCommands, Execution.afterCompletion, Finset.mem_sdiff,
      Finset.mem_range, List.mem_toFinset]
    exact ⟨begun, fun member => member.2 taken⟩
  · by_cases flagged : msg.isSync <;> simp [flagged, positive]

/-- `endReceiveCompletion` completes the message, drops it, or registers it. -/
theorem endReceiveCompletion_frame {msg : Msg} {completesNow : Bool}
    (ok : s.endReceiveCompletion msg completesNow = .ok s') :
    s'.msgBuilder = s.msgBuilder ∧ s'.execution.receiver.next = s.execution.receiver.next ∧
      s'.execution.receiver.inCommand = s.execution.receiver.inCommand ∧
      s'.execution.executionSyncs = s.execution.executionSyncs ∧
      (s'.registry = s.registry ∨
        s'.registry = ⟨s.registry.incompleteRcvMsgs ++ [msg], s.registry.scheduledRcvMsgs,
          s.registry.completed⟩ ∨
        s'.registry = ⟨s.registry.incompleteRcvMsgs, s.registry.scheduledRcvMsgs,
          s.registry.completed ++ [msg]⟩) ∧
      ∀ S ∈ s'.execution.pendingExecutionSyncs, S ∈ s.execution.pendingExecutionSyncs := by
  rcases endReceiveCompletion_ok ok with ⟨-, -, complete⟩ | ⟨-, -, rfl⟩ | ⟨-, rfl⟩
  · obtain ⟨builder, next, busy, syncs, registry, popped⟩ := completeRcvMsg_frame complete
    exact ⟨builder, next, busy, syncs, .inr (.inr registry), popped⟩
  · exact ⟨rfl, rfl, rfl, rfl, .inl rfl, fun _ => id⟩
  · exact ⟨rfl, rfl, rfl, rfl, .inr (.inl rfl), fun _ => id⟩

theorem Assembling.completeRcvMsg {msg : Msg} (assembling : Assembling s)
    (ok : s.completeRcvMsg msg = .ok s') : Assembling s' := by
  obtain ⟨builder, next, busy, -⟩ := completeRcvMsg_frame ok
  refine ⟨fun b held => ?_, fun busy' => ?_⟩
  · rw [builder] at held
    simpa [Receiver.current, next, busy] using assembling.builder b held
  · rw [next]
    exact assembling.begun (busy ▸ busy')

theorem Assembling.received {frame : Frame} {completesNow : Bool} {rate : RateAnswers}
    (assembling : Assembling s) (fits : frame.fits s.execution.receiver.inCommand)
    (ok : s.received frame completesNow rate = .ok s') : Assembling s' := by
  rcases received_ok_of_fits fits ok with ⟨method, s₁, kind, idle, ending, handled, rfl⟩ |
    ⟨s₁, s₂, assembled, ⟨-, builder, execution, -⟩, rfl⟩
  · refine ⟨fun b held => ?_, fun busy => ?_⟩
    · rw [withReceiver_msgBuilder, (handleCommand_frame kind handled).1, withReceiver_msgBuilder,
        assembling.idle idle] at held
      cases held
    · simp [Receiver.advance_of_end ending] at busy
  · obtain ⟨msg, owner, rest⟩ := assembleContent_current assembling assembled
    have counted := assembling.record_next_pos
    split at rest
    · obtain ⟨builder', next, -⟩ := endReceiveCompletion_frame rest
      refine ⟨fun b held => ?_, fun _ => ?_⟩
      · simp [builder, builder'] at held
      · simpa only [withReceiver_execution, execution, Receiver.advance_next, next] using counted
    · subst rest
      refine ⟨fun b held => ?_, fun _ => ?_⟩
      · simp only [withReceiver_msgBuilder, builder, Option.some.injEq] at held
        subst held
        simp only [withReceiver_execution, execution, Receiver.advance, owner]
        split <;> simp_all
      · simpa only [withReceiver_execution, execution, Receiver.advance_next] using counted

/-- What a well-framed frame does to the pending receives: at most one new receive, of the
command the frame closes, which is then below the bound of handled commands; and at most that
command added to the syncs, with no new receive. -/
theorem received_registry {frame : Frame} {completesNow : Bool} {rate : RateAnswers}
    (assembling : Assembling s) (fits : frame.fits s.execution.receiver.inCommand)
    (ok : s.received frame completesNow rate = .ok s') :
    s.execution.receiver.closedBound ≤ s'.execution.receiver.closedBound ∧
      (s'.registry = s.registry ∧
          (s'.execution.executionSyncs = s.execution.executionSyncs ∨
            s'.execution.executionSyncs =
              insert s.execution.receiver.closedBound s.execution.executionSyncs) ∨
        ∃ msg : Msg, msg.id = s.execution.receiver.closedBound ∧
          msg.id < s'.execution.receiver.closedBound ∧
          s'.execution.executionSyncs = s.execution.executionSyncs ∧
          (s'.registry = ⟨s.registry.incompleteRcvMsgs ++ [msg], s.registry.scheduledRcvMsgs,
              s.registry.completed⟩ ∨
            s'.registry = ⟨s.registry.incompleteRcvMsgs, s.registry.scheduledRcvMsgs,
              s.registry.completed ++ [msg]⟩)) := by
  have counted := assembling.record_next_pos
  rcases received_ok_of_fits fits ok with ⟨method, s₁, kind, idle, ending, handled, rfl⟩ |
    ⟨s₁, s₂, assembled, ⟨-, -, execution, registry, -⟩, rfl⟩
  · obtain ⟨-, registry, next, -, syncs, -⟩ := handleCommand_frame kind handled
    have current : (s.withReceiver Receiver.record).execution.receiver.current =
        s.execution.receiver.closedBound := Receiver.record_current _
    simp only [withReceiver_execution, Receiver.advance_of_end ending,
      withReceiver_registry] at syncs current registry ⊢
    refine ⟨?_, .inl ⟨registry, by rwa [current] at syncs⟩⟩
    simp only [Receiver.closedBound, if_false, Bool.false_eq_true, next]
    exact (Receiver.closedBound_le_next _).trans (by simp [Receiver.record_of_not_inCommand idle])
  · obtain ⟨msg, owner, rest⟩ := assembleContent_current assembling assembled
    rw [Receiver.record_current] at owner
    simp only [withReceiver_execution, withReceiver_registry, execution, registry]
    split at rest
    next ending =>
      obtain ⟨-, next, busy, syncs, registries⟩ := endReceiveCompletion_frame rest
      simp only [withReceiver_execution] at next busy syncs registries
      have bound : s₁.execution.receiver.closedBound ≤ (s₁.execution.receiver.advance frame).closedBound :=
        Receiver.closedBound_le_advance _ _
      have closes : msg.id < (s₁.execution.receiver.advance frame).closedBound := by
        rw [Receiver.advance_of_end ending, owner, ← Receiver.record_current]
        simp only [Receiver.closedBound, if_false, Bool.false_eq_true, next, Receiver.current]
        omega
      refine ⟨le_of_lt (owner ▸ closes), ?_⟩
      rcases registries with same | added | added
      · exact .inl ⟨same, .inl syncs⟩
      · exact .inr ⟨msg, owner, closes, syncs, .inl added⟩
      · exact .inr ⟨msg, owner, closes, syncs, .inr added⟩
    next =>
      subst rest
      refine ⟨?_, .inl ⟨rfl, .inl rfl⟩⟩
      rw [← Receiver.record_closedBound]
      exact Receiver.closedBound_le_advance _ _

theorem completeRcvMsg_handler {msg : Msg} (ok : s.completeRcvMsg msg = .ok s') :
    s'.handler = s.handler := by
  obtain ⟨k, rfl, -⟩ := completeRcvMsg_ok ok
  rfl

/-- Handling a frame never changes the handler. -/
theorem received_handler {frame : Frame} {completesNow : Bool} {rate : RateAnswers}
    (ok : s.received frame completesNow rate = .ok s') : s'.handler = s.handler := by
  rcases received_ok ok with ⟨⟨kind, sync⟩, s₁, kindEq, -, -, handled, rfl⟩ |
    ⟨s₁, s₂, -, assembled, ⟨handler, -⟩, rfl⟩
  · rcases kindEq with rfl | ⟨handled', hasResult, rfl⟩
    · obtain ⟨first, -, result⟩ := handleCommand_executionSync_ok handled
      split at result
      · subst result; rfl
      · obtain ⟨-, rfl⟩ := result; rfl
    · obtain ⟨-, -, rfl⟩ := handleCommand_other_ok handled
      rfl
  · rw [withReceiver_handler, handler]
    obtain ⟨msg, -, rest⟩ := assembleContent_ok assembled
    split at rest
    · rcases endReceiveCompletion_ok rest with ⟨-, -, complete⟩ | ⟨-, -, rfl⟩ | ⟨-, rfl⟩
      · exact (completeRcvMsg_handler complete).trans rfl
      all_goals rfl
    · subst rest; rfl

/-- An envelope of the command a frame handled on `s` belongs to, or the one `s`'s builder holds:
the envelopes that frame can finish or leave in the builder. -/
def Owned (s : SessionState) (msg : Msg) : Prop :=
  msg.id = s.execution.receiver.closedBound ∨ ∃ b, s.msgBuilder = some b ∧ msg.id = b.id

theorem assembleContent_owned {frame : Frame} {completesNow : Bool}
    (ok : (s.withReceiver Receiver.record).assembleContent frame
      (s.withReceiver Receiver.record).receiverGetCurrent completesNow = .ok s') :
    ∃ msg : Msg, Owned s msg ∧
      if frame.eof && frame.eos then
        { s.withReceiver Receiver.record with msgBuilder := none }.endReceiveCompletion msg
          completesNow = .ok s'
      else s' = { s.withReceiver Receiver.record with msgBuilder := some msg } := by
  obtain ⟨msg, owner, rest⟩ := assembleContent_ok ok
  refine ⟨msg, owner.imp (fun same => ?_) id, rest⟩
  rw [same, receiverGetCurrent, withReceiver_execution, Receiver.record_current]

/-- What any frame, framed well or not, does to the builder and the pending receives: the
builder is left empty or with an owned envelope, a receive the frame registers or completes is an
owned envelope of a command the frame closed, and a sync it queues is a begun command. -/
theorem received_owned {frame : Frame} {completesNow : Bool} {rate : RateAnswers}
    (begun : s.execution.receiver.inCommand = true → 0 < s.execution.receiver.next)
    (bounded : ∀ b, s.msgBuilder = some b → b.id ≤ s.execution.receiver.closedBound)
    (ok : s.received frame completesNow rate = .ok s') :
    s'.execution.receiver.next = s.execution.receiver.record.next ∧
      s.execution.receiver.closedBound ≤ s'.execution.receiver.closedBound ∧
      (∀ S ∈ s'.execution.pendingExecutionSyncs,
        S ∈ s.execution.pendingExecutionSyncs ∨ S < s'.execution.receiver.next) ∧
      (∀ b, s'.msgBuilder = some b → Owned s b) ∧
      (s'.registry = s.registry ∨
        ∃ msg, Owned s msg ∧ msg.id < s'.execution.receiver.closedBound ∧ s'.msgBuilder = none ∧
          (s'.registry = ⟨s.registry.incompleteRcvMsgs ++ [msg], s.registry.scheduledRcvMsgs,
              s.registry.completed⟩ ∨
            s'.registry = ⟨s.registry.incompleteRcvMsgs, s.registry.scheduledRcvMsgs,
              s.registry.completed ++ [msg]⟩)) := by
  have below := Receiver.closedBound_lt_record_next begun
  rcases received_ok ok with ⟨method, s₁, kind, -, -, handled, rfl⟩ |
    ⟨s₁, s₂, -, assembled, ⟨-, builder, execution, registry, -⟩, rfl⟩
  · obtain ⟨held, registry, next, busy, -, queued⟩ := handleCommand_frame kind handled
    simp only [withReceiver_execution, withReceiver_registry, withReceiver_msgBuilder,
      Receiver.advance_next] at held registry next busy queued ⊢
    refine ⟨next, ?_, fun S member => ?_, fun b found => .inr ⟨b, held ▸ found, rfl⟩, .inl registry⟩
    · calc s.execution.receiver.closedBound = s.execution.receiver.record.closedBound :=
            (Receiver.record_closedBound _).symm
        _ = s₁.execution.receiver.closedBound := by simp only [Receiver.closedBound, next, busy]
        _ ≤ _ := Receiver.closedBound_le_advance _ _
    · rcases queued with same | added
      · exact .inl (same ▸ member)
      · rw [added, List.mem_append, List.mem_singleton] at member
        rcases member with old | rfl
        · exact .inl old
        · exact .inr (by rw [next, Receiver.record_current]; exact below)
  · obtain ⟨msg, owner, rest⟩ := assembleContent_owned assembled
    simp only [withReceiver_execution, withReceiver_registry, withReceiver_msgBuilder, execution,
      registry, builder, Receiver.advance_next]
    split at rest
    next ending =>
      obtain ⟨builder', next, -, -, registries, popped⟩ := endReceiveCompletion_frame rest
      simp only [withReceiver_execution] at next popped
      have closes : (s₁.execution.receiver.advance frame).closedBound = s.execution.receiver.record.next := by
        simp [Receiver.advance_of_end ending, Receiver.closedBound, next]
      have fits : msg.id < s.execution.receiver.record.next := by
        rcases owner with same | ⟨b, found, same⟩
        · exact same ▸ below
        · exact same ▸ (bounded b found).trans_lt below
      rw [closes]
      refine ⟨next, below.le, fun S member => .inl (popped S member),
        fun b found => by simp [builder'] at found, ?_⟩
      rcases registries with same | added | added
      · exact .inl same
      · exact .inr ⟨msg, owner, fits, builder', .inl added⟩
      · exact .inr ⟨msg, owner, fits, builder', .inr added⟩
    next =>
      subst rest
      refine ⟨rfl, ?_, fun S member => .inl member, fun b found => ?_, .inl rfl⟩
      · rw [← Receiver.record_closedBound]
        exact Receiver.closedBound_le_advance _ _
      · cases found
        exact owner

end SessionState

end Qpid.Broker.Session
