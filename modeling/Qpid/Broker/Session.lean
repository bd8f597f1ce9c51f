import Qpid.Broker.Framing

/-!
The broker's `SessionState` (qpid/broker/SessionState.cpp) as state passing: every operation
takes the session and either returns the next one or fails (`Failure`). Everything the session
sends is appended to `wire`. The adapter, the message builder and the rate controller are not
in the repository: the adapter is `invoke` below, the builder keeps one envelope, and the
rate controller's answers are an input (`RateAnswers`) chosen by the environment. The members
are grouped as the spec's components group them.
-/

namespace Qpid.Broker.Session
open Framing

/-- The answers of the rate controller that `processSendCredit` reads: `flowStopped()` before
`receivedMessage`, the credit `receivedMessage` returns, and `flowStopped()` after it. -/
structure RateAnswers where
  stoppedOnEntry : Bool
  credit : Nat
  stoppedAfter : Bool
  deriving DecidableEq

/-- The receiver cursor, the flag the invoker may clear, the queue of deferred execution.sync
commands, and (ghost) every execution.sync command handed to `addPendingExecutionSync`. -/
structure Execution where
  receiver : Receiver
  currentCommandComplete : Bool
  pendingExecutionSyncs : List Nat
  executionSyncs : Finset Nat

/-- The ids waiting for the next `message.accept`, and everything sent to the peer. -/
structure Outbound where
  accepted : Finset Nat
  wire : List Wire

/-- The pending receives: the map `incompleteRcvMsgs`, the deque `scheduledRcvMsgs` shared with
the I/O thread, and (ghost) the messages passed to `completeRcvMsg`, in order. -/
structure Registry where
  incompleteRcvMsgs : List Msg
  scheduledRcvMsgs : List Msg
  completed : List Msg

/-- Producer flow control: the rate, the last `ScheduledCreditTask`, the number of tasks created
(their names), and the broker timer's queue of this session's tasks. -/
structure Credit where
  rateFlowcontrol : Option Nat
  flowControlTimer : Option Nat
  creditTasks : Nat
  timer : List Nat

structure SessionState where
  handler : Option Nat
  outputActive : Bool
  senderNext : Nat
  msgBuilder : Option Msg
  execution : Execution
  outbound : Outbound
  registry : Registry
  credit : Credit

/-- The session the constructor builds and attaches to `handler`, with producer flow control at
`maxRate` when the client supports it. -/
def initial (rate : Option Nat) (handler : Nat) : SessionState :=
  ⟨some handler, false, 0, none, ⟨⟨0, false, ∅⟩, false, [], ∅⟩, ⟨∅, []⟩, ⟨[], [], []⟩,
    ⟨rate, none, 0, []⟩⟩

def Execution.complete (e : Execution) (id : Nat) : Execution :=
  ⟨e.receiver.completed id, e.currentCommandComplete, e.pendingExecutionSyncs, e.executionSyncs⟩

def Outbound.push (o : Outbound) (w : Wire) : Outbound := ⟨o.accepted, o.wire ++ [w]⟩

namespace SessionState

def isAttached (s : SessionState) : Bool := s.handler.isSome

/-- A use of `handler` that sends nothing: with no handler it dereferences a null pointer. -/
def use (s : SessionState) (via : HandlerUse) : Except Failure Unit :=
  if s.isAttached then .ok () else .error (.detached via)

/-- Sends `w` through the handler reached by `via`. -/
def send (s : SessionState) (via : HandlerUse) (w : Wire) : Except Failure SessionState :=
  if s.isAttached then .ok { s with outbound := s.outbound.push w } else .error (.detached via)

def receiverGetCurrent (s : SessionState) : Nat := s.execution.receiver.current

def receiverCompleted (s : SessionState) (id : Nat) : SessionState :=
  { s with execution := s.execution.complete id }

def sendCompletion (s : SessionState) : Except Failure SessionState :=
  s.send .sendCompletion (.completion s.execution.receiver.completedCommands)

def sendAcceptAndCompletion (s : SessionState) : Except Failure SessionState := do
  let s ← if s.outbound.accepted = ∅ then pure s else do
    let s ← s.send .getProxy (.accept s.outbound.accepted)
    pure { s with outbound := ⟨∅, s.outbound.wire⟩ }
  s.sendCompletion

/-- `addPendingExecutionSync`: the current command is an execution.sync; it stays incomplete,
queued, while an earlier command is incomplete. -/
def addPendingExecutionSync (s : SessionState) : Except Failure SessionState :=
  let syncCommandId := s.receiverGetCurrent
  match s.execution.receiver.front with
  | none => .error .emptyIncomplete
  | some first =>
    if first < syncCommandId then
      .ok { s with execution := ⟨s.execution.receiver, false,
        s.execution.pendingExecutionSyncs ++ [syncCommandId], s.execution.executionSyncs⟩ }
    else .ok s

end SessionState

/-- The loop of `completeRcvMsg`: pops each queued execution.sync that no incomplete command
precedes, completing it; the flag is `callSendCompletion`. The source reads the id through
`const SequenceNumber& id = pendingExecutionSyncs.front()` and completes it after `pop()`, through
a reference to the popped element; the model completes the value the front held. -/
def releaseExecutionSyncs : List Nat → Receiver → Except Failure (List Nat × Receiver × Bool)
  | [], r => .ok ([], r, false)
  | id :: rest, r =>
    match r.front with
    | none => .error .emptyIncomplete
    | some first =>
      if id ≤ first then do
        let (pending, r, _) ← releaseExecutionSyncs rest (r.completed id)
        pure (pending, r, true)
      else .ok (id :: rest, r, false)

/-- `accepted.add(msg->getCommandId())` when the message requires accept. -/
def acceptedWith (accepted : Finset Nat) (msg : Msg) : Finset Nat :=
  if msg.requiresAccept then insert msg.id accepted else accepted

namespace SessionState

def completeRcvMsg (s : SessionState) (msg : Msg) : Except Failure SessionState := do
  let s := s.receiverCompleted msg.id
  let s := { s with
    outbound := ⟨acceptedWith s.outbound.accepted msg, s.outbound.wire⟩
    registry := ⟨s.registry.incompleteRcvMsgs, s.registry.scheduledRcvMsgs, s.registry.completed ++ [msg]⟩ }
  let (pending, receiver, callSendCompletion) ←
    releaseExecutionSyncs s.execution.pendingExecutionSyncs s.execution.receiver
  let s := { s with
    execution := ⟨receiver, s.execution.currentCommandComplete, pending, s.execution.executionSyncs⟩ }
  if msg.isSync then s.sendAcceptAndCompletion
  else if callSendCompletion then s.sendCompletion
  else pure s

/-- The adapter's answer to a command: `wasHandled` and `hasResult` of `Invoker::Result`. -/
structure Invocation where
  wasHandled : Bool
  hasResult : Bool

/-- `invoke(adapter, *method)`: execution.sync reaches `addPendingExecutionSync`. -/
def invoke (s : SessionState) (method : MethodBody) : Except Failure (SessionState × Invocation) :=
  match method.method with
  | .executionSync => do
    let e := s.execution
    let s ← { s with execution := ⟨e.receiver, e.currentCommandComplete, e.pendingExecutionSyncs,
      insert s.receiverGetCurrent e.executionSyncs⟩ }.addPendingExecutionSync
    pure (s, ⟨true, false⟩)
  | .other handled hasResult => pure (s, ⟨handled, hasResult⟩)
  | .messageTransfer _ => pure (s, ⟨true, false⟩)

def handleCommand (s : SessionState) (method : MethodBody) (id : Nat) :
    Except Failure SessionState := do
  let e := s.execution
  let (s, invocation) ← invoke
    { s with execution := ⟨e.receiver, true, e.pendingExecutionSyncs, e.executionSyncs⟩ } method
  let s := if s.execution.currentCommandComplete then s.receiverCompleted id else s
  if !invocation.wasHandled then .error .notImplemented else do
  let s ← if invocation.hasResult then s.send .getProxy (.result id) else pure s
  if method.sync && s.execution.currentCommandComplete then s.sendAcceptAndCompletion else pure s

def processSendCredit (s : SessionState) (msgs : Nat) (rate : RateAnswers) :
    Except Failure (SessionState × Bool) :=
  if 0 < msgs && rate.stoppedOnEntry then do
    let s ← s.send .getClusterOrderProxy .stop
    pure (s, true)
  else if 0 < rate.credit then do
    let s ← s.send .getClusterOrderProxy (.flow rate.credit)
    pure (s, true)
  else pure (s, !rate.stoppedAfter)

/-- `end(createPendingMsg(msg))`: the registry gets the message's entry; when no completer is
outstanding, the callback runs at once in sync mode and erases that same entry. -/
def endReceiveCompletion (s : SessionState) (msg : Msg) (completesNow : Bool) :
    Except Failure SessionState :=
  if completesNow then
    if s.isAttached then s.completeRcvMsg msg else pure s
  else
    pure { s with registry := ⟨s.registry.incompleteRcvMsgs ++ [msg], s.registry.scheduledRcvMsgs,
      s.registry.completed⟩ }

/-- A new `ScheduledCreditTask` becomes `flowControlTimer` and is added to the timer. -/
def scheduleCredit (s : SessionState) : SessionState :=
  let c := s.credit
  { s with credit := ⟨c.rateFlowcontrol, some c.creditTasks, c.creditTasks + 1, c.timer ++ [c.creditTasks]⟩ }

/-- The message the builder holds once `frame` is handled: `start(id)` on the opening frame of
a frameset, then `handle(frame)` appends the frame. -/
def buildMessage (s : SessionState) (frame : Frame) (id : Nat) : Except Failure Msg := do
  let builder ← if frame.bof && frame.bos then
      match frame.method with
      | some method => pure (some ⟨id, method, []⟩)
      | none => .error .noMessage
    else pure s.msgBuilder
  match builder with
  | some msg => pure { msg with frames := msg.frames ++ [frame] }
  | none => .error .noMessage

/-- The assembly block of `handleContent`: at the end of a frameset the message goes to the
semantic layer and its receive completion is ended. -/
def assembleContent (s : SessionState) (frame : Frame) (id : Nat) (completesNow : Bool) :
    Except Failure SessionState := do
  let msg ← s.buildMessage frame id
  if frame.eof && frame.eos then do
    let msg := if frame.bof then { msg with frames := msg.frames ++ [dummyHeader] } else msg
    s.use .getConnection
    { s with msgBuilder := none }.endReceiveCompletion msg completesNow
  else pure { s with msgBuilder := some msg }

/-- The producer flow control block of `handleContent`, on the opening frame of a frameset. -/
def contentFlowControl (s : SessionState) (frame : Frame) (rate : RateAnswers) :
    Except Failure SessionState :=
  if s.credit.rateFlowcontrol.isSome && frame.bof && frame.bos then do
    let (s, credited) ← s.processSendCredit 1 rate
    pure (if credited then s else s.scheduleCredit)
  else pure s

def handleContent (s : SessionState) (frame : Frame) (id : Nat) (completesNow : Bool)
    (rate : RateAnswers) : Except Failure SessionState := do
  let s ← s.assembleContent frame id completesNow
  s.contentFlowControl frame rate

def handleIn (s : SessionState) (frame : Frame) (completesNow : Bool) (rate : RateAnswers) :
    Except Failure SessionState :=
  let commandId := s.receiverGetCurrent
  match frame.method with
  | some method =>
    if method.isContentBearing then s.handleContent frame commandId completesNow rate
    else if frame.bof && frame.eof then s.handleCommand method commandId
    else .error .multiFrameCommand
  | none => s.handleContent frame commandId completesNow rate

/-- The receiver cursor moved by `step`, the rest of the execution bookkeeping kept. -/
def withReceiver (s : SessionState) (step : Receiver → Receiver) : SessionState :=
  let e := s.execution
  { s with execution := ⟨step e.receiver, e.currentCommandComplete, e.pendingExecutionSyncs, e.executionSyncs⟩ }

/-- A frame as the session handler passes it on: recorded by the cursor, handled, and the
command point moved past it. -/
def received (s : SessionState) (frame : Frame) (completesNow : Bool) (rate : RateAnswers) :
    Except Failure SessionState := do
  let s ← (s.withReceiver Receiver.record).handleIn frame completesNow rate
  pure (s.withReceiver (·.advance frame))

def detach (s : SessionState) : SessionState := { s with outputActive := false, handler := none }

def attach (s : SessionState) (handler : Nat) : SessionState := { s with handler := some handler }

def readyToSend (s : SessionState) : Except Failure SessionState := do
  let s := { s with outputActive := true }
  match s.credit.rateFlowcontrol with
  | none => pure s
  | some rate =>
    let s ← s.send .getClusterOrderProxy .setFlowMode
    s.send .getClusterOrderProxy (.flow (min rate 300))

def deliver (s : SessionState) (sync : Bool) : Except Failure SessionState := do
  s.use .getConnection
  let commandId := s.senderNext
  let s ← s.send .getProxy (.transfer commandId)
  let s := { s with senderNext := commandId + 1 }
  if sync then s.send .getProxy .sync else pure s

/-- `ScheduledCreditTask::sendCredit` for task `task`: without credit it re-arms itself. -/
def sendCredit (s : SessionState) (task : Nat) (rate : RateAnswers) :
    Except Failure SessionState := do
  let (s, credited) ← s.processSendCredit 0 rate
  let c := s.credit
  pure (if credited then s
    else { s with credit := ⟨c.rateFlowcontrol, c.flowControlTimer, c.creditTasks, c.timer ++ [task]⟩ })

end SessionState

end Qpid.Broker.Session
