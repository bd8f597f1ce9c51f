import Mathlib.Data.Finset.Max

/-!
The inbound frames of a broker session, the message envelope the session assembles from
them, the commands the session sends back, and the receiver half of the command cursor.
The cursor lives in the `qpid::SessionState` base class, whose source is not part of the
repository; it follows the spec's CommandCursor: every command enters the incomplete set
with its first frame, `receiverCompleted` removes it, and `front` is the lowest incomplete id.
Command ids are absolute numbers: the 32-bit serial order of `SequenceNumber` agrees with
the order of `Nat` on every window of live ids narrower than 2^31.
-/

namespace Qpid.Broker.Framing

section ExceptLemmas
variable {ε α β : Type}

@[simp] theorem ok_bind (a : α) (f : α → Except ε β) : ((Except.ok a : Except ε α) >>= f) = f a := rfl

@[simp] theorem error_bind (e : ε) (f : α → Except ε β) :
    ((Except.error e : Except ε α) >>= f) = .error e := rfl

@[simp] theorem pure_eq_ok (a : α) : (pure a : Except ε α) = .ok a := rfl

theorem bind_eq_ok {x : Except ε α} {f : α → Except ε β} {b : β} :
    x >>= f = .ok b ↔ ∃ a, x = .ok a ∧ f a = .ok b := by
  cases x <;> simp

end ExceptLemmas

/-- The commands the session distinguishes: the adapter answers `other` commands with the
given `wasHandled` and `hasResult`, and `messageTransfer` is the only content-bearing one. -/
inductive Method where
  | executionSync
  | messageTransfer (requiresAccept : Bool)
  | other (handled : Bool) (hasResult : Bool)
  deriving DecidableEq

structure MethodBody where
  method : Method
  sync : Bool
  deriving DecidableEq

def MethodBody.isContentBearing : MethodBody → Bool
  | ⟨.messageTransfer _, _⟩ => true
  | _ => false

/-- A frame with its method body (`none` for header and content frames) and the four
frameset and segment boundary flags of `AMQFrame`. -/
structure Frame where
  method : Option MethodBody
  bof : Bool
  eof : Bool
  bos : Bool
  eos : Bool
  deriving DecidableEq

/-- The peer's framing: a frameset opens, with its method frame, exactly when none is open,
and frameset boundaries are segment boundaries. -/
def Frame.fits (frame : Frame) (inCommand : Bool) : Bool :=
  (frame.bof == !inCommand) && (frame.bof == frame.method.isSome) &&
    (!frame.bof || frame.bos) && (!frame.eof || frame.eos)

/-- A frame that opens a frameset arrives between commands. -/
theorem Frame.fits_bof {frame : Frame} {inCommand : Bool} (fits : frame.fits inCommand = true)
    (bof : frame.bof = true) : inCommand = false := by
  cases inCommand <;> simp_all [Frame.fits]

/-- A frame that ends a frameset ends its segment. -/
theorem Frame.fits_eof {frame : Frame} {inCommand : Bool} (fits : frame.fits inCommand = true)
    (eof : frame.eof = true) : frame.eos = true := by
  simp_all [Frame.fits]

/-- The header `handleContent` appends to a command-only frameset: `setBof(false)`,
`setEof(false)`, segment flags left set. -/
def dummyHeader : Frame := ⟨none, false, false, true, true⟩

/-- The message envelope: its command id, its method and the frames appended so far. -/
structure Msg where
  id : Nat
  method : MethodBody
  frames : List Frame
  deriving DecidableEq

def Msg.requiresAccept (msg : Msg) : Bool :=
  match msg.method.method with
  | .messageTransfer requiresAccept => requiresAccept
  | _ => false

def Msg.isSync (msg : Msg) : Bool := msg.method.sync

/-- What the session sends to its peer through the handler's proxies. -/
inductive Wire where
  | accept (commands : Finset Nat)
  | completion (commands : Finset Nat)
  | result (command : Nat)
  | stop
  | flow (credit : Nat)
  | setFlowMode
  | transfer (command : Nat)
  | sync
  deriving DecidableEq

/-- The ids a sent command accepts: those of a `message.accept`, none for the others. -/
def Wire.accepts : Wire → Finset Nat
  | .accept commands => commands
  | .completion _ | .result _ | .stop | .flow _ | .setFlowMode | .transfer _ | .sync => ∅

@[simp] theorem Wire.accepts_accept (commands : Finset Nat) : (Wire.accept commands).accepts = commands :=
  rfl

@[simp] theorem Wire.accepts_completion (commands : Finset Nat) :
    (Wire.completion commands).accepts = ∅ := rfl

@[simp] theorem Wire.accepts_result (command : Nat) : (Wire.result command).accepts = ∅ := rfl

/-- The accessors that dereference `handler`. -/
inductive HandlerUse where
  | getProxy
  | getConnection
  | getClusterOrderProxy
  | sendCompletion
  | handleOut
  deriving DecidableEq

/-- How a step of the session ends other than normally: a crash (a null `handler`, `front()`
of an empty set, a freed session), or a session exception that closes the session. -/
inductive Failure where
  | detached (use : HandlerUse)
  | emptyIncomplete
  | useAfterFree
  | notImplemented
  | multiFrameCommand
  | noMessage
  deriving DecidableEq

/-- The receiver half of the command cursor: commands below `next` have begun, the last one
is still arriving while `inCommand`, and `incomplete` holds the begun commands not completed. -/
structure Receiver where
  next : Nat
  inCommand : Bool
  incomplete : Finset Nat
  deriving DecidableEq

namespace Receiver

/-- `receiverRecord`: a frame that opens a command adds the command to the incomplete set. -/
def record (r : Receiver) : Receiver :=
  if r.inCommand then r else ⟨r.next + 1, true, insert r.next r.incomplete⟩

/-- `receiverGetCurrent`: the command the frame being handled belongs to. -/
def current (r : Receiver) : Nat := r.next - 1

/-- The point moves past a command after the last frame of its frameset. -/
def advance (r : Receiver) (frame : Frame) : Receiver :=
  if frame.eof && frame.eos then { r with inCommand := false } else r

/-- `receiverCompleted`: completing an id that is not incomplete changes nothing. -/
def completed (r : Receiver) (id : Nat) : Receiver := { r with incomplete := r.incomplete.erase id }

/-- `receiverGetIncomplete().front()`, undefined on an empty set. -/
def front (r : Receiver) : Option Nat :=
  if nonempty : r.incomplete.Nonempty then some (r.incomplete.min' nonempty) else none

/-- The ids a completion reports: the begun commands that are no longer incomplete. -/
def completedCommands (r : Receiver) : Finset Nat := Finset.range r.next \ r.incomplete

/-- Ids of commands whose last frame has been handled are below this bound. -/
def closedBound (r : Receiver) : Nat := if r.inCommand then r.next - 1 else r.next

@[simp] theorem completed_incomplete (r : Receiver) (id : Nat) :
    (r.completed id).incomplete = r.incomplete.erase id := rfl

@[simp] theorem completed_next (r : Receiver) (id : Nat) : (r.completed id).next = r.next := rfl

@[simp] theorem completed_inCommand (r : Receiver) (id : Nat) :
    (r.completed id).inCommand = r.inCommand := rfl

@[simp] theorem record_inCommand (r : Receiver) : r.record.inCommand = true := by
  unfold record; split <;> simp_all

theorem record_of_not_inCommand {r : Receiver} (idle : r.inCommand = false) :
    r.record = ⟨r.next + 1, true, insert r.next r.incomplete⟩ := by
  simp [record, idle]

/-- After `record`, the command being handled is the last one begun. -/
theorem record_current_mem {r : Receiver} (idle : r.inCommand = false) :
    r.record.current ∈ r.record.incomplete ∧ r.record.current = r.next := by
  simp [record_of_not_inCommand idle, current]

/-- The last frame of a frameset closes its command. -/
theorem advance_of_end {r : Receiver} {frame : Frame} (ending : (frame.eof && frame.eos) = true) :
    r.advance frame = { r with inCommand := false } := by
  simp [advance, ending]

@[simp] theorem advance_incomplete (r : Receiver) (frame : Frame) :
    (r.advance frame).incomplete = r.incomplete := by
  unfold advance; split <;> rfl

@[simp] theorem advance_next (r : Receiver) (frame : Frame) : (r.advance frame).next = r.next := by
  unfold advance; split <;> rfl

theorem closedBound_le_advance (r : Receiver) (frame : Frame) :
    r.closedBound ≤ (r.advance frame).closedBound := by
  unfold advance closedBound; split <;> split <;> simp_all

/-- The command a recorded frame belongs to is the first one not yet closed. -/
theorem record_current (r : Receiver) : r.record.current = r.closedBound := by
  unfold record current closedBound; split <;> simp_all

@[simp] theorem record_closedBound (r : Receiver) : r.record.closedBound = r.closedBound := by
  unfold record closedBound; split <;> simp_all

theorem closedBound_le_next (r : Receiver) : r.closedBound ≤ r.next := by
  unfold closedBound; split <;> omega

theorem next_le_record_next (r : Receiver) : r.next ≤ r.record.next := by
  unfold record; split <;> simp

/-- Once a command is in progress some command has begun, so the command a frame is recorded
under is below the count of begun commands. -/
theorem closedBound_lt_record_next {r : Receiver} (begun : r.inCommand = true → 0 < r.next) :
    r.closedBound < r.record.next := by
  cases busy : r.inCommand
  · simp [closedBound, record, busy]
  · have := begun busy
    simp only [closedBound, record, busy, if_true]
    omega

/-- A command that has not completed is incomplete once a frame of it is recorded. -/
theorem closedBound_mem_record {r : Receiver} (begun : r.inCommand = true → 0 < r.next)
    (fresh : r.closedBound ∉ r.completedCommands) : r.closedBound ∈ r.record.incomplete := by
  cases busy : r.inCommand
  · simp [record, closedBound, busy]
  · have := begun busy
    have member : r.next - 1 ∈ r.incomplete := by
      simp only [completedCommands, closedBound, busy, if_true, Finset.mem_sdiff, Finset.mem_range,
        not_and, not_not] at fresh
      exact fresh (by omega)
    simpa [record, closedBound, busy] using member

theorem front_eq_some {r : Receiver} {first : Nat} :
    r.front = some first ↔ first ∈ r.incomplete ∧ ∀ c ∈ r.incomplete, first ≤ c := by
  unfold front
  split
  next nonempty =>
    simp only [Option.some.injEq]
    constructor
    · rintro rfl
      exact ⟨Finset.min'_mem _ _, fun c member => Finset.min'_le _ c member⟩
    · rintro ⟨member, least⟩
      exact le_antisymm (Finset.min'_le _ _ member) ((Finset.le_min'_iff _ _).2 least)
  next empty =>
    simp only [reduceCtorEq, false_iff, not_and, not_forall, not_le]
    exact fun member => absurd ⟨first, member⟩ empty

theorem front_isSome {r : Receiver} {c : Nat} (member : c ∈ r.incomplete) :
    ∃ first, r.front = some first := by
  unfold front
  rw [dif_pos ⟨c, member⟩]
  exact ⟨_, rfl⟩

end Receiver

end Qpid.Broker.Framing
