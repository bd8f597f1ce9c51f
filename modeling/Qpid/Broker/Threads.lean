import Qpid.Broker.SessionSpec

/-!
The threads around one broker session. The I/O thread handles frames and runs what is posted
to it: drains of `scheduledRcvMsgs` (`IncompleteRcvMsg::scheduledCompleter`) and
`ScheduledCreditTask::sendCredit`. Completer threads run `IncompleteRcvMsg::operator()`, the
broker timer fires credit tasks, and the destructor runs on the I/O thread. A step is one
action of one thread, atomic as far as the others can see; a failure (a null `handler`, a freed
session, a session exception) stops the world in the state before its step.

The peer may send any frame. The AsyncCompletion of a message is not in the repository; the model
lets completer threads call the callback of any message in async mode any number of times, except
after the message's `cancel()` has returned or once the session is destroyed. A sync-mode call is
the session's own (the docstring of `operator()`): it runs on the I/O thread, which is busy until
the callback has called `completeRcvMsg`.
-/

namespace Qpid.Broker.Threads
open Framing Session

/-- Where the I/O thread is inside `scheduledCompleter`: before the `empty()` test and `front()`,
before `pop_front()` of `msg`, or before the attached test and `completeRcvMsg` of `msg`. -/
inductive Drain where
  | check
  | pop (msg : Msg)
  | complete (msg : Msg)
  deriving DecidableEq

/-- The session with its threads: a running drain, posted drains and `sendCredit` calls, async
callbacks that pushed and still hold `incompleteRcvMsgsLock` before their size test, sync
callbacks that dropped the lock before `completeRcvMsg`, the destructor's flag, and (ghost) the
receives cancelled and the receives async callbacks pushed. -/
structure World where
  session : SessionState
  drain : Option Drain
  drainRequests : Nat
  creditRequests : List Nat
  pushing : List Msg
  completing : List Msg
  destroyed : Bool
  cancelled : List Msg
  scheduled : List Msg
  fault : Option Failure

def World.initial (rate : Option Nat) (handler : Nat) : World :=
  ⟨Session.initial rate handler, none, 0, [], [], [], false, [], [], none⟩

/-- The actions of the threads. A frame comes with whether its receive completion ends at once
and with the rate controller's answers; `callback` enters `operator()(sync)`, `resumePush` is an
async callback's size test, and `resumeComplete` a sync callback's call of `completeRcvMsg`. -/
inductive Action where
  | frame (frame : Frame) (completesNow : Bool) (rate : RateAnswers)
  | readyToSend
  | deliver (sync : Bool)
  | detach
  | attach (handler : Nat)
  | startDrain
  | drainStep
  | sendCredit (task : Nat) (rate : RateAnswers)
  | fire (task : Nat)
  | callback (msg : Msg) (sync : Bool)
  | resumePush (msg : Msg)
  | resumeComplete (msg : Msg)
  | destroy
  deriving DecidableEq

namespace World

def update {α : Type} (w : World) (result : Except Failure α) (next : α → World) : World :=
  match result with
  | .ok s => next s
  | .error failure => { w with fault := some failure }

/-- The I/O thread can start an action of its own: it is not inside a drain or a sync callback. -/
def ioFree (w : World) : Bool := w.drain.isNone && w.completing.isEmpty && !w.destroyed

def locked (w : World) : Bool := !w.pushing.isEmpty

def withRegistry (w : World) (incomplete scheduled : List Msg) : World :=
  { w with session := { w.session with registry := ⟨incomplete, scheduled, w.session.registry.completed⟩ } }

@[simp] theorem withRegistry_self (w : World) :
    w.withRegistry w.session.registry.incompleteRcvMsgs w.session.registry.scheduledRcvMsgs = w := rfl

/-- `operator()(sync)` up to the point where it drops the lock or pushes its message: a
callback that finds its entry erases it, and goes on only while the session is attached. -/
def callback (w : World) (msg : Msg) (sync : Bool) : World :=
  let r := w.session.registry
  if msg ∈ r.incompleteRcvMsgs then
    if w.session.isAttached then
      if sync then
        { w.withRegistry (r.incompleteRcvMsgs.erase msg) r.scheduledRcvMsgs with
          completing := w.completing ++ [msg] }
      else
        { w.withRegistry (r.incompleteRcvMsgs.erase msg) (r.scheduledRcvMsgs ++ [msg]) with
          pushing := w.pushing ++ [msg], scheduled := w.scheduled ++ [msg] }
    else w.withRegistry (r.incompleteRcvMsgs.erase msg) r.scheduledRcvMsgs
  else w

/-- The size test of an async callback: the first message of an empty deque posts a drain. -/
def resumePush (w : World) (msg : Msg) : World :=
  let w' := { w with pushing := w.pushing.erase msg }
  if w.session.registry.scheduledRcvMsgs.length = 1 then
    w.update (w.session.use .getConnection) fun _ => { w' with drainRequests := w.drainRequests + 1 }
  else w'

def drainStep (w : World) : Drain → World
  | .check =>
    match w.session.registry.scheduledRcvMsgs with
    | [] => { w with drain := none }
    | msg :: _ => { w with drain := some (.pop msg) }
  | .pop msg =>
    { w.withRegistry w.session.registry.incompleteRcvMsgs w.session.registry.scheduledRcvMsgs.tail with
      drain := some (.complete msg) }
  | .complete msg =>
    if msg ∉ w.cancelled && w.session.isAttached then
      w.update (w.session.completeRcvMsg msg) fun s => { w with session := s, drain := some .check }
    else { w with drain := some .check }

/-- `~SessionState`: cancels the last credit task, cancels and forgets every registered
receive, and clears `scheduledRcvMsgs`. -/
def destroy (w : World) : World :=
  let c := w.session.credit
  { w.withRegistry [] [] with
    session := { (w.withRegistry [] []).session with
      credit := ⟨c.rateFlowcontrol, c.flowControlTimer, c.creditTasks,
        match c.flowControlTimer with
        | some task => c.timer.erase task
        | none => c.timer⟩ }
    cancelled := w.cancelled ++ w.session.registry.incompleteRcvMsgs
    destroyed := true }

/-- `ScheduledCreditTask::fire`: the timer drops the task and asks the connection to run
`sendCredit`. -/
def fire (w : World) (task : Nat) : World :=
  if w.destroyed then { w with fault := some .useAfterFree }
  else
    w.update (w.session.use .getConnection) fun _ =>
      let c := w.session.credit
      { w with
        session := { w.session with credit := ⟨c.rateFlowcontrol, c.flowControlTimer, c.creditTasks,
          c.timer.erase task⟩ }
        creditRequests := w.creditRequests ++ [task] }

end World

open World in
/-- One action, if its thread can take it. -/
def step (w : World) (a : Action) : Option World :=
  if w.fault.isSome then none else
  match a with
  | .frame frame completesNow rate =>
    if w.ioFree && w.session.isAttached then
      some (w.update (w.session.received frame completesNow rate) fun s => { w with session := s })
    else none
  | .readyToSend =>
    if w.ioFree && w.session.isAttached then
      some (w.update w.session.readyToSend fun s => { w with session := s })
    else none
  | .deliver sync =>
    if w.ioFree && w.session.outputActive then
      some (w.update (w.session.deliver sync) fun s => { w with session := s })
    else none
  | .detach => if w.ioFree then some { w with session := w.session.detach } else none
  | .attach handler => if w.ioFree then some { w with session := w.session.attach handler } else none
  | .startDrain =>
    if w.drain.isNone && w.completing.isEmpty && 0 < w.drainRequests then
      some { w with drain := some .check, drainRequests := w.drainRequests - 1 }
    else none
  | .drainStep => w.drain.map w.drainStep
  | .sendCredit task rate =>
    if w.drain.isNone && w.completing.isEmpty && task ∈ w.creditRequests then
      let w' := { w with creditRequests := w.creditRequests.erase task }
      some (if w.destroyed then { w with fault := some .useAfterFree }
        else w.update (w.session.sendCredit task rate) fun s => { w' with session := s })
    else none
  | .fire task => if task ∈ w.session.credit.timer then some (w.fire task) else none
  | .callback msg sync =>
    if !w.destroyed && !w.locked && msg ∉ w.cancelled && (!sync || w.ioFree) then
      some (w.callback msg sync)
    else none
  | .resumePush msg => if msg ∈ w.pushing then some (w.resumePush msg) else none
  | .resumeComplete msg =>
    if msg ∈ w.completing then
      some (w.update (w.session.completeRcvMsg msg) fun s =>
        { w with session := s, completing := w.completing.erase msg })
    else none
  | .destroy => if w.ioFree && !w.locked then some w.destroy else none

/-- The inversion of `step`: a step that happened found no fault, passed its action's guard,
and made the world its action's branch makes. -/
theorem step_eq_some {w w' : World} {a : Action} (stepped : step w a = some w') :
    w.fault = none ∧ match a with
    | .frame frame completesNow rate => w.drain = none ∧ w.completing = [] ∧ w.destroyed = false ∧
        w.session.isAttached ∧
        w' = w.update (w.session.received frame completesNow rate) fun s => { w with session := s }
    | .readyToSend => w.drain = none ∧ w.completing = [] ∧ w.destroyed = false ∧
        w.session.isAttached ∧ w' = w.update w.session.readyToSend fun s => { w with session := s }
    | .deliver sync => w.drain = none ∧ w.completing = [] ∧ w.destroyed = false ∧
        w.session.outputActive ∧ w' = w.update (w.session.deliver sync) fun s => { w with session := s }
    | .detach => w.drain = none ∧ w.completing = [] ∧ w.destroyed = false ∧
        w' = { w with session := w.session.detach }
    | .attach handler => w.drain = none ∧ w.completing = [] ∧ w.destroyed = false ∧
        w' = { w with session := w.session.attach handler }
    | .startDrain => w.drain = none ∧ w.completing = [] ∧ 0 < w.drainRequests ∧
        w' = { w with drain := some .check, drainRequests := w.drainRequests - 1 }
    | .drainStep => ∃ d, w.drain = some d ∧ w' = w.drainStep d
    | .sendCredit task rate => w.drain = none ∧ w.completing = [] ∧ task ∈ w.creditRequests ∧
        w' = if w.destroyed then { w with fault := some .useAfterFree }
          else w.update (w.session.sendCredit task rate) fun s =>
            { w with creditRequests := w.creditRequests.erase task, session := s }
    | .fire task => task ∈ w.session.credit.timer ∧ w' = w.fire task
    | .callback msg sync => w.destroyed = false ∧ w.locked = false ∧ msg ∉ w.cancelled ∧
        (sync = true → w.drain = none ∧ w.completing = []) ∧ w' = w.callback msg sync
    | .resumePush msg => msg ∈ w.pushing ∧ w' = w.resumePush msg
    | .resumeComplete msg => msg ∈ w.completing ∧
        w' = w.update (w.session.completeRcvMsg msg) fun s =>
          { w with session := s, completing := w.completing.erase msg }
    | .destroy => w.drain = none ∧ w.completing = [] ∧ w.destroyed = false ∧ w.locked = false ∧
        w' = w.destroy := by
  unfold step at stepped
  by_cases fault : w.fault.isSome
  · rw [if_pos fault] at stepped
    cases stepped
  rw [if_neg fault] at stepped
  refine ⟨Option.not_isSome_iff_eq_none.1 fault, ?_⟩
  cases a with
  | drainStep =>
    obtain ⟨d, running, rfl⟩ := Option.map_eq_some'.1 stepped
    exact ⟨d, running, rfl⟩
  | callback msg sync =>
    dsimp only at stepped ⊢
    split at stepped
    next guard =>
      cases stepped
      simp only [World.ioFree, Bool.and_eq_true, Bool.not_eq_true', Bool.or_eq_true,
        Option.isNone_iff_eq_none, List.isEmpty_iff, decide_eq_true_eq] at guard
      obtain ⟨⟨⟨alive, free⟩, fresh⟩, mode⟩ := guard
      exact ⟨alive, free, fresh, fun sync => (mode.resolve_left (by simp [sync])).1, rfl⟩
    · cases stepped
  | _ =>
    dsimp only at stepped ⊢
    split at stepped
    next guard =>
      cases stepped
      simpa only [World.ioFree, Bool.and_eq_true, Bool.not_eq_true', Option.isNone_iff_eq_none,
        List.isEmpty_iff, decide_eq_true_eq, and_true, and_assoc] using guard
    · cases stepped

/-- A frame step that did not stop the world handled the frame on a live session. -/
theorem step_frame {w w' : World} {frame : Frame} {completesNow : Bool} {rate : RateAnswers}
    (stepped : step w (.frame frame completesNow rate) = some w') (running : w'.fault = none) :
    w.destroyed = false ∧ w.session.received frame completesNow rate = .ok w'.session := by
  obtain ⟨-, -, -, alive, -, rfl⟩ := step_eq_some stepped
  cases received : w.session.received frame completesNow rate with
  | error => simp [World.update, received] at running
  | ok s => exact ⟨alive, by simp [World.update, received]⟩

/-- The worlds reached from a new session by actions that `allowed` admits. -/
inductive ReachableBy (allowed : Action → Prop) : World → Prop where
  | initial (rate : Option Nat) (handler : Nat) : ReachableBy allowed (World.initial rate handler)
  | step {w w' : World} {a : Action} :
      ReachableBy allowed w → allowed a → step w a = some w' → ReachableBy allowed w'

/-- The worlds reached by any interleaving of any actions. -/
def Reachable (w : World) : Prop := ReachableBy (fun _ => True) w

/-- Runs the actions of a list in order. -/
def run : World → List Action → Option World
  | w, [] => some w
  | w, a :: rest => (step w a).bind (run · rest)

theorem run_reachableBy {allowed : Action → Prop} :
    ∀ {w w' : World} {actions : List Action}, ReachableBy allowed w → (∀ a ∈ actions, allowed a) →
      run w actions = some w' → ReachableBy allowed w'
  | w, w', [], reachable, _, ran => by
    simp only [run, Option.some.injEq] at ran
    exact ran ▸ reachable
  | w, w', a :: rest, reachable, admitted, ran => by
    simp only [run] at ran
    cases stepped : step w a with
    | none => simp [stepped] at ran
    | some w₁ =>
      simp only [stepped, Option.bind_some] at ran
      exact run_reachableBy (reachable.step (admitted a (List.mem_cons_self _ _)) stepped)
        (fun b member => admitted b (List.mem_cons_of_mem _ member)) ran

/-- A run from a new session that ends where `p` holds. -/
theorem reach_of_run {allowed : Action → Prop} {rate : Option Nat} {handler : Nat}
    {actions : List Action} {p : World → Bool} (admitted : ∀ a ∈ actions, allowed a)
    (ran : (run (World.initial rate handler) actions).map p = some true) :
    ∃ w, ReachableBy allowed w ∧ p w = true := by
  cases result : run (World.initial rate handler) actions with
  | none => simp [result] at ran
  | some w =>
    rw [result, Option.map_some', Option.some.injEq] at ran
    exact ⟨w, run_reachableBy (.initial rate handler) admitted result, ran⟩

/-- A run from a new session followed by one more action, with `p` holding of the worlds before
and after that action. -/
theorem step_of_run {allowed : Action → Prop} {rate : Option Nat} {handler : Nat}
    {actions : List Action} {a : Action} {p : World → World → Bool} (admitted : ∀ b ∈ actions, allowed b)
    (ran : (run (World.initial rate handler) actions).map
      (fun w => (step w a).any (p w)) = some true) :
    ∃ w w', ReachableBy allowed w ∧ step w a = some w' ∧ p w w' = true := by
  obtain ⟨w, reachable, holds⟩ := reach_of_run admitted ran
  cases stepped : step w a with
  | none => simp [stepped] at holds
  | some w' =>
    rw [stepped, Option.any_some] at holds
    exact ⟨w, w', reachable, stepped, holds⟩

/-- Whether the peer frames `a` as the spec's MessageAssembler expects (`Frame.fits`); the other
actions are not the peer's. -/
def Action.framed (w : World) : Action → Bool
  | .frame incoming _ _ => incoming.fits w.session.execution.receiver.inCommand
  | _ => true

/-- The worlds reached by runs in which the peer frames every frame so. `handleIn` does not check
it; this is the one restriction the ordering law of execution.sync needs. -/
inductive Framed : World → Prop where
  | initial (rate : Option Nat) (handler : Nat) : Framed (World.initial rate handler)
  | step {w w' : World} {a : Action} : Framed w → a.framed w = true → step w a = some w' → Framed w'

theorem Framed.reachable {w : World} (framed : Framed w) : Reachable w := by
  induction framed with
  | initial rate handler => exact .initial rate handler
  | step _ _ stepped reachable => exact reachable.step trivial stepped

/-- Runs the actions of a list in order while each is well framed. -/
def runFramed : World → List Action → Option World
  | w, [] => some w
  | w, a :: rest => if a.framed w then (step w a).bind (runFramed · rest) else none

theorem runFramed_framed : ∀ {w w' : World} {actions : List Action}, Framed w →
    runFramed w actions = some w' → Framed w'
  | w, w', [], framed, ran => by
    simp only [runFramed, Option.some.injEq] at ran
    exact ran ▸ framed
  | w, w', a :: rest, framed, ran => by
    simp only [runFramed] at ran
    split at ran
    next fits =>
      cases stepped : step w a with
      | none => simp [stepped] at ran
      | some w₁ =>
        simp only [stepped, Option.bind_some] at ran
        exact runFramed_framed (framed.step fits stepped) ran
    · cases ran

/-- A well-framed run from a new session followed by one more well-framed action, with `p`
holding of the worlds before and after that action. -/
theorem step_of_runFramed {rate : Option Nat} {handler : Nat} {actions : List Action} {a : Action}
    {p : World → World → Bool}
    (ran : (runFramed (World.initial rate handler) actions).map
      (fun w => a.framed w && (step w a).any (p w)) = some true) :
    ∃ w w', Framed w ∧ a.framed w = true ∧ step w a = some w' ∧ p w w' = true := by
  cases result : runFramed (World.initial rate handler) actions with
  | none => simp [result] at ran
  | some w =>
    rw [result, Option.map_some', Option.some.injEq, Bool.and_eq_true] at ran
    cases stepped : step w a with
    | none => simp [stepped] at ran
    | some w' =>
      rw [stepped, Option.any_some] at ran
      exact ⟨w, w', runFramed_framed (.initial rate handler) result, ran.1, stepped, ran.2⟩

/-- The actions of the I/O thread, the timer and async completer callbacks: no sync callback,
no destructor. -/
def asyncOnly : Action → Bool
  | .callback _ sync => !sync
  | .resumeComplete _ | .destroy => false
  | _ => true

/-- A one-frame transfer; with a rate controller that is not stopped, has no credit to give and
is stopped afterwards, its handling schedules credit task 0. -/
def creditFrame : Frame := ⟨some ⟨.messageTransfer false, false⟩, true, true, true, true⟩

/-- The credit task is scheduled, the session detaches, and the timer fires the task. -/
def detachedFireRun : List Action := [.frame creditFrame true ⟨false, 0, true⟩, .detach, .fire 0]

theorem fire_uses_detached_handler : ∃ w, ReachableBy (asyncOnly · = true) w ∧
    w.session.isAttached = false ∧ w.fault = some (.detached .getConnection) := by
  have ran := @reach_of_run (asyncOnly · = true) (some 10) 0 detachedFireRun
    (fun w => !w.session.isAttached && w.fault == some (.detached .getConnection)) (by decide)
    (by decide)
  obtain ⟨w, reachable, holds⟩ := ran
  simp only [Bool.and_eq_true, Bool.not_eq_true', beq_iff_eq] at holds
  exact ⟨w, reachable, holds⟩

end Qpid.Broker.Threads
