import Qpid.Broker.Invariant

/-!
Who calls `completeRcvMsg`, and how often. A registered receive reaches `completeRcvMsg` at most
once, and never once its `cancel()` has returned. A sync callback runs on the I/O thread, as the
destructor does, so none is half way through when the destructor begins, and from then on no
step completes a receive. Every receive an async callback pushes on
`scheduledRcvMsgs` is completed once the deque is drained, provided that the session is neither
detached nor destroyed and that no producer is left between its push and its size test.
-/

namespace Qpid.Broker.Registry
open Framing Session Threads Invariant

variable {w w' : World}

theorem places_eq_completed_add (w : World) : places w = ↑w.session.registry.completed +
    (↑w.completing + drainHeld w.drain + ↑w.cancelled +
      (↑w.session.registry.incompleteRcvMsgs + ↑w.session.registry.scheduledRcvMsgs)) := by
  unfold places; abel

theorem completed_ids_nodup (inv : Inv w) : (w.session.registry.completed.map Msg.id).Nodup := by
  have distinct := inv.placed.distinct
  rw [places_eq_completed_add, Multiset.map_add, Multiset.nodup_add] at distinct
  simpa using distinct.1

/-- A receive on its way to `completeRcvMsg`, or cancelled, has not been completed. -/
theorem not_completed (inv : Inv w) {msg : Msg}
    (pending : msg ∈ w.completing ∨ w.drain = some (.complete msg) ∨ msg ∈ w.cancelled) :
    msg ∉ w.session.registry.completed := by
  have distinct := inv.placed.distinct.of_map _
  rw [places_eq_completed_add, Multiset.nodup_add] at distinct
  refine fun done => Multiset.disjoint_left.1 distinct.2.2 (Multiset.mem_coe.2 done) ?_
  rcases pending with waiting | held | cancelled <;> simp [*, drainHeld]

/-- A callback that finds no entry, or finds the session detached, only erases the entry. -/
theorem callback_ignored {msg : Msg} {sync : Bool}
    (ignored : msg ∉ w.session.registry.incompleteRcvMsgs ∨ w.session.isAttached = false) :
    w.callback msg sync =
      w.withRegistry (w.session.registry.incompleteRcvMsgs.erase msg) w.session.registry.scheduledRcvMsgs := by
  unfold World.callback
  by_cases registered : msg ∈ w.session.registry.incompleteRcvMsgs
  · simp [registered, ignored.resolve_left (not_not.2 registered)]
  · simp only [if_neg registered, List.erase_of_not_mem registered, World.withRegistry_self]

/-- A one-frame transfer that needs no accept, and the receive the session registers for it as
command 0. -/
def receiveFrame : Frame := ⟨some ⟨.messageTransfer false, false⟩, true, true, true, true⟩

def receiveMsg : Msg := ⟨0, ⟨.messageTransfer false, false⟩, [receiveFrame, dummyHeader]⟩

/-- `completeRcvMsg` runs at most once per command and only for receives not yet completed, never
for a cancelled one; once the destructor has begun no step completes a receive; and a callback
that finds no entry or a detached session only erases. -/
theorem completions_once_never_cancelled (reachable : Reachable w) :
    (w.session.registry.completed.map Msg.id).Nodup ∧
    (∀ msg, msg ∈ w.completing ∨ w.drain = some (.complete msg) ∨ msg ∈ w.cancelled →
      msg ∉ w.session.registry.completed) ∧
    (w.destroyed = true → ∀ a next, Threads.step w a = some next →
      next.session.registry.completed = w.session.registry.completed) ∧
    (∀ msg sync next, Threads.step w (.callback msg sync) = some next →
      msg ∉ w.session.registry.incompleteRcvMsgs ∨ w.session.isAttached = false →
      next = w.withRegistry (w.session.registry.incompleteRcvMsgs.erase msg)
        w.session.registry.scheduledRcvMsgs) := by
  have inv := ReachableBy.inv reachable
  refine ⟨completed_ids_nodup inv, fun msg pending => not_completed inv pending,
    fun destroyed a next stepped => ?_, fun msg sync next stepped ignored => ?_⟩
  · have torn := inv.torn destroyed
    rcases step_session stepped with still | ⟨-, -, -, -, alive, -⟩ |
      ⟨msg, (⟨-, held⟩ | ⟨-, waiting⟩), -⟩
    · exact still.2.2.1
    · simp [destroyed] at alive
    · exact absurd (torn.2.2.2.2 _ held) nofun
    · simp [torn.2.2.2.1] at waiting
  · rw [← callback_ignored ignored]
    simp only [Threads.step] at stepped
    split_ifs at stepped
    exact (Option.some.inj stepped).symm

/-- The receive of command 1, which the destructor cancels in `postedRun`. -/
def cancelledMsg : Msg := ⟨1, ⟨.messageTransfer false, false⟩, [receiveFrame, dummyHeader]⟩

/-- The async callback of command 0 posts a drain, command 1 is registered, and the destructor
begins before the drain starts. -/
def postedRun : List Action :=
  [.frame receiveFrame false ⟨false, 0, false⟩, .callback receiveMsg false, .resumePush receiveMsg,
    .frame receiveFrame false ⟨false, 0, false⟩, .destroy]

theorem completions_once_never_cancelled_posted : ∃ w w', Reachable w ∧ w.destroyed = true ∧
    cancelledMsg ∈ w.cancelled ∧ cancelledMsg ∉ w.session.registry.completed ∧
    Threads.step w .startDrain = some w' ∧
    w'.session.registry.completed = w.session.registry.completed ∧
    (w.session.registry.completed.map Msg.id).Nodup ∧
    Threads.step (World.initial none 0) (.callback receiveMsg true) =
      some ((World.initial none 0).withRegistry [] []) := by
  obtain ⟨w, w', reachable, stepped, holds⟩ := @step_of_run (fun _ => True) none 0 postedRun
    .startDrain (fun w _ => w.destroyed && decide (cancelledMsg ∈ w.cancelled))
    (fun _ _ => trivial) (by decide)
  simp only [Bool.and_eq_true, decide_eq_true_eq] at holds
  have initially : Threads.step (World.initial none 0) (.callback receiveMsg true) =
      some (World.initial none 0) := rfl
  exact ⟨w, w', reachable, holds.1, holds.2,
    (completions_once_never_cancelled reachable).2.1 _ (.inr (.inr holds.2)), stepped,
    (completions_once_never_cancelled reachable).2.2.1 holds.1 _ _ stepped,
    (completions_once_never_cancelled reachable).1,
    initially.trans (congrArg some ((completions_once_never_cancelled (ReachableBy.initial none 0)).2.2.2
      receiveMsg true _ initially (.inl (by decide))))⟩

/-- The actions of runs in which the session is neither detached nor destroyed. -/
def keepsSession : Action → Bool
  | .detach | .destroy => false
  | _ => true

/-- What a session operation of such a run does: the session stays attached, the deque is
unchanged, and the completed receives are kept. -/
def Grows (s s' : SessionState) : Prop :=
  (s.isAttached = true → s'.isAttached = true) ∧
    s'.registry.scheduledRcvMsgs = s.registry.scheduledRcvMsgs ∧
    s.registry.completed <+: s'.registry.completed

theorem Grows.refl (s : SessionState) : Grows s s := ⟨id, rfl, List.prefix_refl _⟩

theorem Grows.of_quiet {s s' : SessionState} (quiet : SessionState.Quiet s s') : Grows s s' := by
  obtain ⟨handler, -, -, registry, -⟩ := quiet
  exact ⟨by simp [SessionState.isAttached, handler], by rw [registry], by rw [registry]⟩

theorem Grows.completeRcvMsg {s s' : SessionState} {msg : Msg} (ok : s.completeRcvMsg msg = .ok s') :
    Grows s s' := by
  obtain ⟨-, -, -, -, registry, -⟩ := SessionState.completeRcvMsg_frame ok
  refine ⟨by simp [SessionState.isAttached, SessionState.completeRcvMsg_handler ok], by rw [registry],
    by simp [registry]⟩

theorem Grows.received (inv : Inv w) {s : SessionState} {frame : Frame} {completesNow : Bool}
    {rate : RateAnswers} (ok : w.session.received frame completesNow rate = .ok s) :
    Grows w.session s := by
  have attached : s.isAttached = w.session.isAttached := by
    simp only [SessionState.isAttached, SessionState.received_handler ok]
  rcases (SessionState.received_owned inv.begun (fun b held => (inv.builder b held).2) ok).2.2.2.2 with
      registry | ⟨msg, -, -, -, registry | registry⟩ <;>
    exact ⟨fun was => attached ▸ was, by rw [registry], by simp [registry]⟩

/-- Along runs that keep the session: it stays attached, nothing is cancelled, and every receive
an async callback scheduled is in the deque, held by the drain, or completed. -/
structure Steady (w : World) : Prop where
  attached : w.session.isAttached = true
  uncancelled : w.cancelled = []
  accounted : ∀ msg ∈ w.scheduled, msg ∈ w.session.registry.scheduledRcvMsgs ∨
    w.drain = some (.complete msg) ∨ msg ∈ w.session.registry.completed

theorem Steady.initial (rate : Option Nat) (handler : Nat) : Steady (World.initial rate handler) :=
  ⟨rfl, rfl, nofun⟩

theorem Steady.of_grows (steady : Steady w) (grows : Grows w.session w'.session)
    (uncancelled : w'.cancelled = w.cancelled) (scheduled : w'.scheduled = w.scheduled)
    (held : ∀ msg, w.drain = some (.complete msg) → w'.drain = w.drain) : Steady w' := by
  refine ⟨grows.1 steady.attached, uncancelled.trans steady.uncancelled, fun msg member => ?_⟩
  rw [scheduled] at member
  rcases steady.accounted msg member with queued | draining | done
  · exact .inl (grows.2.1 ▸ queued)
  · exact .inr (.inl ((held msg draining).trans draining))
  · exact .inr (.inr (grows.2.2.subset done))

theorem Steady.session (steady : Steady w) {s : SessionState} (grows : Grows w.session s) :
    Steady { w with session := s } :=
  steady.of_grows grows rfl rfl fun _ _ => rfl

theorem Steady.update {α : Type} (steady : Steady w) {result : Except Failure α}
    {next : α → World} (ok : ∀ x, result = .ok x → Steady (next x)) :
    Steady (w.update result next) := by
  cases result with
  | error => exact ⟨steady.1, steady.2, steady.3⟩
  | ok x => exact ok x rfl

theorem Steady.callback (steady : Steady w) (msg : Msg) (sync : Bool) :
    Steady (w.callback msg sync) := by
  unfold World.callback
  by_cases registered : msg ∈ w.session.registry.incompleteRcvMsgs
  · simp only [if_pos registered, steady.attached, if_true]
    cases sync
    · refine ⟨steady.attached, steady.uncancelled, fun m member => ?_⟩
      rcases List.mem_append.1 member with scheduled | pushed
      · rcases steady.accounted m scheduled with queued | held | done
        · exact .inl (List.mem_append_left _ queued)
        · exact .inr (.inl held)
        · exact .inr (.inr done)
      · exact .inl (List.mem_append_right _ pushed)
    · exact steady.of_grows ⟨id, rfl, List.prefix_refl _⟩ rfl rfl fun _ _ => rfl
  · simpa only [if_neg registered] using steady

theorem Steady.drainStep (inv : Inv w) (steady : Steady w) {d : Drain} (running : w.drain = some d) :
    Steady (w.drainStep d) := by
  cases d with
  | check =>
    simp only [World.drainStep]
    cases w.session.registry.scheduledRcvMsgs <;>
      exact steady.of_grows (Grows.refl _) rfl rfl fun _ held => by simp [running] at held
  | pop m =>
    obtain ⟨tail, deque⟩ := List.head?_eq_some_iff.1 (inv.front m running)
    refine ⟨steady.attached, steady.uncancelled, fun msg member => ?_⟩
    rcases steady.accounted msg member with queued | held | done
    · rw [deque, List.mem_cons] at queued
      rcases queued with rfl | later
      · exact .inr (.inl rfl)
      · exact .inl (by simpa [World.drainStep, World.withRegistry, deque] using later)
    · simp [running] at held
    · exact .inr (.inr done)
  | complete m =>
    have go : (decide (m ∉ w.cancelled) && w.session.isAttached) = true := by
      simp [steady.uncancelled, steady.attached]
    simp only [World.drainStep, go, if_true]
    refine steady.update fun s ok => ?_
    have grows := Grows.completeRcvMsg ok
    refine ⟨grows.1 steady.attached, steady.uncancelled, fun msg member => ?_⟩
    rcases steady.accounted msg member with queued | held | done
    · exact .inl (grows.2.1 ▸ queued)
    · rw [running, Option.some.injEq, Drain.complete.injEq] at held
      subst held
      exact .inr (.inr (by simp [(SessionState.completeRcvMsg_frame ok).2.2.2.2.1]))
    · exact .inr (.inr (grows.2.2.subset done))

/-- Every step of a run that keeps the session keeps `Steady`. -/
theorem Steady.step (inv : Inv w) (steady : Steady w) {a : Action} (keeps : keepsSession a = true)
    (stepped : Threads.step w a = some w') : Steady w' := by
  obtain ⟨-, effect⟩ := step_eq_some stepped
  cases a with
  | frame frame completesNow rate =>
    obtain ⟨-, -, -, -, rfl⟩ := effect
    exact steady.update fun s ok => steady.session (Grows.received inv ok)
  | readyToSend =>
    obtain ⟨-, -, -, -, rfl⟩ := effect
    exact steady.update fun s ok =>
      steady.session (Grows.of_quiet (SessionState.readyToSend_quiet ok))
  | deliver sync =>
    obtain ⟨-, -, -, -, rfl⟩ := effect
    exact steady.update fun s ok => steady.session (Grows.of_quiet (SessionState.deliver_quiet ok))
  | detach | destroy => cases keeps
  | attach handler =>
    obtain ⟨-, -, -, rfl⟩ := effect
    exact steady.session ⟨fun _ => rfl, rfl, List.prefix_refl _⟩
  | startDrain =>
    obtain ⟨idle, -, -, rfl⟩ := effect
    exact steady.of_grows (Grows.refl _) rfl rfl fun _ held => by simp [idle] at held
  | drainStep =>
    obtain ⟨d, running, rfl⟩ := effect
    exact steady.drainStep inv running
  | sendCredit task rate =>
    obtain ⟨-, -, -, rfl⟩ := effect
    split
    · exact ⟨steady.1, steady.2, steady.3⟩
    · exact steady.update fun s ok => steady.of_grows
        (Grows.of_quiet (SessionState.sendCredit_quiet ok)) rfl rfl fun _ _ => rfl
  | fire task =>
    obtain ⟨-, rfl⟩ := effect
    unfold World.fire
    split
    · exact ⟨steady.1, steady.2, steady.3⟩
    · exact steady.update fun _ _ => steady.of_grows
        (Grows.of_quiet (SessionState.Quiet.credit _ _)) rfl rfl fun _ _ => rfl
  | callback msg sync =>
    obtain ⟨-, -, -, -, rfl⟩ := effect
    exact steady.callback msg sync
  | resumePush msg =>
    obtain ⟨-, rfl⟩ := effect
    unfold World.resumePush
    split
    · exact steady.update fun _ _ => steady.of_grows (Grows.refl _) rfl rfl fun _ _ => rfl
    · exact steady.of_grows (Grows.refl _) rfl rfl fun _ _ => rfl
  | resumeComplete msg =>
    obtain ⟨-, rfl⟩ := effect
    exact steady.update fun s ok =>
      steady.of_grows (Grows.completeRcvMsg ok) rfl rfl fun _ _ => rfl

theorem ReachableBy.steady (reachable : ReachableBy (keepsSession · = true) w) : Steady w := by
  induction reachable with
  | initial rate handler => exact Steady.initial rate handler
  | step reached keeps stepped holds => exact holds.step (ReachableBy.inv reached) keeps stepped

/-- The async callback of command 0 has pushed its receive and has not made its size test. -/
def unpostedRun : List Action :=
  [.frame receiveFrame false ⟨false, 0, false⟩, .callback receiveMsg false]

/-- The async callback's receive is pushed, posted, popped and completed by one drain, which
then finds the deque empty. -/
def drainedRun : List Action :=
  unpostedRun ++ [.resumePush receiveMsg, .startDrain, .drainStep, .drainStep, .drainStep, .drainStep]

/-- A non-empty deque has a drain posted or running, or a producer between its push and its size
test; and a run that keeps the session and ends with neither has completed every scheduled
receive exactly once. -/
theorem scheduled_drained_once :
    (∀ w, Reachable w → w.session.registry.scheduledRcvMsgs ≠ [] →
      0 < w.drainRequests ∨ w.drain.isSome ∨ w.pushing ≠ []) ∧
    (∀ w, ReachableBy (keepsSession · = true) w → w.drainRequests = 0 → w.drain = none →
      w.pushing = [] → ∀ msg ∈ w.scheduled, w.session.registry.completed.count msg = 1) := by
  refine ⟨fun w reachable nonempty => ?_, fun w reachable idle stopped unlocked msg member => ?_⟩
  · rcases (ReachableBy.inv reachable).awake nonempty with (requested | running) | held
    · exact .inl requested
    · exact .inr (.inl running)
    · exact .inr (.inr (by simpa [World.locked] using held))
  · have inv := ReachableBy.inv reachable
    have empty : w.session.registry.scheduledRcvMsgs = [] := by
      by_contra nonempty
      rcases inv.awake nonempty with (requested | running) | held <;>
        simp_all [World.locked]
    rcases (ReachableBy.steady reachable).accounted msg member with queued | held | done
    · simp [empty] at queued
    · simp [stopped] at held
    · exact List.count_eq_one_of_mem ((completed_ids_nodup inv).of_map _) done

theorem scheduled_drained_once_runs :
    (∃ w, Reachable w ∧ w.session.registry.scheduledRcvMsgs ≠ [] ∧
      (0 < w.drainRequests ∨ w.drain.isSome ∨ w.pushing ≠ [])) ∧
    ∃ w, ReachableBy (keepsSession · = true) w ∧ w.drainRequests = 0 ∧ w.drain = none ∧
      w.pushing = [] ∧ receiveMsg ∈ w.scheduled ∧ w.session.registry.completed.count receiveMsg = 1 := by
  obtain ⟨w, reachable, queued⟩ := @reach_of_run (fun _ => True) none 0 unpostedRun
    (fun w => decide (w.session.registry.scheduledRcvMsgs ≠ [])) (fun _ _ => trivial) (by decide)
  obtain ⟨v, reached, idle⟩ := @reach_of_run (keepsSession · = true) none 0 drainedRun
    (fun w => w.drainRequests == 0 && w.drain.isNone && w.pushing.isEmpty &&
      decide (receiveMsg ∈ w.scheduled)) (by decide) (by decide)
  rw [decide_eq_true_eq] at queued
  simp only [Bool.and_eq_true, beq_iff_eq, Option.isNone_iff_eq_none, List.isEmpty_iff,
    decide_eq_true_eq] at idle
  exact ⟨⟨w, reachable, queued, scheduled_drained_once.1 w reachable queued⟩,
    v, reached, idle.1.1.1, idle.1.1.2, idle.1.2, idle.2,
    scheduled_drained_once.2 v reached idle.1.1.1 idle.1.1.2 idle.1.2 _ idle.2⟩

theorem drain_unposted_before_size_test : ∃ w, ReachableBy (keepsSession · = true) w ∧
    w.drainRequests = 0 ∧ w.drain = none ∧ receiveMsg ∈ w.scheduled ∧
    w.session.registry.completed.count receiveMsg = 0 := by
  obtain ⟨w, reachable, holds⟩ := @reach_of_run (keepsSession · = true) none 0 unpostedRun
    (fun w => w.drainRequests == 0 && w.drain.isNone && decide (receiveMsg ∈ w.scheduled) &&
      w.session.registry.completed.count receiveMsg == 0)
    (by decide) (by decide)
  simp only [Bool.and_eq_true, beq_iff_eq, Option.isNone_iff_eq_none, decide_eq_true_eq] at holds
  exact ⟨w, reachable, holds.1.1.1, holds.1.1.2, holds.1.2, holds.2⟩

end Qpid.Broker.Registry
