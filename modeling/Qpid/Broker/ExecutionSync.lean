import Qpid.Broker.SessionSpec
import Mathlib.Data.List.Sort

/-!
The ordering law of execution.sync. `addPendingExecutionSync` queues a sync behind any earlier
incomplete command, and the loop of `completeRcvMsg` releases the front of the queue once no
earlier command is incomplete. `SyncInv` ties the queue to the incomplete set; every operation
that moves the cursor or completes a command keeps it, and by it a sync is complete exactly
when every earlier command is.
-/

namespace Qpid.Broker.ExecutionSync
open Framing Session

/-- The execution.sync bookkeeping of a session between two frames. -/
structure SyncInv (e : Execution) : Prop where
  /-- Deferred syncs are queued in command order. -/
  sorted : e.pendingExecutionSyncs.Sorted (· < ·)
  pending_incomplete : ∀ S ∈ e.pendingExecutionSyncs, S ∈ e.receiver.incomplete
  pending_sync : ∀ S ∈ e.pendingExecutionSyncs, S ∈ e.executionSyncs
  /-- An incomplete sync is a deferred one. -/
  deferred : ∀ S ∈ e.executionSyncs, S ∈ e.receiver.incomplete → S ∈ e.pendingExecutionSyncs
  /-- The front of the queue waits for an earlier incomplete command. -/
  blocked : ∀ S ∈ e.pendingExecutionSyncs.head?, ∃ c ∈ e.receiver.incomplete, c < S
  /-- A completed sync precedes every incomplete command. -/
  released : ∀ S ∈ e.executionSyncs, S ∉ e.receiver.incomplete → ∀ c ∈ e.receiver.incomplete, S < c
  /-- Syncs are commands whose frameset has been handled. -/
  closed : ∀ S ∈ e.executionSyncs, S < e.receiver.closedBound

variable {e : Execution}

theorem SyncInv.initial (rate : Option Nat) (handler : Nat) : SyncInv (initial rate handler).execution where
  sorted := List.sorted_nil
  pending_incomplete := nofun
  pending_sync := nofun
  deferred := by simp [Session.initial]
  blocked := nofun
  released := by simp [Session.initial]
  closed := by simp [Session.initial]

/-- Behind a blocked front every queued sync waits for an earlier incomplete command: checking
the front alone releases every sync that is ready. -/
theorem SyncInv.pending_blocked (inv : SyncInv e) :
    ∀ S ∈ e.pendingExecutionSyncs, ∃ c ∈ e.receiver.incomplete, c < S := by
  have sorted := inv.sorted
  have blocked := inv.blocked
  cases pending : e.pendingExecutionSyncs with
  | nil => exact nofun
  | cons first rest =>
    rw [pending] at sorted blocked
    obtain ⟨c, incomplete, lt⟩ := blocked first rfl
    intro S member
    rcases List.mem_cons.1 member with rfl | later
    · exact ⟨c, incomplete, lt⟩
    · exact ⟨c, incomplete, lt.trans (List.rel_of_sorted_cons sorted S later)⟩

/-- A sync is complete exactly when no earlier command is incomplete. -/
theorem SyncInv.complete_iff (inv : SyncInv e) {S : Nat} (sync : S ∈ e.executionSyncs) :
    S ∉ e.receiver.incomplete ↔ ∀ c < S, c ∉ e.receiver.incomplete := by
  constructor
  · intro done c lt member
    exact absurd (inv.released S sync done c member) (by omega)
  · intro earlier member
    obtain ⟨c, incomplete, lt⟩ := inv.pending_blocked S (inv.deferred S sync member)
    exact earlier c lt incomplete

/-- The first frame of a command adds it to the incomplete set above every sync. -/
theorem SyncInv.record (inv : SyncInv e) : SyncInv { e with receiver := e.receiver.record } := by
  cases idle : e.receiver.inCommand
  · have below : ∀ S ∈ e.executionSyncs, S < e.receiver.next := fun S member => by
      simpa [Receiver.closedBound, idle] using inv.closed S member
    rw [Receiver.record_of_not_inCommand idle]
    refine ⟨inv.sorted, fun S member => Finset.mem_insert_of_mem (inv.pending_incomplete S member),
      inv.pending_sync, ?_, ?_, ?_, ?_⟩
    · intro S sync member
      rcases Finset.mem_insert.1 member with rfl | member
      · exact absurd (below _ sync) (lt_irrefl _)
      · exact inv.deferred S sync member
    · intro S front
      obtain ⟨c, member, lt⟩ := inv.blocked S front
      exact ⟨c, Finset.mem_insert_of_mem member, lt⟩
    · intro S sync done c member
      simp only [Finset.mem_insert, not_or] at done member
      rcases member with rfl | member
      · exact below S sync
      · exact inv.released S sync done.2 c member
    · intro S sync
      simpa [Receiver.closedBound] using below S sync
  · simpa [Receiver.record, idle] using inv

/-- The cursor moving past a frame only raises the bound of handled commands. -/
theorem SyncInv.advance (inv : SyncInv e) (frame : Frame) :
    SyncInv { e with receiver := e.receiver.advance frame } where
  sorted := inv.sorted
  pending_incomplete := by simpa using inv.pending_incomplete
  pending_sync := inv.pending_sync
  deferred := by simpa using inv.deferred
  blocked := by simpa using inv.blocked
  released := by simpa using inv.released
  closed S member := (inv.closed S member).trans_le (Receiver.closedBound_le_advance _ _)

/-- While a command is handled, every sync precedes it. -/
theorem SyncInv.sync_lt_current (inv : SyncInv e) (busy : e.receiver.inCommand = true) :
    ∀ S ∈ e.executionSyncs, S < e.receiver.current := fun S member => by
  simpa [Receiver.closedBound, Receiver.current, busy] using inv.closed S member

/-- `handleCommand` completing the current command, which is not a sync. -/
theorem SyncInv.command (inv : SyncInv e) (busy : e.receiver.inCommand = true) :
    SyncInv ⟨e.receiver.completed e.receiver.current, true, e.pendingExecutionSyncs,
      e.executionSyncs⟩ := by
  have below := inv.sync_lt_current busy
  refine ⟨inv.sorted, ?_, inv.pending_sync, ?_, ?_, ?_, inv.closed⟩
  · intro S member
    exact Finset.mem_erase.2 ⟨(below S (inv.pending_sync S member)).ne,
      inv.pending_incomplete S member⟩
  · intro S sync member
    exact inv.deferred S sync (Finset.mem_of_mem_erase member)
  · intro S front
    obtain ⟨c, member, lt⟩ := inv.blocked S front
    have : S < e.receiver.current :=
      below S (inv.pending_sync S (List.mem_of_mem_head? front))
    exact ⟨c, Finset.mem_erase.2 ⟨by omega, member⟩, lt⟩
  · intro S sync done c member
    simp only [Receiver.completed_incomplete, Finset.mem_erase, not_and_or, not_not] at done member
    rcases done with same | done
    · exact absurd same (below S sync).ne
    · exact inv.released S sync done c member.2

/-- `addPendingExecutionSync` deferring the current sync, and the cursor closing it. -/
theorem SyncInv.defer (inv : SyncInv e) (busy : e.receiver.inCommand = true)
    (member : e.receiver.current ∈ e.receiver.incomplete)
    (current_lt : e.receiver.current < e.receiver.next) {first : Nat}
    (front : e.receiver.front = some first) (lt : first < e.receiver.current) :
    SyncInv ⟨{ e.receiver with inCommand := false }, false,
      e.pendingExecutionSyncs ++ [e.receiver.current], insert e.receiver.current e.executionSyncs⟩ := by
  have below := inv.sync_lt_current busy
  refine ⟨?_, ?_, ?_, ?_, ?_, ?_, ?_⟩
  · exact List.pairwise_append.2 ⟨inv.sorted, List.pairwise_singleton _ _, fun S member T last => by
      rw [List.mem_singleton.1 last]; exact below S (inv.pending_sync S member)⟩
  · simp only [List.mem_append, List.mem_singleton]
    rintro S (member | rfl)
    exacts [inv.pending_incomplete S member, member]
  · simp only [List.mem_append, List.mem_singleton, Finset.mem_insert]
    rintro S (member | rfl)
    exacts [.inr (inv.pending_sync S member), .inl rfl]
  · simp only [Finset.mem_insert, List.mem_append, List.mem_singleton]
    rintro S (rfl | sync) member
    exacts [.inr rfl, .inl (inv.deferred S sync member)]
  · intro S front'
    cases pending : e.pendingExecutionSyncs with
    | nil =>
      simp only [pending, List.nil_append, List.head?_cons, Option.mem_def, Option.some.injEq] at front'
      exact ⟨first, (Receiver.front_eq_some.1 front).1, front' ▸ lt⟩
    | cons head rest =>
      simp only [pending, List.cons_append, List.head?_cons] at front'
      exact inv.blocked S (by rw [pending]; exact front')
  · simp only [Finset.mem_insert]
    rintro S (rfl | sync) done
    exacts [absurd member done, inv.released S sync done]
  · simp only [Finset.mem_insert, Receiver.closedBound, if_false, Bool.false_eq_true]
    rintro S (rfl | sync)
    exacts [current_lt, (below S sync).trans current_lt]

/-- `handleCommand` completing the current sync at once, and the cursor closing it. -/
theorem SyncInv.completeSync (inv : SyncInv e) (busy : e.receiver.inCommand = true)
    (current_lt : e.receiver.current < e.receiver.next) {first : Nat}
    (front : e.receiver.front = some first) (ge : ¬first < e.receiver.current) :
    SyncInv ⟨{ e.receiver.completed e.receiver.current with inCommand := false }, true,
      e.pendingExecutionSyncs, insert e.receiver.current e.executionSyncs⟩ := by
  have below := inv.sync_lt_current busy
  have least := (Receiver.front_eq_some.1 front).2
  refine ⟨inv.sorted, ?_, ?_, ?_, ?_, ?_, ?_⟩
  · intro S member
    exact Finset.mem_erase.2 ⟨(below S (inv.pending_sync S member)).ne,
      inv.pending_incomplete S member⟩
  · exact fun S member => Finset.mem_insert_of_mem (inv.pending_sync S member)
  · simp only [Finset.mem_insert, Receiver.completed_incomplete, Finset.mem_erase]
    rintro S (rfl | sync) member
    exacts [absurd rfl member.1, inv.deferred S sync member.2]
  · intro S front'
    obtain ⟨c, member, lt⟩ := inv.blocked S front'
    have : S < e.receiver.current :=
      below S (inv.pending_sync S (List.mem_of_mem_head? front'))
    exact ⟨c, Finset.mem_erase.2 ⟨by omega, member⟩, lt⟩
  · simp only [Finset.mem_insert, Receiver.completed_incomplete, Finset.mem_erase, not_and_or,
      not_not]
    rintro S (rfl | sync) done c ⟨other, member⟩
    · have := least c member
      omega
    · rcases done with same | done
      · exact absurd same (below S sync).ne
      · exact inv.released S sync done c member
  · simp only [Finset.mem_insert, Receiver.closedBound, if_false, Bool.false_eq_true,
      Receiver.completed_next]
    rintro S (rfl | sync)
    exacts [current_lt, (below S sync).trans current_lt]

/-- `completeRcvMsg` completing a message that is not a sync and releasing `k` queued syncs, with
the two facts its loop establishes. -/
theorem SyncInv.afterCompletion (inv : SyncInv e) {id k : Nat} (notSync : id ∉ e.executionSyncs)
    (released : ∀ S ∈ e.pendingExecutionSyncs.take k,
      ∀ c ∈ (e.afterCompletion id k).receiver.incomplete, S ≤ c)
    (blocked : ∀ S ∈ (e.afterCompletion id k).pendingExecutionSyncs.head?,
      ∃ c ∈ (e.afterCompletion id k).receiver.incomplete, c < S) :
    SyncInv (e.afterCompletion id k) := by
  have disjoint := List.disjoint_take_drop (inv.sorted.nodup) (le_refl k)
  simp only [Execution.afterCompletion] at released blocked ⊢
  refine ⟨inv.sorted.sublist (List.drop_sublist _ _), ?_, ?_, ?_, blocked, ?_, inv.closed⟩
  · intro S member
    have sync := inv.pending_sync S (List.mem_of_mem_drop member)
    simp only [Finset.mem_sdiff, Finset.mem_erase, List.mem_toFinset]
    exact ⟨⟨fun same => notSync (same ▸ sync), inv.pending_incomplete S (List.mem_of_mem_drop member)⟩,
      fun taken => disjoint taken member⟩
  · exact fun S member => inv.pending_sync S (List.mem_of_mem_drop member)
  · intro S sync member
    simp only [Finset.mem_sdiff, Finset.mem_erase, List.mem_toFinset] at member
    have queued := inv.deferred S sync member.1.2
    rw [← List.take_append_drop k e.pendingExecutionSyncs, List.mem_append] at queued
    exact queued.resolve_left member.2
  · intro S sync done c member
    simp only [Finset.mem_sdiff, Finset.mem_erase, List.mem_toFinset, not_and_or, not_not] at done member
    rcases done with (same | done) | taken
    · exact absurd (same ▸ sync) notSync
    · exact inv.released S sync done c member.1.2
    · have le := released S taken c (by simpa using member)
      exact lt_of_le_of_ne le fun same => member.2 (same ▸ taken)

theorem SyncInv.completeRcvMsg {s s' : SessionState} {msg : Msg} (inv : SyncInv s.execution)
    (notSync : msg.id ∉ s.execution.executionSyncs) (ok : s.completeRcvMsg msg = .ok s') :
    SyncInv s'.execution := by
  obtain ⟨k, rfl, -, released, blocked⟩ := SessionState.completeRcvMsg_ok ok
  exact inv.afterCompletion notSync released blocked

/-- A well-framed frame keeps the law, when the messages it may complete are not syncs. -/
theorem SyncInv.received {s s' : SessionState} {frame : Frame} {completesNow : Bool}
    {rate : RateAnswers} (inv : SyncInv s.execution) (assembling : SessionState.Assembling s)
    (fits : frame.fits s.execution.receiver.inCommand)
    (ok : s.received frame completesNow rate = .ok s') : SyncInv s'.execution := by
  have recorded : SyncInv (s.withReceiver Receiver.record).execution := inv.record
  rcases SessionState.received_ok_of_fits fits ok with
    ⟨⟨kind, sync⟩, s₁, kindEq, idle, ending, handled, rfl⟩ | ⟨s₁, s₂, assembled, quiet, rfl⟩
  · obtain ⟨member, current⟩ := Receiver.record_current_mem idle
    have current_lt : s.execution.receiver.record.current < s.execution.receiver.record.next := by
      rw [current, Receiver.record_of_not_inCommand idle]; exact Nat.lt_succ_self _
    rcases kindEq with rfl | ⟨handled', hasResult, rfl⟩
    · obtain ⟨first, front, result⟩ := SessionState.handleCommand_executionSync_ok handled
      split at result
      next lt =>
        subst result
        simp only [SessionState.withReceiver_execution, Receiver.advance_of_end ending]
        exact recorded.defer (Receiver.record_inCommand _) member current_lt front lt
      next ge =>
        obtain ⟨-, rfl⟩ := result
        simp only [SessionState.withReceiver_execution, Receiver.advance_of_end ending]
        exact recorded.completeSync (Receiver.record_inCommand _) current_lt front ge
    · obtain ⟨-, -, rfl⟩ := SessionState.handleCommand_other_ok handled
      exact (recorded.command (Receiver.record_inCommand _)).advance frame
  · obtain ⟨msg, owner, rest⟩ := SessionState.assembleContent_current assembling assembled
    have execution : s₂.execution = s₁.execution := quiet.2.2.1
    suffices SyncInv s₁.execution by
      rw [SessionState.withReceiver_execution, execution]
      exact this.advance frame
    split at rest
    · rcases SessionState.endReceiveCompletion_ok rest with ⟨-, -, complete⟩ | ⟨-, -, rfl⟩ | ⟨-, rfl⟩
      · refine @SyncInv.completeRcvMsg { s.withReceiver Receiver.record with msgBuilder := none }
          _ _ recorded ?_ complete
        show msg.id ∉ (s.withReceiver Receiver.record).execution.executionSyncs
        rw [owner]
        exact fun sync => (recorded.sync_lt_current (Receiver.record_inCommand _) _ sync).ne rfl
      all_goals exact recorded
    · subst rest
      exact recorded

/-- A deferred sync that `completeRcvMsg` completes is reported by a completion it sends. -/
theorem SyncInv.completeRcvMsg_reports {s s' : SessionState} {msg : Msg} {S : Nat}
    (inv : SyncInv s.execution) (notSync : msg.id ∉ s.execution.executionSyncs)
    (ok : s.completeRcvMsg msg = .ok s') (deferred : S ∈ s.execution.pendingExecutionSyncs)
    (done : S ∉ s'.execution.receiver.incomplete) :
    ∃ sent, s'.outbound.wire = s.outbound.wire ++ sent ∧
      ∃ commands, Wire.completion commands ∈ sent ∧ S ∈ commands := by
  obtain ⟨k, rfl, -⟩ := SessionState.completeRcvMsg_ok ok
  have sync := inv.pending_sync S deferred
  have taken : S ∈ s.execution.pendingExecutionSyncs.take k := by
    by_contra absent
    apply done
    simp only [Execution.afterCompletion, Finset.mem_sdiff, Finset.mem_erase, List.mem_toFinset]
    exact ⟨⟨fun same => notSync (same ▸ sync), inv.pending_incomplete S deferred⟩, absent⟩
  have positive : 0 < k := Nat.pos_of_ne_zero (by rintro rfl; simp at taken)
  have reported : S ∈ (s.execution.afterCompletion msg.id k).receiver.completedCommands := by
    simp only [Receiver.completedCommands, Finset.mem_sdiff, Finset.mem_range]
    exact ⟨(inv.closed S sync).trans_le (Receiver.closedBound_le_next _), done⟩
  by_cases flagged : msg.isSync
  · exact ⟨acceptWire (acceptedWith s.outbound.accepted msg) ++
      [.completion (s.execution.afterCompletion msg.id k).receiver.completedCommands],
      by simp [flagged], _, by simp, reported⟩
  · exact ⟨[.completion (s.execution.afterCompletion msg.id k).receiver.completedCommands],
      by simp [flagged, positive], _, List.mem_singleton_self _, reported⟩

/-- Only `completeRcvMsg` releases a deferred sync: a frame whose handling releases one ran
`completeRcvMsg` on the recorded session, and afterwards sent only what accepts nothing. -/
theorem SyncInv.received_release {s s' : SessionState} {frame : Frame} {completesNow : Bool}
    {rate : RateAnswers} {S : Nat} (inv : SyncInv s.execution) (assembling : SessionState.Assembling s)
    (fits : frame.fits s.execution.receiver.inCommand)
    (ok : s.received frame completesNow rate = .ok s') (deferred : S ∈ s.execution.pendingExecutionSyncs)
    (done : S ∉ s'.execution.receiver.incomplete) :
    ∃ (u t : SessionState) (msg : Msg), u.execution = (s.withReceiver Receiver.record).execution ∧
      u.outbound = s.outbound ∧ u.registry = s.registry ∧ msg.id ∉ u.execution.executionSyncs ∧
      u.completeRcvMsg msg = .ok t ∧
      s'.execution.receiver.incomplete = t.execution.receiver.incomplete ∧
      s'.outbound.accepted = t.outbound.accepted ∧ s'.registry = t.registry ∧
      ∃ ws : List Wire, s'.outbound.wire = t.outbound.wire ++ ws ∧ ∀ x ∈ ws, x.accepts = ∅ := by
  have recorded : SyncInv (s.withReceiver Receiver.record).execution := inv.record
  have waiting : S ∈ (s.withReceiver Receiver.record).execution.receiver.incomplete :=
    recorded.pending_incomplete S deferred
  rcases SessionState.received_ok_of_fits fits ok with
    ⟨method, s₁, kind, -, -, handled, rfl⟩ | ⟨s₁, s₂, assembled, quiet, rfl⟩
  · refine absurd (SessionState.handleCommand_incomplete kind handled (Finset.mem_erase.2 ⟨?_, waiting⟩))
      (by simpa using done)
    exact (recorded.sync_lt_current (Receiver.record_inCommand _) S
      (recorded.pending_sync S deferred)).ne
  · obtain ⟨msg, owner, rest⟩ := SessionState.assembleContent_current assembling assembled
    obtain ⟨-, -, execution, registry, accepted, ws, wire, silent⟩ := quiet
    simp only [SessionState.withReceiver_execution, Receiver.advance_incomplete, execution] at done
    split at rest
    · rcases SessionState.endReceiveCompletion_ok rest with ⟨-, -, complete⟩ | ⟨-, -, rfl⟩ | ⟨-, rfl⟩
      · refine ⟨{ s.withReceiver Receiver.record with msgBuilder := none }, s₁, msg, rfl, rfl, rfl, ?_,
          complete, by simp [execution], accepted, registry,
          ws, wire, silent⟩
        show msg.id ∉ (s.withReceiver Receiver.record).execution.executionSyncs
        rw [owner]
        exact fun sync => (recorded.sync_lt_current (Receiver.record_inCommand _) _ sync).ne rfl
      all_goals exact absurd waiting done
    · subst rest
      exact absurd waiting done

/-- A frame that is an execution.sync with the sync flag and completes its command, which had
not completed before: the `message.accept` of everything pending, then a completion, and nothing
left pending. -/
theorem received_executionSync {s s' : SessionState} {frame : Frame} {completesNow : Bool}
    {rate : RateAnswers} (begun : s.execution.receiver.inCommand = true → 0 < s.execution.receiver.next)
    (method : frame.method = some ⟨.executionSync, true⟩)
    (ok : s.received frame completesNow rate = .ok s')
    (fresh : s.execution.receiver.closedBound ∉ s.execution.receiver.completedCommands)
    (done : s.execution.receiver.closedBound ∉ s'.execution.receiver.incomplete) :
    s'.outbound.accepted = ∅ ∧ ∃ commands, s'.outbound.wire =
      s.outbound.wire ++ (acceptWire s.outbound.accepted ++ [.completion commands]) := by
  rcases SessionState.received_ok ok with ⟨m, s₁, -, found, -, handled, rfl⟩ |
    ⟨s₁, s₂, bearing, -⟩
  · rw [method, Option.some.injEq] at found
    subst found
    obtain ⟨first, -, result⟩ := SessionState.handleCommand_executionSync_ok handled
    have member := Receiver.closedBound_mem_record begun fresh
    split at result
    · subst result
      exact absurd (by simpa using member) done
    · obtain ⟨-, rfl⟩ := result
      exact ⟨rfl, _, rfl⟩
  · exact absurd (bearing _ method) nofun

end Qpid.Broker.ExecutionSync
