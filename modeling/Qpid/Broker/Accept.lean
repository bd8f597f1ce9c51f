import Qpid.Broker.SessionSpec

/-!
Accept accounting. `completeRcvMsg` adds a completed message that requires accept to
`accepted`, and `sendAcceptAndCompletion` moves all of `accepted` into one `message.accept` and
clears it. `acceptCount` counts where an id is held: in each `message.accept` sent, and once more
while it waits in `accepted`. `AcceptInv` says every completed message requiring accept is held
exactly once and nothing else is held at all.
-/

namespace Qpid.Broker.Accept
open Framing Session

/-- How often `id` has been accepted to the peer or waits to be. -/
def acceptCount (o : Outbound) (id : Nat) : Nat :=
  o.wire.countP (fun w => id ∈ w.accepts) + if id ∈ o.accepted then 1 else 0

/-- The ids of the completed messages that require accept. -/
def acceptIds (completed : List Msg) : List Nat := (completed.filter Msg.requiresAccept).map Msg.id

def AcceptInv (s : SessionState) : Prop :=
  ∀ id, acceptCount s.outbound id = if id ∈ acceptIds s.registry.completed then 1 else 0

@[simp] theorem countP_acceptWire (accepted : Finset Nat) (id : Nat) :
    (acceptWire accepted).countP (fun w => id ∈ w.accepts) = if id ∈ accepted then 1 else 0 := by
  unfold acceptWire
  split
  · simp_all
  · simp [List.countP_cons]

@[simp] theorem countP_completion (commands : Finset Nat) (id : Nat) :
    [Wire.completion commands].countP (fun w => id ∈ w.accepts) = 0 := by
  simp

theorem acceptIds_append (completed : List Msg) (msg : Msg) :
    acceptIds (completed ++ [msg]) =
      acceptIds completed ++ if msg.requiresAccept then [msg.id] else [] := by
  unfold acceptIds
  cases accept : msg.requiresAccept <;> simp [accept]

theorem acceptCount_acceptedWith {accepted : Finset Nat} {msg : Msg} (wire : List Wire) (id : Nat)
    (fresh : msg.id ∉ accepted) :
    acceptCount ⟨acceptedWith accepted msg, wire⟩ id =
      acceptCount ⟨accepted, wire⟩ id + if msg.requiresAccept ∧ id = msg.id then 1 else 0 := by
  unfold acceptCount acceptedWith
  by_cases accept : msg.requiresAccept <;> by_cases same : id = msg.id <;> simp_all

variable {s s' : SessionState}

theorem AcceptInv.initial (rate : Option Nat) (handler : Nat) : AcceptInv (initial rate handler) := by
  simp [AcceptInv, acceptCount, acceptIds, Session.initial]

theorem AcceptInv.quiet (inv : AcceptInv s) (quiet : SessionState.Quiet s s') : AcceptInv s' := by
  obtain ⟨-, -, -, registry, accepted, ws, wire, silent⟩ := quiet
  intro id
  have none : ws.countP (fun w => id ∈ w.accepts) = 0 :=
    List.countP_eq_zero.2 fun w member => by simp [silent w member]
  rw [registry, ← inv id]
  simp only [acceptCount, wire, accepted, List.countP_append, none, Nat.add_zero]

/-- `completeRcvMsg` of a message no earlier completion covered. -/
theorem AcceptInv.completeRcvMsg (inv : AcceptInv s) {msg : Msg}
    (fresh : msg.id ∉ s.registry.completed.map Msg.id) (ok : s.completeRcvMsg msg = .ok s') :
    AcceptInv s' := by
  obtain ⟨k, rfl, -⟩ := SessionState.completeRcvMsg_ok ok
  have notAccepted : msg.id ∉ acceptIds s.registry.completed := by
    simp only [acceptIds, List.mem_map, List.mem_filter] at fresh ⊢
    exact fun ⟨m, ⟨member, _⟩, same⟩ => fresh ⟨m, member, same⟩
  have waiting : msg.id ∉ s.outbound.accepted := fun member => by
    have := inv msg.id
    simp only [acceptCount, member, if_true, notAccepted, if_false] at this
    omega
  intro id
  have before := inv id
  have added := acceptCount_acceptedWith s.outbound.wire id waiting
  have key : (if id ∈ acceptIds (s.registry.completed ++ [msg]) then 1 else 0) =
      (if id ∈ acceptIds s.registry.completed then 1 else 0) +
        if msg.requiresAccept ∧ id = msg.id then 1 else 0 := by
    rw [acceptIds_append]
    by_cases same : id = msg.id
    · subst same
      cases msg.requiresAccept <;> simp [notAccepted]
    · simp [same]
  simp only [acceptCount] at before added ⊢
  rw [key]
  by_cases sync : msg.isSync
  · simp only [if_pos sync, List.countP_append, countP_acceptWire, countP_completion,
      Finset.not_mem_empty, if_false]
    omega
  by_cases some : 0 < k
  · simp only [if_neg sync, if_pos some, List.countP_append, countP_completion]
    omega
  · simp only [if_neg sync, if_neg some]
    omega

theorem AcceptInv.handleCommand (inv : AcceptInv s) {method : MethodBody} {id : Nat}
    (kind : method.method = .executionSync ∨
      ∃ handled hasResult, method.method = .other handled hasResult)
    (ok : s.handleCommand method id = .ok s') : AcceptInv s' := by
  obtain ⟨kind, sync⟩ := method
  rcases kind with rfl | ⟨handled, hasResult, rfl⟩
  · obtain ⟨first, -, result⟩ := SessionState.handleCommand_executionSync_ok ok
    split at result
    · subst result
      exact inv
    · obtain ⟨-, rfl⟩ := result
      simp only [AcceptInv] at inv ⊢
      intro c
      rw [← inv c]
      cases sync <;> simp [acceptCount, List.countP_append]
  · obtain ⟨-, -, rfl⟩ := SessionState.handleCommand_other_ok ok
    simp only [AcceptInv] at inv ⊢
    intro c
    rw [← inv c]
    cases sync <;> cases hasResult <;> simp [acceptCount, List.countP_append]

/-- A frame keeps the accounting when no envelope it can finish shares its id with a completed
message. -/
theorem AcceptInv.received {frame : Frame} {completesNow : Bool} {rate : RateAnswers}
    (inv : AcceptInv s)
    (fresh : ∀ msg, SessionState.Owned s msg → msg.id ∉ s.registry.completed.map Msg.id)
    (ok : s.received frame completesNow rate = .ok s') : AcceptInv s' := by
  rcases SessionState.received_ok ok with
    ⟨method, s₁, kind, -, -, handled, rfl⟩ | ⟨s₁, s₂, -, assembled, quiet, rfl⟩
  · exact @AcceptInv.handleCommand (s.withReceiver Receiver.record) s₁ inv _ _ kind handled
  · obtain ⟨msg, owner, rest⟩ := SessionState.assembleContent_owned assembled
    suffices inner : AcceptInv s₁ from (inner.quiet quiet : AcceptInv s₂)
    split at rest
    · rcases SessionState.endReceiveCompletion_ok rest with ⟨-, -, complete⟩ | ⟨-, -, rfl⟩ | ⟨-, rfl⟩
      · exact @AcceptInv.completeRcvMsg { s.withReceiver Receiver.record with msgBuilder := none } _
          inv _ (fresh msg owner) complete
      all_goals exact inv
    · subst rest
      exact inv

end Qpid.Broker.Accept
