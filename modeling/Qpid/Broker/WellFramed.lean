import Qpid.Broker.Completion

/-!
The execution.sync law over the runs in which the peer frames every frame as the
MessageAssembler expects (`Framed`). On such runs the sync bookkeeping keeps its law, the builder
holds the envelope of the command in progress, and no registered receive belongs to a sync; an
execution.sync then completes exactly when every earlier command has, and the step that releases
a deferred one reports it in a completion.
-/

namespace Qpid.Broker.WellFramed
open Framing Session Threads ExecutionSync Invariant Completion

/-- What holds of the session while the peer frames every frame. -/
structure FramedInv (w : World) : Prop where
  sync : SyncInv w.session.execution
  assembling : w.session.Assembling
  notSync : ∀ m ∈ places w, m.id ∉ w.session.execution.executionSyncs

variable {w w' : World}

theorem FramedInv.initial (rate : Option Nat) (handler : Nat) :
    FramedInv (World.initial rate handler) where
  sync := SyncInv.initial rate handler
  assembling := SessionState.Assembling.initial rate handler
  notSync := by simp [places, World.initial, Session.initial, drainHeld]

theorem FramedInv.update {α : Type} (framed : FramedInv w) {result : Except Failure α}
    {next : α → World} (ok : ∀ x, result = .ok x → FramedInv (next x)) :
    FramedInv (w.update result next) := by
  cases result with
  | error => exact ⟨framed.sync, framed.assembling, framed.notSync⟩
  | ok x => exact ok x rfl

/-- A well-framed frame adds to the syncs at most the command it closes, and a receive it
registers belongs to that command, which is no sync. -/
theorem FramedInv.frame (inv : Inv w) (framed : FramedInv w) {frame : Frame} {completesNow : Bool}
    {rate : RateAnswers} {s : SessionState} (fits : frame.fits w.session.execution.receiver.inCommand)
    (ok : w.session.received frame completesNow rate = .ok s) : FramedInv { w with session := s } := by
  refine ⟨framed.sync.received framed.assembling fits ok, framed.assembling.received fits ok, ?_⟩
  show ∀ m ∈ places { w with session := s }, m.id ∉ s.execution.executionSyncs
  rcases (SessionState.received_registry framed.assembling fits ok).2 with
    ⟨registry, syncs | syncs⟩ | ⟨msg, fresh, -, syncs, registry⟩
  · rw [places_session registry, syncs]
    exact framed.notSync
  · rw [places_session registry, syncs]
    intro m member
    rw [Finset.mem_insert, not_or]
    exact ⟨(inv.placed.closed m member).ne, framed.notSync m member⟩
  · rw [places_register registry, syncs]
    simp only [Multiset.mem_cons, forall_eq_or_imp]
    exact ⟨fun sync => (framed.sync.closed _ sync).ne fresh, framed.notSync⟩

/-- Apart from a frame, a step leaves the session still or completes a registered receive, and
moves the receives only between places. -/
theorem FramedInv.keep (inv : Inv w) (framed : FramedInv w) {a : Action}
    (stepped : Threads.step w a = some w')
    (notFrame : ∀ frame completesNow rate, a ≠ .frame frame completesNow rate) : FramedInv w' := by
  have le := inv.places_step stepped notFrame
  rcases step_session stepped with ⟨execution, builder, -⟩ | ⟨frame, completesNow, rate, rfl, -⟩ |
    ⟨msg, source, ok⟩
  · exact ⟨execution ▸ framed.sync,
      ⟨fun b held => execution ▸ framed.assembling.builder b (builder ▸ held),
        fun busy => execution ▸ framed.assembling.begun (execution ▸ busy)⟩,
      fun m member => execution ▸ framed.notSync m (Multiset.mem_of_le le member)⟩
  · exact absurd rfl (notFrame frame completesNow rate)
  · obtain ⟨-, -, -, syncs, -⟩ := SessionState.completeRcvMsg_frame ok
    exact ⟨framed.sync.completeRcvMsg (framed.notSync msg (mem_places_of_completing source)) ok,
      framed.assembling.completeRcvMsg ok,
      fun m member => syncs ▸ framed.notSync m (Multiset.mem_of_le le member)⟩

theorem FramedInv.step (inv : Inv w) (framed : FramedInv w) {a : Action} (fits : a.framed w = true)
    (stepped : Threads.step w a = some w') : FramedInv w' := by
  cases a
  case frame frame completesNow rate =>
    obtain ⟨-, -, -, -, -, rfl⟩ := step_eq_some stepped
    exact framed.update fun s ok => framed.frame inv fits ok
  all_goals exact framed.keep inv stepped fun _ _ _ same => by cases same

/-- Both invariants hold in every world a well-framed run reaches. -/
theorem invariants_of_framed (framed : Framed w) : Inv w ∧ FramedInv w := by
  induction framed with
  | initial rate handler => exact ⟨Inv.initial rate handler, FramedInv.initial rate handler⟩
  | step _ fits stepped holds => exact ⟨holds.1.step stepped, holds.2.step holds.1 fits stepped⟩

end Qpid.Broker.WellFramed
