import Qpid.Broker.Threads
import Qpid.Broker.Accept
import Mathlib.Data.Multiset.Nodup
import Mathlib.Tactic.Abel

/-!
The invariant of the threads around a session, whatever frames the peer sends, and that every
step keeps it. Every receive the session registered is in one place at a time (`places`), under a
distinct id of a command whose frames have all been handled, and the builder's envelope shares its
id with none of them; the accept accounting holds; a non-empty `scheduledRcvMsgs` has a drain
coming or a producer about to post one; and once the destructor has begun there is nothing left
to drain.
-/

namespace Qpid.Broker.Invariant
open Framing Session Threads Accept

/-- The message a drain holds between `pop_front()` and `completeRcvMsg`. -/
def drainHeld : Option Drain → Multiset Msg
  | some (.complete msg) => {msg}
  | _ => 0

/-- The registered receives, by place: in `incompleteRcvMsgs`, in `scheduledRcvMsgs`, with a
sync callback about to complete it, held by a drain, completed, or cancelled. A receive a
callback or a drain dropped on a detached session is in none of them. -/
def places (w : World) : Multiset Msg :=
  ↑w.session.registry.incompleteRcvMsgs + ↑w.session.registry.scheduledRcvMsgs + ↑w.completing +
    drainHeld w.drain + ↑w.session.registry.completed + ↑w.cancelled

/-- A drain is posted or running. -/
def draining (w : World) : Prop := 0 < w.drainRequests ∨ w.drain.isSome

/-- Every registered receive is in one place, under its own id, of a command whose frames have
all been handled. -/
structure Placed (w : World) : Prop where
  distinct : ((places w).map Msg.id).Nodup
  closed : ∀ m ∈ places w, m.id < w.session.execution.receiver.closedBound

structure Inv (w : World) : Prop where
  accept : AcceptInv w.session
  placed : Placed w
  /-- The builder's envelope has an id no registered receive has, of a begun command. -/
  builder : ∀ b, w.session.msgBuilder = some b →
    b.id ∉ (places w).map Msg.id ∧ b.id ≤ w.session.execution.receiver.closedBound
  begun : w.session.execution.receiver.inCommand = true → 0 < w.session.execution.receiver.next
  queued : ∀ S ∈ w.session.execution.pendingExecutionSyncs, S < w.session.execution.receiver.next
  /-- A drain that read the front pops that message. -/
  front : ∀ msg, w.drain = some (.pop msg) → w.session.registry.scheduledRcvMsgs.head? = some msg
  /-- A non-empty deque has a drain coming or a producer before its size test. -/
  awake : w.session.registry.scheduledRcvMsgs ≠ [] → draining w ∨ w.locked
  awake_locked : w.locked → 2 ≤ w.session.registry.scheduledRcvMsgs.length → draining w
  /-- Once the destructor has begun, nothing is registered, scheduled, being pushed or being
  completed by a sync callback, and a drain can only find the deque empty. -/
  torn : w.destroyed → w.session.registry.incompleteRcvMsgs = [] ∧
    w.session.registry.scheduledRcvMsgs = [] ∧ w.pushing = [] ∧ w.completing = [] ∧
      ∀ d, w.drain = some d → d = .check

variable {w w' : World}

theorem coe_eq_singleton_add {l : List Msg} {m : Msg} (member : m ∈ l) :
    (l : Multiset Msg) = {m} + ↑(l.erase m) := by
  rw [← Multiset.coe_erase, Multiset.singleton_add, Multiset.cons_erase (Multiset.mem_coe.2 member)]

/-! How each operation moves the registered receives. -/

theorem places_session {s : SessionState} (registry : s.registry = w.session.registry) :
    places { w with session := s } = places w := by
  simp [places, registry]

/-- A frame that registers a receive puts it in `incompleteRcvMsgs` or in `completed`. -/
theorem places_register {s : SessionState} {msg : Msg}
    (registry : s.registry = ⟨w.session.registry.incompleteRcvMsgs ++ [msg],
        w.session.registry.scheduledRcvMsgs, w.session.registry.completed⟩ ∨
      s.registry = ⟨w.session.registry.incompleteRcvMsgs, w.session.registry.scheduledRcvMsgs,
        w.session.registry.completed ++ [msg]⟩) :
    places { w with session := s } = msg ::ₘ places w := by
  rcases registry with registry | registry <;>
    simp only [places, registry, ← Multiset.coe_add, ← Multiset.singleton_add,
      ← Multiset.coe_singleton] <;> abel

theorem places_update {α : Type} {result : Except Failure α} {next : α → World}
    (ok : ∀ x, result = .ok x → places (next x) ≤ places w) : places (w.update result next) ≤ places w := by
  cases result with
  | error => exact le_rfl
  | ok x => exact ok x rfl

/-- A callback moves its receive out of `incompleteRcvMsgs`, and drops it once the session is
detached. -/
theorem places_callback (msg : Msg) (sync : Bool) : places (w.callback msg sync) ≤ places w := by
  unfold World.callback
  by_cases registered : msg ∈ w.session.registry.incompleteRcvMsgs
  · have erased := coe_eq_singleton_add registered
    by_cases attached : w.session.isAttached
    · refine le_of_eq ?_
      cases sync <;>
        simp only [if_pos registered, if_pos attached, Bool.false_eq_true, if_false, if_true, places,
          World.withRegistry, erased, ← Multiset.coe_add, ← Multiset.coe_singleton] <;> abel
    · refine (Multiset.le_add_right _ {msg}).trans_eq ?_
      simp only [if_pos registered, if_neg attached, places, World.withRegistry, erased,
        ← Multiset.coe_add, ← Multiset.coe_singleton]
      abel
  · simp only [if_neg registered]
    exact le_rfl

theorem places_startDrain (idle : w.drain = none) :
    places { w with drain := some .check, drainRequests := w.drainRequests - 1 } = places w := by
  simp [places, drainHeld, idle]

/-- The receive a drain is about to complete, apart from every other place. -/
theorem places_drainHeld {msg : Msg} (completing : w.drain = some (.complete msg)) :
    places w = {msg} + ↑w.session.registry.completed +
      (↑w.session.registry.incompleteRcvMsgs + ↑w.session.registry.scheduledRcvMsgs +
        ↑w.completing + ↑w.cancelled) := by
  rw [places, completing, drainHeld]; abel

theorem places_drainComplete {msg : Msg} {s : SessionState} (completing : w.drain = some (.complete msg))
    (ok : w.session.completeRcvMsg msg = .ok s) :
    places { w with session := s, drain := some .check } = places w := by
  obtain ⟨-, -, -, -, registry, -⟩ := SessionState.completeRcvMsg_frame ok
  rw [places_drainHeld completing]
  simp only [places, registry, drainHeld, ← Multiset.coe_add, ← Multiset.coe_singleton]
  abel

/-- A drain moves the front of the deque into its hand and on to `completed`, or drops it once
the session is detached or the receive cancelled. -/
theorem places_drainStep {d : Drain} (running : w.drain = some d)
    (front : ∀ msg, w.drain = some (.pop msg) → w.session.registry.scheduledRcvMsgs.head? = some msg) :
    places (w.drainStep d) ≤ places w := by
  cases d with
  | check =>
    refine le_of_eq ?_
    cases queued : w.session.registry.scheduledRcvMsgs <;>
      simp [World.drainStep, queued, places, drainHeld, running]
  | pop msg =>
    obtain ⟨rest, scheduled⟩ := List.head?_eq_some_iff.1 (front msg running)
    refine le_of_eq ?_
    simp only [places, World.drainStep, World.withRegistry, drainHeld, running, scheduled,
      List.tail_cons, ← Multiset.cons_coe, ← Multiset.singleton_add]
    abel
  | complete msg =>
    simp only [World.drainStep]
    split
    · exact places_update fun s ok => le_of_eq (places_drainComplete running ok)
    · simp only [places, drainHeld, running]
      exact add_le_add_right (add_le_add_right (add_le_add_left (Multiset.zero_le _) _) _) _

/-- The receive a sync callback is about to complete, apart from every other place. -/
theorem places_completing {msg : Msg} (waiting : msg ∈ w.completing) :
    places w = {msg} + ↑w.session.registry.completed +
      (↑w.session.registry.incompleteRcvMsgs + ↑w.session.registry.scheduledRcvMsgs +
        ↑(w.completing.erase msg) + drainHeld w.drain + ↑w.cancelled) := by
  rw [places, coe_eq_singleton_add waiting]; abel

theorem places_resumeComplete {msg : Msg} {s : SessionState} (waiting : msg ∈ w.completing)
    (ok : w.session.completeRcvMsg msg = .ok s) :
    places { w with session := s, completing := w.completing.erase msg } = places w := by
  obtain ⟨-, -, -, -, registry, -⟩ := SessionState.completeRcvMsg_frame ok
  rw [places_completing waiting]
  simp only [places, registry, ← Multiset.coe_add, ← Multiset.coe_singleton]
  abel

/-- The destructor cancels the registered receives and drops the scheduled ones. -/
theorem places_destroy : places w.destroy ≤ places w := by
  refine (Multiset.le_add_right _ ↑w.session.registry.scheduledRcvMsgs).trans_eq ?_
  simp only [places, World.destroy, World.withRegistry, Multiset.coe_nil, zero_add, ← Multiset.coe_add]
  abel

theorem Placed.of_le (placed : Placed w) (le : places w' ≤ places w)
    (bound : w.session.execution.receiver.closedBound ≤ w'.session.execution.receiver.closedBound) :
    Placed w' where
  distinct := Multiset.nodup_of_le (Multiset.map_le_map le) placed.distinct
  closed m member := (placed.closed m (Multiset.mem_of_le le member)).trans_le bound

/-- A new receive of a command just closed, under an id no receive has. -/
theorem Placed.register (placed : Placed w) {msg : Msg} (added : places w' = msg ::ₘ places w)
    (fresh : msg.id ∉ (places w).map Msg.id)
    (closes : msg.id < w'.session.execution.receiver.closedBound)
    (bound : w.session.execution.receiver.closedBound ≤ w'.session.execution.receiver.closedBound) :
    Placed w' := by
  refine ⟨?_, ?_⟩ <;> rw [added]
  · rw [Multiset.map_cons, Multiset.nodup_cons]
    exact ⟨fresh, placed.distinct⟩
  · simp only [Multiset.mem_cons, forall_eq_or_imp]
    exact ⟨closes, fun m member => (placed.closed m member).trans_le bound⟩

/-- The builder's envelope stays fresh while the receives only move or drop and the builder is
kept. -/
theorem Inv.builder_of_le (inv : Inv w) (le : places w' ≤ places w)
    (builder : w'.session.msgBuilder = w.session.msgBuilder)
    (bound : w.session.execution.receiver.closedBound ≤ w'.session.execution.receiver.closedBound) :
    ∀ b, w'.session.msgBuilder = some b →
      b.id ∉ (places w').map Msg.id ∧ b.id ≤ w'.session.execution.receiver.closedBound :=
  fun b held => by
    obtain ⟨fresh, below⟩ := inv.builder b (builder ▸ held)
    exact ⟨fun member => fresh (Multiset.mem_of_le (Multiset.map_le_map le) member), below.trans bound⟩

theorem Inv.initial (rate : Option Nat) (handler : Nat) : Inv (World.initial rate handler) where
  accept := AcceptInv.initial rate handler
  placed := ⟨by simp [places, World.initial, Session.initial, drainHeld], by
    simp [places, World.initial, Session.initial, drainHeld]⟩
  builder := by simp [World.initial, Session.initial]
  begun := nofun
  queued := nofun
  front := by simp [World.initial]
  awake := by simp [World.initial, Session.initial]
  awake_locked := by simp [World.initial, World.locked]
  torn := by simp [World.initial]

/-- The invariant does not read the posted credit calls, the ghost of scheduled messages, or
whether the world has stopped. -/
theorem Inv.ignore (inv : Inv w) (requests : List Nat) (scheduled : List Msg)
    (fault : Option Failure) :
    Inv { w with creditRequests := requests, scheduled := scheduled, fault := fault } :=
  ⟨inv.accept, ⟨inv.placed.1, inv.placed.2⟩, inv.builder, inv.begun, inv.queued, inv.front,
    inv.awake, inv.awake_locked, inv.torn⟩

theorem Inv.update {α : Type} (inv : Inv w) {result : Except Failure α} {next : α → World}
    (ok : ∀ x, result = .ok x → Inv (next x)) : Inv (w.update result next) := by
  cases result with
  | error failure => exact inv.ignore w.creditRequests w.scheduled (some failure)
  | ok x => exact ok x rfl

/-- A step of the session alone that keeps the cursor's position and the builder, queues no sync
and leaves every receive where it was, with the sync callbacks possibly moved on. -/
theorem Inv.keeps (inv : Inv w) {s : SessionState} {completing : List Msg}
    (next : s.execution.receiver.next = w.session.execution.receiver.next)
    (busy : s.execution.receiver.inCommand = w.session.execution.receiver.inCommand)
    (builder : s.msgBuilder = w.session.msgBuilder)
    (queued : ∀ S ∈ s.execution.pendingExecutionSyncs, S ∈ w.session.execution.pendingExecutionSyncs)
    (same : places { w with session := s, completing := completing } = places w)
    (scheduled : s.registry.scheduledRcvMsgs = w.session.registry.scheduledRcvMsgs)
    (fewer : completing ⊆ w.completing) (torn : w.destroyed → s.registry.incompleteRcvMsgs = [])
    (accept : AcceptInv s) : Inv { w with session := s, completing := completing } := by
  have bound : s.execution.receiver.closedBound = w.session.execution.receiver.closedBound := by
    simp only [Receiver.closedBound, next, busy]
  exact ⟨accept, inv.placed.of_le same.le bound.ge, inv.builder_of_le same.le builder bound.ge,
    fun busy' => next ▸ inv.begun (busy ▸ busy'), fun S member => next ▸ inv.queued S (queued S member),
    fun msg popping => scheduled ▸ inv.front msg popping, fun nonempty => inv.awake (scheduled ▸ nonempty),
    fun locked long => inv.awake_locked locked (scheduled ▸ long),
    fun destroyed => ⟨torn destroyed, scheduled ▸ (inv.torn destroyed).2.1, (inv.torn destroyed).2.2.1,
      List.subset_nil.1 ((inv.torn destroyed).2.2.2.1 ▸ fewer), (inv.torn destroyed).2.2.2.2⟩⟩

/-- Sends that accept nothing, and changes of the flow-control bookkeeping, the handler or the
output flag. -/
theorem Inv.quiet (inv : Inv w) {s : SessionState} (quiet : SessionState.Quiet w.session s) :
    Inv { w with session := s } := by
  have ⟨_, builder, execution, registry, _⟩ := quiet
  refine inv.keeps (by rw [execution]) (by rw [execution]) builder
    (by rw [execution]; exact fun _ => id) (places_session registry) (by rw [registry])
    (List.Subset.refl _) (fun destroyed => by rw [registry]; exact (inv.torn destroyed).1)
    (inv.accept.quiet quiet)

/-- Any frame, well framed or not, keeps the invariant. -/
theorem Inv.frame (inv : Inv w) {s : SessionState} {frame : Frame} {completesNow : Bool}
    {rate : RateAnswers} (alive : w.destroyed = false)
    (ok : w.session.received frame completesNow rate = .ok s) : Inv { w with session := s } := by
  obtain ⟨next, bound, queued, builder, change⟩ :=
    SessionState.received_owned inv.begun (fun b held => (inv.builder b held).2) ok
  have fresh : ∀ msg, SessionState.Owned w.session msg → msg.id ∉ (places w).map Msg.id := by
    rintro msg (same | ⟨b, held, same⟩)
    · simp only [Multiset.mem_map, not_exists, not_and]
      exact fun m member eq => (inv.placed.closed m member).ne (eq.trans same)
    · exact same ▸ (inv.builder b held).1
  have accept : AcceptInv s := inv.accept.received (fun msg owner member => fresh msg owner (by
    obtain ⟨m, done, same⟩ := List.mem_map.1 member
    exact Multiset.mem_map.2 ⟨m, by simp [places, done], same⟩)) ok
  have below := Receiver.closedBound_lt_record_next inv.begun
  have positive : 0 < s.execution.receiver.next := next ▸ Nat.zero_lt_of_lt below
  have grown : w.session.execution.receiver.next ≤ s.execution.receiver.next :=
    next ▸ Receiver.next_le_record_next _
  have queued' : ∀ S ∈ s.execution.pendingExecutionSyncs, S < s.execution.receiver.next := fun S member =>
    (queued S member).elim (fun old => (inv.queued S old).trans_le grown) id
  rcases change with registry | ⟨msg, owner, closes, empty, registry⟩
  · have same := places_session registry
    refine ⟨accept, inv.placed.of_le same.le bound, fun b held => ?_, fun _ => positive, queued',
      fun m popping => by rw [registry]; exact inv.front m popping,
      fun nonempty => inv.awake (by rwa [registry] at nonempty),
      fun locked long => inv.awake_locked locked (by rwa [registry] at long),
      fun destroyed => absurd destroyed (by simp [alive])⟩
    rw [same]
    refine ⟨fresh b (builder b held), ?_⟩
    rcases builder b held with eq | ⟨b₀, held₀, eq⟩
    · exact eq ▸ bound
    · exact eq ▸ (inv.builder b₀ held₀).2.trans bound
  · have added := places_register registry
    have scheduled : s.registry.scheduledRcvMsgs = w.session.registry.scheduledRcvMsgs := by
      rcases registry with registry | registry <;> rw [registry]
    refine ⟨accept, inv.placed.register added (fresh msg owner) closes bound,
      fun b held => by simp [empty] at held, fun _ => positive, queued',
      fun m popping => scheduled ▸ inv.front m popping, fun nonempty => inv.awake (scheduled ▸ nonempty),
      fun locked long => inv.awake_locked locked (scheduled ▸ long),
      fun destroyed => absurd destroyed (by simp [alive])⟩

/-- A registered receive about to be completed shares its id with no completed one. -/
theorem fresh_of_places (placed : Placed w) {msg : Msg} {rest : Multiset Msg}
    (split : places w = {msg} + ↑w.session.registry.completed + rest) :
    msg.id ∉ w.session.registry.completed.map Msg.id := by
  have distinct := placed.distinct
  rw [split, add_assoc, Multiset.singleton_add, Multiset.map_cons, Multiset.nodup_cons,
    Multiset.map_add, Multiset.mem_add] at distinct
  exact fun member => distinct.1 (.inl (by simpa using member))

theorem closedBound_completeRcvMsg {s s' : SessionState} {msg : Msg}
    (ok : s.completeRcvMsg msg = .ok s') :
    s'.execution.receiver.closedBound = s.execution.receiver.closedBound := by
  obtain ⟨-, next, busy, -⟩ := SessionState.completeRcvMsg_frame ok
  simp only [Receiver.closedBound, next, busy]

theorem Inv.resumeComplete (inv : Inv w) {msg : Msg} (waiting : msg ∈ w.completing)
    {s : SessionState} (ok : w.session.completeRcvMsg msg = .ok s) :
    Inv { w with session := s, completing := w.completing.erase msg } := by
  obtain ⟨builder, next, busy, -, registry, popped⟩ := SessionState.completeRcvMsg_frame ok
  exact inv.keeps next busy builder popped (places_resumeComplete waiting ok) (by rw [registry])
    (List.erase_subset _ _) (fun destroyed => by rw [registry]; exact (inv.torn destroyed).1)
    (inv.accept.completeRcvMsg (fresh_of_places inv.placed (places_completing waiting)) ok)

theorem Inv.startDrain (inv : Inv w) (idle : w.drain = none) :
    Inv { w with drain := some .check, drainRequests := w.drainRequests - 1 } := by
  have same := places_startDrain idle
  exact ⟨inv.accept, inv.placed.of_le same.le le_rfl, inv.builder_of_le same.le rfl le_rfl, inv.begun,
    inv.queued, by simp, fun _ => .inl (.inr rfl), fun _ _ => .inr rfl,
    fun destroyed => ⟨(inv.torn destroyed).1, (inv.torn destroyed).2.1, (inv.torn destroyed).2.2.1,
      (inv.torn destroyed).2.2.2.1, by simp⟩⟩

theorem Inv.drainCheck (inv : Inv w) (checking : w.drain = some .check) :
    Inv (w.drainStep .check) := by
  have le := places_drainStep checking inv.front
  have torn := inv.torn
  cases queued : w.session.registry.scheduledRcvMsgs with
  | nil =>
    simp only [World.drainStep, queued] at le ⊢
    exact ⟨inv.accept, inv.placed.of_le le le_rfl, inv.builder_of_le le rfl le_rfl, inv.begun,
      inv.queued, by simp, fun nonempty => absurd queued nonempty, fun _ long => by simp [queued] at long,
      fun destroyed => ⟨(torn destroyed).1, queued, (torn destroyed).2.2.1, (torn destroyed).2.2.2.1, by simp⟩⟩
  | cons msg rest =>
    simp only [World.drainStep, queued] at le ⊢
    exact ⟨inv.accept, inv.placed.of_le le le_rfl, inv.builder_of_le le rfl le_rfl, inv.begun,
      inv.queued, fun m popping => by simp_all, fun _ => .inl (.inr rfl), fun _ _ => .inr rfl,
      fun destroyed => by simp [(torn destroyed).2.1] at queued⟩

theorem Inv.drainPop (inv : Inv w) {msg : Msg} (popping : w.drain = some (.pop msg)) :
    Inv (w.drainStep (.pop msg)) := by
  have le := places_drainStep popping inv.front
  exact ⟨inv.accept, inv.placed.of_le le le_rfl, inv.builder_of_le le rfl le_rfl, inv.begun,
    inv.queued, by simp [World.drainStep], fun _ => .inl (.inr rfl), fun _ _ => .inr rfl,
    fun destroyed => absurd ((inv.torn destroyed).2.2.2.2 _ popping) nofun⟩

theorem Inv.drainComplete (inv : Inv w) {msg : Msg} (completing : w.drain = some (.complete msg)) :
    Inv (w.drainStep (.complete msg)) := by
  have notTorn : w.destroyed = false := by
    cases destroyed : w.destroyed
    · rfl
    · simpa using (inv.torn destroyed).2.2.2.2 _ completing
  have le := places_drainStep completing inv.front
  simp only [World.drainStep] at le ⊢
  split_ifs at le ⊢
  · refine inv.update fun s ok => ?_
    obtain ⟨builder, next, busy, -, -, popped⟩ := SessionState.completeRcvMsg_frame ok
    have same := places_drainComplete completing ok
    have bound := (closedBound_completeRcvMsg ok).ge
    exact ⟨inv.accept.completeRcvMsg (fresh_of_places inv.placed (places_drainHeld completing)) ok,
      inv.placed.of_le same.le bound, inv.builder_of_le same.le builder bound,
      fun busy' => next ▸ inv.begun (busy ▸ busy'), fun S member => next ▸ inv.queued S (popped S member),
      by simp, fun _ => .inl (.inr rfl), fun _ _ => .inr rfl, by simp [notTorn]⟩
  · exact ⟨inv.accept, inv.placed.of_le le le_rfl, inv.builder_of_le le rfl le_rfl, inv.begun, inv.queued,
      by simp, fun _ => .inl (.inr rfl), fun _ _ => .inr rfl, by simp [notTorn]⟩

/-- `detach` and `attach` change only the handler and the output flag. -/
theorem Inv.handler (inv : Inv w) (handler : Option Nat) (active : Bool) :
    Inv { w with session := { w.session with handler := handler, outputActive := active } } :=
  ⟨inv.accept, ⟨inv.placed.1, inv.placed.2⟩, inv.builder, inv.begun, inv.queued, inv.front, inv.awake,
    inv.awake_locked, inv.torn⟩

theorem Inv.fire (inv : Inv w) (task : Nat) : Inv (w.fire task) := by
  unfold World.fire
  split
  · exact inv.ignore w.creditRequests w.scheduled (some .useAfterFree)
  · exact inv.update fun _ _ => (inv.quiet (SessionState.Quiet.credit _ _)).ignore _ w.scheduled w.fault

/-- The registry changed by a callback that moved or dropped one receive. -/
theorem Inv.registry (inv : Inv w) {incomplete : List Msg} (completing : List Msg)
    (le : places { w.withRegistry incomplete w.session.registry.scheduledRcvMsgs with
      completing := completing } ≤ places w)
    (torn : w.destroyed → incomplete = [] ∧ completing = []) :
    Inv { w.withRegistry incomplete w.session.registry.scheduledRcvMsgs with completing := completing } :=
  ⟨inv.accept, inv.placed.of_le le le_rfl, inv.builder_of_le le rfl le_rfl, inv.begun, inv.queued,
    inv.front, inv.awake, inv.awake_locked,
    fun destroyed => ⟨(torn destroyed).1, (inv.torn destroyed).2.1, (inv.torn destroyed).2.2.1,
      (torn destroyed).2, (inv.torn destroyed).2.2.2.2⟩⟩

theorem Inv.callback (inv : Inv w) (alive : w.destroyed = false) (free : w.locked = false)
    (msg : Msg) (sync : Bool) : Inv (w.callback msg sync) := by
  have le : places (w.callback msg sync) ≤ places w := places_callback msg sync
  unfold World.callback at le ⊢
  by_cases registered : msg ∈ w.session.registry.incompleteRcvMsgs
  · by_cases attached : w.session.isAttached
    · cases sync
      · simp only [if_pos registered, if_pos attached, Bool.false_eq_true, if_false] at le ⊢
        refine ⟨inv.accept, inv.placed.of_le le le_rfl, inv.builder_of_le le rfl le_rfl,
          inv.begun, inv.queued, fun m popping => ?_, fun _ => .inr (by simp [World.locked]),
          fun _ long => ?_, by simp [World.withRegistry, alive]⟩
        · simp [World.withRegistry, List.head?_append, inv.front m popping]
        · have nonempty : w.session.registry.scheduledRcvMsgs ≠ [] := by
            intro empty; simp [World.withRegistry, empty] at long
          simpa [free] using inv.awake nonempty
      · simp only [if_pos registered, if_pos attached, if_true] at le ⊢
        exact inv.registry _ le (by simp [alive])
    · simp only [if_pos registered, if_neg attached] at le ⊢
      exact inv.registry w.completing le (by simp [alive])
  · simp only [if_neg registered] at le ⊢
    exact inv

theorem Inv.resumePush (inv : Inv w) {msg : Msg} (pushing : msg ∈ w.pushing) :
    Inv (w.resumePush msg) := by
  have locked : w.locked = true := by
    cases held : w.pushing <;> simp_all [World.locked]
  have alive : w.destroyed = false := by
    cases destroyed : w.destroyed
    · rfl
    · simp [(inv.torn destroyed).2.2.1] at pushing
  unfold World.resumePush
  split
  next single =>
    refine inv.update fun _ _ => ?_
    exact ⟨inv.accept, ⟨inv.placed.1, inv.placed.2⟩, inv.builder, inv.begun, inv.queued, inv.front,
      fun _ => .inl (.inl (Nat.succ_pos _)), fun _ _ => .inl (Nat.succ_pos _), by simp [alive]⟩
  next longer =>
    refine ⟨inv.accept, ⟨inv.placed.1, inv.placed.2⟩, inv.builder, inv.begun, inv.queued, inv.front,
      fun nonempty => .inl (inv.awake_locked locked ?_), fun _ long => inv.awake_locked locked long,
      by simp [alive]⟩
    have : w.session.registry.scheduledRcvMsgs.length ≠ 0 := fun zero =>
      nonempty (List.eq_nil_of_length_eq_zero zero)
    omega

theorem Inv.destroy (inv : Inv w) (idle : w.drain = none) (settled : w.completing = [])
    (unlocked : w.locked = false) : Inv w.destroy := by
  have free : w.pushing = [] := by simpa [World.locked] using unlocked
  have le : places w.destroy ≤ places w := places_destroy
  exact ⟨inv.accept, inv.placed.of_le le le_rfl, inv.builder_of_le le rfl le_rfl, inv.begun, inv.queued,
    by simp [World.destroy, World.withRegistry, idle], by simp [World.destroy, World.withRegistry],
    fun locked _ => by simp [World.destroy, World.withRegistry, World.locked, free] at locked,
    fun _ => by simp [World.destroy, World.withRegistry, free, settled, idle]⟩

/-- Every step keeps the invariant. -/
theorem Inv.step (inv : Inv w) {a : Action} (stepped : Threads.step w a = some w') : Inv w' := by
  obtain ⟨-, effect⟩ := step_eq_some stepped
  cases a with
  | frame frame completesNow rate =>
    obtain ⟨-, -, alive, -, rfl⟩ := effect
    exact inv.update fun s ok => inv.frame alive ok
  | readyToSend =>
    obtain ⟨-, -, -, -, rfl⟩ := effect
    exact inv.update fun s ok => inv.quiet (SessionState.readyToSend_quiet ok)
  | deliver sync =>
    obtain ⟨-, -, -, -, rfl⟩ := effect
    exact inv.update fun s ok => inv.quiet (SessionState.deliver_quiet ok)
  | detach =>
    obtain ⟨-, -, -, rfl⟩ := effect
    exact inv.handler none false
  | attach handler =>
    obtain ⟨-, -, -, rfl⟩ := effect
    exact inv.handler (some handler) w.session.outputActive
  | startDrain =>
    obtain ⟨idle, -, -, rfl⟩ := effect
    exact inv.startDrain idle
  | drainStep =>
    obtain ⟨d, running, rfl⟩ := effect
    cases d with
    | check => exact inv.drainCheck running
    | pop msg => exact inv.drainPop running
    | complete msg => exact inv.drainComplete running
  | sendCredit task rate =>
    obtain ⟨-, -, -, rfl⟩ := effect
    split
    · exact inv.ignore w.creditRequests w.scheduled (some .useAfterFree)
    · exact inv.update fun s ok =>
        ((inv.ignore (w.creditRequests.erase task) w.scheduled w.fault).quiet
          (SessionState.sendCredit_quiet ok))
  | fire task =>
    obtain ⟨-, rfl⟩ := effect
    exact inv.fire task
  | callback msg sync =>
    obtain ⟨alive, free, -, -, rfl⟩ := effect
    exact inv.callback alive free msg sync
  | resumePush msg =>
    obtain ⟨pushing, rfl⟩ := effect
    exact inv.resumePush pushing
  | resumeComplete msg =>
    obtain ⟨waiting, rfl⟩ := effect
    exact inv.update fun s ok => inv.resumeComplete waiting ok
  | destroy =>
    obtain ⟨idle, settled, -, unlocked, rfl⟩ := effect
    exact inv.destroy idle settled unlocked

/-- The invariant holds in every reachable world, whatever actions the runs are limited to. -/
theorem ReachableBy.inv {allowed : Action → Prop} (reachable : ReachableBy allowed w) : Inv w := by
  induction reachable with
  | initial rate handler => exact Inv.initial rate handler
  | step _ _ stepped holds => exact holds.step stepped

/-- Apart from a frame, a step only moves receives between places or drops them. -/
theorem Inv.places_step (inv : Inv w) {a : Action} (stepped : Threads.step w a = some w')
    (notFrame : ∀ frame completesNow rate, a ≠ .frame frame completesNow rate) :
    places w' ≤ places w := by
  have quiet : ∀ {result : Except Failure SessionState},
      (∀ s, result = .ok s → SessionState.Quiet w.session s) →
      places (w.update result fun s => { w with session := s }) ≤ places w :=
    fun quiet => places_update fun s ok => le_of_eq (places_session (quiet s ok).2.2.2.1)
  obtain ⟨-, effect⟩ := step_eq_some stepped
  cases a with
  | frame frame completesNow rate => exact absurd rfl (notFrame frame completesNow rate)
  | readyToSend =>
    obtain ⟨-, -, -, -, rfl⟩ := effect
    exact quiet fun _ => SessionState.readyToSend_quiet
  | deliver sync =>
    obtain ⟨-, -, -, -, rfl⟩ := effect
    exact quiet fun _ => SessionState.deliver_quiet
  | detach | attach =>
    obtain ⟨-, -, -, rfl⟩ := effect
    exact le_rfl
  | startDrain =>
    obtain ⟨idle, -, -, rfl⟩ := effect
    exact le_of_eq (places_startDrain idle)
  | drainStep =>
    obtain ⟨d, running, rfl⟩ := effect
    exact places_drainStep running inv.front
  | sendCredit task rate =>
    obtain ⟨-, -, -, rfl⟩ := effect
    split
    · exact le_rfl
    · exact places_update fun s ok => le_of_eq (places_session (SessionState.sendCredit_quiet ok).2.2.2.1)
  | fire task =>
    obtain ⟨-, rfl⟩ := effect
    unfold World.fire
    split
    · exact le_rfl
    · exact places_update fun _ _ => le_rfl
  | callback msg sync =>
    obtain ⟨-, -, -, -, rfl⟩ := effect
    exact places_callback msg sync
  | resumePush msg =>
    obtain ⟨-, rfl⟩ := effect
    unfold World.resumePush
    split
    · exact places_update fun _ _ => le_rfl
    · exact le_rfl
  | resumeComplete msg =>
    obtain ⟨waiting, rfl⟩ := effect
    exact places_update fun s ok => le_of_eq (places_resumeComplete waiting ok)
  | destroy =>
    obtain ⟨-, -, -, -, rfl⟩ := effect
    exact places_destroy

/-- The receive a drain or a sync callback completes is registered. -/
theorem mem_places_of_completing {a : Action} {msg : Msg}
    (source : a = .drainStep ∧ w.drain = some (.complete msg) ∨ a = .resumeComplete msg ∧ msg ∈ w.completing) :
    msg ∈ places w := by
  rcases source with ⟨-, held⟩ | ⟨-, waiting⟩ <;> simp [places, drainHeld, *]

/-- The session's cursor, syncs, builder, accepts and completed receives unchanged, and nothing
sent that accepts anything. -/
def Still (s s' : SessionState) : Prop :=
  s'.execution = s.execution ∧ s'.msgBuilder = s.msgBuilder ∧
    s'.registry.completed = s.registry.completed ∧
    s'.outbound.accepted = s.outbound.accepted ∧
    ∃ ws : List Wire, s'.outbound.wire = s.outbound.wire ++ ws ∧ ∀ x ∈ ws, x.accepts = ∅

theorem Still.refl (s : SessionState) : Still s s := ⟨rfl, rfl, rfl, rfl, [], by simp, nofun⟩

theorem Still.of_quiet {s s' : SessionState} (quiet : SessionState.Quiet s s') : Still s s' := by
  obtain ⟨-, builder, execution, registry, accepted, ws, wire, silent⟩ := quiet
  exact ⟨execution, builder, by rw [registry], accepted, ws, wire, silent⟩

theorem callback_still (w : World) (msg : Msg) (sync : Bool) :
    Still w.session (w.callback msg sync).session := by
  have moved : ∀ incomplete scheduled : List Msg,
      Still w.session (w.withRegistry incomplete scheduled).session := fun _ _ =>
    ⟨rfl, rfl, rfl, rfl, [], by simp [World.withRegistry], nofun⟩
  unfold World.callback
  by_cases registered : msg ∈ w.session.registry.incompleteRcvMsgs
  · simp only [if_pos registered]
    by_cases attached : w.session.isAttached
    · simp only [if_pos attached]
      cases sync
      · exact moved _ _
      · exact moved _ _
    · simp only [if_neg attached]
      exact moved _ _
  · simp only [if_neg registered]
    exact Still.refl _

/-- What a step does to the session: leaves it `Still`, handles a frame, or runs
`completeRcvMsg` of a receive a drain or a sync callback holds. -/
theorem step_session {a : Action} (stepped : Threads.step w a = some w') :
    Still w.session w'.session ∨
      (∃ frame completesNow rate, a = .frame frame completesNow rate ∧ w.destroyed = false ∧
        w.session.received frame completesNow rate = .ok w'.session) ∨
      ∃ msg, (a = .drainStep ∧ w.drain = some (.complete msg) ∨
          a = .resumeComplete msg ∧ msg ∈ w.completing) ∧
        w.session.completeRcvMsg msg = .ok w'.session := by
  have update : ∀ {α : Type} {result : Except Failure α} {next : α → World},
      (∀ x, result = .ok x → Still w.session (next x).session) →
      Still w.session (w.update result next).session := fun {α result next} ok => by
    cases result with
    | error => exact Still.refl _
    | ok x => exact ok x rfl
  obtain ⟨-, effect⟩ := step_eq_some stepped
  cases a with
  | frame frame completesNow rate =>
    obtain ⟨-, -, alive, -, rfl⟩ := effect
    cases received : w.session.received frame completesNow rate with
    | error => exact .inl (by simp only [World.update, received]; exact Still.refl _)
    | ok s => exact .inr (.inl ⟨frame, completesNow, rate, rfl, alive,
        by simp only [World.update, received]⟩)
  | readyToSend =>
    obtain ⟨-, -, -, -, rfl⟩ := effect
    exact .inl (update fun s ok => Still.of_quiet (SessionState.readyToSend_quiet ok))
  | deliver sync =>
    obtain ⟨-, -, -, -, rfl⟩ := effect
    exact .inl (update fun s ok => Still.of_quiet (SessionState.deliver_quiet ok))
  | detach | attach | startDrain =>
    obtain ⟨-, -, -, rfl⟩ := effect
    exact .inl (Still.refl _)
  | fire task =>
    obtain ⟨-, rfl⟩ := effect
    unfold World.fire
    split
    · exact .inl (Still.refl _)
    · exact .inl (update fun _ _ => Still.of_quiet (SessionState.Quiet.credit _ _))
  | callback msg sync =>
    obtain ⟨-, -, -, -, rfl⟩ := effect
    exact .inl (callback_still w msg sync)
  | resumePush msg =>
    obtain ⟨-, rfl⟩ := effect
    unfold World.resumePush
    split
    · exact .inl (update fun _ _ => Still.refl _)
    · exact .inl (Still.refl _)
  | destroy =>
    obtain ⟨-, -, -, -, rfl⟩ := effect
    exact .inl ⟨rfl, rfl, rfl, rfl, [], by simp [World.destroy, World.withRegistry], nofun⟩
  | drainStep =>
    obtain ⟨d, running, rfl⟩ := effect
    cases d with
    | check =>
      cases queued : w.session.registry.scheduledRcvMsgs <;>
        simp only [World.drainStep, queued] <;> exact .inl (Still.refl _)
    | pop msg =>
      exact .inl ⟨rfl, rfl, rfl, rfl, [], by simp [World.drainStep, World.withRegistry], nofun⟩
    | complete msg =>
      simp only [World.drainStep]
      split
      · cases completed : w.session.completeRcvMsg msg with
        | error => exact .inl (by simp only [World.update, completed]; exact Still.refl _)
        | ok s => exact .inr (.inr ⟨msg, .inl ⟨trivial, running⟩, by simp only [World.update, completed]⟩)
      · exact .inl (Still.refl _)
  | sendCredit task rate =>
    obtain ⟨-, -, -, rfl⟩ := effect
    split
    · exact .inl (Still.refl _)
    · exact .inl (update fun s ok => Still.of_quiet (SessionState.sendCredit_quiet ok))
  | resumeComplete msg =>
    obtain ⟨waiting, rfl⟩ := effect
    cases completed : w.session.completeRcvMsg msg with
    | error => exact .inl (by simp only [World.update, completed]; exact Still.refl _)
    | ok s => exact .inr (.inr ⟨msg, .inr ⟨rfl, waiting⟩, by simp only [World.update, completed]⟩)

end Qpid.Broker.Invariant
