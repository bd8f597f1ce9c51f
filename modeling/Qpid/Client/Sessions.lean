import Qpid.Client.Connect
import Mathlib.Data.String.Basic
import Mathlib.Data.List.Sort

/-!
The sessions of a client connection and the calls that open and close them: `newSession` with
its retry loop through `reopen`, `getSession`, `closed`, `close`, `detach`, `open` and `backoff`.
`SessionImpl` and `qpid::client::Connection` are not in the repository. A `SessionImpl` is named
by the number of those made before it, `connection.isOpen()` is a flag that `detach` clears and a
`connect` leaves as its ending leaves the connection, and each call reads how the absent code
answers it.

Over every run of these calls the map holds each session under one name, so that `closed`, which
erases the first entry of a session and stops, takes the session out of the map; a `newSession`
binds its name only when it returns; `close` returns exactly when every session's own `close`
takes it out of the map; and no call puts a url twice into the reconnect list.
-/

namespace Qpid.Client.Sessions
open Options Connect

/-- `sessions[name] = impl` on the entries of a `std::map` in ascending order of name: the entry
of `name` takes `impl`, or a new entry goes in at its place. -/
def assign (name : String) (impl : Nat) : List (String × Nat) → List (String × Nat)
  | [] => [(name, impl)]
  | (key, value) :: rest =>
    if name < key then (name, impl) :: (key, value) :: rest
    else if name = key then (name, impl) :: rest
    else (key, value) :: assign name impl rest

theorem lookup_cons_eq (name key : String) (value : Nat) (rest : List (String × Nat)) :
    ((key, value) :: rest).lookup name = if name = key then some value else rest.lookup name := by
  by_cases same : name = key
  · simp [List.lookup_cons, same]
  · simp [List.lookup_cons, same, beq_false_of_ne same]

theorem mem_assign {name : String} {impl : Nat} {entry : String × Nat} :
    ∀ {entries : List (String × Nat)}, entry ∈ assign name impl entries →
      entry = (name, impl) ∨ entry ∈ entries
  | [] => by simp [assign]
  | (key, value) :: rest => by
    unfold assign
    split_ifs
    · simp only [List.mem_cons]; tauto
    · simp only [List.mem_cons]; tauto
    · simp only [List.mem_cons]
      rintro (rfl | member)
      · exact .inr (.inl rfl)
      · rcases mem_assign member with same | older
        · exact .inl same
        · exact .inr (.inr older)

theorem assign_sorted {name : String} {impl : Nat} :
    ∀ {entries : List (String × Nat)}, entries.Sorted (·.1 < ·.1) →
      (assign name impl entries).Sorted (·.1 < ·.1)
  | [], _ => List.sorted_singleton _
  | (key, value) :: rest, sorted => by
    have later := List.rel_of_sorted_cons sorted
    unfold assign
    split_ifs with before same
    · exact List.sorted_cons.2 ⟨fun e member => (List.mem_cons.1 member).elim (fun h => h ▸ before)
        fun m => before.trans (later e m), sorted⟩
    · subst same
      exact List.sorted_cons.2 ⟨later, sorted.of_cons⟩
    · refine List.sorted_cons.2 ⟨fun e member => ?_, assign_sorted sorted.of_cons⟩
      rcases mem_assign member with rfl | older
      · exact lt_of_le_of_ne (not_lt.1 before) (Ne.symm same)
      · exact later e older

theorem lookup_assign_self (name : String) (impl : Nat) :
    ∀ entries : List (String × Nat), (assign name impl entries).lookup name = some impl
  | [] => by simp [assign, lookup_cons_eq]
  | (key, value) :: rest => by
    unfold assign
    split_ifs with _ equal
    · simp [lookup_cons_eq]
    · simp [lookup_cons_eq]
    · rw [lookup_cons_eq, if_neg equal, lookup_assign_self name impl rest]

theorem lookup_assign_of_ne {name other : String} (impl : Nat) (ne : other ≠ name) :
    ∀ entries : List (String × Nat), (assign name impl entries).lookup other = entries.lookup other
  | [] => by simp [assign, lookup_cons_eq, ne]
  | (key, value) :: rest => by
    unfold assign
    split_ifs with _ equal
    · simp [lookup_cons_eq, ne]
    · subst equal; simp [lookup_cons_eq, ne]
    · simp only [lookup_cons_eq, lookup_assign_of_ne impl ne rest]

/-- The sessions of `assign` are the new one and all but at most one of the old. -/
theorem assign_impls_subperm (name : String) (impl : Nat) :
    ∀ entries : List (String × Nat),
      ((assign name impl entries).map (·.2)).Subperm (impl :: entries.map (·.2))
  | [] => List.Subperm.refl _
  | (key, value) :: rest => by
    unfold assign
    split_ifs
    · exact List.Subperm.refl _
    · exact (List.sublist_cons_self _ _).cons₂ impl |>.subperm
    · exact ((List.subperm_cons value).2 (assign_impls_subperm name impl rest)).trans
        (List.Perm.swap impl value _).subperm

/-- In ascending order a name is not among the names after its own entry. -/
theorem lookup_eq_none_of_sorted {key : String} {value : Nat} {rest : List (String × Nat)}
    (sorted : ((key, value) :: rest).Sorted (·.1 < ·.1)) : rest.lookup key = none := by
  have later := List.rel_of_sorted_cons sorted
  clear sorted
  induction rest with
  | nil => rfl
  | cons entry rest ih =>
    rw [lookup_cons_eq, if_neg (later entry (List.mem_cons_self _ _)).ne]
    exact ih fun e member => later e (List.mem_cons_of_mem _ member)

theorem lookup_mem {name : String} {impl : Nat} :
    ∀ {entries : List (String × Nat)}, entries.lookup name = some impl → impl ∈ entries.map (·.2)
  | [], found => by simp at found
  | (key, value) :: rest, found => by
    rw [lookup_cons_eq] at found
    split_ifs at found
    · cases found; exact List.mem_cons_self _ _
    · exact List.mem_cons_of_mem _ (lookup_mem found)

/-- `ConnectionImpl::sessions`, a `std::map<std::string, qpid::messaging::Session>`: its entries
in ascending order of name, so each name once. A session is its `SessionImpl`, a number. -/
@[ext]
structure SessionMap where
  entries : List (String × Nat)
  sorted : entries.Sorted (·.1 < ·.1)

namespace SessionMap

def empty : SessionMap := ⟨[], List.sorted_nil⟩

def find (m : SessionMap) (name : String) : Option Nat := m.entries.lookup name

def impls (m : SessionMap) : List Nat := m.entries.map (·.2)

def set (m : SessionMap) (name : String) (impl : Nat) : SessionMap :=
  ⟨assign name impl m.entries, assign_sorted m.sorted⟩

/-- The loop of `closed`: the first entry whose session is `impl` is erased, and the loop stops. -/
def erase (m : SessionMap) (impl : Nat) : SessionMap :=
  ⟨m.entries.eraseP (·.2 = impl), m.sorted.sublist (List.eraseP_sublist _)⟩

theorem find_set (m : SessionMap) (name : String) (impl : Nat) :
    (m.set name impl).find = Function.update m.find name (some impl) := by
  funext other
  by_cases same : other = name
  · subst same
    simp [find, set, lookup_assign_self]
  · simp [find, set, lookup_assign_of_ne impl same, same]

theorem set_impls_subperm (m : SessionMap) (name : String) (impl : Nat) :
    (m.set name impl).impls.Subperm (impl :: m.impls) :=
  assign_impls_subperm name impl m.entries

theorem erase_impls_sublist (m : SessionMap) (impl : Nat) : (m.erase impl).impls.Sublist m.impls :=
  (List.eraseP_sublist _).map _

/-- Erasing the first entry of a session that no other entry holds unbinds every name bound to
it. -/
theorem find_erase {m : SessionMap} (distinct : m.impls.Nodup) (impl : Nat) (name : String) :
    (m.erase impl).find name = if m.find name = some impl then none else m.find name := by
  obtain ⟨entries, sorted⟩ := m
  simp only [find, erase, impls] at distinct ⊢
  induction entries with
  | nil => simp
  | cons entry rest ih =>
    obtain ⟨key, value⟩ := entry
    simp only [List.map_cons, List.nodup_cons] at distinct
    by_cases found : value = impl
    · subst found
      rw [List.eraseP_cons_of_pos (by simp), lookup_cons_eq]
      by_cases same : name = key
      · subst same
        simp [lookup_eq_none_of_sorted sorted]
      · have absent : rest.lookup name ≠ some value := fun found => distinct.1 (lookup_mem found)
        simp [same, absent]
    · rw [List.eraseP_cons_of_neg (by simpa using found), lookup_cons_eq, lookup_cons_eq,
        ih sorted.of_cons distinct.2]
      by_cases same : name = key <;> simp [same, found]

end SessionMap

/-- What the calls of this module throw: an exception of the connection's passed on as it is, or
the `ConnectionError` that `open` makes of a `qpid::Exception`. -/
inductive Thrown where
  | error (e : Error)
  | connectionError (cause : Error)
  | keyError (what : String)
  | sessionError (what : String)
  deriving DecidableEq

/-- The handlers of `open`: a `qpid::types::Exception` is thrown again, a `qpid::Exception` becomes
a `ConnectionError`. Of what `connect` throws, `Url::Invalid` and what `connection.open` and
`connection.newSession` throw besides what is caught are `qpid::Exception`s. -/
def Thrown.ofOpen : Error → Thrown
  | .invalidUrl => .connectionError .invalidUrl
  | .openFailure what => .connectionError (.openFailure what)
  | .sessionFailure what => .connectionError (.sessionFailure what)
  | e => .error e

/-- How a call ends: it returns, throws, or is still running when the answers it reads run out. -/
inductive Ended (α : Type) where
  | returned (result : α)
  | threw (e : Thrown)
  | running
  deriving DecidableEq

def Ended.map {α β : Type} (f : α → β) : Ended α → Ended β
  | .returned a => .returned (f a)
  | .threw e => .threw e
  | .running => .running

/-- A `ConnectionImpl` with its sessions, `connection.isOpen()`, and the `transactional` flag of
each `SessionImpl` made so far: session `k` is the `k`-th. -/
structure Client where
  impl : ConnectionImpl
  sessions : SessionMap
  connectionOpen : Bool
  made : List Bool

def Client.initial (impl : ConnectionImpl) : Client := ⟨impl, .empty, false, []⟩

def Client.isOpen (c : Client) : Bool := c.connectionOpen

/-- `detach()`: `connection.close()`. -/
def Client.detach (c : Client) : Client := { c with connectionOpen := false }

/-- Whether `connect` leaves the connection open: after it returned, or after `resetSessions`
threw on the connection it had opened. -/
def openAfter : Ending → Bool
  | .returned => true
  | .threw (.targetCapacityExceeded _) => true
  | .threw (.sessionFailure _) => true
  | _ => false

def Client.open (c : Client) (rounds : List Round) : Client × Ended Unit :=
  if c.connectionOpen then (c, .returned ())
  else
    let o := connect c.impl rounds
    ({ c with impl := o.impl, connectionOpen := openAfter o.ending },
      match o.ending with
      | .returned => .returned ()
      | .threw e => .threw (.ofOpen e)
      | .trying => .running)

def Client.reopen (c : Client) (rounds : List Round) : Client × Ended Unit :=
  if !c.impl.reconnect then
    (c, .threw (.error (.transportFailure "Failed to connect (reconnect disabled)")))
  else c.open rounds

def Client.backoff (c : Client) (rounds : List Round) : Client × Ended Bool :=
  if c.impl.reconnectOnLimitExceeded then
    let (c, ended) := c.detach.open rounds
    (c, ended.map fun _ => true)
  else (c, .returned false)

def Client.getSession (c : Client) (name : String) : Except Thrown Nat :=
  match c.sessions.find name with
  | some impl => .ok impl
  | none => .error (.keyError ("No such session: " ++ name))

def Client.closed (c : Client) (impl : Nat) : Client := { c with sessions := c.sessions.erase impl }

/-- How one `connection.newSession(name)`, with the `setSession` of what it returns, ends: a
`TransportFailure`, after which the `connect` of `reopen` runs `rounds`; a
`qpid::SessionException`; or another `std::exception`. -/
inductive Attempt where
  | created
  | transportFailure (stillOpen : Bool) (rounds : List Round)
  | sessionException (what : String)
  | failure (what : String)

/-- The loop of `newSession` for session `impl` under `name`, one attempt a turn. -/
def Client.newSessionFrom (name : String) (impl : Nat) : Client → List Attempt → Client × Ended Nat
  | c, [] => (c, .running)
  | c, .created :: _ => ({ c with sessions := c.sessions.set name impl }, .returned impl)
  | c, .transportFailure stillOpen rounds :: rest =>
    match { c with connectionOpen := stillOpen }.reopen rounds with
    | (c, .returned ()) => newSessionFrom name impl c rest
    | (c, .threw e) => (c, .threw e)
    | (c, .running) => (c, .running)
  | c, .sessionException what :: _ => (c, .threw (.sessionError what))
  | c, .failure what :: _ => (c, .threw (.error (.messagingException what)))

/-- `newSession(transactional, n)`: the name is `n`, or the `uuid` made when `n` is empty; the
`SessionImpl` is made before the loop. -/
def Client.newSession (c : Client) (transactional : Bool) (n uuid : String)
    (attempts : List Attempt) : Client × Ended Nat :=
  let name := if n.isEmpty then uuid else n
  newSessionFrom name c.made.length { c with made := c.made ++ [transactional] } attempts

/-- How `SessionImpl::close` ends: having taken the session out of the map through `closed`,
with the session still in the map, or by throwing. -/
inductive Closing where
  | deregisters
  | keeps
  | throws (e : Thrown)

/-- `close()` for at most `fuel` turns of its loop: each turn closes the first session of the map
as `closing` says; on an empty map the loop ends and `detach()` follows. -/
def Client.closeFor (closing : Nat → Closing) : Nat → Client → Client × Ended Unit
  | 0, c => (c, .running)
  | fuel + 1, c =>
    match c.sessions.entries with
    | [] => (c.detach, .returned ())
    | (_, impl) :: _ =>
      match closing impl with
      | .deregisters => closeFor closing fuel (c.closed impl)
      | .keeps => closeFor closing fuel c
      | .throws e => (c, .threw e)

namespace Client
open Urls

variable {c : Client}

/-! ### What each call does to the map -/

theorem open_keeps (c : Client) (rounds : List Round) :
    (c.open rounds).1.sessions = c.sessions ∧ (c.open rounds).1.made = c.made ∧
      Extends c.impl.urls (c.open rounds).1.impl.urls := by
  unfold Client.open
  split
  · exact ⟨rfl, rfl, .refl _⟩
  · exact ⟨rfl, rfl, connectFrom_urls _ _ _⟩

theorem reopen_keeps (c : Client) (rounds : List Round) :
    (c.reopen rounds).1.sessions = c.sessions ∧ (c.reopen rounds).1.made = c.made ∧
      Extends c.impl.urls (c.reopen rounds).1.impl.urls := by
  unfold Client.reopen
  split
  · exact ⟨rfl, rfl, .refl _⟩
  · exact open_keeps c rounds

theorem backoff_keeps (c : Client) (rounds : List Round) :
    (c.backoff rounds).1.sessions = c.sessions ∧ (c.backoff rounds).1.made = c.made ∧
      Extends c.impl.urls (c.backoff rounds).1.impl.urls := by
  unfold Client.backoff
  split
  · exact open_keeps c.detach rounds
  · exact ⟨rfl, rfl, .refl _⟩

/-- The loop of `newSession` binds `name` to its session when it returns, and leaves the map as
it was when it throws or is still retrying. -/
theorem newSessionFrom_binds (name : String) (impl : Nat) :
    ∀ (c : Client) (attempts : List Attempt),
      (c.newSessionFrom name impl attempts).1.made = c.made ∧
      Extends c.impl.urls (c.newSessionFrom name impl attempts).1.impl.urls ∧
      ((c.newSessionFrom name impl attempts).2 = .returned impl ∧
          (c.newSessionFrom name impl attempts).1.sessions = c.sessions.set name impl ∨
        (∀ r, (c.newSessionFrom name impl attempts).2 ≠ .returned r) ∧
          (c.newSessionFrom name impl attempts).1.sessions = c.sessions)
  | c, [] => ⟨rfl, .refl _, .inr ⟨nofun, rfl⟩⟩
  | c, .created :: _ => ⟨rfl, .refl _, .inl ⟨rfl, rfl⟩⟩
  | c, .sessionException _ :: _ => ⟨rfl, .refl _, .inr ⟨nofun, rfl⟩⟩
  | c, .failure _ :: _ => ⟨rfl, .refl _, .inr ⟨nofun, rfl⟩⟩
  | c, .transportFailure stillOpen rounds :: rest => by
    obtain ⟨sessions, made, urls⟩ := reopen_keeps { c with connectionOpen := stillOpen } rounds
    simp only [newSessionFrom]
    split
    next c' reopened =>
      rw [reopened] at sessions made urls
      obtain ⟨made', urls', ended⟩ := newSessionFrom_binds name impl c' rest
      refine ⟨made'.trans made, urls.trans urls', ?_⟩
      rw [← sessions]
      exact ended
    next c' e reopened =>
      rw [reopened] at sessions made urls
      exact ⟨made, urls, .inr ⟨nofun, sessions⟩⟩
    next c' reopened =>
      rw [reopened] at sessions made urls
      exact ⟨made, urls, .inr ⟨nofun, sessions⟩⟩

theorem closed_head {key : String} {impl : Nat} {rest : List (String × Nat)}
    (head : c.sessions.entries = (key, impl) :: rest) : (c.closed impl).sessions.entries = rest := by
  simp [Client.closed, SessionMap.erase, head]

theorem closeFor_keeps (closing : Nat → Closing) :
    ∀ (fuel : Nat) (c : Client), ((c.closeFor closing fuel).1.sessions.impls.Sublist c.sessions.impls) ∧
      (c.closeFor closing fuel).1.made = c.made ∧ (c.closeFor closing fuel).1.impl = c.impl
  | 0, c => ⟨.refl _, rfl, rfl⟩
  | fuel + 1, c => by
    simp only [closeFor]
    split
    · exact ⟨.refl _, rfl, rfl⟩
    next key impl rest head =>
      split
      · obtain ⟨sub, made, kept⟩ := closeFor_keeps closing fuel (c.closed impl)
        exact ⟨sub.trans (SessionMap.erase_impls_sublist _ _), made, kept⟩
      · exact closeFor_keeps closing fuel c
      · exact ⟨.refl _, rfl, rfl⟩

/-- `newSession` binds the name it used to its new session when it returns, and leaves every other
name; when it throws or is still retrying, the map is as it was. Either way it made one
`SessionImpl`. -/
theorem newSession_binds_name (c : Client) (transactional : Bool) (n uuid : String)
    (attempts : List Attempt) :
    (c.newSession transactional n uuid attempts).1.made = c.made ++ [transactional] ∧
      (((c.newSession transactional n uuid attempts).2 = .returned c.made.length ∧
          (c.newSession transactional n uuid attempts).1.getSession (if n.isEmpty then uuid else n) =
            .ok c.made.length ∧
          ∀ other ≠ (if n.isEmpty then uuid else n),
            (c.newSession transactional n uuid attempts).1.getSession other = c.getSession other) ∨
        (∀ impl, (c.newSession transactional n uuid attempts).2 ≠ .returned impl) ∧
          (c.newSession transactional n uuid attempts).1.sessions = c.sessions) := by
  obtain ⟨made, -, ⟨returned, bound⟩ | failed⟩ := newSessionFrom_binds (if n.isEmpty then uuid else n)
    c.made.length { c with made := c.made ++ [transactional] } attempts
  · refine ⟨made, .inl ⟨returned, ?_, fun other ne => ?_⟩⟩
    · rw [Client.newSession, Client.getSession, bound, SessionMap.find_set, Function.update_same]
    · rw [Client.newSession, Client.getSession, Client.getSession, bound, SessionMap.find_set,
        Function.update_noteq ne]
  · exact ⟨made, .inr failed⟩

/-- With every session's `close` taking it out of the map, `close()` turns once per session and
once more, and leaves no session and the connection closed. -/
theorem closeFor_deregistered (closing : Nat → Closing) :
    ∀ (fuel : Nat) (c : Client), c.sessions.entries.length < fuel →
      (∀ impl ∈ c.sessions.impls, closing impl = .deregisters) →
      c.closeFor closing fuel = ({ c with sessions := .empty, connectionOpen := false }, .returned ())
  | 0, _, short, _ => absurd short (Nat.not_lt_zero _)
  | fuel + 1, c, short, all => by
    simp only [closeFor]
    split
    next empty =>
      have cleared : c.sessions = .empty := SessionMap.ext empty
      rw [← cleared]
      rfl
    next key impl rest head =>
      have impls : c.sessions.impls = impl :: rest.map (·.2) := by simp [SessionMap.impls, head]
      split
      next =>
        have rest_short : (c.closed impl).sessions.entries.length < fuel := by
          rw [closed_head head]
          rw [head, List.length_cons] at short
          omega
        refine (closeFor_deregistered closing fuel (c.closed impl) rest_short fun i member => ?_).trans rfl
        rw [SessionMap.impls, closed_head head] at member
        exact all i (impls ▸ List.mem_cons_of_mem _ member)
      next keeps => exact absurd (all impl (impls ▸ List.mem_cons_self _ _)) (by rw [keeps]; nofun)
      next e throws => exact absurd (all impl (impls ▸ List.mem_cons_self _ _)) (by rw [throws]; nofun)

/-- `close()` returns only once the `close` of every session of the map took it out of the map. -/
theorem closeFor_returned (closing : Nat → Closing) :
    ∀ (fuel : Nat) (c : Client), (c.closeFor closing fuel).2 = .returned () →
      ∀ impl ∈ c.sessions.impls, closing impl = .deregisters
  | 0, _, returned => nomatch returned
  | fuel + 1, c, returned => by
    simp only [closeFor] at returned
    split at returned
    next empty => simp [SessionMap.impls, empty]
    next key impl rest head =>
      have impls : c.sessions.impls = impl :: rest.map (·.2) := by simp [SessionMap.impls, head]
      rw [impls]
      split at returned
      next deregisters =>
        have later := closeFor_returned closing fuel (c.closed impl) returned
        rw [SessionMap.impls, closed_head head] at later
        exact List.forall_mem_cons.2 ⟨deregisters, later⟩
      next keeps =>
        have later := closeFor_returned closing fuel c returned
        rw [impls] at later
        exact absurd (later impl (List.mem_cons_self _ _)) (by rw [keeps]; nofun)
      next => cases returned

/-- `close()` returns exactly when the `close` of every session of the map takes the session out
of the map, and then it leaves no session and the connection closed. A session whose `close`
leaves it in the map makes the loop turn on it for ever, or until a later `close` throws. -/
theorem close_returns_iff_deregistered (closing : Nat → Closing) (c : Client) :
    ((∃ fuel, (c.closeFor closing fuel).2 = .returned ()) ↔
      ∀ impl ∈ c.sessions.impls, closing impl = .deregisters) ∧
    ((∀ impl ∈ c.sessions.impls, closing impl = .deregisters) → ∀ fuel,
      c.sessions.entries.length < fuel →
        c.closeFor closing fuel = ({ c with sessions := .empty, connectionOpen := false }, .returned ())) :=
  ⟨⟨fun ⟨fuel, returned⟩ => closeFor_returned closing fuel c returned, fun all =>
      ⟨_, congrArg Prod.snd (closeFor_deregistered closing _ c (Nat.lt_succ_self _) all)⟩⟩,
    fun all fuel short => closeFor_deregistered closing fuel c short all⟩

/-! ### Runs of calls -/

/-- A call on a constructed connection that can change it; `getSession` and `isOpen` change
nothing. -/
inductive Call (V : Type) where
  | setOption (name : String) (value : V)
  | newSession (transactional : Bool) (name uuid : String) (attempts : List Attempt)
  | closed (impl : Nat)
  | close (closing : Nat → Closing) (fuel : Nat)
  | detach
  | open (rounds : List Round)
  | reopen (rounds : List Round)
  | backoff (rounds : List Round)

section Runs

variable {V : Type} (conv : Conversions V)

/-- The connection a call leaves, however the call ended. -/
def Call.run (c : Client) : Call V → Client
  | .setOption name value => { c with impl := (c.impl.setOption conv name value).1 }
  | .newSession transactional name uuid attempts => (c.newSession transactional name uuid attempts).1
  | .closed impl => c.closed impl
  | .close closing fuel => (c.closeFor closing fuel).1
  | .detach => c.detach
  | .open rounds => (c.open rounds).1
  | .reopen rounds => (c.reopen rounds).1
  | .backoff rounds => (c.backoff rounds).1

/-- The connections reached by any calls from one constructed as `start`. -/
inductive Reachable (start : ConnectionImpl) : Client → Prop
  | initial : Reachable start (Client.initial start)
  | step {c : Client} (call : Call V) : Reachable start c → Reachable start (call.run conv c)

/-- No session is in the map under two names, and every session of the map is one that
`newSession` made. -/
structure Inv (c : Client) : Prop where
  distinct : c.sessions.impls.Nodup
  made : ∀ impl ∈ c.sessions.impls, impl < c.made.length

theorem Inv.initial (start : ConnectionImpl) : Inv (Client.initial start) :=
  ⟨List.nodup_nil, nofun⟩

theorem Inv.of_sublist {c' : Client} (inv : Inv c) (sub : c'.sessions.impls.Sublist c.sessions.impls)
    (made : c'.made = c.made) : Inv c' :=
  ⟨inv.distinct.sublist sub, fun impl member => made ▸ inv.made impl (sub.subset member)⟩

theorem Inv.newSession (inv : Inv c) (transactional : Bool) (n uuid : String)
    (attempts : List Attempt) : Inv (c.newSession transactional n uuid attempts).1 := by
  obtain ⟨made, -, bound | ⟨-, same⟩⟩ := newSessionFrom_binds (if n.isEmpty then uuid else n)
    c.made.length { c with made := c.made ++ [transactional] } attempts
  · have sub := SessionMap.set_impls_subperm c.sessions (if n.isEmpty then uuid else n) c.made.length
    refine ⟨?_, fun impl member => ?_⟩
    · rw [Client.newSession, bound.2]
      obtain ⟨l, perm, sublist⟩ := sub
      exact perm.nodup_iff.1 ((List.nodup_cons.2 ⟨fun old => (inv.made _ old).false, inv.distinct⟩).sublist
        sublist)
    · rw [Client.newSession, bound.2] at member
      rw [Client.newSession, made, List.length_append, List.length_singleton]
      rcases List.mem_cons.1 (sub.subset member) with rfl | old
      · exact Nat.lt_succ_self _
      · exact Nat.lt_succ_of_lt (inv.made impl old)
  · refine ⟨by rw [Client.newSession, same]; exact inv.distinct, fun impl member => ?_⟩
    rw [Client.newSession, same] at member
    rw [Client.newSession, made, List.length_append]
    exact Nat.lt_add_right _ (inv.made impl member)

theorem Inv.run (inv : Inv c) (call : Call V) : Inv (call.run conv c) := by
  cases call with
  | setOption | detach => exact inv.of_sublist (.refl _) rfl
  | newSession transactional name uuid attempts => exact inv.newSession transactional name uuid attempts
  | closed impl => exact inv.of_sublist (SessionMap.erase_impls_sublist _ _) rfl
  | close closing fuel =>
    obtain ⟨sub, made, -⟩ := closeFor_keeps closing fuel c
    exact inv.of_sublist sub made
  | reopen rounds =>
    obtain ⟨sessions, made, -⟩ := reopen_keeps c rounds
    exact inv.of_sublist (sessions ▸ .refl _) made
  | backoff rounds =>
    obtain ⟨sessions, made, -⟩ := backoff_keeps c rounds
    exact inv.of_sublist (sessions ▸ .refl _) made
  | _ =>
    obtain ⟨sessions, made, -⟩ := open_keeps c _
    exact inv.of_sublist (sessions ▸ .refl _) made

theorem Reachable.inv {start : ConnectionImpl} (reachable : Reachable conv start c) : Inv c := by
  induction reachable with
  | initial => exact Inv.initial start
  | step call _ holds => exact holds.run conv call

def runAll : Client → List (Call V) → Client
  | c, [] => c
  | c, call :: rest => runAll (call.run conv c) rest

theorem Reachable.calls {start : ConnectionImpl} :
    ∀ {c : Client} (calls : List (Call V)), Reachable conv start c →
      Reachable conv start (runAll conv c calls)
  | _, [], reachable => reachable
  | _, call :: rest, reachable => Reachable.calls rest (reachable.step call)

/-- Over every run of calls no session is in the map under two names, and every session of the
map is one that `newSession` made. The names are in ascending order, each once, by the type. -/
theorem session_under_one_name {start : ConnectionImpl} (reachable : Reachable conv start c) :
    c.sessions.impls.Nodup ∧ ∀ impl ∈ c.sessions.impls, impl < c.made.length :=
  ⟨(Reachable.inv conv reachable).distinct, (Reachable.inv conv reachable).made⟩

/-- Session `a` made at the second attempt, after a reconnect, and a session named by its uuid. -/
def reconnectingCalls : List (Call String) :=
  [.newSession false "a" "" [.transportFailure false [⟨fun _ => .parsed "" "" (.connected [] .done), false⟩],
    .created], .newSession true "" "u" [.created]]

def reconnected : Client := runAll stringVariants (Client.initial limitedConnection) reconnectingCalls

theorem session_under_one_name_sample :
    Reachable stringVariants limitedConnection reconnected ∧ reconnected.sessions.impls.Nodup ∧
      ∀ impl ∈ reconnected.sessions.impls, impl < reconnected.made.length :=
  have reachable := Reachable.calls stringVariants reconnectingCalls .initial
  ⟨reachable, session_under_one_name stringVariants reachable⟩

/-- On every reachable connection `closed(s)`, whose loop erases the first entry holding `s` and
stops, unbinds every name bound to `s` and leaves every other name. -/
theorem closed_unbinds {start : ConnectionImpl} (reachable : Reachable conv start c) (impl : Nat)
    (name : String) :
    (c.closed impl).sessions.find name =
      if c.sessions.find name = some impl then none else c.sessions.find name :=
  SessionMap.find_erase (Reachable.inv conv reachable).distinct impl name

theorem closed_unbinds_sample :
    Reachable stringVariants limitedConnection reconnected ∧
      (reconnected.closed 1).sessions.find "u" =
        if reconnected.sessions.find "u" = some 1 then none else reconnected.sessions.find "u" :=
  have reachable := Reachable.calls stringVariants reconnectingCalls .initial
  ⟨reachable, closed_unbinds stringVariants reachable 1 "u"⟩

theorem Call.run_urls (call : Call V) (c : Client) (distinct : c.impl.urls.Nodup) :
    (call.run conv c).impl.urls.Nodup := by
  cases call with
  | setOption name value =>
    refine (setOption_extends conv c.impl name value).2 ?_
    split
    · exact List.nodup_nil
    · exact distinct
  | newSession transactional name uuid attempts =>
    exact (newSessionFrom_binds _ _ { c with made := c.made ++ [transactional] } attempts).2.1.2 distinct
  | close closing fuel => exact (closeFor_keeps closing fuel c).2.2 ▸ distinct
  | closed | detach => exact distinct
  | reopen rounds => exact (reopen_keeps c rounds).2.2.2 distinct
  | backoff rounds => exact (backoff_keeps c rounds).2.2.2 distinct
  | _ => exact (open_keeps c _).2.2.2 distinct

/-- No call of a constructed connection, in any order and whatever the network answers, puts a url
twice into the reconnect list when the constructor did not: not `setOption`, and not the known
hosts merged by the reconnects of `newSession`, `open`, `reopen` and `backoff`. -/
theorem urls_never_repeat {start : ConnectionImpl} (reachable : Reachable conv start c)
    (distinct : start.urls.Nodup) : c.impl.urls.Nodup := by
  induction reachable with
  | initial => exact distinct
  | step call _ holds => exact Call.run_urls conv call _ holds

theorem urls_never_repeat_sample :
    Reachable stringVariants limitedConnection reconnected ∧ limitedConnection.urls.Nodup ∧
      reconnected.impl.urls.Nodup :=
  have reachable := Reachable.calls stringVariants reconnectingCalls .initial
  have distinct : limitedConnection.urls.Nodup := by decide
  ⟨reachable, distinct, urls_never_repeat stringVariants reachable distinct⟩

end Runs

end Client

end Qpid.Client.Sessions
