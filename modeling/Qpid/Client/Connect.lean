import Qpid.Client.Urls
import Mathlib.Tactic.Positivity
import Mathlib.Tactic.Ring

/-!
`ConnectionImpl::connect`: the retry loop around `tryConnect`, with its reconnect limit, its
timeout and its back-off interval. `Url`, `Connection`, the clock and the sessions are not in
the repository: each call of `tryConnect` reads, for every url it tries, how that try ends, and
`expired` reads the clock's answer, which `expiredAfter` computes from the elapsed `Duration`.
The interval and `timeout * TIME_SEC` are `int64_t`, so the doubling and the product wrap.
-/

namespace Qpid.Client.Connect
open Options ConnectionImpl Urls

/-- How `resetSessions` ends: every session re-created, a `TransportFailure`, a
`ResourceLimitExceededException` with its text, or another exception of `connection.newSession`,
which `resetSessions` does not catch. -/
inductive Reset where
  | done
  | transportFailure
  | limitExceeded (what : String)
  | failure (what : String)

/-- How `connection.open` of a url ends; once connected, the initial brokers' urls and how
`resetSessions` ends. -/
inductive Opened where
  | transportFailure
  | failure (what : String)
  | connected (initialBrokers : List String) (reset : Reset)

/-- How trying one url ends: `Url url(*i)` throws, or the url parses with its user and password
(empty when the url has none) and `connection.open` ends as `opened`. -/
inductive Answer where
  | invalid
  | parsed (user pass : String) (opened : Opened)

/-- `resetSessions`: the connection a `detach()` closes is not modelled. -/
def resetSessions (c : ConnectionImpl) : Reset → ConnectionImpl × Except Error Bool
  | .done => (c, .ok true)
  | .transportFailure => (c, .ok false)
  | .limitExceeded what =>
    if c.reconnectOnLimitExceeded then (c, .ok false) else (c, .error (.targetCapacityExceeded what))
  | .failure what => (c, .error (.sessionFailure what))

/-- The loop of `tryConnect` over the urls, each tried as `answer` says. -/
def tryUrls (answer : String → Answer) : ConnectionImpl → List String → ConnectionImpl × Except Error Bool
  | c, [] => (c, .ok false)
  | c, url :: rest =>
    match answer url with
    | .invalid => (c, .error .invalidUrl)
    | .parsed user pass opened =>
      let c := c.withSettings { c.settings with
        username := if user.isEmpty then c.settings.username else user
        password := if pass.isEmpty then c.settings.password else pass }
      match opened with
      | .transportFailure => tryUrls answer c rest
      | .failure what => (c, .error (.openFailure what))
      | .connected brokers reset => resetSessions (c.mergeUrls brokers) reset

def tryConnect (c : ConnectionImpl) (answer : String → Answer) : ConnectionImpl × Except Error Bool :=
  tryUrls answer c c.urls

/-- `expired(start, timeout)`; `late` is the clock's answer to `allowed < used`. -/
def expired (timeout : Int) (late : Bool) : Bool :=
  if timeout = 0 then true else if timeout < 0 then false else late

/-- The `int64_t` a product wraps to. -/
def toInt64 (x : Int) : Int := x.bmod (2 ^ 64)

/-- `qpid::sys::TIME_SEC` (qpid/sys/Time.h, not in the repository): one second in the
nanoseconds a `Duration` counts. -/
def timeSec : Int := 1000 * 1000 * 1000

/-- `allowed` in `expired`: `timeout * TIME_SEC`, an `int64_t` product. -/
def allowed (timeout : Int) : Int := toInt64 (timeout * timeSec)

/-- `expired(start, timeout)` once `used` nanoseconds have passed since `start`: the clock's
answer is `allowed < used`. -/
def expiredAfter (timeout used : Int) : Bool := expired timeout (allowed timeout < used)

/-- One round of the loop: how each url tried by that call of `tryConnect` ends, and the clock's
answer should `expired` ask it. -/
structure Round where
  answer : String → Answer
  late : Bool

def clocked (timeout : Int) (timed : List ((String → Answer) × Int)) : List Round :=
  timed.map fun round => ⟨round.1, allowed timeout < round.2⟩

inductive Ending where
  | returned
  | threw (e : Error)
  /-- The rounds ran out while `connect` was still trying. -/
  | trying
  deriving DecidableEq

/-- The object `connect` leaves, how it ended, what each call of `tryConnect` returned, and the
intervals it slept. -/
structure Outcome where
  impl : ConnectionImpl
  ending : Ending
  tries : List (Except Error Bool)
  sleeps : List Int

/-- The checks of the loop's body once `tryConnect` has returned false: the object, and the
exception that ends `connect` or `none` to sleep and retry. -/
def checkRetry (c : ConnectionImpl) (late : Bool) : ConnectionImpl × Option Error :=
  if !c.reconnect then (c, some (.transportFailure "Failed to connect (reconnect disabled)"))
  else if c.limit ≥ 0 ∧ c.retries ≥ c.limit then
    ({ c with retries := c.retries + 1 },
      some (.transportFailure "Failed to connect within reconnect limit"))
  else
    let c := if c.limit ≥ 0 then { c with retries := c.retries + 1 } else c
    if expired c.timeout late then
      (c, some (.transportFailure "Failed to connect within reconnect timeout"))
    else (c, none)

/-- The loop of `connect` from interval `i`, one round per call of `tryConnect`. -/
def connectFrom (i : Int) : ConnectionImpl → List Round → Outcome
  | c, [] => ⟨c, .trying, [], []⟩
  | c, round :: rest =>
    let (c, tried) := tryConnect c round.answer
    match tried with
    | .ok true => ⟨{ c with retries := 0 }, .returned, [tried], []⟩
    | .error e => ⟨c, .threw e, [tried], []⟩
    | .ok false =>
      match checkRetry c round.late with
      | (c, some e) => ⟨c, .threw e, [tried], []⟩
      | (c, none) =>
        let next := connectFrom (min (toInt64 (i * 2)) c.maxReconnectInterval) c rest
        ⟨next.impl, next.ending, tried :: next.tries, i :: next.sleeps⟩

def connect (c : ConnectionImpl) (rounds : List Round) : Outcome :=
  connectFrom c.minReconnectInterval c rounds

/-- The interval slept after the `k`-th failed call of `tryConnect` (from 0) by a loop started
from interval `i`, with `M` as `maxReconnectInterval`. -/
def interval (i M : Int) : Nat → Int
  | 0 => i
  | k + 1 => interval (min (toInt64 (i * 2)) M) M k

theorem resetSessions_fst (c : ConnectionImpl) (reset : Reset) : (resetSessions c reset).1 = c := by
  cases reset with
  | limitExceeded what => simp only [resetSessions]; split <;> rfl
  | _ => rfl

theorem tryUrls_frame (answer : String → Answer) (c : ConnectionImpl) (list : List String) :
    ∃ urls settings, (tryUrls answer c list).1 = { c with urls := urls, settings := settings } ∧
      Extends c.urls urls := by
  induction list generalizing c with
  | nil => exact ⟨c.urls, c.settings, rfl, .refl _⟩
  | cons url rest ih =>
    simp only [tryUrls]
    cases answer url with
    | invalid => exact ⟨c.urls, c.settings, rfl, .refl _⟩
    | parsed user pass opened =>
      cases opened with
      | transportFailure => exact ih _
      | failure what => exact ⟨c.urls, _, rfl, .refl _⟩
      | connected brokers reset =>
        exact ⟨mergeAll brokers c.urls, _, resetSessions_fst _ _, extends_mergeAll _ _⟩

theorem tryConnect_keeps {c c₁ : ConnectionImpl} {answer : String → Answer} {tried : Except Error Bool}
    (result : tryConnect c answer = (c₁, tried)) :
    c₁.reconnect = c.reconnect ∧ c₁.timeout = c.timeout ∧ c₁.limit = c.limit ∧
      c₁.maxReconnectInterval = c.maxReconnectInterval ∧ c₁.retries = c.retries ∧
      Extends c.urls c₁.urls := by
  obtain ⟨urls, settings, frame, ext⟩ := tryUrls_frame answer c c.urls
  rw [← tryConnect, result] at frame
  cases frame
  exact ⟨rfl, rfl, rfl, rfl, rfl, ext⟩

theorem resetSessions_error {c : ConnectionImpl} {reset : Reset} {e : Error}
    (result : (resetSessions c reset).2 = .error e) :
    ∃ what, e = .targetCapacityExceeded what ∨ e = .sessionFailure what := by
  cases reset with
  | limitExceeded what =>
    simp only [resetSessions] at result
    split at result
    · cases result
    · cases result; exact ⟨what, .inl rfl⟩
  | failure what => cases result; exact ⟨what, .inr rfl⟩
  | _ => cases result

/-- `tryConnect` catches every `TransportFailure`: what it throws is another exception. -/
theorem tryUrls_error (answer : String → Answer) {c c₁ : ConnectionImpl} {urls : List String}
    {e : Error} (result : tryUrls answer c urls = (c₁, .error e)) (what : String) :
    e ≠ .transportFailure what := by
  induction urls generalizing c with
  | nil => simp [tryUrls] at result
  | cons url rest ih =>
    simp only [tryUrls] at result
    split at result
    · cases result; nofun
    · split at result
      · exact ih result
      · cases result; nofun
      · obtain ⟨why, rfl | rfl⟩ := resetSessions_error (congrArg Prod.snd result) <;> nofun


theorem checkRetry_fst (c : ConnectionImpl) (late : Bool) :
    (checkRetry c late).1 =
      if c.reconnect ∧ c.limit ≥ 0 then { c with retries := c.retries + 1 } else c := by
  unfold checkRetry
  by_cases reconnecting : c.reconnect
  · by_cases limited : c.limit ≥ 0
    · by_cases atLimit : c.retries ≥ c.limit
      · simp only [reconnecting, limited, atLimit, Bool.not_true, Bool.false_eq_true, if_false,
          and_self, if_true]
      · simp only [reconnecting, limited, atLimit, Bool.not_true, Bool.false_eq_true, if_false,
          and_self, if_true, and_false]
        split <;> rfl
    · simp only [reconnecting, limited, Bool.not_true, Bool.false_eq_true, if_false, false_and,
        and_false]
      split <;> rfl
  · simp [reconnecting]

theorem checkRetry_snd (c : ConnectionImpl) (late : Bool) :
    (checkRetry c late).2 =
      if !c.reconnect then some (.transportFailure "Failed to connect (reconnect disabled)")
      else if c.limit ≥ 0 ∧ c.retries ≥ c.limit then
        some (.transportFailure "Failed to connect within reconnect limit")
      else if expired c.timeout late then
        some (.transportFailure "Failed to connect within reconnect timeout")
      else none := by
  unfold checkRetry
  split
  · rfl
  split
  · rfl
  dsimp only
  split <;> split <;> rfl

theorem checkRetry_keeps {c c₂ : ConnectionImpl} {late : Bool} {thrown : Option Error}
    (result : checkRetry c late = (c₂, thrown)) :
    c₂.reconnect = c.reconnect ∧ c₂.timeout = c.timeout ∧ c₂.limit = c.limit ∧
      c₂.maxReconnectInterval = c.maxReconnectInterval ∧ c₂.urls = c.urls := by
  have left : c₂ = _ := (congrArg Prod.fst result).symm.trans (checkRetry_fst c late)
  split at left <;> subst left <;> exact ⟨rfl, rfl, rfl, rfl, rfl⟩

theorem checkRetry_thrown {c c₂ : ConnectionImpl} {late : Bool} {e : Error}
    (result : checkRetry c late = (c₂, some e)) : ∃ what, e = .transportFailure what := by
  have thrown := (congrArg Prod.snd result).symm.trans (checkRetry_snd c late)
  split at thrown
  · cases thrown; exact ⟨_, rfl⟩
  split at thrown
  · cases thrown; exact ⟨_, rfl⟩
  split at thrown
  · cases thrown; exact ⟨_, rfl⟩
  · cases thrown

theorem checkRetry_retries {c c₂ : ConnectionImpl} {late : Bool} (bounded : 0 ≤ c.limit)
    (result : checkRetry c late = (c₂, none)) : c.retries < c.limit ∧ c₂.retries = c.retries + 1 := by
  have thrown := (congrArg Prod.snd result).symm.trans (checkRetry_snd c late)
  have left : c₂ = _ := (congrArg Prod.fst result).symm.trans (checkRetry_fst c late)
  split at thrown
  · cases thrown
  next reconnecting =>
    split at thrown
    · cases thrown
    next counted =>
      simp only [Bool.not_eq_true', Bool.not_eq_false] at reconnecting
      rw [left, if_pos ⟨reconnecting, bounded⟩]
      exact ⟨by omega, rfl⟩

theorem expired_eq_true {timeout : Int} {late : Bool} :
    expired timeout late = true ↔ timeout = 0 ∨ 0 < timeout ∧ late = true := by
  by_cases zero : timeout = 0
  · simp [expired, zero]
  · by_cases negative : timeout < 0
    · simp [expired, zero, negative]; omega
    · simp [expired, zero, negative]; omega

theorem checkRetry_timed_out {c c₂ : ConnectionImpl} {late : Bool}
    (result : checkRetry c late =
      (c₂, some (.transportFailure "Failed to connect within reconnect timeout"))) :
    expired c.timeout late = true := by
  have thrown := (congrArg Prod.snd result).symm.trans (checkRetry_snd c late)
  split at thrown
  · simp at thrown
  split at thrown
  · simp at thrown
  split at thrown
  · assumption
  · cases thrown

theorem checkRetry_of_no_timeout (c : ConnectionImpl) (late : Bool) (reconnecting : c.reconnect = true)
    (bounded : 0 ≤ c.limit) (forever : c.timeout < 0) :
    checkRetry c late = ({ c with retries := c.retries + 1 },
      if c.limit ≤ c.retries then some (.transportFailure "Failed to connect within reconnect limit")
      else none) := by
  have noTimeout : c.timeout ≠ 0 := by omega
  by_cases atLimit : c.limit ≤ c.retries
  · simp [checkRetry, reconnecting, bounded, atLimit]
  · simp [checkRetry, reconnecting, bounded, atLimit, expired, noTimeout, forever]

theorem round_goes_on {c c₁ c₂ : ConnectionImpl} {answer : String → Answer} {late : Bool}
    (bounded : 0 ≤ c.limit) (tried : tryConnect c answer = (c₁, .ok false))
    (check : checkRetry c₁ late = (c₂, none)) :
    c₂.reconnect = c.reconnect ∧ c₂.timeout = c.timeout ∧ c₂.limit = c.limit ∧
      c.retries < c.limit ∧ c₂.retries = c.retries + 1 := by
  obtain ⟨reconnect₁, timeout₁, limit₁, -, retries₁, -⟩ := tryConnect_keeps tried
  obtain ⟨reconnect₂, timeout₂, limit₂, -, -⟩ := checkRetry_keeps check
  obtain ⟨below, counted⟩ := checkRetry_retries (limit₁ ▸ bounded) check
  exact ⟨reconnect₂.trans reconnect₁, timeout₂.trans timeout₁, limit₂.trans limit₁,
    limit₁ ▸ retries₁ ▸ below, retries₁ ▸ counted⟩

/-- One round of `connect`: it ends with what `tryConnect` returned or with the exception of its
checks, or it sleeps `i` and goes on from the next interval. -/
theorem connectFrom_cases (i : Int) (c : ConnectionImpl) (round : Round) (rest : List Round) :
    (∃ c₁, tryConnect c round.answer = (c₁, .ok true) ∧
      connectFrom i c (round :: rest) = ⟨{ c₁ with retries := 0 }, .returned, [.ok true], []⟩) ∨
    (∃ c₁ e, tryConnect c round.answer = (c₁, .error e) ∧
      connectFrom i c (round :: rest) = ⟨c₁, .threw e, [.error e], []⟩) ∨
    (∃ c₁ c₂ e, tryConnect c round.answer = (c₁, .ok false) ∧ checkRetry c₁ round.late = (c₂, some e) ∧
      connectFrom i c (round :: rest) = ⟨c₂, .threw e, [.ok false], []⟩) ∨
    (∃ c₁ c₂, tryConnect c round.answer = (c₁, .ok false) ∧ checkRetry c₁ round.late = (c₂, none) ∧
      connectFrom i c (round :: rest) =
        ⟨(connectFrom (min (toInt64 (i * 2)) c₂.maxReconnectInterval) c₂ rest).impl,
          (connectFrom (min (toInt64 (i * 2)) c₂.maxReconnectInterval) c₂ rest).ending,
          .ok false :: (connectFrom (min (toInt64 (i * 2)) c₂.maxReconnectInterval) c₂ rest).tries,
          i :: (connectFrom (min (toInt64 (i * 2)) c₂.maxReconnectInterval) c₂ rest).sleeps⟩) := by
  rcases tried : tryConnect c round.answer with ⟨c₁, e | _ | _⟩
  · exact .inr (.inl ⟨c₁, e, rfl, by simp [connectFrom, tried]⟩)
  · rcases check : checkRetry c₁ round.late with ⟨c₂, _ | e⟩
    · exact .inr (.inr (.inr ⟨c₁, c₂, rfl, check, by simp [connectFrom, tried, check]⟩))
    · exact .inr (.inr (.inl ⟨c₁, c₂, e, rfl, check, by simp [connectFrom, tried, check]⟩))
  · exact .inl ⟨c₁, rfl, by simp [connectFrom, tried]⟩

section Rounds

variable (i : Int) (c : ConnectionImpl) (rounds : List Round)

theorem connectFrom_failed_before_last :
    ∀ t ∈ (connectFrom i c rounds).tries.dropLast, t = .ok false := by
  induction rounds generalizing i c with
  | nil => simp [connectFrom]
  | cons round rest ih =>
    rcases connectFrom_cases i c round rest with ⟨_, -, eq⟩ | ⟨_, _, -, eq⟩ | ⟨_, _, _, -, -, eq⟩ |
      ⟨_, c₂, -, -, eq⟩ <;> rw [eq]
    iterate 3 simp
    have earlier := ih (min (toInt64 (i * 2)) c₂.maxReconnectInterval) c₂
    generalize (connectFrom (min (toInt64 (i * 2)) c₂.maxReconnectInterval) c₂ rest).tries = tries
      at earlier ⊢
    cases tries with
    | nil => simp
    | cons t rest => simpa only [List.dropLast_cons₂, List.forall_mem_cons, true_and] using earlier

theorem connectFrom_returned (returned : (connectFrom i c rounds).ending = .returned) :
    (connectFrom i c rounds).tries.getLast? = some (.ok true) ∧ (connectFrom i c rounds).impl.retries = 0 := by
  induction rounds generalizing i c with
  | nil => simp [connectFrom] at returned
  | cons round rest ih =>
    rcases connectFrom_cases i c round rest with ⟨_, -, eq⟩ | ⟨_, _, -, eq⟩ | ⟨_, _, _, -, -, eq⟩ |
      ⟨_, c₂, -, -, eq⟩ <;> rw [eq] at returned ⊢
    · exact ⟨rfl, rfl⟩
    · cases returned
    · cases returned
    · obtain ⟨last, reset⟩ := ih _ _ returned
      exact ⟨by simp [List.getLast?_cons, last], reset⟩

theorem connectFrom_threw {e : Error} (threw : (connectFrom i c rounds).ending = .threw e) :
    (connectFrom i c rounds).tries.getLast? = some (.error e) ∨
      (connectFrom i c rounds).tries.getLast? = some (.ok false) ∧ ∃ what, e = .transportFailure what := by
  induction rounds generalizing i c with
  | nil => simp [connectFrom] at threw
  | cons round rest ih =>
    rcases connectFrom_cases i c round rest with ⟨_, -, eq⟩ | ⟨_, e', -, eq⟩ | ⟨_, _, e', -, check, eq⟩ |
      ⟨_, c₂, -, -, eq⟩ <;> rw [eq] at threw ⊢
    · cases threw
    · cases threw; exact .inl rfl
    · cases threw; exact .inr ⟨rfl, checkRetry_thrown check⟩
    · rcases ih _ _ threw with last | ⟨last, failure⟩
      · exact .inl (by simp [List.getLast?_cons, last])
      · exact .inr ⟨by simp [List.getLast?_cons, last], failure⟩

theorem connectFrom_attempts_le (bounded : 0 ≤ c.limit) :
    ((connectFrom i c rounds).tries.length : Int) ≤ max (c.limit - c.retries) 0 + 1 := by
  induction rounds generalizing i c with
  | nil => simp only [connectFrom, List.length_nil]; omega
  | cons round rest ih =>
    rcases connectFrom_cases i c round rest with ⟨_, -, eq⟩ | ⟨_, _, -, eq⟩ | ⟨_, _, _, -, -, eq⟩ |
      ⟨c₁, c₂, tried, check, eq⟩ <;> rw [eq]
    iterate 3 (simp only [List.length_singleton]; omega)
    obtain ⟨-, -, limit, below, counted⟩ := round_goes_on bounded tried check
    have next := ih (min (toInt64 (i * 2)) c₂.maxReconnectInterval) c₂ (limit ▸ bounded)
    rw [limit, counted] at next
    simp only [List.length_cons]
    omega

theorem connectFrom_ends (bounded : 0 ≤ c.limit)
    (enough : max (c.limit - c.retries) 0 < rounds.length) : (connectFrom i c rounds).ending ≠ .trying := by
  induction rounds generalizing i c with
  | nil => simp only [List.length_nil] at enough; omega
  | cons round rest ih =>
    rcases connectFrom_cases i c round rest with ⟨_, -, eq⟩ | ⟨_, _, -, eq⟩ | ⟨_, _, _, -, -, eq⟩ |
      ⟨c₁, c₂, tried, check, eq⟩ <;> rw [eq]
    iterate 3 exact nofun
    obtain ⟨-, -, limit, below, counted⟩ := round_goes_on bounded tried check
    refine ih _ c₂ (limit ▸ bounded) ?_
    rw [limit, counted]
    simp only [List.length_cons] at enough
    omega

/-- With reconnect on, a limit and no timeout, a run whose calls of `tryConnect` all return false
makes `max (limit - retries) 0 + 1` of them and throws at the limit, one retry past it. -/
theorem connectFrom_all_fail (reconnecting : c.reconnect = true) (bounded : 0 ≤ c.limit)
    (forever : c.timeout < 0) (failing : ∀ t ∈ (connectFrom i c rounds).tries, t = .ok false)
    (enough : max (c.limit - c.retries) 0 < rounds.length) :
    ((connectFrom i c rounds).tries.length : Int) = max (c.limit - c.retries) 0 + 1 ∧
      (connectFrom i c rounds).impl.retries = max c.retries c.limit + 1 ∧
      (connectFrom i c rounds).ending = .threw (.transportFailure "Failed to connect within reconnect limit") := by
  induction rounds generalizing i c with
  | nil => simp only [List.length_nil] at enough; omega
  | cons round rest ih =>
    rcases connectFrom_cases i c round rest with ⟨_, -, eq⟩ | ⟨_, _, -, eq⟩ |
      ⟨c₁, c₂, e, tried, check, eq⟩ | ⟨c₁, c₂, tried, check, eq⟩ <;> rw [eq] at failing ⊢
    · simp at failing
    · simp at failing
    · obtain ⟨reconnect₁, timeout₁, limit₁, -, retries₁, -⟩ := tryConnect_keeps tried
      rw [checkRetry_of_no_timeout c₁ round.late (reconnect₁ ▸ reconnecting) (limit₁ ▸ bounded)
        (timeout₁ ▸ forever)] at check
      split_ifs at check with atLimit <;> cases check
      rw [limit₁, retries₁] at atLimit ⊢
      refine ⟨?_, ?_, rfl⟩ <;> simp only [List.length_singleton] <;> omega
    · obtain ⟨reconnect, timeout, limit, below, counted⟩ := round_goes_on bounded tried check
      have fewer : max (c.limit - c.retries) 0 = max (c.limit - (c.retries + 1)) 0 + 1 := by omega
      have later : max (c.retries + 1) c.limit = max c.retries c.limit := by omega
      simp only [List.length_cons, Nat.cast_add, Nat.cast_one, fewer] at enough ⊢
      have next := ih _ c₂ (reconnect ▸ reconnecting) (limit ▸ bounded) (timeout ▸ forever)
        (fun t member => failing t (List.mem_cons_of_mem _ member))
        (by rw [limit, counted]; omega)
      rw [limit, counted, later] at next
      obtain ⟨length, retries, ending⟩ := next
      exact ⟨by rw [length], retries, ending⟩

theorem connectFrom_sleeps :
    (connectFrom i c rounds).sleeps =
      (List.range (connectFrom i c rounds).sleeps.length).map (interval i c.maxReconnectInterval) := by
  induction rounds generalizing i c with
  | nil => rfl
  | cons round rest ih =>
    rcases connectFrom_cases i c round rest with ⟨_, -, eq⟩ | ⟨_, _, -, eq⟩ | ⟨_, _, _, -, -, eq⟩ |
      ⟨c₁, c₂, tried, check, eq⟩ <;> rw [eq]
    iterate 3 rfl
    obtain ⟨-, -, -, max₁, -, -⟩ := tryConnect_keeps tried
    obtain ⟨-, -, -, max₂, -⟩ := checkRetry_keeps check
    have law := ih (min (toInt64 (i * 2)) c₂.maxReconnectInterval) c₂
    rw [max₂, max₁] at law ⊢
    simp only [List.length_cons, List.range_succ_eq_map, List.map_cons, List.map_map]
    exact congrArg (List.cons i) law

theorem connectFrom_urls : Extends c.urls (connectFrom i c rounds).impl.urls := by
  induction rounds generalizing i c with
  | nil => exact .refl _
  | cons round rest ih =>
    rcases connectFrom_cases i c round rest with ⟨c₁, tried, eq⟩ | ⟨c₁, _, tried, eq⟩ |
      ⟨c₁, c₂, _, tried, check, eq⟩ | ⟨c₁, c₂, tried, check, eq⟩ <;> rw [eq]
    · exact (tryConnect_keeps tried).2.2.2.2.2
    · exact (tryConnect_keeps tried).2.2.2.2.2
    · exact (checkRetry_keeps check).2.2.2.2 ▸ (tryConnect_keeps tried).2.2.2.2.2
    · exact ((checkRetry_keeps check).2.2.2.2 ▸ (tryConnect_keeps tried).2.2.2.2.2).trans (ih _ _)

/-- `connect` throws the timeout failure only from the checks of the round of its last call of
`tryConnect`, once `expired` held there. -/
theorem connectFrom_timed_out
    (threw : (connectFrom i c rounds).ending =
      .threw (.transportFailure "Failed to connect within reconnect timeout")) :
    ∃ round, (rounds.take (connectFrom i c rounds).tries.length).getLast? = some round ∧
      expired c.timeout round.late = true := by
  induction rounds generalizing i c with
  | nil => simp [connectFrom] at threw
  | cons round rest ih =>
    rcases connectFrom_cases i c round rest with ⟨_, -, eq⟩ | ⟨_, _, tried, eq⟩ |
      ⟨_, _, _, tried, check, eq⟩ | ⟨_, c₂, tried, check, eq⟩ <;> rw [eq] at threw ⊢
    · cases threw
    · cases threw
      exact absurd rfl (tryUrls_error round.answer tried _)
    · cases threw
      obtain ⟨-, timeout, -⟩ := tryConnect_keeps tried
      exact ⟨round, rfl, timeout ▸ checkRetry_timed_out check⟩
    · obtain ⟨last, found, expired⟩ := ih _ c₂ threw
      obtain ⟨-, timeout₁, -⟩ := tryConnect_keeps tried
      obtain ⟨-, timeout₂, -⟩ := checkRetry_keeps check
      refine ⟨last, ?_, by rwa [timeout₂, timeout₁] at expired⟩
      rw [List.length_cons, List.take_succ_cons]
      simp [List.getLast?_cons, found]

end Rounds

theorem toInt64_of_lt {x : Int} (nonneg : 0 ≤ x) (lt : x < 2 ^ 63) : toInt64 x = x := by
  have : ((2 ^ 64 : Nat) : Int) = 2 * 2 ^ 63 := by norm_num
  rw [toInt64, Int.bmod_def, this, Int.emod_eq_of_lt nonneg (by omega), if_pos (by omega)]

theorem expiredAfter_of_fits {timeout used : Int} (positive : 0 < timeout)
    (fits : timeout * timeSec < 2 ^ 63) :
    expiredAfter timeout used = true ↔ timeout * timeSec < used := by
  have nonneg : 0 ≤ timeout * timeSec := by simp only [timeSec]; omega
  rw [expiredAfter, expired_eq_true, allowed, toInt64_of_lt nonneg fits]
  simp only [decide_eq_true_eq]
  omega

/-- Once `timeout * TIME_SEC` passes `2 ^ 63`, some elapsed `Duration` no longer than the timeout
is already later than `allowed`. -/
theorem allowed_wraps {timeout : Int} (wraps : 2 ^ 63 ≤ timeout * timeSec) :
    ∃ used, 0 ≤ used ∧ used < 2 ^ 63 ∧ allowed timeout < used ∧ used ≤ timeout * timeSec := by
  have : ((2 ^ 64 : Nat) : Int) = 18446744073709551616 := by norm_num
  simp only [allowed, toInt64, Int.bmod_def, this, timeSec] at wraps ⊢
  split
  · exact ⟨timeout * (1000 * 1000 * 1000) % 18446744073709551616 + 1,
      by omega, by omega, by omega, by omega⟩
  · exact ⟨0, by omega, by omega, by omega, by omega⟩

/-- For a positive timeout, `expired` tells whether more than `timeout` seconds have passed, for
every elapsed `Duration`, exactly when `timeout * TIME_SEC` does not wrap. -/
theorem expired_exactly_without_wrap (timeout : Int) (positive : 0 < timeout) :
    (∀ used, 0 ≤ used → used < 2 ^ 63 →
      (expiredAfter timeout used = true ↔ timeout * timeSec < used)) ↔
      timeout * timeSec < 2 ^ 63 := by
  constructor
  · intro exact
    by_contra wraps
    obtain ⟨used, nonneg, small, late, within⟩ := allowed_wraps (not_lt.1 wraps)
    have expires : expiredAfter timeout used = true :=
      expired_eq_true.2 (.inr ⟨positive, decide_eq_true late⟩)
    exact absurd ((exact used nonneg small).1 expires) (not_lt.2 within)
  · exact fun fits used _ _ => expiredAfter_of_fits positive fits

theorem expired_exactly_without_wrap_seconds :
    (0 : Int) < 1 ∧ (∀ used, 0 ≤ used → used < 2 ^ 63 →
      (expiredAfter 1 used = true ↔ 1 * timeSec < used)) ∧
    (0 : Int) < 9223372037 ∧ ¬ ∀ used, 0 ≤ used → used < 2 ^ 63 →
      (expiredAfter 9223372037 used = true ↔ 9223372037 * timeSec < used) :=
  ⟨by decide, (expired_exactly_without_wrap 1 (by decide)).2 (by decide), by decide,
    mt (expired_exactly_without_wrap 9223372037 (by decide)).1 (by decide)⟩

theorem interval_succ_of_small {i M : Int} (pos : 1 ≤ i) (small : i < 2 ^ 62) (posMax : 1 ≤ M)
    (smallMax : M < 2 ^ 62) (k : Nat) : interval i M (k + 1) = min (i * 2 ^ (k + 1)) M := by
  induction k generalizing i with
  | zero => simp only [interval, zero_add, pow_one, @toInt64_of_lt (i * 2) (by omega) (by omega)]
  | succ k ih =>
    have grows : (0 : Int) < 2 ^ (k + 1) := by positivity
    rw [interval, @toInt64_of_lt (i * 2) (by omega) (by omega),
      ih (le_min (by omega) posMax) (lt_of_le_of_lt (min_le_right _ _) smallMax),
      min_mul_of_nonneg _ _ grows.le, min_assoc,
      min_eq_right (le_mul_of_one_le_right (by omega) (by omega)), pow_succ _ (k + 1)]
    congr 1
    ring

theorem interval_between {i M : Int} (pos : 1 ≤ i) (small : i < 2 ^ 62) (posMax : 1 ≤ M)
    (smallMax : M < 2 ^ 62) (k : Nat) : min i M ≤ interval i M k ∧ interval i M k ≤ max i M := by
  cases k with
  | zero => exact ⟨min_le_left _ _, le_max_left _ _⟩
  | succ k =>
    have grows : (0 : Int) < 2 ^ (k + 1) := by positivity
    rw [interval_succ_of_small pos small posMax smallMax k]
    exact ⟨min_le_min_right M (le_mul_of_one_le_right (by omega) (by omega)),
      (min_le_right _ _).trans (le_max_right _ _)⟩

/-- Without wrapping the intervals slept are the minimum, then `min (i * 2 ^ k) M`, each between
the two bounds. -/
theorem intervals_without_wrap {i M : Int} (pos : 1 ≤ i) (small : i < 2 ^ 62) (posMax : 1 ≤ M)
    (smallMax : M < 2 ^ 62) :
    interval i M 0 = i ∧ (∀ k, interval i M (k + 1) = min (i * 2 ^ (k + 1)) M) ∧
      ∀ k, min i M ≤ interval i M k ∧ interval i M k ≤ max i M :=
  ⟨rfl, interval_succ_of_small pos small posMax smallMax, interval_between pos small posMax smallMax⟩

theorem intervals_without_wrap_applies :
    (1 : Int) ≤ 1 ∧ (1 : Int) < 2 ^ 62 ∧ (1 : Int) ≤ 8 ∧ (8 : Int) < 2 ^ 62 ∧
      interval 1 8 2 = min (1 * 2 ^ 2) 8 :=
  ⟨by decide, by decide, by decide, by decide,
    (intervals_without_wrap (by decide) (by decide) (by decide) (by decide)).2.1 1⟩

/-- Every run of `connect` sleeps the intervals from `minReconnectInterval` in order. -/
theorem connect_sleeps_intervals (c : ConnectionImpl) (rounds : List Round) :
    (connect c rounds).sleeps = (List.range (connect c rounds).sleeps.length).map
      (interval c.minReconnectInterval c.maxReconnectInterval) :=
  connectFrom_sleeps _ c rounds

/-- `connect` keeps the url list in front and adds no duplicate to it. -/
theorem connect_keeps_urls (c : ConnectionImpl) (rounds : List Round) :
    c.urls <+: (connect c rounds).impl.urls ∧ (c.urls.Nodup → (connect c rounds).impl.urls.Nodup) :=
  connectFrom_urls _ c rounds

/-- The url connects, and the broker advertises one more url and the one already known. -/
def knownHostsRound : Round := ⟨fun _ => .parsed "" "" (.connected ["amqp:tcp:b", "amqp:tcp:a"] .done), false⟩

theorem connect_keeps_urls_merged :
    sampleConnection.urls.Nodup ∧
      (connect sampleConnection [knownHostsRound]).impl.urls = ["amqp:tcp:a", "amqp:tcp:b"] ∧
      (connect sampleConnection [knownHostsRound]).impl.urls.Nodup := by
  have nodup : sampleConnection.urls.Nodup := by decide
  exact ⟨nodup, rfl, (connect_keeps_urls sampleConnection [knownHostsRound]).2 nodup⟩

/-- With a reconnect limit `L ≥ 0` and `r` retries on entry, `connect` calls `tryConnect` at most
`max (L - r) 0 + 1` times and ends once the rounds allow that many; every call but the last
returned false; it returns only right after a call that returned true, with the retry count
reset; otherwise it throws what that call threw or a `TransportFailure` of its own; and with
reconnect on, no timeout and every call failing, it makes exactly that many calls and throws at
the limit, leaving `max r L + 1` retries. -/
theorem connect_within_limit (c : ConnectionImpl) (rounds : List Round) (bounded : 0 ≤ c.limit) :
    ((connect c rounds).tries.length : Int) ≤ max (c.limit - c.retries) 0 + 1 ∧
    (max (c.limit - c.retries) 0 < rounds.length → (connect c rounds).ending ≠ .trying) ∧
    (∀ t ∈ (connect c rounds).tries.dropLast, t = .ok false) ∧
    ((connect c rounds).ending = .returned →
      (connect c rounds).tries.getLast? = some (.ok true) ∧ (connect c rounds).impl.retries = 0) ∧
    (∀ e, (connect c rounds).ending = .threw e → (connect c rounds).tries.getLast? = some (.error e) ∨
      (connect c rounds).tries.getLast? = some (.ok false) ∧ ∃ what, e = .transportFailure what) ∧
    (c.reconnect = true → c.timeout < 0 → (∀ t ∈ (connect c rounds).tries, t = .ok false) →
      max (c.limit - c.retries) 0 < rounds.length →
      ((connect c rounds).tries.length : Int) = max (c.limit - c.retries) 0 + 1 ∧
      (connect c rounds).impl.retries = max c.retries c.limit + 1 ∧
      (connect c rounds).ending = .threw (.transportFailure "Failed to connect within reconnect limit")) :=
  ⟨connectFrom_attempts_le _ c rounds bounded, connectFrom_ends _ c rounds bounded,
    connectFrom_failed_before_last _ c rounds, connectFrom_returned _ c rounds,
    fun _ threw => connectFrom_threw _ c rounds threw,
    fun reconnecting forever failing enough =>
      connectFrom_all_fail _ c rounds reconnecting bounded forever failing enough⟩

def unreachable : Round := ⟨fun _ => .parsed "" "" .transportFailure, false⟩

def limitedConnection : ConnectionImpl := { sampleConnection with reconnect := true, limit := 2 }

theorem connect_within_limit_applies :
    (0 : Int) ≤ limitedConnection.limit ∧ limitedConnection.reconnect = true ∧
      limitedConnection.timeout < 0 ∧
      (connect limitedConnection (List.replicate 4 unreachable)).tries = [.ok false, .ok false, .ok false] ∧
      (connect limitedConnection (List.replicate 4 unreachable)).impl.retries = 3 ∧
      (connect limitedConnection (List.replicate 4 unreachable)).ending =
        .threw (.transportFailure "Failed to connect within reconnect limit") := by
  have bounded : (0 : Int) ≤ limitedConnection.limit := by decide
  have tries : (connect limitedConnection (List.replicate 4 unreachable)).tries =
      [.ok false, .ok false, .ok false] := rfl
  have failing : ∀ t ∈ (connect limitedConnection (List.replicate 4 unreachable)).tries, t = .ok false := by
    rw [tries]; simp
  obtain ⟨-, retries, ending⟩ := (connect_within_limit limitedConnection (List.replicate 4 unreachable)
    bounded).2.2.2.2.2 rfl (by decide) failing (by decide)
  exact ⟨bounded, rfl, by decide, tries, by rw [retries]; decide, ending⟩

/-- Reconnect on, limit 0, and resource limits surfaced to the caller. -/
def strictConnection : ConnectionImpl :=
  { sampleConnection with reconnect := true, limit := 0, reconnectOnLimitExceeded := false }

/-- The url opens, and re-creating the sessions hits a resource limit. -/
def limitRound : Round :=
  ⟨fun _ => .parsed "" "" (.connected [] (.limitExceeded "resource limit")), false⟩

theorem connect_throws_capacity_exceeded :
    (connect strictConnection [limitRound]).ending = .threw (.targetCapacityExceeded "resource limit") := by
  decide

def overflowConnection : ConnectionImpl :=
  { sampleConnection with
    reconnect := true, minReconnectInterval := 2 ^ 62, maxReconnectInterval := 2 ^ 62 }

theorem connect_interval_wraps :
    (connect overflowConnection [unreachable, unreachable, unreachable]).sleeps = [2 ^ 62, -2 ^ 63, 0] := by
  decide

/-- With a positive timeout whose nanoseconds fit in `int64_t`, `connect` throws the timeout
failure only when the clock, read at the check of its last round, has passed the timeout. -/
theorem connect_times_out_only_late (c : ConnectionImpl) (timed : List ((String → Answer) × Int))
    (positive : 0 < c.timeout) (fits : c.timeout * timeSec < 2 ^ 63)
    (threw : (connect c (clocked c.timeout timed)).ending =
      .threw (.transportFailure "Failed to connect within reconnect timeout")) :
    ∃ last, (timed.take (connect c (clocked c.timeout timed)).tries.length).getLast? = some last ∧
      c.timeout * timeSec < last.2 := by
  obtain ⟨round, found, expired⟩ := connectFrom_timed_out _ c _ threw
  rw [clocked, ← List.map_take, List.getLast?_map, Option.map_eq_some'] at found
  obtain ⟨last, found, rfl⟩ := found
  exact ⟨last, found, (expiredAfter_of_fits positive fits).1 expired⟩

def secondTimeoutConnection : ConnectionImpl :=
  { sampleConnection with reconnect := true, timeout := 1 }

theorem connect_times_out_only_late_second :
    0 < secondTimeoutConnection.timeout ∧ secondTimeoutConnection.timeout * timeSec < 2 ^ 63 ∧
      (connect secondTimeoutConnection
        (clocked secondTimeoutConnection.timeout [(unreachable.answer, 2 * timeSec)])).ending =
        .threw (.transportFailure "Failed to connect within reconnect timeout") ∧
      ∃ last, ([(unreachable.answer, 2 * timeSec)].take (connect secondTimeoutConnection
        (clocked secondTimeoutConnection.timeout [(unreachable.answer, 2 * timeSec)])).tries.length).getLast? =
          some last ∧ secondTimeoutConnection.timeout * timeSec < last.2 :=
  ⟨by decide, by decide, by decide,
    connect_times_out_only_late _ _ (by decide) (by decide) (by decide)⟩

/-- Reconnect on, no limit, and a timeout of `9223372037` seconds, the least whose nanoseconds
reach `2 ^ 63`. -/
def wrappedTimeoutConnection : ConnectionImpl :=
  { sampleConnection with reconnect := true, timeout := 9223372037 }

theorem connect_times_out_at_once :
    (connect wrappedTimeoutConnection
      (clocked wrappedTimeoutConnection.timeout [(unreachable.answer, 0)])).ending =
      .threw (.transportFailure "Failed to connect within reconnect timeout") ∧
    wrappedTimeoutConnection.reconnect = true ∧ wrappedTimeoutConnection.limit < 0 ∧
    ¬ wrappedTimeoutConnection.timeout * timeSec < 0 := by
  decide

end Qpid.Client.Connect
