/-
# Guessing passwords

After five failures in a row the service compares no password for a while. A grant
asks the throttle when it comes in and compares when it has read the user, so one that
comes in before a failure may compare after it. In a run where no other grant is
between the two when the fifth or a later failure is recorded, the wait is kept.
-/

import Zorkbot.Admin.AuthSteps

namespace Zorkbot.Admin

open Zorkbot.Bot (Str)
open Transition

/-- The request goes on with comparing a password. -/
def Wait.comparing : Wait → Bool
  | .passwordUser .. => true
  | _ => false

/-- A password grant that has passed the throttle and has not compared yet. -/
def Point.comparing : Point → Bool
  | .waiting _ wait | .replied _ wait => wait.comparing
  | .ended _ => false

namespace AuthService

variable {setup : Setup} {s t : AuthService}

/-- How many passwords in a row were wrong, up to the last one compared. -/
def failuresInARow (s : AuthService) : Nat :=
  (s.attempts.takeWhile fun attempt => !attempt.accepted).length

/-- When the last password was compared. -/
def lastAttempt (s : AuthService) : ℚ := s.attempts.head?.elim 0 Attempt.at_

/-- A failure that locks the service is about to be recorded. -/
def locks (setup : Setup) (s : AuthService) : Act → Bool
  | .resume n _ _ =>
      match s.call n with
      | some (_, .replied (.user user) (.passwordUser username password _)) =>
          !(decide (username = user.username) && passwordMatches setup user password) &&
            decide (throttleThreshold ≤ s.failuresInARow + 1)
      | _ => false
  | _ => false

/-- Another grant has passed the throttle, or the sum of the time and the wait is
rounded down. -/
def hurried (s : AuthService) : Act → Bool
  | .resume n clock _ =>
      let until_ := clock.monotonic + backoff (s.failuresInARow + 1)
      ((s.calls.eraseIdx n).any fun call => call.2.comparing) ||
        decide (Binary64.nearest until_ < until_)
  | _ => false

/-- A failure that locks the service is recorded too late, or for too short. -/
def hasty (setup : Setup) (s : AuthService) (a : Act) : Bool := s.locks setup a && s.hurried a

/-- The service is locked from its last failure on, and who may compare came in after
that. -/
structure Locked (s : AuthService) : Prop where
  until_ : s.lastAttempt + backoff s.failuresInARow ≤ s.throttle.global.lockedUntil
  later : ∀ {n request point}, s.call n = some (request, point) → point.comparing = true →
    s.throttle.global.lockedUntil ≤ s.now

theorem now_le {a : Act} (taken : s.step setup a = some t) : s.now ≤ t.now := by
  cases auth_steps taken with
  | calls later | verifies later => exact later
  | executes => exact le_refl _
  | resumes later _ resumed => exact later.trans resumed.now.ge

/-- Who passes the throttle comes in when it is not locked. -/
theorem unlocked_of_enter {clock : Clock} {request : Request}
    (comparing : (s.enter clock request).comparing = true) :
    s.throttle.global.lockedUntil ≤ clock.monotonic := by
  cases request with
  | passwordGrant username password ip =>
      simp only [enter] at comparing
      split at comparing
      · cases comparing
      · next passed =>
          simp only [LoginThrottle.refuses, Bucket.locked, Bool.or_eq_true, decide_eq_true_eq,
            lt_max_iff, lt_irrefl, false_or, Binary64.nearest_pos_iff, sub_pos] at passed
          exact not_lt.mp fun locked => passed (.inr locked)
  | _ => cases comparing

theorem comparing_of_resumed {clock : Clock} {fresh : Nat × Nat} {wait : Wait} {reply : Reply}
    {point : Point} (resumed : Resumed setup clock fresh s wait reply point t) :
    point.comparing = false := by
  cases resumed <;> rfl

/-- A step that leaves the throttle alone. -/
theorem Locked.carry (locked : s.Locked) {a : Act} (taken : s.step setup a = some t)
    (throttle : t.throttle = s.throttle) (attempts : t.attempts = s.attempts) : t.Locked := by
  constructor
  · rw [throttle, lastAttempt, failuresInARow, attempts]
    exact locked.until_
  · intro n request point there comparing
    rw [throttle]
    cases moved taken there with
    | rests before => exact (locked.later before comparing).trans (now_le taken)
    | @enters clock act =>
        subst act
        have now : t.now = clock.monotonic := by
          cases auth_steps taken
          rfl
        exact now ▸ unlocked_of_enter comparing
    | executes _ before => exact (locked.later before comparing).trans (now_le taken)
    | resumes _ _ resumed =>
        rw [comparing_of_resumed resumed] at comparing
        cases comparing

/-- The bucket of all addresses counts the failures in a row. -/
theorem counted_step (counted : s.throttle.global.failures = s.failuresInARow) {a : Act}
    (taken : s.step setup a = some t) : t.throttle.global.failures = t.failuresInARow := by
  cases auth_steps taken with
  | calls | executes | verifies => exact counted
  | @resumes n clock fresh request reply wait point u later there resumed =>
      change u.throttle.global.failures = (u.attempts.takeWhile fun a => !a.accepted).length
      cases resumed with
      | accepts _ _ _ throttle attempts =>
          rw [throttle, attempts]
          rfl
      | refuses wrong => exact congrArg (· + 1) counted
      | exchanges _ throttle attempts =>
          rw [throttle, attempts]
          exact counted
      | _ => exact counted

theorem counted {guard : AuthService → Act → Prop}
    (reached : (authService setup).Reachable guard s) :
    s.throttle.global.failures = s.failuresInARow := by
  apply reached.invariant (motive := fun s => s.throttle.global.failures = s.failuresInARow)
  · rfl
  · intro s a t _ counted _ taken
    exact counted_step counted taken

/-- When a failure locks the service, nobody else is about to compare, and the lock lasts
as long as it should. -/
theorem patient_spec {n : Nat} {clock : Clock} {fresh : Nat × Nat} {request : Request}
    {username password ip : Str} {user : User}
    (patient : s.hasty setup (.resume n clock fresh) = false)
    (there : s.call n = some (request, .replied (.user user) (.passwordUser username password ip)))
    (wrong : ¬ (username = user.username ∧ passwordMatches setup user password = true))
    (failures : throttleThreshold ≤ s.failuresInARow + 1) :
    (∀ {m other point}, m ≠ n → s.call m = some (other, point) → point.comparing = false) ∧
      clock.monotonic + backoff (s.failuresInARow + 1) ≤
        Binary64.nearest (clock.monotonic + backoff (s.failuresInARow + 1)) := by
  have fails : (!(decide (username = user.username) &&
      passwordMatches setup user password)) = true := by
    simpa [imp_iff_not_or] using wrong
  have locks : s.locks setup (.resume n clock fresh) = true := by
    simp only [AuthService.locks, there, fails, failures, decide_true, Bool.true_and]
  rw [hasty, locks, Bool.true_and, hurried, Bool.or_eq_false_iff] at patient
  constructor
  · intro m other point different there'
    have listed : (other, point) ∈ s.calls.eraseIdx n :=
      List.mem_eraseIdx_iff_getElem?.mpr ⟨m, different, there'⟩
    simpa using List.any_eq_false.mp patient.1 _ listed
  · exact not_lt.mp (of_decide_eq_false patient.2)

theorem locked_step (counts : s.throttle.global.failures = s.failuresInARow)
    (locked : throttleThreshold ≤ s.failuresInARow → s.Locked) {a : Act}
    (patient : s.hasty setup a = false) (taken : s.step setup a = some t)
    (failures : throttleThreshold ≤ t.failuresInARow) : t.Locked := by
  cases auth_steps taken with
  | calls | executes | verifies => exact (locked failures).carry taken rfl rfl
  | @resumes n clock fresh request reply wait point u later there resumed =>
      cases resumed with
      | accepts _ _ _ throttle attempts =>
          -- a success resets the counter
          change throttleThreshold ≤ (u.attempts.takeWhile fun a => !a.accepted).length at failures
          rw [attempts] at failures
          cases failures
      | @refuses username password ip user wrong =>
          change throttleThreshold ≤ s.failuresInARow + 1 at failures
          obtain ⟨alone, lasts⟩ := patient_spec patient there wrong failures
          constructor
          · change clock.monotonic + backoff (s.failuresInARow + 1) ≤ (if _ then _ else _)
            rw [counts, if_pos failures]
            exact lasts
          · intro m other point there' comparing
            rw [call_moveTo] at there'
            split at there'
            · obtain ⟨before, -, same⟩ := Option.map_eq_some_iff.mp there'
              have ended := congrArg Prod.snd same
              subst ended
              cases comparing
            · next different =>
                rw [alone (Ne.symm different) there'] at comparing
                cases comparing
      | exchanges hands throttle attempts =>
          change throttleThreshold ≤ (u.attempts.takeWhile fun a => !a.accepted).length at failures
          rw [attempts] at failures
          exact (locked failures).carry taken throttle attempts
      | _ => exact (locked failures).carry taken rfl rfl

theorem locked
    (reached : (authService setup).Reachable (fun s a => s.hasty setup a = false) s)
    (failures : throttleThreshold ≤ s.failuresInARow) : s.Locked := by
  revert failures
  apply reached.invariant (motive := fun s => throttleThreshold ≤ s.failuresInARow → s.Locked)
  · intro failures
    cases failures
  · intro s a t reached locked patient taken failures
    exact locked_step (counted reached) locked patient taken failures

/-- In a run where no failure that locks the service is recorded past another grant that
has come through the throttle, nor at a time whose sum with the wait is rounded down, a
password is compared after `k` failures in a row (`k` at least 5) only when
`min(60 * 2^(k-5), 900)` seconds have passed since the last. -/
theorem guessing_bounded
    (reached : (authService setup).Reachable (fun s a => s.hasty setup a = false) s) {n : Nat}
    {clock : Clock} {fresh : Nat × Nat} {request : Request} {user : User}
    {username password ip : Str}
    (compares :
      s.call n = some (request, .replied (.user user) (.passwordUser username password ip)))
    (taken : s.step setup (.resume n clock fresh) = some t)
    (failures : 5 ≤ s.failuresInARow) :
    s.lastAttempt + min (60 * 2 ^ (s.failuresInARow - 5)) 900 ≤ clock.monotonic := by
  have locked := locked reached failures
  have later : s.now ≤ clock.monotonic := by
    cases auth_steps taken with
    | resumes later => exact later
  calc
    _ ≤ s.throttle.global.lockedUntil := locked.until_
    _ ≤ s.now := locked.later compares rfl
    _ ≤ clock.monotonic := later

/-- A login fails, in one piece. -/
def fails (n : Nat) (seconds : ℚ) : List Act :=
  asks (login "guess".toList) n seconds ++ [Act.resume n (.both seconds) (0, 0)]

/-- Five logins fail, and another comes in a minute later. -/
theorem guessing_bounded_sixth :
    ∃ s : AuthService, s.failuresInARow = 5 ∧
      s.lastAttempt + min (60 * 2 ^ (s.failuresInARow - 5)) 900 ≤ 64 := by
  obtain ⟨s, reached, failures, compares, goes⟩ := System.reaches (authService plain)
    (fun s a => s.hasty plain a = false)
    (fun s => s.failuresInARow = 5 ∧
      s.call 5 = some (login defaultPassword, .replied (.user (init plain).store.user)
        (.passwordUser "admin".toList defaultPassword "10.0.0.1".toList)) ∧
      (s.step plain (.resume 5 (.both 64) (7, 8))).isSome = true)
    (fails 0 0 ++ fails 1 1 ++ fails 2 2 ++ fails 3 3 ++ fails 4 4 ++
      asks (login defaultPassword) 5 64)
    (fun _ _ _ => trivial) (by decide +kernel)
  obtain ⟨t, taken⟩ := Option.isSome_iff_exists.mp goes
  refine ⟨s, failures, ?_⟩
  exact guessing_bounded (reached.mono fun _ _ both => both.1) compares taken failures.ge

/-- Six logins come in at once, and the sixth is compared when five have failed. -/
theorem sixth_guess_compared :
    ∃ s t, (authService plain).Reachable (fun _ _ => True) s ∧
      s.failuresInARow = 5 ∧ s.lastAttempt = 0 ∧
      (∃ user, s.call 5 = some (login "guess".toList, .replied (.user user)
        (.passwordUser "admin".toList "guess".toList "10.0.0.1".toList))) ∧
      s.step plain (.resume 5 (.both 0) (0, 0)) = some t ∧ t.failuresInARow = 6 := by
  obtain ⟨s, reached, failures, last, compares, goes⟩ := System.reaches (authService plain)
    (fun _ _ => True)
    (fun s => s.failuresInARow = 5 ∧ s.lastAttempt = 0 ∧
      s.call 5 = some (login "guess".toList, .replied (.user (init plain).store.user)
        (.passwordUser "admin".toList "guess".toList "10.0.0.1".toList)) ∧
      (s.step plain (.resume 5 (.both 0) (0, 0))).any fun t => t.failuresInARow = 6)
    ((List.range 6).flatMap (fun n => asks (login "guess".toList) n 0) ++
      (List.range 5).map fun n => .resume n (.both 0) (0, 0))
    (fun _ _ _ => trivial) (by decide +kernel)
  rw [Option.any_eq_true] at goes
  obtain ⟨t, taken, sixth⟩ := goes
  exact ⟨s, t, reached.mono fun _ _ _ => trivial, failures, last, ⟨_, compares⟩, taken,
    of_decide_eq_true sixth⟩

end AuthService

end Zorkbot.Admin
