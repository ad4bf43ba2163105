/-
# A password change cuts off old credentials

A token carries the epoch of the password that it was obtained with, itself or through
the tokens that were exchanged for one another. A password change replaces the password
and revokes all tokens in steps of their own, and a grant that has read the old user or
an old token before the revocation issues its tokens after it. In a run where no such
grant is under way when a change revokes, no live token is older than a change that has
returned.
-/

import Zorkbot.Admin.AuthSteps

namespace Zorkbot.Admin

open Zorkbot.Bot (Str)
open Transition

/-! ## Older credentials -/

def Statement.carries (epoch : Nat) : Statement → Bool
  | .insertRefreshToken row => decide (row.epoch < epoch)
  | _ => false

def Reply.carries (setup : Setup) (epoch : Nat) : Wait → Reply → Bool
  | .passwordUser username password _, .user owner =>
      decide (username = owner.username) && AuthService.passwordMatches setup owner password &&
        decide (owner.epoch < epoch)
  | .refreshRow _, .refreshToken (some row) =>
      decide (row.revokedAt = none) && decide (row.epoch < epoch)
  | _, _ => false

def Wait.carries (epoch : Nat) : Wait → Bool
  | .refreshUser _ _ old => decide (old < epoch)
  | _ => false

/-- A grant holds credentials from before an epoch, and a refresh token is still to be
stored for it: it has read the user, whose password it was given, or a token that was not
revoked. -/
def Point.carries (setup : Setup) (epoch : Nat) : Point → Bool
  | .waiting statement wait => statement.carries epoch || wait.carries epoch
  | .replied reply wait => wait.carries epoch || reply.carries setup epoch wait
  | .ended _ => false

/-- The password change that a point belongs to has replaced the password. -/
def Point.replaced : Point → Option Nat
  | .replied (.changed epoch) _ | .waiting _ (.changeRevoked epoch)
  | .replied _ (.changeRevoked epoch) | .ended (.changed epoch) => some epoch
  | _ => none

/-- It has revoked the refresh tokens. -/
def Point.revoked : Point → Option Nat
  | .replied .done (.changeRevoked epoch) | .ended (.changed epoch) => some epoch
  | _ => none

namespace AuthService

variable {setup : Setup} {s t : AuthService}

/-- A password change is about to revoke the refresh tokens while a grant holds older
credentials. -/
def straddled (setup : Setup) (s : AuthService) : Act → Bool
  | .execute n =>
      match s.call n with
      | some (_, .waiting (.revokeAll _) (.changeRevoked epoch)) =>
          s.calls.any fun call => call.2.carries setup epoch
      | _ => false
  | _ => false

/-- No refresh token is from before an epoch, and none will be. -/
structure Since (setup : Setup) (epoch : Nat) (s : AuthService) : Prop where
  refreshTokens : ∀ row ∈ s.store.refreshTokens, row.revokedAt = none → epoch ≤ row.epoch
  calls : ∀ {n request point}, s.call n = some (request, point) → point.carries setup epoch = false
  user : epoch ≤ s.store.user.epoch

theorem epoch_le_execute (store : Store) (statement : Statement) :
    store.user.epoch ≤ (store.execute statement).2.user.epoch := by
  cases statement with
  | insertRefreshToken =>
      simp only [Store.execute]
      split <;> exact Nat.le_refl _
  | updatePassword => exact Nat.le_succ _
  | _ => exact Nat.le_refl _

theorem epoch_le {a : Act} (taken : s.step setup a = some t) :
    s.store.user.epoch ≤ t.store.user.epoch := by
  rcases store_of_step taken with same | ⟨-, -, statement, -, -, -, same⟩
  · rw [same]
  · exact same ▸ epoch_le_execute s.store statement

theorem carries_enter (epoch : Nat) (clock : Clock) (request : Request) :
    (s.enter clock request).carries setup epoch = false := by
  cases request with
  | passwordGrant =>
      simp only [enter]
      split <;> rfl
  | _ => rfl

theorem refreshTokens_execute {epoch : Nat} {store : Store} {statement : Statement}
    (since : ∀ row ∈ store.refreshTokens, row.revokedAt = none → epoch ≤ row.epoch)
    (new : statement.carries epoch = false) :
    ∀ row ∈ (store.execute statement).2.refreshTokens,
      row.revokedAt = none → epoch ≤ row.epoch := by
  have rewrites := store.rewrites statement
  generalize (store.execute statement).2.refreshTokens = rows at rewrites
  cases rewrites with
  | same => exact since
  | inserts =>
      intro row listed live
      rcases List.mem_append.mp listed with before | now
      · exact since row before live
      · rw [List.mem_singleton.mp now]
        simpa [Statement.carries] using new
  | revokes _ _ kept =>
      intro row listed live
      obtain ⟨before, there, rfl⟩ := List.mem_map.mp listed
      have same := kept before live
      rw [same] at live ⊢
      exact since before there live

theorem Since.executed {epoch : Nat} {request : Request} {statement : Statement} {wait : Wait}
    (since : s.Since setup epoch) (asks : Asks request statement wait)
    (before : (Point.waiting statement wait).carries setup epoch = false) :
    (Point.replied (s.store.execute statement).1 wait).carries setup epoch = false := by
  cases asks with
  | passwordUser => simp [Point.carries, Wait.carries, Reply.carries, Store.execute, since.user]
  | @refreshRow hash =>
      simp only [Point.carries, Wait.carries, Store.execute, Bool.false_or]
      cases found : s.store.refreshTokens.find? fun row => row.tokenHash = hash with
      | none => rfl
      | some row =>
          have young := since.refreshTokens row (List.mem_of_find?_eq_some found)
          simpa [Reply.carries] using young
  | refreshUser => simpa [Point.carries, Statement.carries, Reply.carries] using before
  | _ => rfl

theorem Since.resumed {epoch : Nat} {clock : Clock} {fresh : Nat × Nat} {wait : Wait}
    {reply : Reply} {point : Point} (resumed : Resumed setup clock fresh s wait reply point t)
    (before : (Point.replied reply wait).carries setup epoch = false) :
    point.carries setup epoch = false := by
  cases resumed with
  | @accepts _ _ _ owner _ _ own right =>
      have young : ¬ owner.epoch < epoch := by
        simpa [Point.carries, Wait.carries, Reply.carries, own, right] using before
      exact Bool.or_eq_false_iff.mpr ⟨decide_eq_false young, rfl⟩
  | goesOn live =>
      simpa [Point.carries, Statement.carries, Wait.carries, Reply.carries, live] using before
  | @exchanges _ old =>
      have young : ¬ old < epoch := by
        simpa [Point.carries, Wait.carries, Reply.carries] using before
      exact Bool.or_eq_false_iff.mpr ⟨decide_eq_false young, rfl⟩
  | _ => rfl

theorem Since.step {epoch : Nat} (since : s.Since setup epoch)
    (fits : ∀ n request point, s.call n = some (request, point) → Fits request point) {a : Act}
    (taken : s.step setup a = some t) : t.Since setup epoch := by
  constructor
  · rcases store_of_step taken with same | ⟨n, request, statement, wait, -, there, same⟩
    · rw [same]
      exact since.refreshTokens
    · rw [same]
      apply refreshTokens_execute since.refreshTokens
      have calls := since.calls there
      rw [Point.carries, Bool.or_eq_false_iff] at calls
      exact calls.1
  · intro n request point there
    cases moved taken there with
    | rests before => exact since.calls before
    | enters => exact carries_enter ..
    | executes _ before =>
        cases fits n request _ before with
        | waiting asks => exact since.executed asks (since.calls before)
    | resumes _ before resumed => exact Since.resumed resumed (since.calls before)
  · exact since.user.trans (epoch_le taken)

/-! ## The change -/

/-- A change that has revoked the refresh tokens leaves none from before it, and one that
has returned leaves no access token either. -/
structure CutOff (setup : Setup) (s : AuthService) : Prop where
  replaced : ∀ {n request point epoch}, s.call n = some (request, point) →
    point.replaced = some epoch → epoch ≤ s.store.user.epoch
  revoked : ∀ {n request point epoch}, s.call n = some (request, point) →
    point.revoked = some epoch → s.Since setup epoch
  accessTokens : ∀ {n request epoch token entry},
    s.call n = some (request, .ended (.changed epoch)) →
    s.accessTokens.get token = some entry → epoch ≤ entry.epoch

theorem none_of_enter (clock : Clock) (request : Request) :
    (s.enter clock request).replaced = none ∧ (s.enter clock request).revoked = none := by
  cases request with
  | passwordGrant =>
      simp only [enter]
      split <;> exact ⟨rfl, rfl⟩
  | _ => exact ⟨rfl, rfl⟩

/-- Only the update of the password numbers a change. -/
theorem replaced_of_executed {request : Request} {statement : Statement} {wait : Wait}
    (asks : Asks request statement wait) {store : Store} {epoch : Nat}
    (replaced : (Point.replied (store.execute statement).1 wait).replaced = some epoch) :
    (Point.waiting statement wait).replaced = some epoch ∨
      (store.execute statement).2.user.epoch = epoch := by
  cases asks with
  | changeUpdated => exact .inr (Option.some.inj replaced)
  | changeRevoked => exact .inl replaced
  | passwordIssued | refreshIssued =>
      simp only [Store.execute] at replaced
      split at replaced <;> cases replaced
  | _ => cases replaced

theorem replaced_of_resumed {clock : Clock} {fresh : Nat × Nat} {wait : Wait} {reply : Reply}
    {point : Point} (resumed : Resumed setup clock fresh s wait reply point t) {epoch : Nat}
    (replaced : point.replaced = some epoch) :
    (Point.replied reply wait).replaced = some epoch := by
  cases resumed with
  | cutsOff | changes => exact replaced
  | _ => cases replaced

theorem replaced_step (cutOff : s.CutOff setup)
    (fits : ∀ n request point, s.call n = some (request, point) → Fits request point) {a : Act}
    (taken : s.step setup a = some t) {n : Nat} {request : Request} {point : Point} {epoch : Nat}
    (there : t.call n = some (request, point)) (replaced : point.replaced = some epoch) :
    epoch ≤ t.store.user.epoch := by
  cases moved taken there with
  | rests before => exact (cutOff.replaced before replaced).trans (epoch_le taken)
  | enters =>
      rw [(none_of_enter ..).1] at replaced
      cases replaced
  | executes _ before store =>
      cases fits n request _ before with
      | waiting asks =>
          rcases replaced_of_executed asks replaced with earlier | now
          · exact (cutOff.replaced before earlier).trans (epoch_le taken)
          · exact (store ▸ now).ge
  | resumes _ before resumed =>
      exact (cutOff.replaced before (replaced_of_resumed resumed replaced)).trans (epoch_le taken)

/-- The revocation of a change that nothing straddles. -/
theorem since_of_revokeAll (cutOff : s.CutOff setup) {n : Nat} {request : Request} {now : Int}
    {epoch : Nat}
    (there : s.call n = some (request, .waiting (.revokeAll now) (.changeRevoked epoch)))
    (alone : s.straddled setup (.execute n) = false)
    (taken : s.step setup (.execute n) = some t) : t.Since setup epoch := by
  constructor
  · cases auth_steps taken with
    | executes there' =>
        rw [there] at there'
        cases there'
        intro row listed live
        exact absurd live (Store.revoked_of_revokeAll now s.store row listed)
  · intro m other point there'
    cases moved taken there' with
    | rests before =>
        simp only [straddled, there] at alone
        simpa using List.any_eq_false.mp alone _ (List.mem_of_getElem? before)
    | executes act before =>
        cases act
        rw [there] at before
        cases before
        rfl
    | enters act | resumes act => cases act
  · exact (cutOff.replaced there rfl).trans (epoch_le taken)

theorem revoked_step (cutOff : s.CutOff setup)
    (fits : ∀ n request point, s.call n = some (request, point) → Fits request point) {a : Act}
    (alone : s.straddled setup a = false) (taken : s.step setup a = some t) {n : Nat}
    {request : Request} {point : Point} {epoch : Nat} (there : t.call n = some (request, point))
    (revoked : point.revoked = some epoch) : t.Since setup epoch := by
  cases moved taken there with
  | rests before => exact (cutOff.revoked before revoked).step fits taken
  | enters =>
      rw [(none_of_enter ..).2] at revoked
      cases revoked
  | executes act before =>
      subst act
      cases fits n request _ before with
      | waiting asks =>
          cases asks with
          | changeRevoked =>
              cases revoked
              exact since_of_revokeAll cutOff before alone taken
          | passwordIssued | refreshIssued =>
              simp only [Store.execute] at revoked
              split at revoked <;> cases revoked
          | _ => cases revoked
  | resumes _ before resumed =>
      cases resumed with
      | changes => exact (cutOff.revoked before revoked).step fits taken
      | _ => cases revoked

/-- An access token is as young as the credentials of who handed it out. -/
theorem handed_of_step {a : Act} (taken : s.step setup a = some t) {token : Nat}
    {entry : AccessToken} (there : t.accessTokens.get token = some entry) :
    s.accessTokens.get token = some entry ∨ ∃ m request point, s.call m = some (request, point) ∧
      ∀ epoch, point.carries setup epoch = false → epoch ≤ entry.epoch := by
  cases auth_steps taken with
  | calls | executes => exact .inl there
  | verifies _ kept => exact .inl (kept there)
  | @resumes m clock fresh request reply wait point u _ before resumed =>
      change u.accessTokens.get token = some entry at there
      have handed : ∀ {old}, AuthService.Hands { s with now := clock.monotonic } u fresh old →
          s.accessTokens.get token = some entry ∨ entry.epoch = old := by
        rintro old ⟨⟨expiresAt, scope, same⟩, -⟩
        rw [same, Table.get_set] at there
        split at there
        · cases there
          exact .inr rfl
        · exact .inl there
      cases resumed with
      | @accepts _ _ _ owner _ _ own right hands =>
          refine (handed hands).imp_right fun young => ⟨m, request, _, before, ?_⟩
          intro epoch carries
          simpa [Point.carries, Wait.carries, Reply.carries, own, right, young] using carries
      | exchanges hands =>
          refine (handed hands).imp_right fun young => ⟨m, request, _, before, ?_⟩
          intro epoch carries
          simpa [Point.carries, Wait.carries, Reply.carries, young] using carries
      | purges | changes => cases there
      | _ => exact .inl there

theorem accessTokens_step (cutOff : s.CutOff setup) {a : Act} (taken : s.step setup a = some t)
    {n : Nat} {request : Request} {epoch token : Nat} {entry : AccessToken}
    (there : t.call n = some (request, .ended (.changed epoch)))
    (live : t.accessTokens.get token = some entry) : epoch ≤ entry.epoch := by
  generalize point : Point.ended (.changed epoch) = p at there
  cases moved taken there with
  | rests before =>
      subst point
      rcases handed_of_step taken live with earlier | ⟨m, _, _, holds, young⟩
      · exact cutOff.accessTokens before earlier
      · exact young epoch ((cutOff.revoked before rfl).calls holds)
  | @enters clock =>
      have none := (none_of_enter (s := s) clock request).1
      rw [← point] at none
      cases none
  | executes => cases point
  | resumes _ before resumed accessTokens =>
      subst point
      cases resumed with
      | changes =>
          rw [accessTokens] at live
          cases live

theorem cutOff
    (reached : (authService setup).Reachable (fun s a => s.straddled setup a = false) s) :
    s.CutOff setup := by
  apply reached.invariant (motive := CutOff setup)
  · constructor <;> intros <;> simp_all [call, authService, init]
  · intro s a t prior cutOff alone taken
    have fits := fits prior
    exact ⟨replaced_step cutOff fits taken, revoked_step cutOff fits alone taken,
      accessTokens_step cutOff taken⟩

/-- In a run where no change revokes while a grant holds older credentials, the tokens
that are live once a change has returned were obtained with its password or a later
one. -/
theorem old_credentials_cut_off
    (reached : (authService setup).Reachable (fun s a => s.straddled setup a = false) s) {n : Nat}
    {request : Request} {epoch : Nat}
    (returned : s.call n = some (request, .ended (.changed epoch))) :
    (∀ row ∈ s.store.refreshTokens, row.revokedAt = none → epoch ≤ row.epoch) ∧
      ∀ token entry, s.accessTokens.get token = some entry → epoch ≤ entry.epoch := by
  have cutOff := cutOff reached
  exact ⟨(cutOff.revoked returned rfl).refreshTokens,
    fun _ _ live => cutOff.accessTokens returned live⟩

def newPassword : Str := "xyzzy-plugh-plover".toList

/-- The default password is changed, up to the point where the change has returned. -/
def changes (n : Nat) : List Act :=
  asks (.changePassword defaultPassword newPassword) n 0 ++ goesOn n (2, 0) 0 ++
    goesOn n (0, 0) 0 ++ [Act.resume n (.both 0) (0, 0)]

/-- The administrator logs in, changes the password and logs in again. -/
theorem old_credentials_cut_off_again :
    ∃ s : AuthService, (s.accessTokens.get 10).isSome = true ∧ s.accessTokens.get 20 = none ∧
      (∀ row ∈ s.store.refreshTokens, row.revokedAt = none → 1 ≤ row.epoch) ∧
        ∀ token entry, s.accessTokens.get token = some entry → 1 ≤ entry.epoch := by
  obtain ⟨s, reached, fresh, old, returned⟩ := System.reaches (authService plain)
    (fun s a => s.straddled plain a = false)
    (fun s => (s.accessTokens.get 10).isSome = true ∧ s.accessTokens.get 20 = none ∧
      s.call 1 = some (.changePassword defaultPassword newPassword, .ended (.changed 1)))
    (logsIn 0 (20, 21) ++ changes 1 ++ asks (login newPassword) 2 0 ++ goesOn 2 (10, 11) 0)
    (fun _ _ _ => trivial) (by decide +kernel)
  exact ⟨s, fresh, old, old_credentials_cut_off (reached.mono fun _ _ both => both.1) returned⟩

/-- A login that has read the old user goes on when the password has been changed. -/
theorem old_password_outlives_change :
    ∃ s, (authService plain).Reachable (fun _ _ => True) s ∧
      s.call 0 = some (login defaultPassword,
        .ended (.tokens ⟨20, 21, 1800, .passwordChange, true⟩)) ∧
      s.call 1 = some (.changePassword defaultPassword newPassword, .ended (.changed 1)) ∧
      (s.accessTokens.get 20).any (fun entry => entry.epoch = 0) = true ∧
      s.store.refreshTokens.any (fun row =>
        row.tokenHash = 21 ∧ row.revokedAt = none ∧ row.epoch = 0) = true := by
  obtain ⟨s, reached, outcome⟩ := System.reaches (authService plain) (fun _ _ => True)
    (fun s => s.call 0 = some (login defaultPassword,
        .ended (.tokens ⟨20, 21, 1800, .passwordChange, true⟩)) ∧
      s.call 1 = some (.changePassword defaultPassword newPassword, .ended (.changed 1)) ∧
      (s.accessTokens.get 20).any (fun entry => entry.epoch = 0) = true ∧
      s.store.refreshTokens.any (fun row =>
        row.tokenHash = 21 ∧ row.revokedAt = none ∧ row.epoch = 0) = true)
    (asks (login defaultPassword) 0 0 ++ changes 1 ++ goesOn 0 (20, 21) 0 ++
      [Act.resume 0 (.both 0) (0, 0)])
    (fun _ _ _ => trivial) (by decide +kernel)
  exact ⟨s, reached.mono fun _ _ _ => trivial, outcome⟩

end AuthService

end Zorkbot.Admin
