/-
# What a step of the auth service can do

Every way in which a request goes on, and what the statements leave alone. The
proofs about tokens, passwords and the throttle split on these cases.
-/

import Zorkbot.Admin.Auth

namespace Zorkbot.Admin

open Zorkbot.Bot (Str)
open Transition

/-! ## Statements -/

namespace Store

variable {store : Store} {hash : Nat}

/-- The store knows a token by this hash. -/
def Knows (store : Store) (hash : Nat) : Prop := ∃ row ∈ store.refreshTokens, row.tokenHash = hash

/-- The token was revoked. -/
def Revoked (store : Store) (hash : Nat) : Prop :=
  ∀ row ∈ store.refreshTokens, row.tokenHash = hash → row.revokedAt ≠ none

/-- A statement keeps the rows, up to their revocation, or adds one. -/
inductive Rewrites (store : Store) : Statement → List RefreshToken → Prop
  | same (statement : Statement) : Rewrites store statement store.refreshTokens
  | inserts {row : RefreshToken}
      (new : ∀ other ∈ store.refreshTokens, other.tokenHash ≠ row.tokenHash) :
      Rewrites store (.insertRefreshToken row) (store.refreshTokens ++ [row])
  | revokes {statement : Statement} {f : RefreshToken → RefreshToken}
      (hash : ∀ row, (f row).tokenHash = row.tokenHash) (epoch : ∀ row, (f row).epoch = row.epoch)
      (live : ∀ row, (f row).revokedAt = none → f row = row) :
      Rewrites store statement (store.refreshTokens.map f)

theorem rewrites (store : Store) (statement : Statement) :
    store.Rewrites statement (store.execute statement).2.refreshTokens := by
  cases statement with
  | getUser | getRefreshToken | updatePassword => exact .same _
  | insertRefreshToken row =>
      simp only [execute]
      split
      · exact .same _
      · next new =>
          apply Rewrites.inserts
          simpa using new
  | replaceRefreshToken | revokeAll | revoke =>
      apply Rewrites.revokes
      · intro row
        split <;> rfl
      · intro row
        split <;> rfl
      · intro row
        split
        · exact nofun
        · exact fun _ => rfl

theorem Knows.execute (knows : store.Knows hash) (statement : Statement) :
    (store.execute statement).2.Knows hash := by
  have rewrites := store.rewrites statement
  obtain ⟨row, listed, rfl⟩ := knows
  generalize (store.execute statement).2 = after at rewrites ⊢
  obtain ⟨user, rows⟩ := after
  cases rewrites with
  | same => exact ⟨row, listed, rfl⟩
  | inserts => exact ⟨row, List.mem_append_left _ listed, rfl⟩
  | revokes same => exact ⟨_, List.mem_map_of_mem listed, same row⟩

theorem Revoked.execute (revoked : store.Revoked hash) (knows : store.Knows hash)
    (statement : Statement) : (store.execute statement).2.Revoked hash := by
  have rewrites := store.rewrites statement
  generalize (store.execute statement).2 = after at rewrites ⊢
  obtain ⟨user, rows⟩ := after
  cases rewrites with
  | same => exact revoked
  | @inserts row new =>
      intro other listed is
      rcases List.mem_append.mp listed with before | now
      · exact revoked other before is
      · obtain ⟨known, there, same⟩ := knows
        rw [List.mem_singleton.mp now] at is
        exact absurd (same.trans is.symm) (new known there)
  | @revokes _ f same _ live =>
      intro row listed is none
      obtain ⟨before, there, rfl⟩ := List.mem_map.mp listed
      rw [live before none] at is none
      exact revoked before there is none

/-- After `_revoke_all` no refresh token is live. -/
theorem revoked_of_revokeAll (now : Int) (store : Store) :
    ∀ row ∈ (store.execute (.revokeAll now)).2.refreshTokens, row.revokedAt ≠ none := by
  intro row listed
  obtain ⟨before, -, rfl⟩ := List.mem_map.mp listed
  split
  · exact nofun
  · assumption

/-- After an exchange the token is revoked. -/
theorem revoked_of_replace (hash : Nat) (now : Int) (newHash : Nat) (store : Store) :
    (store.execute (.replaceRefreshToken hash now newHash)).2.Revoked hash := by
  intro row listed is
  obtain ⟨before, -, rfl⟩ := List.mem_map.mp listed
  split
  · exact nofun
  · next other =>
      rw [if_neg other] at is
      exact absurd is other

end Store

namespace AuthService

variable {setup : Setup} {clock : Clock} {fresh : Nat × Nat} {s t : AuthService}

/-! ## How a request goes on -/

/-- The row of a token that was just made up. -/
def newToken (setup : Setup) (clock : Clock) (fresh : Nat × Nat) (epoch : Nat) : RefreshToken :=
  ⟨fresh.2, clock.seconds, clock.seconds + setup.refreshTtl, none, none, epoch⟩

/-- An access token was put into the map. -/
structure Hands (s t : AuthService) (fresh : Nat × Nat) (epoch : Nat) : Prop where
  accessTokens : ∃ expiresAt scope,
    t.accessTokens = s.accessTokens.set fresh.1 ⟨expiresAt, scope, epoch⟩
  store : t.store = s.store
  calls : t.calls = s.calls
  now : t.now = s.now

inductive Resumed (setup : Setup) (clock : Clock) (fresh : Nat × Nat) (s : AuthService) :
    Wait → Reply → Point → AuthService → Prop
  | accepts {username password ip : Str} {user : User} {t : AuthService} {result : TokenResult}
      (own : username = user.username) (right : passwordMatches setup user password = true)
      (hands : s.Hands t fresh user.epoch) (throttle : t.throttle = s.throttle.recordSuccess ip)
      (attempts : t.attempts = ⟨true, clock.monotonic⟩ :: s.attempts) :
      Resumed setup clock fresh s (.passwordUser username password ip) (.user user)
        (.waiting (.insertRefreshToken (newToken setup clock fresh user.epoch))
          (.passwordIssued result)) t
  | refuses {username password ip : Str} {user : User}
      (wrong : ¬ (username = user.username ∧ passwordMatches setup user password = true)) :
      Resumed setup clock fresh s (.passwordUser username password ip) (.user user)
        (.ended (.raised (invalidGrant "invalid username or password")))
        { s with
          throttle := s.throttle.recordFailure ip clock.monotonic
          attempts := ⟨false, clock.monotonic⟩ :: s.attempts }
  | unknown {hash : Nat} : Resumed setup clock fresh s (.refreshRow hash) (.refreshToken none)
      (.ended (.raised (invalidGrant "unknown refresh token"))) s
  | reuses {hash : Nat} {row : RefreshToken} (revoked : row.revokedAt ≠ none) :
      Resumed setup clock fresh s (.refreshRow hash) (.refreshToken (some row))
        (.waiting (.revokeAll clock.seconds) .reused) s
  | expires {hash : Nat} {row : RefreshToken} (live : row.revokedAt = none) :
      Resumed setup clock fresh s (.refreshRow hash) (.refreshToken (some row))
        (.ended (.raised (invalidGrant "refresh token expired"))) s
  | goesOn {hash : Nat} {row : RefreshToken} (live : row.revokedAt = none) :
      Resumed setup clock fresh s (.refreshRow hash) (.refreshToken (some row))
        (.waiting .getUser (.refreshUser hash clock.seconds row.epoch)) s
  | exchanges {hash epoch : Nat} {now : Int} {user : User} {t : AuthService} {result : TokenResult}
      (hands : s.Hands t fresh epoch) (throttle : t.throttle = s.throttle)
      (attempts : t.attempts = s.attempts) :
      Resumed setup clock fresh s (.refreshUser hash now epoch) (.user user)
        (.waiting (.insertRefreshToken (newToken setup clock fresh epoch))
          (.refreshIssued hash now result)) t
  | replaces {hash : Nat} {now : Int} {result : TokenResult} :
      Resumed setup clock fresh s (.refreshIssued hash now result) .done
        (.waiting (.replaceRefreshToken hash now result.refreshToken)
          (.refreshReplaced hash result)) s
  | purges : Resumed setup clock fresh s .reused .done
      (.ended (.raised (invalidGrant "refresh token already used")))
      { s with accessTokens := .empty }
  | rejects {current new : Str} {user : User} {error : AuthError} :
      Resumed setup clock fresh s (.changeUser current new) (.user user) (.ended (.raised error)) s
  | updates {current new : Str} {user : User} {salt : Nat}
      (long : minPasswordLength ≤ new.length) (other : new ≠ current ∧ new ≠ defaultPassword) :
      Resumed setup clock fresh s (.changeUser current new) (.user user)
        (.waiting (.updatePassword (setup.kdf new salt defaultKdfParams) salt defaultKdfParams
          clock.seconds) .changeUpdated) s
  | cutsOff {epoch : Nat} : Resumed setup clock fresh s .changeUpdated (.changed epoch)
      (.waiting (.revokeAll clock.seconds) (.changeRevoked epoch)) s
  | changes {epoch : Nat} : Resumed setup clock fresh s (.changeRevoked epoch) .done
      (.ended (.changed epoch)) { s with accessTokens := .empty }
  | issued {result : TokenResult} : Resumed setup clock fresh s (.passwordIssued result) .done
      (.ended (.tokens result)) s
  | exchanged {hash : Nat} {result : TokenResult} :
      Resumed setup clock fresh s (.refreshReplaced hash result) .done (.ended (.tokens result)) s
  | revoked : Resumed setup clock fresh s .revoked .done (.ended .revoked) s
  | fails {wait : Wait} : Resumed setup clock fresh s wait .integrityError (.ended .failed) s

theorem resumed_comparePassword {username password ip : Str} {user : User} {point : Point}
    (taken : s.comparePassword setup clock fresh username password ip user = (point, t)) :
    Resumed setup clock fresh s (.passwordUser username password ip) (.user user) point t := by
  unfold comparePassword at taken
  split at taken
  · next both =>
      cases taken
      exact .accepts both.1 both.2 ⟨⟨_, _, rfl⟩, rfl, rfl, rfl⟩ rfl rfl
  · next wrong =>
      cases taken
      exact .refuses wrong

theorem resumed_lookedUp {hash : Nat} {row : Option RefreshToken} :
    Resumed setup clock fresh s (.refreshRow hash) (.refreshToken row)
      (lookedUp clock hash row) s := by
  unfold lookedUp
  split
  · exact .unknown
  · split
    · next revoked => exact .reuses revoked
    · next live =>
        have live := Decidable.not_not.mp live
        split
        · exact .expires live
        · exact .goesOn live

theorem resumed_checkPassword {salt : Nat} {current new : Str} {user : User} :
    Resumed setup clock fresh s (.changeUser current new) (.user user)
      (checkPassword setup clock salt current new user) s := by
  unfold checkPassword
  split
  · exact .rejects
  · split
    · exact .rejects
    · next long =>
        split
        · exact .rejects
        · next other => exact .updates (Nat.le_of_not_lt long) (not_or.mp other)

theorem resumed_of_resume {wait : Wait} {reply : Reply} {point : Point}
    (taken : resume setup clock fresh s wait reply = some (point, t)) :
    Resumed setup clock fresh s wait reply point t := by
  unfold resume at taken
  split at taken <;> simp only [Option.some.injEq, reduceCtorEq] at taken
  · exact resumed_comparePassword taken
  all_goals cases taken
  · exact .issued
  · exact resumed_lookedUp
  · exact .purges
  · exact .exchanges ⟨⟨_, _, rfl⟩, rfl, rfl, rfl⟩ rfl rfl
  · exact .replaces
  · exact .exchanged
  · exact resumed_checkPassword
  · exact .cutsOff
  · exact .changes
  · exact .revoked
  · exact .fails

/-! ## The steps -/

inductive Steps (setup : Setup) (s : AuthService) : Act → AuthService → Prop
  | calls {request : Request} {clock : Clock} (later : s.now ≤ clock.monotonic) :
      Steps setup s (.call request clock)
        { s with
          calls := s.calls ++ [(request, s.enter clock request)]
          now := clock.monotonic }
  | executes {n : Nat} {request : Request} {statement : Statement} {wait : Wait}
      (there : s.call n = some (request, .waiting statement wait)) :
      Steps setup s (.execute n)
        ({ s with store := (s.store.execute statement).2 }.moveTo n
          (.replied (s.store.execute statement).1 wait))
  | resumes {n : Nat} {clock : Clock} {fresh : Nat × Nat} {request : Request} {reply : Reply}
      {wait : Wait} {point : Point} {t : AuthService} (later : s.now ≤ clock.monotonic)
      (there : s.call n = some (request, .replied reply wait))
      (resumed : Resumed setup clock fresh { s with now := clock.monotonic } wait reply point t) :
      Steps setup s (.resume n clock fresh) (t.moveTo n point)
  | verifies {token : Nat} {clock : Clock} {accessTokens : Table Nat AccessToken}
      (later : s.now ≤ clock.monotonic)
      (kept : ∀ {token entry}, accessTokens.get token = some entry →
        s.accessTokens.get token = some entry) :
      Steps setup s (.verify token clock)
        { s with
          accessTokens := accessTokens
          now := clock.monotonic }

theorem auth_steps {a : Act} (taken : s.step setup a = some t) : Steps setup s a t := by
  cases a with
  | call request clock =>
      simp only [step] at taken
      split at taken
      · next later =>
          cases taken
          exact .calls later
      · cases taken
  | execute n =>
      simp only [step] at taken
      split at taken
      · next there =>
          cases taken
          exact .executes there
      · cases taken
  | resume n clock fresh =>
      simp only [step] at taken
      split at taken
      · next later =>
          split at taken
          · next there =>
              obtain ⟨⟨point, u⟩, resumed, rfl⟩ := Option.map_eq_some_iff.mp taken
              exact .resumes later there (resumed_of_resume resumed)
          · cases taken
      · cases taken
  | verify token clock =>
      simp only [step] at taken
      split at taken
      · next later =>
          cases taken
          unfold verifyAccessToken
          split
          · exact .verifies later id
          · split
            · apply Steps.verifies later
              intro other entry there
              rw [Table.get_erase] at there
              split at there
              · cases there
              · exact there
            · exact .verifies later id
      · cases taken

/-! ## Points -/

theorem call_moveTo (n m : Nat) (point : Point) (s : AuthService) :
    (s.moveTo n point).call m =
      if n = m then (s.call m).map fun call => (call.1, point) else s.call m := by
  simp only [call, moveTo, List.getElem?_modify]
  split <;> simp

theorem Resumed.calls {wait : Wait} {reply : Reply} {point : Point}
    (resumed : Resumed setup clock fresh s wait reply point t) : t.calls = s.calls := by
  cases resumed with
  | accepts _ _ hands | exchanges hands => exact hands.calls
  | _ => rfl

theorem Resumed.store {wait : Wait} {reply : Reply} {point : Point}
    (resumed : Resumed setup clock fresh s wait reply point t) : t.store = s.store := by
  cases resumed with
  | accepts _ _ hands | exchanges hands => exact hands.store
  | _ => rfl

theorem Resumed.now {wait : Wait} {reply : Reply} {point : Point}
    (resumed : Resumed setup clock fresh s wait reply point t) : t.now = s.now := by
  cases resumed with
  | accepts _ _ hands | exchanges hands => exact hands.now
  | _ => rfl

/-- How a request came to the point where it is after a step. -/
inductive Moved (setup : Setup) (s : AuthService) (a : Act) (t : AuthService) (n : Nat)
    (request : Request) : Point → Prop
  | rests {point : Point} (there : s.call n = some (request, point))
      (other : a ≠ .execute n) : Moved setup s a t n request point
  | enters {clock : Clock} (act : a = .call request clock) (newest : n = s.calls.length) :
      Moved setup s a t n request (s.enter clock request)
  | executes {statement : Statement} {wait : Wait} (act : a = .execute n)
      (there : s.call n = some (request, .waiting statement wait))
      (store : t.store = (s.store.execute statement).2) :
      Moved setup s a t n request (.replied (s.store.execute statement).1 wait)
  | resumes {clock : Clock} {fresh : Nat × Nat} {reply : Reply} {wait : Wait} {point : Point}
      {u : AuthService} (act : a = .resume n clock fresh)
      (there : s.call n = some (request, .replied reply wait))
      (resumed : Resumed setup clock fresh { s with now := clock.monotonic } wait reply point u)
      (accessTokens : t.accessTokens = u.accessTokens) : Moved setup s a t n request point

theorem moved {a : Act} (taken : s.step setup a = some t) {n : Nat} {request : Request}
    {point : Point} (there : t.call n = some (request, point)) :
    Moved setup s a t n request point := by
  cases auth_steps taken with
  | @calls incoming clock =>
      change (s.calls ++ [_])[n]? = _ at there
      rw [List.getElem?_append] at there
      split at there
      · exact .rests there nofun
      · next late =>
          have newest : n = s.calls.length := by
            have bound := (List.getElem?_eq_some_iff.mp there).1
            simp only [List.length_singleton] at bound
            omega
          subst newest
          simp only [Nat.sub_self, List.getElem?_cons_zero, Option.some.injEq,
            Prod.mk.injEq] at there
          obtain ⟨rfl, rfl⟩ := there
          exact .enters rfl rfl
  | @executes m before statement wait known =>
      rw [call_moveTo] at there
      split at there
      · next same =>
          subst same
          change (s.call m).map _ = _ at there
          rw [known] at there
          cases there
          exact .executes rfl known rfl
      · next other => exact .rests there fun same => other (Act.execute.inj same)
  | @resumes m clock fresh before reply wait point u _ known resumed =>
      have calls : ∀ k, u.call k = s.call k := by
        intro k
        rw [call, resumed.calls]
        rfl
      rw [call_moveTo, calls] at there
      split at there
      · next same =>
          subst same
          rw [known] at there
          cases there
          exact .resumes rfl known resumed rfl
      · exact .rests there nofun
  | verifies => exact .rests there nofun

/-- Where a request goes from a point in one step. -/
inductive Follows (setup : Setup) (s t : AuthService) : Point → Point → Prop
  | rests {point : Point} : Follows setup s t point point
  | executes {statement : Statement} {wait : Wait}
      (store : t.store = (s.store.execute statement).2) :
      Follows setup s t (.waiting statement wait) (.replied (s.store.execute statement).1 wait)
  | resumes {clock : Clock} {fresh : Nat × Nat} {reply : Reply} {wait : Wait} {point : Point}
      {u : AuthService}
      (resumed : Resumed setup clock fresh { s with now := clock.monotonic } wait reply point u)
      (accessTokens : t.accessTokens = u.accessTokens) :
      Follows setup s t (.replied reply wait) point

theorem follows {a : Act} (taken : s.step setup a = some t) {n : Nat} {request : Request}
    {point : Point} (there : s.call n = some (request, point)) :
    ∃ next, t.call n = some (request, next) ∧ Follows setup s t point next := by
  cases auth_steps taken with
  | calls =>
      have early : n < s.calls.length := (List.getElem?_eq_some_iff.mp there).1
      exact ⟨point, (List.getElem?_append_left early).trans there, .rests⟩
  | @executes m _ _ _ known =>
      rw [call_moveTo]
      by_cases same : m = n
      · subst same
        rw [there] at known
        cases known
        refine ⟨_, ?_, .executes rfl⟩
        rw [if_pos rfl]
        change (s.call m).map _ = _
        rw [there]
        rfl
      · exact ⟨point, (if_neg same).trans there, .rests⟩
  | @resumes m clock fresh _ _ _ _ u _ known resumed =>
      have calls : u.call n = s.call n := by
        rw [call, resumed.calls]
        rfl
      rw [call_moveTo, calls]
      by_cases same : m = n
      · subst same
        rw [there] at known
        cases known
        refine ⟨_, ?_, .resumes resumed rfl⟩
        rw [if_pos rfl, there]
        rfl
      · exact ⟨point, (if_neg same).trans there, .rests⟩
  | verifies => exact ⟨point, there, .rests⟩

/-- The store changes by the statements that it executes. -/
theorem store_of_step {a : Act} (taken : s.step setup a = some t) :
    t.store = s.store ∨ ∃ n request statement wait, a = .execute n ∧
      s.call n = some (request, .waiting statement wait) ∧
      t.store = (s.store.execute statement).2 := by
  cases auth_steps taken with
  | calls | verifies => exact .inl rfl
  | executes there => exact .inr ⟨_, _, _, _, rfl, there, rfl⟩
  | resumes _ _ resumed => exact .inl resumed.store

theorem Knows.step {a : Act} (taken : s.step setup a = some t) {hash : Nat}
    (knows : s.store.Knows hash) : t.store.Knows hash := by
  rcases store_of_step taken with same | ⟨-, -, statement, -, -, -, same⟩
  · exact same ▸ knows
  · exact same ▸ knows.execute statement

theorem Revoked.step {a : Act} (taken : s.step setup a = some t) {hash : Nat}
    (revoked : s.store.Revoked hash) (knows : s.store.Knows hash) : t.store.Revoked hash := by
  rcases store_of_step taken with same | ⟨-, -, statement, -, -, -, same⟩
  · exact same ▸ revoked
  · exact same ▸ revoked.execute knows statement

/-! ## What requests ask for -/

/-- The statements of a request, each with where it goes on. -/
inductive Asks : Request → Statement → Wait → Prop
  | passwordUser {username password ip : Str} : Asks (.passwordGrant username password ip) .getUser
      (.passwordUser username password ip)
  | passwordIssued {username password ip : Str} {row : RefreshToken} {result : TokenResult}
      (live : row.revokedAt = none) :
      Asks (.passwordGrant username password ip) (.insertRefreshToken row) (.passwordIssued result)
  | refreshRow {hash : Nat} : Asks (.refreshGrant hash) (.getRefreshToken hash) (.refreshRow hash)
  | reused {hash : Nat} {now : Int} : Asks (.refreshGrant hash) (.revokeAll now) .reused
  | refreshUser {hash epoch : Nat} {now : Int} : Asks (.refreshGrant hash) .getUser
      (.refreshUser hash now epoch)
  | refreshIssued {hash : Nat} {row : RefreshToken} {now : Int} {result : TokenResult}
      (live : row.revokedAt = none) :
      Asks (.refreshGrant hash) (.insertRefreshToken row) (.refreshIssued hash now result)
  | refreshReplaced {hash new : Nat} {now : Int} {result : TokenResult} :
      Asks (.refreshGrant hash) (.replaceRefreshToken hash now new) (.refreshReplaced hash result)
  | changeUser {current new : Str} : Asks (.changePassword current new) .getUser
      (.changeUser current new)
  | changeUpdated {current new : Str} {hash salt : Nat} {params : KdfParams} {now : Int} :
      Asks (.changePassword current new) (.updatePassword hash salt params now) .changeUpdated
  | changeRevoked {current new : Str} {now : Int} {epoch : Nat} :
      Asks (.changePassword current new) (.revokeAll now) (.changeRevoked epoch)
  | revoked {hash : Nat} {now : Int} : Asks (.revokeRefreshToken hash) (.revoke hash now) .revoked

/-- A token that is inserted is not revoked. -/
theorem Asks.inserts {request : Request} {statement : Statement} {wait : Wait}
    {row : RefreshToken} (asks : Asks request statement wait)
    (is : statement = .insertRefreshToken row) : row.revokedAt = none := by
  cases asks with
  | passwordIssued live | refreshIssued live =>
      cases is
      exact live
  | _ => cases is

/-- A request is where it can be: a reply is one to what it asked for. -/
inductive Fits (request : Request) : Point → Prop
  | waiting {statement : Statement} {wait : Wait} (asks : Asks request statement wait) :
      Fits request (.waiting statement wait)
  | replied {statement : Statement} {wait : Wait} (asks : Asks request statement wait)
      (store : Store) : Fits request (.replied (store.execute statement).1 wait)
  | ended {outcome : Outcome} : Fits request (.ended outcome)

theorem fits_enter (clock : Clock) (request : Request) (s : AuthService) :
    Fits request (s.enter clock request) := by
  cases request with
  | passwordGrant =>
      simp only [enter]
      split
      · exact .ended
      · exact .waiting .passwordUser
  | refreshGrant => exact .waiting .refreshRow
  | changePassword => exact .waiting .changeUser
  | revokeRefreshToken => exact .waiting .revoked

theorem Fits.asks {request : Request} {reply : Reply} {wait : Wait}
    (fits : Fits request (.replied reply wait)) : ∃ statement, Asks request statement wait := by
  cases fits with
  | replied asks => exact ⟨_, asks⟩

theorem Fits.resumed {request : Request} {reply : Reply} {wait : Wait} {point : Point}
    (fits : Fits request (.replied reply wait))
    (resumed : Resumed setup clock fresh s wait reply point t) : Fits request point := by
  obtain ⟨statement, asks⟩ := fits.asks
  cases resumed with
  | accepts =>
      cases asks
      exact .waiting (.passwordIssued rfl)
  | reuses =>
      cases asks
      exact .waiting .reused
  | goesOn =>
      cases asks
      exact .waiting .refreshUser
  | exchanges =>
      cases asks
      exact .waiting (.refreshIssued rfl)
  | replaces =>
      cases asks
      exact .waiting .refreshReplaced
  | updates =>
      cases asks
      exact .waiting .changeUpdated
  | cutsOff =>
      cases asks
      exact .waiting .changeRevoked
  | _ => exact .ended

theorem fits_step {a : Act}
    (fits : ∀ n request point, s.call n = some (request, point) → Fits request point)
    (taken : s.step setup a = some t) (n : Nat) (request : Request) (point : Point)
    (there : t.call n = some (request, point)) : Fits request point := by
  cases moved taken there with
  | rests before => exact fits n request _ before
  | enters => exact fits_enter ..
  | executes _ before store =>
      cases fits n request _ before with
      | waiting asks => exact .replied asks s.store
  | resumes _ before resumed => exact (fits n request _ before).resumed resumed

theorem fits {guard : AuthService → Act → Prop} (reached : (authService setup).Reachable guard s)
    (n : Nat) (request : Request) (point : Point) (there : s.call n = some (request, point)) :
    Fits request point := by
  revert n request point
  apply reached.invariant
    (motive := fun s => ∀ n request point, s.call n = some (request, point) → Fits request point)
  · intro n request point there
    simp [call, authService, init] at there
  · intro s a t _ fits _ taken
    exact fits_step fits taken

end AuthService

end Zorkbot.Admin
