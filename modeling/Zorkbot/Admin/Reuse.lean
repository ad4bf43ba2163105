/-
# Reuse detection and retention

A refresh token that was exchanged stays in the table, marked as revoked, so that whoever
presents it again is noticed and everybody is logged out. The retention run deletes what was
revoked long enough ago. The two settings are independent of each other: if tokens live longer
than they are retained, a token that was exchanged is forgotten before it expires.

Requests are served one after another here, each at clock readings of its own. Such a run is
one of the service whose requests run next to each other.
-/

import Zorkbot.Admin.AuthSteps

namespace Zorkbot.Admin

open Zorkbot.Bot (Str)
open Transition

/-! ## Requests that are served alone -/

/-- Clock readings one after another. -/
structure ClockReadings where
  clock : Nat → Clock
  monotonic : Monotone fun i => (clock i).monotonic

namespace ClockReadings

/-- The readings from the next on. -/
def rest (readings : ClockReadings) : ClockReadings where
  clock i := readings.clock (i + 1)
  monotonic _ _ le := readings.monotonic (Nat.succ_le_succ le)

/-- No time passes. -/
def still (seconds : ℚ) : ClockReadings := ⟨fun _ => .both seconds, monotone_const⟩

end ClockReadings

namespace AuthService

variable {setup : Setup} {clock : Clock} {readings : ClockReadings} {fresh : Nat × Nat}
  {s t : AuthService}

/-- A request runs from a point to its end, with the store's replies at once. -/
def run (setup : Setup) (fresh : Nat × Nat) :
    Nat → ClockReadings → Point → AuthService → Option (Outcome × AuthService)
  | _, _, .ended outcome, s => some (outcome, s)
  | 0, _, _, _ => none
  | k + 1, readings, .waiting statement wait, s =>
      let (reply, store) := s.store.execute statement
      run setup fresh k readings (.replied reply wait) { s with store := store }
  | k + 1, readings, .replied reply wait, s =>
      (resume setup (readings.clock 0) fresh
        { s with now := (readings.clock 0).monotonic } wait reply).bind fun (point, s) =>
          run setup fresh k readings.rest point s

/-- How many statements and replies the longest request has. -/
def rounds : Nat := 8

/-- A request comes in and is served. -/
def serve (setup : Setup) (readings : ClockReadings) (fresh : Nat × Nat) (request : Request)
    (s : AuthService) : Option (Outcome × AuthService) :=
  run setup fresh rounds readings.rest (s.enter (readings.clock 0) request)
    { s with now := (readings.clock 0).monotonic }

/-! ## Such a request in the concurrent service -/

/-- What a request does depends on no other. -/
theorem resume_calls (calls : List (Request × Point)) (clock : Clock) (wait : Wait)
    (reply : Reply) :
    resume setup clock fresh { s with calls := calls } wait reply =
      (resume setup clock fresh s wait reply).map fun r => (r.1, { r.2 with calls := calls }) := by
  cases wait with
  | passwordUser username password ip =>
      cases reply with
      | user user =>
          simp only [resume, Option.map_some, Option.some.injEq, comparePassword]
          split
          · rfl
          · rfl
      | _ => rfl
  | _ => cases reply <;> rfl

theorem modify_last {α : Type*} (l : List α) (a : α) (f : α → α) :
    (l ++ [a]).modify l.length f = l ++ [f a] := by
  induction l with
  | nil => rfl
  | cons b l ih => exact congrArg (List.cons b) ih

section

variable {calls : List (Request × Point)} {request : Request} {wait : Wait}

theorem call_last (calls : List (Request × Point)) (request : Request) (point : Point) :
    { s with calls := calls ++ [(request, point)] }.call calls.length = some (request, point) := by
  simp [call]

theorem moveTo_last (calls : List (Request × Point)) (request : Request) (point next : Point) :
    { s with calls := calls ++ [(request, point)] }.moveTo calls.length next =
      { s with calls := calls ++ [(request, next)] } := by
  rw [moveTo, modify_last]

theorem step_execute_last (statement : Statement) :
    step setup { s with calls := calls ++ [(request, .waiting statement wait)] }
        (.execute calls.length) =
      some { s with
        store := (s.store.execute statement).2
        calls := calls ++ [(request, .replied (s.store.execute statement).1 wait)] } := by
  simp only [step, call_last]
  exact congrArg some
    (moveTo_last (s := { s with store := (s.store.execute statement).2 }) calls request _ _)

theorem step_resume_last {clock : Clock} {reply : Reply} {next : Point}
    (later : s.now ≤ clock.monotonic)
    (resumed : resume setup clock fresh { s with now := clock.monotonic } wait reply =
      some (next, t)) :
    step setup { s with calls := calls ++ [(request, .replied reply wait)] }
        (.resume calls.length clock fresh) =
      some { t with calls := calls ++ [(request, next)] } := by
  have goes : resume setup clock fresh
      { s with
        calls := calls ++ [(request, .replied reply wait)]
        now := clock.monotonic } wait reply = _ :=
    resume_calls (s := { s with now := clock.monotonic })
      (calls ++ [(request, .replied reply wait)]) clock wait reply
  rw [resumed] at goes
  simp only [step, call_last, if_pos later, goes, Option.map_some, moveTo_last]

end

/-- A request that is served alone is a run of the concurrent service. -/
theorem path_of_run {calls : List (Request × Point)} {request : Request} {k : Nat} {point : Point}
    {outcome : Outcome} (later : s.now ≤ (readings.clock 0).monotonic)
    (served : run setup fresh k readings point s = some (outcome, t)) :
    (authService setup).Path (fun _ _ => True) { s with calls := calls ++ [(request, point)] }
      { t with calls := calls ++ [(request, .ended outcome)] } := by
  induction k generalizing readings point s with
  | zero =>
      cases point with
      | ended =>
          cases served
          exact .refl _
      | _ => cases served
  | succ k ih =>
      cases point with
      | ended =>
          cases served
          exact .refl _
      | waiting statement wait =>
          have onward := ih (s := { s with store := (s.store.execute statement).2 }) later served
          have taken : (authService setup).step
              { s with calls := calls ++ [(request, .waiting statement wait)] }
              (.execute calls.length) = _ :=
            @step_execute_last setup _ _ _ _ statement
          exact System.Path.trans (.tail (.refl _) trivial taken) onward
      | replied reply wait =>
          obtain ⟨⟨next, u⟩, resumed, served⟩ := Option.bind_eq_some_iff.mp served
          have now : u.now ≤ (readings.rest.clock 0).monotonic := by
            rw [(resumed_of_resume resumed).now]
            exact readings.monotonic (Nat.zero_le 1)
          have taken : (authService setup).step
              { s with calls := calls ++ [(request, .replied reply wait)] }
              (.resume calls.length (readings.clock 0) fresh) = _ :=
            step_resume_last later resumed
          exact System.Path.trans (.tail (.refl _) trivial taken) (ih now served)

/-- So it is next to whatever else is under way. -/
theorem path_of_serve {request : Request} {outcome : Outcome} (calls : List (Request × Point))
    (later : s.now ≤ (readings.clock 0).monotonic)
    (served : serve setup readings fresh request s = some (outcome, t)) :
    (authService setup).Path (fun _ _ => True) { s with calls := calls }
      { t with calls := calls ++ [(request, .ended outcome)] } := by
  have point : { s with calls := calls }.enter (readings.clock 0) request =
      s.enter (readings.clock 0) request := by
    cases request <;> rfl
  have enters : (authService setup).step { s with calls := calls }
      (.call request (readings.clock 0)) =
      some { s with
        calls := calls ++ [(request, s.enter (readings.clock 0) request)]
        now := (readings.clock 0).monotonic } := by
    rw [← point]
    exact if_pos later
  have now : (readings.clock 0).monotonic ≤ (readings.rest.clock 0).monotonic :=
    readings.monotonic (Nat.zero_le 1)
  exact System.Path.trans (.tail (.refl _) trivial enters) (path_of_run now served)

/-! ## What a request does to the refresh tokens -/

/-- A row stays as it is, or its token is live and ends. -/
inductive Touches (readings : ClockReadings) (row : RefreshToken) : RefreshToken → Prop
  | same : Touches readings row row
  | ends {n : Nat} (live : row.revokedAt = none) (used : n ≤ rounds) (replacedBy : Option Nat) :
      Touches readings row
        { row with
          revokedAt := some (readings.clock n).seconds
          replacedBy := replacedBy }

/-- Tokens end, and a token that nobody has may be added. -/
inductive Evolves (setup : Setup) (readings : ClockReadings) (rows : List RefreshToken) :
    List RefreshToken → Prop
  | touches {f : RefreshToken → RefreshToken} (each : ∀ row ∈ rows, Touches readings row (f row)) :
      Evolves setup readings rows (rows.map f)
  | grants {f : RefreshToken → RefreshToken} {n epoch : Nat} {fresh : Nat × Nat}
      (each : ∀ row ∈ rows, Touches readings row (f row)) (used : n ≤ rounds)
      (new : ∀ other ∈ rows, other.tokenHash ≠ fresh.2) :
      Evolves setup readings rows
        (rows.map f ++ [newToken setup (readings.clock n) fresh epoch])

theorem Evolves.same {rows : List RefreshToken} : Evolves setup readings rows rows := by
  have touched : Evolves setup readings rows (rows.map id) := .touches fun _ _ => .same
  rwa [List.map_id] at touched

/-- The tokens differ by their hash. -/
def Distinct (rows : List RefreshToken) : Prop := (rows.map RefreshToken.tokenHash).Nodup

theorem Distinct.only {rows : List RefreshToken} (distinct : Distinct rows)
    {row other : RefreshToken} (listed : row ∈ rows) (also : other ∈ rows)
    (same : row.tokenHash = other.tokenHash) : row = other :=
  List.inj_on_of_nodup_map distinct listed also same

/-- A request comes to its end in a state of this kind. -/
def Ends (setup : Setup) (fresh : Nat × Nat) (k : Nat) (readings : ClockReadings) (point : Point)
    (s : AuthService) (final : AuthService → Prop) : Prop :=
  ∃ outcome t, run setup fresh k readings point s = some (outcome, t) ∧ final t

section

variable {k : Nat} {final : AuthService → Prop} {wait : Wait}

theorem ends_ended {outcome : Outcome} (holds : final s) :
    Ends setup fresh k readings (.ended outcome) s final := by
  cases k <;> exact ⟨outcome, s, rfl, holds⟩

theorem ends_waiting {statement : Statement}
    (onward : Ends setup fresh k readings (.replied (s.store.execute statement).1 wait)
      { s with store := (s.store.execute statement).2 } final) :
    Ends setup fresh (k + 1) readings (.waiting statement wait) s final :=
  onward

theorem ends_replied {reply : Reply} {point : Point}
    (resumed : resume setup (readings.clock 0) fresh
      { s with now := (readings.clock 0).monotonic } wait reply = some (point, t))
    (onward : Ends setup fresh k readings.rest point t final) :
    Ends setup fresh (k + 1) readings (.replied reply wait) s final := by
  obtain ⟨outcome, u, ran, holds⟩ := onward
  refine ⟨outcome, u, ?_, holds⟩
  rw [run, resumed]
  exact ran

theorem resume_integrityError (wait : Wait) :
    resume setup clock fresh s wait .integrityError = some (.ended .failed, s) := by
  cases wait <;> rfl

/-- A token goes to the store, or was made up before. -/
theorem ends_insert {row : RefreshToken}
    (known : final { s with now := (readings.clock 0).monotonic })
    (new : (∀ other ∈ s.store.refreshTokens, other.tokenHash ≠ row.tokenHash) →
      Ends setup fresh (k + 1) readings (.replied .done wait)
        { s with store.refreshTokens := s.store.refreshTokens ++ [row] } final) :
    Ends setup fresh (k + 2) readings (.waiting (.insertRefreshToken row) wait) s final := by
  apply ends_waiting
  simp only [Store.execute]
  split
  · exact ends_replied (resume_integrityError wait) (ends_ended known)
  · next unknown => exact new (by simpa using unknown)

end

/-- The request comes to its end and has done one of these things. -/
def Served (setup : Setup) (readings : ClockReadings) (fresh : Nat × Nat) (request : Request)
    (s : AuthService) : Prop :=
  Ends setup fresh rounds readings.rest (s.enter (readings.clock 0) request)
    { s with now := (readings.clock 0).monotonic }
    fun t => Evolves setup readings s.store.refreshTokens t.store.refreshTokens

theorem served_passwordGrant (username password ip : Str) :
    Served setup readings fresh (.passwordGrant username password ip) s := by
  unfold Served
  rw [enter]
  split
  · exact ends_ended .same
  · apply ends_waiting
    by_cases own : username = s.store.user.username ∧
        passwordMatches setup s.store.user password = true
    · refine ends_replied (congrArg some (if_pos own)) (ends_insert .same fun new => ?_)
      have granted : Evolves setup readings s.store.refreshTokens
          (s.store.refreshTokens.map id ++
            [newToken setup (readings.clock 1) fresh s.store.user.epoch]) :=
        .grants (fun _ _ => .same) (by decide) new
      rw [List.map_id] at granted
      exact ends_replied rfl (ends_ended granted)
    · exact ends_replied (congrArg some (if_neg own)) (ends_ended .same)

/-- Everything that is not revoked yet is revoked. -/
theorem evolves_revokeAll (rows : List RefreshToken) {n : Nat} (used : n ≤ rounds) :
    Evolves setup readings rows (rows.map fun row =>
      if row.revokedAt = none then row.revoke (readings.clock n).seconds else row) := by
  refine .touches fun row _ => ?_
  split
  · next live => exact .ends live used row.replacedBy
  · exact .same

/-- The token that was found is exchanged for a new one. -/
theorem evolves_exchange {rows : List RefreshToken} {row : RefreshToken} {m n epoch hash : Nat}
    (distinct : Distinct rows)
    (found : rows.find? (fun row => row.tokenHash = hash) = some row)
    (live : row.revokedAt = none) (earlier : m ≤ rounds) (used : n ≤ rounds)
    (new : ∀ other ∈ rows, other.tokenHash ≠ fresh.2) :
    Evolves setup readings rows
      ((rows ++ [newToken setup (readings.clock n) fresh epoch]).map fun row =>
        if row.tokenHash = hash then
          { row with
            revokedAt := some (readings.clock m).seconds
            replacedBy := some fresh.2 }
        else row) := by
  have listed := List.mem_of_find?_eq_some found
  have is : row.tokenHash = hash := by simpa using List.find?_some found
  have other : (newToken setup (readings.clock n) fresh epoch).tokenHash ≠ hash := by
    intro same
    exact new row listed (is.trans same.symm)
  rw [List.map_append, List.map_singleton, if_neg other]
  refine .grants (fun also there => ?_) used new
  split
  · next same =>
      rw [distinct.only there listed (same.trans is.symm)]
      exact .ends live earlier (some fresh.2)
  · exact .same

theorem served_refreshGrant (distinct : Distinct s.store.refreshTokens) (hash : Nat) :
    Served setup readings fresh (.refreshGrant hash) s := by
  refine ends_waiting (ends_replied rfl ?_)
  cases found : s.store.refreshTokens.find? fun row => row.tokenHash = hash with
  | none =>
      simp only [Store.execute, found]
      exact ends_ended .same
  | some row =>
      simp only [Store.execute, found]
      rw [lookedUp]
      split
      · refine ends_waiting (ends_replied rfl (ends_ended ?_))
        exact evolves_revokeAll _ (n := 1) (by decide)
      · next live =>
          have live := Decidable.not_not.mp live
          split
          · exact ends_ended .same
          · refine ends_waiting (ends_replied rfl (ends_insert .same fun new => ?_))
            refine ends_replied rfl (ends_waiting (ends_replied rfl (ends_ended ?_)))
            exact evolves_exchange distinct found live (m := 1) (n := 2) (by decide) (by decide) new

theorem served_changePassword (current new : Str) :
    Served setup readings fresh (.changePassword current new) s := by
  refine ends_waiting (ends_replied rfl ?_)
  rw [checkPassword]
  split
  · exact ends_ended .same
  · split
    · exact ends_ended .same
    · split
      · exact ends_ended .same
      · refine ends_waiting (ends_replied rfl ?_)
        refine ends_waiting (ends_replied rfl (ends_ended ?_))
        exact evolves_revokeAll _ (n := 2) (by decide)

theorem served_revokeRefreshToken (hash : Nat) :
    Served setup readings fresh (.revokeRefreshToken hash) s := by
  refine ends_waiting (ends_replied rfl (ends_ended (.touches fun row _ => ?_)))
  split
  · next both => exact .ends (n := 0) both.2 (by decide) row.replacedBy
  · exact .same

theorem served (distinct : Distinct s.store.refreshTokens) (request : Request) :
    Served setup readings fresh request s := by
  cases request with
  | passwordGrant => exact served_passwordGrant ..
  | refreshGrant => exact served_refreshGrant distinct _
  | changePassword => exact served_changePassword ..
  | revokeRefreshToken => exact served_revokeRefreshToken _

theorem evolves_of_serve {request : Request} {outcome : Outcome}
    (distinct : Distinct s.store.refreshTokens)
    (taken : serve setup readings fresh request s = some (outcome, t)) :
    Evolves setup readings s.store.refreshTokens t.store.refreshTokens := by
  have ends : Served setup readings fresh request s := served distinct request
  obtain ⟨_, _, ran, evolves⟩ := ends
  cases taken.symm.trans ran
  exact evolves

section

variable {row touched : RefreshToken} {rows after : List RefreshToken}

theorem tokenHash_of_touches (touches : Touches readings row touched) :
    touched.tokenHash = row.tokenHash := by
  cases touches <;> rfl

theorem Distinct.touches {f : RefreshToken → RefreshToken} (distinct : Distinct rows)
    (each : ∀ row ∈ rows, Touches readings row (f row)) : Distinct (rows.map f) := by
  have same : (rows.map f).map RefreshToken.tokenHash = rows.map RefreshToken.tokenHash := by
    rw [List.map_map]
    exact List.map_congr_left fun row listed => tokenHash_of_touches (each row listed)
  unfold Distinct
  rw [same]
  exact distinct

theorem Distinct.evolves (distinct : Distinct rows) (evolves : Evolves setup readings rows after) :
    Distinct after := by
  cases evolves with
  | touches each => exact distinct.touches each
  | grants each _ new =>
      have before := distinct.touches each
      unfold Distinct
      rw [List.map_append, List.nodup_append]
      refine ⟨before, List.nodup_singleton _, ?_⟩
      intro hash known other is
      obtain ⟨_, touched, rfl⟩ := List.mem_map.mp known
      obtain ⟨row, listed, rfl⟩ := List.mem_map.mp touched
      rw [List.map_singleton, List.mem_singleton] at is
      rw [is, tokenHash_of_touches (each row listed)]
      exact new row listed

/-- What has ended stays as it is. -/
theorem mem_evolves (evolves : Evolves setup readings rows after) (listed : row ∈ rows)
    (ended : row.revokedAt ≠ none) : row ∈ after := by
  have stays {f : RefreshToken → RefreshToken}
      (each : ∀ row ∈ rows, Touches readings row (f row)) : row ∈ rows.map f := by
    have touches := each row listed
    refine List.mem_map.mpr ⟨row, listed, ?_⟩
    generalize f row = touched at touches ⊢
    cases touches with
    | same => rfl
    | ends live => exact absurd live ended
  cases evolves with
  | touches each => exact stays each
  | grants each => exact List.mem_append_left _ (stays each)

end

end AuthService

/-! ## Requests and retention runs one after another -/

/-- The service, and what the wall clock showed last. -/
structure Vault where
  service : AuthService
  wall : ℚ

namespace Vault

inductive Act
  | request (readings : ClockReadings) (fresh : Nat × Nat) (request : Request)
  | prune (readings : ClockReadings)

def Act.readings : Act → ClockReadings
  | .request readings _ _ => readings
  | .prune readings => readings

/-- `prune_retention`, on the refresh tokens. -/
def pruneRetention (retentionDays : Int) (readings : ClockReadings) (rows : List RefreshToken) :
    List RefreshToken :=
  if retentionDays ≤ 0 then rows
  else
    let cutoff := (readings.clock 0).seconds - retentionDays * 86400
    rows.filter fun row =>
      !(decide (row.expiresAt < (readings.clock 1).seconds) ||
        row.revokedAt.any fun revokedAt => decide (revokedAt < cutoff))

def step (setup : Setup) (retentionDays : Int) (s : Vault) : Act → Option Vault
  | .request readings fresh request =>
      if s.service.now ≤ (readings.clock 0).monotonic then
        (s.service.serve setup readings fresh request).map fun (_, service) =>
          ⟨service, (readings.clock AuthService.rounds).wall⟩
      else none
  | .prune readings =>
      some
        { service :=
            { s.service with
              store.refreshTokens :=
                pruneRetention retentionDays readings s.service.store.refreshTokens }
          wall := (readings.clock AuthService.rounds).wall }

/-- The wall clock does not go back. -/
def Steady (s : Vault) (a : Act) : Prop :=
  s.wall ≤ (a.readings.clock 0).wall ∧ Monotone fun i => (a.readings.clock i).wall

end Vault

/-- The runs of requests and retention runs, each of which ends before the next begins. -/
def vault (setup : Setup) (retentionDays : Int) : System Vault Vault.Act :=
  ⟨⟨.init setup, 0⟩, Vault.step setup retentionDays⟩

/-- The service whose requests run next to each other, and the retention runs. -/
def retained (setup : Setup) (retentionDays : Int) :
    System AuthService (AuthService.Act ⊕ ClockReadings) where
  init := .init setup
  step s
    | .inl act => s.step setup act
    | .inr readings =>
        some { s with
          store.refreshTokens :=
            Vault.pruneRetention retentionDays readings s.store.refreshTokens }

namespace Vault

open AuthService

variable {setup : Setup} {retentionDays : Int} {s t : Vault} {a : Act}

/-- Requests that are served one after another are a run of the service, whatever the calls. -/
theorem vault_simulates (setup : Setup) (retentionDays : Int) (guard : Vault → Act → Prop) :
    System.Simulation (vault setup retentionDays) guard (retained setup retentionDays)
      fun s service => ∃ calls, service = { s.service with calls := calls } where
  init := ⟨[], rfl⟩
  step := by
    rintro s a t _ - ⟨calls, rfl⟩ - taken
    cases a with
    | request readings fresh request =>
        simp only [vault, step] at taken
        split at taken
        · next later =>
            obtain ⟨⟨outcome, service⟩, served, rfl⟩ := Option.map_eq_some_iff.mp taken
            have path := path_of_serve calls later served
            exact ⟨_, path.embed Sum.inl fun _ _ => rfl, _, rfl⟩
        · cases taken
    | prune readings =>
        cases taken
        exact ⟨_, .tail (a := .inr readings) (.refl _) trivial rfl, calls, rfl⟩

theorem retained_of_vault {guard : Vault → Act → Prop}
    (reached : (vault setup retentionDays).Reachable guard s) :
    ∃ calls, (retained setup retentionDays).Reachable (fun _ _ => True)
      { s.service with calls := calls } := by
  obtain ⟨_, concurrent, calls, rfl⟩ :=
    (vault_simulates setup retentionDays guard).reachable reached
  exact ⟨calls, concurrent⟩

abbrev rows (s : Vault) : List RefreshToken := s.service.store.refreshTokens

/-! ### What a step can do -/

inductive Steps (setup : Setup) (retentionDays : Int) (s : Vault) (readings : ClockReadings)
    (t : Vault) : Prop
  | serves (evolves : Evolves setup readings s.rows t.rows)
  | prunes (pruned : t.rows = pruneRetention retentionDays readings s.rows)

theorem vault_steps (distinct : Distinct s.rows) (taken : s.step setup retentionDays a = some t) :
    Steps setup retentionDays s a.readings t := by
  cases a with
  | request readings fresh request =>
      simp only [step] at taken
      split at taken
      · obtain ⟨⟨outcome, service⟩, served, rfl⟩ := Option.map_eq_some_iff.mp taken
        exact .serves (evolves_of_serve distinct served)
      · cases taken
  | prune readings =>
      cases taken
      exact .prunes rfl

theorem step_wall (taken : s.step setup retentionDays a = some t) :
    t.wall = (a.readings.clock rounds).wall := by
  cases a with
  | request readings fresh request =>
      simp only [step] at taken
      split at taken
      · obtain ⟨_, -, rfl⟩ := Option.map_eq_some_iff.mp taken
        rfl
      · cases taken
  | prune readings =>
      cases taken
      rfl

/-! ### The rows of the tokens -/

/-- What is true of the row of a token, by the wall clock. -/
structure Sound (setup : Setup) (wall : ℚ) (row : RefreshToken) : Prop where
  expires : row.expiresAt = row.issuedAt + setup.refreshTtl
  issued : row.issuedAt ≤ ⌊wall⌋
  revoked : ∀ revokedAt, row.revokedAt = some revokedAt → row.issuedAt ≤ revokedAt
  replaced : row.replacedBy ≠ none → row.revokedAt ≠ none

section

variable {readings : ClockReadings} {wall : ℚ} {row touched : RefreshToken}
  {rows after : List RefreshToken}

theorem Sound.later {later : ℚ} (sound : Sound setup wall row) (le : wall ≤ later) :
    Sound setup later row :=
  { sound with issued := sound.issued.trans (Int.floor_le_floor le) }

theorem sound_newToken (clock : Clock) (fresh : Nat × Nat) (epoch : Nat) :
    Sound setup clock.wall (newToken setup clock fresh epoch) where
  expires := rfl
  issued := le_rfl
  revoked := nofun
  replaced := nofun

theorem Sound.touches (sound : Sound setup wall row)
    (later : ∀ n, wall ≤ (readings.clock n).wall) (touches : Touches readings row touched) :
    Sound setup wall touched := by
  cases touches with
  | same => exact sound
  | @ends n =>
      exact
        { expires := sound.expires
          issued := sound.issued
          revoked := fun _ is =>
            (sound.issued.trans (Int.floor_le_floor (later n))).trans (Option.some.inj is).le
          replaced := fun _ => nofun }

theorem sound_evolves (sound : ∀ row ∈ rows, Sound setup wall row)
    (starts : wall ≤ (readings.clock 0).wall)
    (steady : Monotone fun i => (readings.clock i).wall)
    (evolves : Evolves setup readings rows after) :
    ∀ row ∈ after, Sound setup (readings.clock rounds).wall row := by
  have later (n : Nat) : wall ≤ (readings.clock n).wall := starts.trans (steady (Nat.zero_le n))
  have touched {f : RefreshToken → RefreshToken}
      (each : ∀ row ∈ rows, Touches readings row (f row)) :
      ∀ row ∈ rows.map f, Sound setup (readings.clock rounds).wall row := by
    intro row listed
    obtain ⟨before, there, rfl⟩ := List.mem_map.mp listed
    exact ((sound before there).touches later (each before there)).later (later rounds)
  cases evolves with
  | touches each => exact touched each
  | @grants f n epoch fresh each used new =>
      intro row listed
      rcases List.mem_append.mp listed with before | now
      · exact touched each row before
      · rw [List.mem_singleton.mp now]
        exact (sound_newToken _ fresh epoch).later (steady used)

theorem pruneRetention_sublist (readings : ClockReadings) (rows : List RefreshToken) :
    (pruneRetention retentionDays readings rows).Sublist rows := by
  unfold pruneRetention
  split
  · exact List.Sublist.refl _
  · exact List.filter_sublist

/-- A token that ended is kept until it expires. -/
theorem mem_pruneRetention (covers : retentionDays ≤ 0 ∨ setup.refreshTtl ≤ retentionDays * 86400)
    (steady : Monotone fun i => (readings.clock i).wall) (sound : Sound setup wall row)
    (listed : row ∈ rows) (ended : row.revokedAt ≠ none)
    (lives : ⌊(readings.clock rounds).wall⌋ ≤ row.expiresAt) :
    row ∈ pruneRetention retentionDays readings rows := by
  unfold pruneRetention
  split
  · exact listed
  · next prunes =>
      obtain ⟨revokedAt, revoked⟩ := Option.ne_none_iff_exists'.mp ended
      have first : (readings.clock 0).seconds ≤ ⌊(readings.clock rounds).wall⌋ :=
        Int.floor_le_floor (steady (Nat.zero_le _))
      have second : (readings.clock 1).seconds ≤ ⌊(readings.clock rounds).wall⌋ :=
        Int.floor_le_floor (steady (by decide))
      have issued := sound.revoked revokedAt revoked
      have expires := sound.expires
      refine List.mem_filter.mpr ⟨listed, ?_⟩
      simp only [revoked, Option.any_some, Bool.not_eq_true', Bool.or_eq_false_iff,
        decide_eq_false_iff_not]
      omega

end

/-! ### Whole runs -/

/-- What holds of the rows throughout a run. -/
structure Orderly (setup : Setup) (s : Vault) : Prop where
  distinct : Distinct s.rows
  sound : ∀ row ∈ s.rows, Sound setup s.wall row

theorem Orderly.step (orderly : s.Orderly setup) (steady : s.Steady a)
    (taken : s.step setup retentionDays a = some t) : t.Orderly setup := by
  have wall := step_wall taken
  cases vault_steps orderly.distinct taken with
  | serves evolves =>
      refine ⟨orderly.distinct.evolves evolves, ?_⟩
      rw [wall]
      exact sound_evolves orderly.sound steady.1 steady.2 evolves
  | prunes pruned =>
      have kept : t.rows.Sublist s.rows := pruned ▸ pruneRetention_sublist ..
      refine ⟨orderly.distinct.sublist (kept.map _), fun row listed => ?_⟩
      rw [wall]
      exact (orderly.sound row (kept.subset listed)).later
        (steady.1.trans (steady.2 (Nat.zero_le _)))

theorem orderly (reached : (vault setup retentionDays).Reachable Steady s) :
    s.Orderly setup := by
  apply reached.invariant (motive := Orderly setup)
  · exact ⟨List.nodup_nil, nofun⟩
  · intro s a t _ orderly steady taken
    exact orderly.step steady taken

/-- A token that ended is still known, or has expired. -/
theorem known_or_expired {row : RefreshToken}
    (covers : retentionDays ≤ 0 ∨ setup.refreshTtl ≤ retentionDays * 86400)
    (path : (vault setup retentionDays).Path Steady s t) (orderly : s.Orderly setup)
    (listed : row ∈ s.rows) (ended : row.revokedAt ≠ none) :
    t.Orderly setup ∧ (row ∈ t.rows ∨ row.expiresAt < ⌊t.wall⌋) := by
  apply path.stable
    (motive := fun t => t.Orderly setup ∧ (row ∈ t.rows ∨ row.expiresAt < ⌊t.wall⌋))
  · rintro s a t ⟨orderly, known | expired⟩ steady taken
    · refine ⟨orderly.step steady taken, ?_⟩
      cases vault_steps orderly.distinct taken with
      | serves evolves => exact .inl (mem_evolves evolves known ended)
      | prunes pruned =>
          by_cases lives : ⌊t.wall⌋ ≤ row.expiresAt
          · rw [step_wall taken] at lives
            rw [pruned]
            exact .inl (mem_pruneRetention covers steady.2 (orderly.sound row known) known ended
              lives)
          · exact .inr (Int.not_le.mp lives)
    · refine ⟨orderly.step steady taken, .inr (expired.trans_le (Int.floor_le_floor ?_))⟩
      rw [step_wall taken]
      exact steady.1.trans (steady.2 (Nat.zero_le _))
  · exact ⟨orderly, .inl listed⟩

/-- Nobody is logged in. -/
structure LoggedOut (s : Vault) : Prop where
  refreshTokens : ∀ row ∈ s.rows, ¬ (row.revokedAt = none ∧ ⌊s.wall⌋ ≤ row.expiresAt)
  accessTokens : ∀ token entry, s.service.accessTokens.get token = some entry →
    entry.expiresAt < s.wall

/-- A token that was exchanged and has not expired when it is looked up logs everybody out. -/
def DetectsReuse (setup : Setup) (retentionDays : Int) : Prop :=
  ∀ ⦃s t : Vault⦄, (vault setup retentionDays).Reachable Steady s →
    (vault setup retentionDays).Path Steady s t →
    ∀ row ∈ s.rows, row.replacedBy ≠ none → ∀ readings fresh,
      t.service.now ≤ (readings.clock 0).monotonic →
      t.Steady (.request readings fresh (.refreshGrant row.tokenHash)) →
      (readings.clock 1).seconds ≤ row.expiresAt →
      ∃ u, t.step setup retentionDays (.request readings fresh (.refreshGrant row.tokenHash)) =
        some u ∧ u.LoggedOut

theorem step_of_ends (retentionDays : Int) {readings : ClockReadings} {fresh : Nat × Nat}
    {request : Request} {final : AuthService → Prop}
    (later : s.service.now ≤ (readings.clock 0).monotonic)
    (ends : Ends setup fresh rounds readings.rest (s.service.enter (readings.clock 0) request)
      { s.service with now := (readings.clock 0).monotonic } final) :
    ∃ u, (vault setup retentionDays).step s (.request readings fresh request) = some u ∧
      final u.service ∧ u.wall = (readings.clock rounds).wall := by
  obtain ⟨outcome, service, ran, holds⟩ := ends
  refine ⟨⟨service, (readings.clock rounds).wall⟩, ?_, holds, rfl⟩
  simp only [vault, step, if_pos later]
  exact congrArg (Option.map _) ran

/-- A token that ended is noticed as long as it is known. -/
theorem step_reused {readings : ClockReadings} {fresh : Nat × Nat} {row : RefreshToken}
    (distinct : Distinct s.rows) (listed : row ∈ s.rows) (ended : row.revokedAt ≠ none)
    (later : s.service.now ≤ (readings.clock 0).monotonic) :
    ∃ u, s.step setup retentionDays (.request readings fresh (.refreshGrant row.tokenHash)) =
      some u ∧ u.LoggedOut := by
  have found : s.rows.find? (fun other => other.tokenHash = row.tokenHash) = some row := by
    cases found : s.rows.find? fun other => other.tokenHash = row.tokenHash with
    | none => simpa using List.find?_eq_none.mp found row listed
    | some other =>
        have same : other.tokenHash = row.tokenHash := by simpa using List.find?_some found
        rw [distinct.only (List.mem_of_find?_eq_some found) listed same]
  have ends : Ends setup fresh rounds readings.rest
      (s.service.enter (readings.clock 0) (.refreshGrant row.tokenHash))
      { s.service with now := (readings.clock 0).monotonic }
      fun t => (∀ row ∈ t.store.refreshTokens, row.revokedAt ≠ none) ∧
        t.accessTokens = .empty := by
    refine ends_waiting (ends_replied rfl ?_)
    simp only [Store.execute, found]
    rw [lookedUp, if_pos ended]
    refine ends_waiting (ends_replied rfl (ends_ended ⟨?_, rfl⟩))
    exact Store.revoked_of_revokeAll _ s.service.store
  obtain ⟨u, taken, ⟨revoked, cleared⟩, -⟩ := step_of_ends retentionDays later ends
  refine ⟨u, taken, ?_, ?_⟩
  · exact fun row listed lives => revoked row listed lives.1
  · intro token entry there
    simp only [cleared, Table.get_empty, reduceCtorEq] at there

/-! ### When the token is forgotten -/

/-- The token of the login. -/
def granted (setup : Setup) : RefreshToken := ⟨1, 0, setup.refreshTtl, none, none, 0⟩

/-- It was exchanged. -/
def exchanged (setup : Setup) : RefreshToken := ⟨1, 0, setup.refreshTtl, some 0, some 3, 0⟩

/-- The token that it was exchanged for. -/
def received (setup : Setup) : RefreshToken := ⟨3, 0, setup.refreshTtl, none, none, 0⟩

theorem seconds_still (seconds : Int) (n : Nat) :
    ((ClockReadings.still seconds).clock n).seconds = seconds :=
  Int.floor_intCast seconds

theorem login_ends : Ends setup (0, 1) rounds (ClockReadings.still 0).rest
    ((AuthService.init setup).enter ((ClockReadings.still 0).clock 0) (login defaultPassword))
    (.init setup) fun t => t.store.refreshTokens = [granted setup] ∧ t.now = 0 := by
  have free : ¬ LoginThrottle.init.refuses "10.0.0.1".toList 0 = true := by
    simp [LoginThrottle.refuses, LoginThrottle.init, Bucket.locked, Bucket.init]
  have enters : (AuthService.init setup).enter ((ClockReadings.still 0).clock 0)
      (login defaultPassword) =
      .waiting .getUser (.passwordUser "admin".toList defaultPassword "10.0.0.1".toList) :=
    if_neg free
  have own : "admin".toList = (AuthService.init setup).store.user.username ∧
      passwordMatches setup (AuthService.init setup).store.user defaultPassword = true :=
    ⟨rfl, decide_eq_true rfl⟩
  rw [enters]
  apply ends_waiting
  refine ends_replied (congrArg some (if_pos own)) (ends_waiting ?_)
  refine ends_replied rfl (ends_ended ⟨?_, rfl⟩)
  simp [Store.execute, AuthService.init, granted, ClockReadings.still, ClockReadings.rest,
    Clock.both, Clock.seconds]

theorem exchange_ends {s : AuthService} (rows : s.store.refreshTokens = [granted setup])
    (lasts : 0 ≤ setup.refreshTtl) :
    Ends setup (2, 3) rounds (ClockReadings.still 0).rest
      (s.enter ((ClockReadings.still 0).clock 0) (.refreshGrant 1)) { s with now := 0 }
      fun t => t.store.refreshTokens = [exchanged setup, received setup] ∧ t.now = 0 := by
  obtain ⟨⟨user, rows⟩, accessTokens, throttle, calls, now, attempts⟩ := s
  cases rows
  have lives : ¬ (granted setup).expiresAt < ((ClockReadings.still 0).rest.clock 0).seconds := by
    have still := seconds_still 0 1
    exact not_lt.mpr (still.trans_le lasts)
  have looked : lookedUp ((ClockReadings.still 0).rest.clock 0) 1 (some (granted setup)) =
      .waiting .getUser (.refreshUser 1 ((ClockReadings.still 0).rest.clock 0).seconds 0) :=
    if_neg lives
  refine ends_waiting (ends_replied rfl ?_)
  refine looked ▸ ends_waiting (ends_replied rfl (ends_waiting (ends_replied rfl ?_)))
  refine ends_waiting (ends_replied rfl (ends_ended ⟨?_, rfl⟩))
  simp [Store.execute, granted, exchanged, received, ClockReadings.still, ClockReadings.rest,
    Clock.both, Clock.seconds]

/-- A login, and the exchange of its token before any time has passed. -/
theorem reaches_exchanged (setup : Setup) (retentionDays : Int) (lasts : 0 ≤ setup.refreshTtl) :
    ∃ s, (vault setup retentionDays).Reachable Steady s ∧
      s.rows = [exchanged setup, received setup] ∧ s.wall = 0 ∧ s.service.now = 0 := by
  have start : (vault setup retentionDays).Reachable Steady (vault setup retentionDays).init :=
    System.reachable_init
  obtain ⟨s, first, ⟨rows, now⟩, wall⟩ := step_of_ends (s := (vault setup retentionDays).init)
    retentionDays le_rfl login_ends
  have begun := start.step (a := Act.request (.still 0) (0, 1) (login defaultPassword))
    ⟨le_rfl, monotone_const⟩ first
  obtain ⟨t, second, ⟨rows, now⟩, walls⟩ := step_of_ends retentionDays now.le
    (exchange_ends rows lasts)
  have rotated := begun.step (a := Act.request (.still 0) (2, 3) (.refreshGrant 1))
    ⟨wall.le, monotone_const⟩ second
  exact ⟨t, rotated, rows, walls, now⟩

/-- A token that lives longer than it is retained is forgotten before it expires. -/
theorem forgets (prunes : 0 < retentionDays) (outlives : retentionDays * 86400 < setup.refreshTtl) :
    ¬ DetectsReuse setup retentionDays := by
  intro detects
  obtain ⟨s, reached, rows, wall, now⟩ := reaches_exchanged setup retentionDays (by omega)
  obtain ⟨late, is⟩ : ∃ late : Int, late = retentionDays * 86400 + 1 := ⟨_, rfl⟩
  have passes : (0 : ℚ) ≤ late := by
    have positive : 0 ≤ late := by omega
    exact_mod_cast positive
  let t : Vault := ⟨{ s.service with store.refreshTokens := [received setup] }, late⟩
  have forgotten : pruneRetention retentionDays (.still late) s.rows = [received setup] := by
    have stays : late ≤ setup.refreshTtl := is.trans_le outlives
    have goes : retentionDays * 86400 < late := by omega
    rw [rows, pruneRetention, if_neg (by omega)]
    simp only [seconds_still]
    simp [exchanged, received, stays, goes]
  have pruned : (vault setup retentionDays).step s (.prune (.still late)) = some t := by
    simp only [vault, step, forgotten]
    rfl
  have path : (vault setup retentionDays).Path Steady s t :=
    .tail (a := Act.prune (.still late)) (.refl s) ⟨wall.trans_le passes, monotone_const⟩ pruned
  have unknown : Ends setup (4, 5) rounds (ClockReadings.still late).rest
      (t.service.enter ((ClockReadings.still late).clock 0) (.refreshGrant 1))
      { t.service with now := (late : ℚ) }
      fun u => u.store.refreshTokens = [received setup] := by
    refine ends_waiting (ends_replied rfl ?_)
    exact ends_ended rfl
  obtain ⟨u, taken, logged⟩ := detects reached path (exchanged setup)
    (rows ▸ List.mem_cons_self) nofun (.still late) (4, 5) (now.trans_le passes)
    ⟨le_rfl, monotone_const⟩ ((seconds_still late 1).trans_le (is.trans_le outlives))
  have later : t.service.now ≤ ((ClockReadings.still late).clock 0).monotonic :=
    now.trans_le passes
  obtain ⟨v, also, remains, walls⟩ := step_of_ends retentionDays later unknown
  cases taken.symm.trans also
  have live := logged.refreshTokens (received setup)
  rw [show u.rows = _ from remains, walls] at live
  exact live List.mem_cons_self ⟨rfl, (seconds_still late 0).trans_le (is.trans_le outlives)⟩

theorem detects_of_covers (covers : retentionDays ≤ 0 ∨ setup.refreshTtl ≤ retentionDays * 86400) :
    DetectsReuse setup retentionDays := by
  intro s t reached path row listed exchanged readings fresh later steady lives
  have before := orderly reached
  have ended := (before.sound row listed).replaced exchanged
  obtain ⟨after, known | expired⟩ := known_or_expired covers path before listed ended
  · exact step_reused after.distinct known ended later
  · have passed : ⌊t.wall⌋ ≤ (readings.clock 1).seconds :=
      Int.floor_le_floor (steady.1.trans (steady.2 (Nat.zero_le 1)))
    omega

/-- Who presents a token that was exchanged is noticed, in every run, exactly if no token lives
longer than it is retained. -/
theorem reuse_detected_iff (setup : Setup) (retentionDays : Int) :
    DetectsReuse setup retentionDays ↔
      retentionDays ≤ 0 ∨ setup.refreshTtl ≤ retentionDays * 86400 := by
  constructor
  · intro always
    by_contra neither
    rw [not_or, not_le, not_le] at neither
    exact forgets neither.1 neither.2 always
  · exact detects_of_covers

/-- Tokens that live for 30 days and are retained for a week. -/
theorem reuse_forgotten_after_a_week : ¬ DetectsReuse plain 7 := forgets (by decide) (by decide)

end Vault

end Zorkbot.Admin
