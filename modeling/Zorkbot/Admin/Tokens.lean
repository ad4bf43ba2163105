/-
# Refresh tokens are used once

A refresh grant looks its token up, hands out new tokens and only then revokes the old
one, each in a step of the store. Two grants that have both looked the token up before
either has revoked it exchange it twice. In a run without such lookups a token is
exchanged once, and whoever presents it afterwards is refused and has all tokens revoked.
-/

import Zorkbot.Admin.AuthSteps

namespace Zorkbot.Admin

open Zorkbot.Bot (Str)
open Transition

/-! ## Tokens in hand -/

def Wait.holds (hash : Nat) : Wait → Bool
  | .refreshUser other .. | .refreshIssued other .. => decide (other = hash)
  | _ => false

def Wait.replaces (hash : Nat) : Wait → Bool
  | .refreshReplaced other _ => decide (other = hash)
  | _ => false

def Reply.holds (hash : Nat) : Wait → Reply → Bool
  | .refreshRow other, .refreshToken (some row) =>
      decide (other = hash) && decide (row.revokedAt = none)
  | _, _ => false

/-- A grant has looked a token up that was not revoked, and has not revoked it yet. -/
def Point.holds (hash : Nat) : Point → Bool
  | .waiting _ wait => wait.holds hash || wait.replaces hash
  | .replied reply wait => wait.holds hash || reply.holds hash wait
  | .ended _ => false

/-- A grant has revoked a token that it has exchanged. -/
def Point.exchanged (hash : Nat) (request : Request) : Point → Bool
  | .replied _ wait => wait.replaces hash
  | .ended (.tokens _) => decide (request = .refreshGrant hash)
  | _ => false

namespace AuthService

variable {setup : Setup} {s t u : AuthService} {hash : Nat}

/-- A token is about to be looked up that another grant has in hand. -/
def contended (s : AuthService) : Act → Bool
  | .execute n =>
      match s.call n with
      | some (_, .waiting (.getRefreshToken hash) _) =>
          ((s.store.refreshTokens.find? fun row => row.tokenHash = hash).any fun row =>
            row.revokedAt = none) && s.calls.any fun call => call.2.holds hash
      | _ => false
  | _ => false

/-- The grant exchanges the token, or has. -/
def Engaged (s : AuthService) (n hash : Nat) : Prop :=
  ∃ request point, s.call n = some (request, point) ∧
    (point.holds hash = true ∨ point.exchanged hash request = true)

/-- The grant has exchanged the token. -/
def Exchanged (s : AuthService) (n hash : Nat) : Prop :=
  ∃ request point, s.call n = some (request, point) ∧ point.exchanged hash request = true

/-- The grant gets a token that is not revoked from the store. -/
structure Finds (s : AuthService) (a : Act) (n hash : Nat) : Prop where
  act : a = .execute n
  there : ∃ request, s.call n = some (request, .waiting (.getRefreshToken hash) (.refreshRow hash))
  live : ∃ row, (s.store.refreshTokens.find? fun row => row.tokenHash = hash) = some row ∧
    row.revokedAt = none

theorem enter_free (clock : Clock) (request : Request) :
    (s.enter clock request).holds hash = false ∧
      (s.enter clock request).exchanged hash request = false := by
  cases request with
  | passwordGrant =>
      simp only [enter]
      split <;> exact ⟨rfl, rfl⟩
  | _ => exact ⟨rfl, rfl⟩

theorem holds_executed {request : Request} {statement : Statement} {wait : Wait}
    (asks : Asks request statement wait) {store : Store}
    (holds : (Point.replied (store.execute statement).1 wait).holds hash = true) :
    (Point.waiting statement wait).holds hash = true ∨
      statement = .getRefreshToken hash ∧ wait = .refreshRow hash ∧
        ∃ row, (store.refreshTokens.find? fun row => row.tokenHash = hash) = some row ∧
          row.revokedAt = none := by
  cases asks with
  | @refreshRow other =>
      right
      simp only [Point.holds, Wait.holds, Store.execute, Bool.false_or] at holds
      cases found : store.refreshTokens.find? fun row => row.tokenHash = other with
      | none =>
          rw [found] at holds
          cases holds
      | some row =>
          rw [found] at holds
          simp only [Reply.holds, Bool.and_eq_true, decide_eq_true_eq] at holds
          obtain ⟨rfl, live⟩ := holds
          exact ⟨rfl, rfl, row, found, live⟩
  | refreshUser | refreshIssued =>
      left
      simpa [Point.holds, Wait.holds, Wait.replaces, Reply.holds] using holds
  | _ => simp [Point.holds, Wait.holds, Reply.holds] at holds

theorem engaged_resumed {clock : Clock} {fresh : Nat × Nat} {request : Request} {wait : Wait}
    {reply : Reply} {point : Point} (resumed : Resumed setup clock fresh s wait reply point t)
    (fits : Fits request (.replied reply wait))
    (engaged : point.holds hash = true ∨ point.exchanged hash request = true) :
    (Point.replied reply wait).holds hash = true ∨
      (Point.replied reply wait).exchanged hash request = true := by
  obtain ⟨statement, asks⟩ := fits.asks
  cases resumed with
  | goesOn live =>
      simpa [Point.holds, Point.exchanged, Wait.holds, Wait.replaces, Reply.holds, live]
        using engaged
  | exchanges | replaces =>
      simpa [Point.holds, Point.exchanged, Wait.holds, Wait.replaces, Reply.holds] using engaged
  | exchanged =>
      cases asks
      right
      simpa [Point.holds, Point.exchanged, Wait.replaces] using engaged
  | issued =>
      cases asks
      simp [Point.holds, Point.exchanged] at engaged
  | _ => simp [Point.holds, Point.exchanged, Wait.holds, Wait.replaces] at engaged

/-- A grant comes to exchange a token by looking it up. -/
theorem engaged_of_step
    (fits : ∀ n request point, s.call n = some (request, point) → Fits request point) {a : Act}
    (taken : s.step setup a = some t) {n : Nat} (engaged : t.Engaged n hash) :
    s.Engaged n hash ∨ s.Finds a n hash := by
  obtain ⟨request, point, there, engaged⟩ := engaged
  cases moved taken there with
  | rests before => exact .inl ⟨request, point, before, engaged⟩
  | enters =>
      rw [(enter_free ..).1, (enter_free ..).2] at engaged
      simp at engaged
  | executes act before =>
      cases fits n request _ before with
      | waiting asks =>
          rcases engaged with holds | exchanged
          · rcases holds_executed asks holds with earlier | ⟨rfl, rfl, live⟩
            · exact .inl ⟨request, _, before, .inl earlier⟩
            · exact .inr ⟨act, ⟨request, before⟩, live⟩
          · refine .inl ⟨request, _, before, .inl ?_⟩
            exact Bool.or_eq_true_iff.mpr (.inr exchanged)
  | resumes _ before resumed =>
      exact .inl ⟨request, _, before, engaged_resumed resumed (fits n request _ before) engaged⟩

/-- A grant has exchanged a token when the store has revoked it. -/
theorem exchanged_of_step
    (fits : ∀ n request point, s.call n = some (request, point) → Fits request point) {a : Act}
    (taken : s.step setup a = some t) {n : Nat} (exchanged : t.Exchanged n hash) :
    s.Exchanged n hash ∨ t.store.Revoked hash := by
  obtain ⟨request, point, there, exchanged⟩ := exchanged
  cases moved taken there with
  | rests before => exact .inl ⟨request, point, before, exchanged⟩
  | enters =>
      rw [(enter_free ..).2] at exchanged
      cases exchanged
  | executes _ before store =>
      cases fits n request _ before with
      | waiting asks =>
          cases asks with
          | refreshReplaced =>
              right
              rw [store, ← of_decide_eq_true exchanged]
              exact Store.revoked_of_replace _ _ _ _
          | _ => cases exchanged
  | resumes _ before resumed =>
      left
      refine ⟨request, _, before, ?_⟩
      obtain ⟨statement, asks⟩ := (fits n request _ before).asks
      cases resumed with
      | exchanged =>
          cases asks
          simpa [Point.exchanged, Wait.replaces] using exchanged
      | issued =>
          cases asks
          simp [Point.exchanged] at exchanged
      | _ => cases exchanged

/-! ## One exchange -/

structure Single (s : AuthService) : Prop where
  one : ∀ {n m hash}, s.Engaged n hash → s.Engaged m hash → n = m
  known : ∀ {n hash}, s.Engaged n hash → s.store.Knows hash
  revoked : ∀ {n hash}, s.Exchanged n hash → s.store.Revoked hash

theorem Exchanged.engaged {n : Nat} (exchanged : s.Exchanged n hash) : s.Engaged n hash := by
  obtain ⟨request, point, there, exchanged⟩ := exchanged
  exact ⟨request, point, there, .inr exchanged⟩

/-- Who finds a token is the only one to have it. -/
theorem Single.alone (single : s.Single) {a : Act} {n : Nat} (finds : s.Finds a n hash)
    (orderly : s.contended a = false) {m : Nat} (engaged : s.Engaged m hash) : False := by
  obtain ⟨rfl, ⟨request, there⟩, row, found, live⟩ := finds
  obtain ⟨other, point, there', holds | exchanged⟩ := engaged
  · have held : (s.calls.any fun call => call.2.holds hash) = true :=
      List.any_eq_true.mpr ⟨_, List.mem_of_getElem? there', holds⟩
    simp [contended, there, found, live, held] at orderly
  · have is : row.tokenHash = hash := by simpa using List.find?_some found
    exact single.revoked ⟨other, point, there', exchanged⟩ row
      (List.mem_of_find?_eq_some found) is live

theorem single_step (single : s.Single)
    (fits : ∀ n request point, s.call n = some (request, point) → Fits request point) {a : Act}
    (orderly : s.contended a = false) (taken : s.step setup a = some t) : t.Single := by
  constructor
  · intro n m hash first second
    rcases engaged_of_step fits taken first with before | finds
    · rcases engaged_of_step fits taken second with before' | finds'
      · exact single.one before before'
      · exact (single.alone finds' orderly before).elim
    · rcases engaged_of_step fits taken second with before' | finds'
      · exact (single.alone finds orderly before').elim
      · exact Act.execute.inj (finds.act.symm.trans finds'.act)
  · intro n hash engaged
    rcases engaged_of_step fits taken engaged with before | ⟨-, -, row, found, -⟩
    · exact Knows.step taken (single.known before)
    · refine Knows.step taken ⟨row, List.mem_of_find?_eq_some found, ?_⟩
      simpa using List.find?_some found
  · intro n hash exchanged
    rcases exchanged_of_step fits taken exchanged with before | now
    · exact Revoked.step taken (single.revoked before) (single.known before.engaged)
    · exact now

theorem single (reached : (authService setup).Reachable (fun s a => s.contended a = false) s) :
    s.Single := by
  apply reached.invariant (motive := Single)
  · have none : ∀ n hash, ¬ (authService setup).init.Engaged n hash := by
      rintro n hash ⟨request, point, there, -⟩
      simp [call, authService, init] at there
    constructor
    · exact fun engaged => absurd engaged (none _ _)
    · exact fun engaged => absurd engaged (none _ _)
    · exact fun exchanged => absurd exchanged.engaged (none _ _)
  · intro s a t prior single orderly taken
    exact single_step single (fits prior) orderly taken

/-! ## A token is presented again -/

/-- A run of the service from one state to another. -/
def Onward (setup : Setup) (s t : AuthService) : Prop :=
  (authService setup).Path (fun _ _ => True) s t

theorem Onward.step (onward : Onward setup s t) {a : Act} (taken : t.step setup a = some u) :
    Onward setup s u :=
  .tail onward trivial taken

/-- Since a state all refresh tokens were revoked, and then all access tokens. -/
def Purged (setup : Setup) (s t : AuthService) : Prop :=
  ∃ u v, Onward setup s u ∧ (∀ row ∈ u.store.refreshTokens, row.revokedAt ≠ none) ∧
    Onward setup u v ∧ v.accessTokens = .empty ∧ Onward setup v t

/-- The way of a grant that presents a token since it was exchanged. -/
inductive Presents (setup : Setup) (s t : AuthService) (n hash : Nat) : Prop
  | absent (late : t.calls.length ≤ n)
  | other {request : Request} {point : Point} (there : t.call n = some (request, point))
      (other : request ≠ .refreshGrant hash)
  | asks (there : t.call n = some (.refreshGrant hash,
      .waiting (.getRefreshToken hash) (.refreshRow hash)))
  | finds {row : RefreshToken} (there : t.call n = some (.refreshGrant hash,
      .replied (.refreshToken (some row)) (.refreshRow hash))) (revoked : row.revokedAt ≠ none)
  | revokes {now : Int}
      (there : t.call n = some (.refreshGrant hash, .waiting (.revokeAll now) .reused))
  | revoked (there : t.call n = some (.refreshGrant hash, .replied .done .reused))
      (revoked : ∃ u, Onward setup s u ∧ (∀ row ∈ u.store.refreshTokens, row.revokedAt ≠ none) ∧
        Onward setup u t)
  | refused (there : t.call n = some (.refreshGrant hash,
      .ended (.raised (invalidGrant "refresh token already used")))) (purged : Purged setup s t)

theorem Purged.onward (purged : Purged setup s t) {a : Act} (taken : t.step setup a = some u) :
    Purged setup s u := by
  obtain ⟨v, w, first, revoked, second, none, third⟩ := purged
  exact ⟨v, w, first, revoked, second, none, third.step taken⟩

theorem presents_step (onward : Onward setup s t) (revoked : t.store.Revoked hash)
    (knows : t.store.Knows hash) {n : Nat} (presents : Presents setup s t n hash) {a : Act}
    (taken : t.step setup a = some u) : Presents setup s u n hash := by
  cases presents with
  | absent late =>
      cases here : u.call n with
      | none => exact .absent (List.getElem?_eq_none_iff.mp here)
      | some call =>
          obtain ⟨request, point⟩ := call
          have gone : t.call n = none := List.getElem?_eq_none late
          cases moved taken here with
          | enters =>
              by_cases same : request = .refreshGrant hash
              · subst same
                exact .asks here
              · exact .other here same
          | rests before | executes _ before | resumes _ before =>
              rw [gone] at before
              cases before
  | other there different =>
      obtain ⟨point, here, -⟩ := follows taken there
      exact .other here different
  | asks there =>
      obtain ⟨point, here, went⟩ := follows taken there
      cases went with
      | rests => exact .asks here
      | executes =>
          obtain ⟨row, listed, is⟩ := knows
          cases found : t.store.refreshTokens.find? fun row => row.tokenHash = hash with
          | none =>
              have other := List.find?_eq_none.mp found row listed
              rw [decide_eq_true_eq] at other
              exact absurd is other
          | some first =>
              simp only [Store.execute, found] at here
              apply Presents.finds here
              apply revoked first (List.mem_of_find?_eq_some found)
              simpa using List.find?_some found
  | finds there dead =>
      obtain ⟨point, here, went⟩ := follows taken there
      cases went with
      | rests => exact .finds here dead
      | resumes resumed =>
          cases resumed with
          | reuses => exact .revokes here
          | expires live | goesOn live => exact absurd live dead
  | revokes there =>
      obtain ⟨point, here, went⟩ := follows taken there
      cases went with
      | rests => exact .revokes here
      | @executes statement wait store =>
          refine .revoked here ⟨u, onward.step taken, ?_, .refl _⟩
          rw [store]
          exact Store.revoked_of_revokeAll _ _
  | revoked there purged =>
      obtain ⟨point, here, went⟩ := follows taken there
      obtain ⟨v, first, dead, second⟩ := purged
      cases went with
      | rests => exact .revoked here ⟨v, first, dead, second.step taken⟩
      | resumes resumed accessTokens =>
          cases resumed with
          | purges =>
              exact .refused here ⟨v, u, first, dead, second.step taken, accessTokens, .refl _⟩
  | refused there purged =>
      obtain ⟨point, here, went⟩ := follows taken there
      cases went with
      | rests => exact .refused here (purged.onward taken)

/-- A token that the store has revoked stays so, whoever presents it. -/
theorem presents_of_path (revoked : s.store.Revoked hash) (knows : s.store.Knows hash) {n : Nat}
    (presents : Presents setup s s n hash) (onward : Onward setup s t) :
    Presents setup s t n hash := by
  have all : Onward setup s t ∧ t.store.Revoked hash ∧ t.store.Knows hash ∧
      Presents setup s t n hash := by
    apply onward.stable (motive := fun t => Onward setup s t ∧ t.store.Revoked hash ∧
      t.store.Knows hash ∧ Presents setup s t n hash)
    · rintro t a u ⟨onward, revoked, knows, presents⟩ - taken
      exact ⟨onward.step taken, Revoked.step taken revoked knows, Knows.step taken knows,
        presents_step onward revoked knows presents taken⟩
    · exact ⟨.refl _, revoked, knows, presents⟩
  exact all.2.2.2

/-- The grant has not been looked up yet, or has not even come in. -/
def Later (s : AuthService) (n hash : Nat) : Prop :=
  s.calls.length ≤ n ∨
    s.call n = some (.refreshGrant hash, .waiting (.getRefreshToken hash) (.refreshRow hash))

/-- In a run where no token is looked up that another grant has in hand, a token is
exchanged by one grant only, and from when the store has revoked it for that grant each one that
looks it up is refused, with all refresh and all access tokens revoked before it ends. -/
theorem refresh_tokens_single_use
    (reached : (authService setup).Reachable (fun s a => s.contended a = false) s) {m hash : Nat}
    (spent : s.Exchanged m hash) :
    (∀ n, s.Exchanged n hash → n = m) ∧
      ∀ n t outcome, s.Later n hash → Onward setup s t →
        t.call n = some (.refreshGrant hash, .ended outcome) →
          outcome = .raised (invalidGrant "refresh token already used") ∧ Purged setup s t := by
  have single := single reached
  constructor
  · intro n again
    exact single.one again.engaged spent.engaged
  · intro n t outcome later onward ended
    have presents : Presents setup s s n hash := later.elim .absent .asks
    have now := presents_of_path (single.revoked spent) (single.known spent.engaged) presents onward
    cases now with
    | absent late =>
        rw [call, List.getElem?_eq_none late] at ended
        cases ended
    | other there other =>
        rw [ended] at there
        cases there
        exact absurd rfl other
    | refused there purged =>
        rw [ended] at there
        cases there
        exact ⟨rfl, purged⟩
    | asks there | finds there | revokes there | revoked there =>
        rw [ended] at there
        cases there

/-- A refresh grant from its lookup on, up to where its token is revoked. -/
def exchanges (n : Nat) (fresh : Nat × Nat) : List Act :=
  goesOn n (0, 0) 0 ++ goesOn n fresh 0 ++ goesOn n (0, 0) 0

/-- The new tokens are not answered yet. -/
theorem refresh_tokens_single_use_once :
    ∃ s : AuthService, s.Later 2 21 ∧ (∀ n, s.Exchanged n 21 → n = 1) ∧
      ∀ n t outcome, s.Later n 21 → Onward plain s t →
        t.call n = some (.refreshGrant 21, .ended outcome) →
          outcome = .raised (invalidGrant "refresh token already used") ∧ Purged plain s t := by
  obtain ⟨s, reached, late, spent⟩ := System.reaches (authService plain)
    (fun s a => s.contended a = false)
    (fun s => s.calls.length ≤ 2 ∧ s.call 1 = some (.refreshGrant 21,
      .replied .done (.refreshReplaced 21 ⟨10, 11, 1800, .passwordChange, true⟩)))
    (logsIn 0 (20, 21) ++ asks (.refreshGrant 21) 1 0 ++ exchanges 1 (10, 11))
    (fun _ _ _ => trivial) (by decide +kernel)
  exact ⟨s, .inl late, refresh_tokens_single_use (reached.mono fun _ _ both => both.1)
    ⟨_, _, spent, rfl⟩⟩

/-- Two grants look the same token up, and both get new ones for it. -/
theorem refresh_token_used_twice :
    ∃ s, (authService plain).Reachable (fun _ _ => True) s ∧
      s.call 1 = some (.refreshGrant 21, .ended (.tokens ⟨10, 11, 1800, .passwordChange, true⟩)) ∧
      s.call 2 =
        some (.refreshGrant 21, .ended (.tokens ⟨30, 31, 1800, .passwordChange, true⟩)) := by
  obtain ⟨s, reached, outcome⟩ := System.reaches (authService plain) (fun _ _ => True)
    (fun s => s.call 1 = some (.refreshGrant 21,
        .ended (.tokens ⟨10, 11, 1800, .passwordChange, true⟩)) ∧
      s.call 2 = some (.refreshGrant 21, .ended (.tokens ⟨30, 31, 1800, .passwordChange, true⟩)))
    (logsIn 0 (20, 21) ++ asks (.refreshGrant 21) 1 0 ++ asks (.refreshGrant 21) 2 0 ++
      exchanges 1 (10, 11) ++ [.resume 1 (.both 0) (0, 0)] ++
      exchanges 2 (30, 31) ++ [.resume 2 (.both 0) (0, 0)])
    (fun _ _ _ => trivial) (by decide +kernel)
  exact ⟨s, reached.mono fun _ _ _ => trivial, outcome⟩

end AuthService

end Zorkbot.Admin
