/-
# What a save replaces

A session is saved whatever became of its game: `Start` puts a session in the
table also when its restore failed, a command that timed out is followed by a
restart of the interpreter, and neither is remembered when the session is saved.
`Start` also looks for a save file, and restores it, while the session that left
the table last may still have to be saved.

Where a session enters the table only with the game of the save file, and no
restart makes a session of a player with a save file begin anew, whatever is
saved goes back to what it replaces.
-/

import Zorkbot.Pty.Script

namespace Zorkbot.Pty

open Go Transition

variable {G : Type}

namespace Pool

variable {I : Interpreter G} {cfg : PoolConfig} {s t : Pool G} {a : Act} {p : PlayerId}

/-- The session of a player's command that timed out, if a restart is the
goroutine's next step. -/
def restarts (s : Pool G) (c : Nat) : Option (PlayerId × Nat) :=
  match s.threads.get c with
  | some (.calling p m .reply call) => if call.phase = .timedOut then some (p, m) else none
  | _ => none

/-- The running interpreter of a session has the game of the save file. -/
def UpToDate (s : Pool G) (p : PlayerId) (m : Nat) : Prop :=
  ∀ f ∈ (s.disks p).save, ∀ σ ∈ s.sessionsOf m, σ.running = true → σ.play.saves = f.saves

instance (s : Pool G) (p : PlayerId) (m : Nat) : Decidable (s.UpToDate p m) := by
  unfold UpToDate
  infer_instance

/-- The session is neither in the table nor still to be saved. -/
def LetGo (s : Pool G) (p : PlayerId) (m : Nat) : Prop :=
  (∀ e ∈ s.entries.get p, e.manager ≠ m) ∧
    (∀ (c : Nat) (here : Thread), s.threads.get c = some here → here.toSave ≠ some (p, m)) ∧
    ∀ σ ∈ s.sessionsOf m, σ.running = true → ¬ σ.Saving

instance (s : Pool G) (p : PlayerId) (m : Nat) : Decidable (s.LetGo p m) :=
  inferInstanceAs (Decidable (_ ∧ _ ∧ _))

theorem LetGo.not_held {m : Nat} (gone : s.LetGo p m) : ¬ s.Held p m := by
  rintro (⟨e, listed, same⟩ | ⟨c, here, at_, toSave⟩ | ⟨i, σ, now, running, saving⟩)
  · exact gone.1 e listed same
  · exact gone.2.1 c here at_ toSave
  · exact gone.2.2 σ now.mem_sessionsOf running saving

/-- A session enters the table with the game of the save file and while no save is
to come, and a restart makes no session of a player with a save file begin anew
that is in the table or still to be saved. -/
def InLine (cfg : PoolConfig) (p : PlayerId) (s : Pool G) : Act → Prop
  | .go c => ∀ row ∈ s.enrols cfg c, row.1 = p → s.Settled p ∧ s.UpToDate p row.2
  | .move c (.relaunch .ok) => ∀ row ∈ s.restarts c, row.1 = p →
      (s.disks p).save = none ∨ s.LetGo p row.2
  | _ => True

instance [DecidableEq G] (cfg : PoolConfig) (p : PlayerId) (s : Pool G) :
    (a : Act) → Decidable (InLine cfg p s a)
  | .go c =>
      inferInstanceAs (Decidable (∀ row ∈ s.enrols cfg c, row.1 = p → s.Settled p ∧ _))
  | .move c (.relaunch .ok) =>
      inferInstanceAs (Decidable (∀ row ∈ s.restarts c, row.1 = p → _ = none ∨ s.LetGo p row.2))
  | .move _ .write | .move _ (.poll _) | .move _ .drained | .move _ .leave |
    .move _ (.relaunch .noDir) | .move _ (.relaunch .noProcess) => inferInstanceAs (Decidable True)
  | .call .. | .fire .. | .wipe .. | .env .. => inferInstanceAs (Decidable True)

/-- What is played or still to be saved goes back to the save file, and at most
one session is still to be saved. -/
structure Lined (p : PlayerId) (s : Pool G) : Prop where
  held : ∀ m i σ f, s.Held p m → s.At p m i σ → σ.running = true → (s.disks p).save = some f →
    σ.play.DescendsFrom f
  vacant : ∀ m, s.Pending p m → s.entries.get p = none
  sole : ∀ m m', s.Pending p m → s.Pending p m' → m = m'
  writes : ∀ w ∈ (s.disks p).writes, ∀ f, w.replaced = some f → w.play.DescendsFrom f

theorem lined_init : Lined p (init : Pool G) where
  held m i σ f held now := by
    obtain ⟨mgr, there, -⟩ := now
    simp [init] at there
  vacant m pending := rfl
  sole m m' pending := by
    rcases pending with ⟨c, here, at_, -⟩ | ⟨i, σ, ⟨mgr, there, -⟩, -⟩
    · simp [init] at at_
    · simp [init] at there
  writes w written := by simp [init, Disk.init] at written

/-! ## One step -/

/-- A session still to be saved has left the table, and no other has taken its
place. -/
theorem Lined.vacant_step (lined : Lined p s) (owned : Owned s) (inLine : InLine cfg p s a)
    (step : Steps I cfg s a t) {m : Nat} (pending : t.Pending p m) : t.entries.get p = none := by
  rcases pending_step owned step pending with before | ⟨c, by_, e, -, -, -, -, -, after⟩
  · have empty := lined.vacant m before
    cases listed : t.entries.get p with
    | none => rfl
    | some e =>
        rcases entry_step step listed with ⟨e₀, old, -⟩ | ⟨c, via, rfl, enrols, -⟩
        · rw [empty] at old; simp at old
        · exact absurd before ((inLine _ enrols rfl).1.not_pending m)
  · simp [after]

theorem Lined.sole_step (lined : Lined p s) (owned : Owned s) (step : Steps I cfg s a t)
    {m m' : Nat} (pending : t.Pending p m) (pending' : t.Pending p m') : m = m' := by
  rcases pending_step owned step pending with before | ⟨c, by_, e, -, -, -, listed, same, -⟩
  · rcases pending_step owned step pending' with before' | ⟨c, by_, e, -, -, -, listed, -, -⟩
    · exact lined.sole m m' before before'
    · rw [lined.vacant m before] at listed
      simp at listed
  · rcases pending_step owned step pending' with before' | ⟨c', by', e', -, -, -, listed', same', -⟩
    · rw [lined.vacant m' before'] at listed
      simp at listed
    · rw [listed, Option.some.injEq] at listed'
      rw [← same, ← same', listed']

/-- A restart for a restore or a save makes no session begin anew that is in the
table or still to be saved. -/
theorem not_held_of_restart {c m i : Nat} {for_ : For} {call : Call} (owned' : Owned t)
    (hosted' : Hosted t) (step : Steps I cfg s a t)
    (at_ : s.threads.get c = some (.calling p m for_ call)) (phase : call.phase = .timedOut)
    (quiet : for_ ≠ .reply) (now : t.At p m i (Session.spawn I (s.disks p).wipes)) :
    ¬ t.Held p m := by
  obtain ⟨next, at', goes⟩ := thread_after step at_
  have keeps : next.owns = some (p, m) ∧ next.toSave = none := by
    rcases goes with rfl | onward
    · cases for_ with
      | reply => exact absurd rfl quiet
      | restore via => exact ⟨rfl, rfl⟩
      | save by_ => exact ⟨rfl, by simp [Thread.toSave, phase]⟩
    · cases onward with
      | passes pass => cases pass
      | advances past =>
          cases for_ with
          | reply => exact absurd rfl quiet
          | restore via => exact ⟨rfl, rfl⟩
          | save by_ => exact ⟨rfl, by simp [Thread.toSave, past]⟩
      | leaves =>
          refine ⟨?_, Thread.afterCall_toSave ..⟩
          rw [(Thread.afterCall_owns ..).2.2, if_neg quiet]
  rintro (⟨e, listed, same⟩ | ⟨c', here, at'', toSave⟩ | ⟨j, σ, other, running, saving⟩)
  · exact owned'.apart c next p m e at' keeps.1 listed same
  · have owns := Thread.owns_of_saves (Thread.saves_of_toSave toSave)
    have mine := owned'.alone c c' next here p p m at' at'' keeps.1 owns
    subst mine
    rw [at', Option.some.injEq] at at''
    subst at''
    rw [keeps.2] at toSave
    simp at toSave
  · have here := now.sole hosted' rfl other running
    subst here
    rw [← now.unique other] at saving
    rcases saving with asked | ⟨line, listed, -⟩
    · simp [Session.spawn] at asked
    · simp [Session.spawn] at listed

/-- While the save file stays what it was, what is played or still to be saved goes
back to it. -/
theorem Lined.held_step (lined : Lined p s) (owned : Owned s) (owned' : Owned t)
    (hosted' : Hosted t) (inLine : InLine cfg p s a) (step : Steps I cfg s a t)
    (kept : (t.disks p).save = (s.disks p).save) {m i : Nat} {σ' : Session G} {f : Play G}
    (held : t.Held p m) (now : t.At p m i σ') (running : σ'.running = true)
    (saved : (t.disks p).save = some f) : σ'.play.DescendsFrom f := by
  have old : (s.disks p).save = some f := kept ▸ saved
  rcases Pool.held_step owned step held with before | ⟨c, rfl, enrols, managers, -⟩
  · cases touched owned step now with
    | @same σ was same =>
        rw [same.play]
        exact lined.held m i σ f before was (same.running running) old
    | @completed c call σ was at_ here phase same =>
        subst same
        exact lined.held m i σ f before was running old
    | @wrote c for_ call σ was at_ here phase same
    | @named c for_ call raw σ was at_ here phase same =>
        rw [same.play]
        exact lined.held m i σ f before was (same.running running) old
    | launched at_ new =>
        obtain ⟨mgr, there⟩ := before.there owned
        have := (List.getElem?_eq_some_iff.mp there).1
        omega
    | @relaunched c for_ call action at_ phase fresh =>
        subst action fresh
        by_cases reply : for_ = .reply
        · subst reply
          rcases inLine (p, m) (by simp [restarts, at_, phase]) rfl with none_ | gone
          · rw [none_] at old; simp at old
          · exact absurd before gone.not_held
        · exact absurd held (not_held_of_restart owned' hosted' step at_ phase reply now)
    | @consumed ok σ action was read =>
        have runs := (Session.consume_obeys read).1
        rcases Session.consume_play read with ⟨-, saves, -⟩ | ⟨loaded, -⟩ | ⟨-, written⟩
        · unfold Play.DescendsFrom
          rw [saves]
          exact lined.held m i σ f before was runs old
        · rw [loaded, Option.some.injEq] at old
          exact old ▸ .refl _
        · rw [(Disk.write_eq_some written).2.1, Option.some.injEq] at saved
          exact saved ▸ .refl _
  · obtain ⟨mgr, there, listed⟩ := now
    have was : s.At p m i σ' := ⟨mgr, managers ▸ there, listed⟩
    have same := (inLine _ enrols rfl).2 f old σ' was.mem_sessionsOf running
    exact ⟨[], same.symm⟩

/-- A session that was saved is the only one still to be saved, and none is in the
table; so its game is the only one that matters. -/
theorem Lined.only_saved (lined : Lined p s) (owned : Owned s) (hosted' : Hosted t) {m i m' i' : Nat}
    {ok : Bool} {σ τ σ' : Session G} (step : Steps I cfg s (.env m (.consume i ok)) t)
    (was : s.At p m i σ)
    (read : σ.consume I (cfg.savePath p) ok (s.disks p) = some (τ, t.disks p))
    (saving : σ.Saving) (held : t.Held p m') (now : t.At p m' i' σ')
    (running : σ'.running = true) : σ' = τ := by
  have runs := (Session.consume_obeys read).1
  have pending : s.Pending p m := .inr ⟨i, σ, was, runs, saving⟩
  obtain ⟨τ', read', now'⟩ := at_consumed step was
  rw [read, Option.some.injEq, Prod.mk.injEq] at read'
  rw [← read'.1] at now'
  have here : m = m' := by
    rcases Pool.held_step owned step held with (⟨e, listed, -⟩ | other) | ⟨c, action, -⟩
    · rw [lined.vacant m pending] at listed
      simp at listed
    · exact lined.sole m m' pending other
    · simp at action
  subst here
  obtain ⟨-, _, _, _, _, _, _, _, _, -, frame⟩ := Session.consume_cases read
  have still : τ.running = true := by rw [frame]; exact runs
  have same := now.sole hosted' running now' still
  subst same
  exact now.unique now'

theorem lined_step (lined : Lined p s) (owned : Owned s) (owned' : Owned t)
    (hosted' : Hosted t) (inLine : InLine cfg p s a) (step : Steps I cfg s a t) : Lined p t := by
  have vacant (m : Nat) (pending : t.Pending p m) : t.entries.get p = none :=
    lined.vacant_step owned inLine step pending
  have sole (m m' : Nat) (pending : t.Pending p m) (pending' : t.Pending p m') : m = m' :=
    lined.sole_step owned step pending pending'
  -- The save file stays, and so do the writes.
  have unwritten (save : (t.disks p).save = (s.disks p).save)
      (writes : (t.disks p).writes = (s.disks p).writes) : Lined p t :=
    ⟨fun m i σ f held now running saved =>
      lined.held_step owned owned' hosted' inLine step save held now running saved,
      vacant, sole, writes ▸ lined.writes⟩
  cases disk_step step p with
  | kept save writes => exact unwritten save writes
  | @consumed m i ok σ τ action was read =>
      rcases Session.consume_play read with ⟨-, -, same⟩ | ⟨-, same⟩ | ⟨saving, written⟩
      · exact unwritten (by rw [same]) (by rw [same])
      · exact unwritten (by rw [same]) (by rw [same])
      · subst action
        obtain ⟨play, save, writes, -⟩ := Disk.write_eq_some written
        have runs := (Session.consume_obeys read).1
        refine ⟨fun m' i' σ' f held now running saved => ?_, vacant, sole, ?_⟩
        · rw [save, Option.some.injEq] at saved
          rw [lined.only_saved owned hosted' step was read saving held now running, ← saved]
          exact .refl _
        · rw [writes]
          refine List.forall_mem_cons.mpr ⟨fun f replaced => ?_, lined.writes⟩
          have descends := lined.held m i σ f (.inr (.inr ⟨i, σ, was, runs, saving⟩)) was runs replaced
          rw [play]
          exact descends.trans (List.suffix_cons ..)
  | wiped action at_ gone =>
      refine ⟨fun m i σ f held now running saved => ?_, vacant, sole, gone ▸ lined.writes⟩
      simp [gone, Disk.removeAll, Disk.save] at saved
  | emptied action at_ gone =>
      have clear : (t.disks p).save = none ∧ (t.disks p).writes = (s.disks p).writes := by
        rw [gone, Disk.clear]
        split
        · next absent => exact ⟨by simp [Disk.save, absent], rfl⟩
        · exact ⟨rfl, rfl⟩
      refine ⟨fun m i σ f held now running saved => ?_, vacant, sole, clear.2 ▸ lined.writes⟩
      rw [clear.1] at saved
      simp at saved

theorem lined (reached : (pool I cfg).Reachable (InLine cfg.withDefaults p) s) : Lined p s :=
  reached.invariant lined_init fun _ _ _ reached lined inLine taken =>
    lined_step lined (owned reached) (owned (reached.step inLine taken))
      (hosted (reached.step inLine taken)) inLine (pool_steps taken)

/-- Every save goes back to the save it replaced. -/
def Lineal (p : PlayerId) (s : Pool G) : Prop :=
  ∀ w ∈ (s.disks p).writes, ∀ f ∈ w.replaced, w.play.DescendsFrom f

instance (p : PlayerId) (s : Pool G) : Decidable (s.Lineal p) := by
  unfold Lineal Play.DescendsFrom
  infer_instance

end Pool

open Pool

/-- In every run in which the player's sessions enter the table and are restarted
in line with the save file, every save goes back to the save it replaced. -/
theorem saves_descend {I : Interpreter G} {cfg : PoolConfig} {p : PlayerId} {s : Pool G}
    (reached : (pool I cfg).Reachable (InLine cfg.withDefaults p) s) : s.Lineal p :=
  fun w written f replaced => (Pool.lined reached).writes w written f replaced

namespace Pool.Script

/-- A session is saved, restored, played and saved again. -/
def resuming : List Act :=
  starts alice 0 0 ++ [Act.go 0] ++ ends alice 1 0 0 ++ resumes alice 2 1 true ++ [Act.go 2] ++
    commands alice 3 look ++ plays 3 1 0 ++ ends alice 4 1 0

/-- A session is saved, cannot be restored and is saved again. -/
def forgetting : List Act :=
  starts alice 0 0 ++ [Act.go 0] ++ ends alice 1 0 0 ++ resumes alice 2 1 false ++ [Act.go 2] ++
    ends alice 4 1 0

end Pool.Script

theorem saves_descend_alice :
    ∃ s : Pool (List Text), ((s.disks alice).writes.map (·.replaced.isSome) = [true, false]) ∧
      s.Lineal alice := by
  obtain ⟨s, reached, twice⟩ := System.reaches (pool terse smallPool)
    (InLine smallPool.withDefaults alice)
    (fun s => (s.disks alice).writes.map (·.replaced.isSome) = [true, false])
    Script.resuming (fun _ _ _ => trivial) (by decide)
  exact ⟨s, twice, saves_descend (reached.mono fun _ _ => And.left)⟩

theorem fresh_game_replaces_save :
    ∃ s, (pool terse smallPool).Reachable (fun _ a => a.resets alice = false) s ∧
      ¬ s.Lineal alice := by
  obtain ⟨s, reached, replaced⟩ := System.reaches (pool terse smallPool)
    (fun _ a => a.resets alice = false) (fun s => ¬ s.Lineal alice)
    Script.forgetting (fun _ _ _ => trivial) (by decide)
  exact ⟨s, reached.mono fun _ _ => And.left, replaced⟩

end Zorkbot.Pty
