/-
# What a reset leaves behind

`Reset` ends the player's session, removes the save directory and starts a new
session, and holds no lock across the three. Three things get past it: a session
that was put in the table before the directory was removed, one that has left the
table and is still to be saved, and one that a `Start` has already begun and inserts
afterwards. Where the directory is removed while there is none of the three, nothing
of the game before the reset is left.
-/

import Zorkbot.Pty.Script

namespace Zorkbot.Pty

open Go Transition

variable {G : Type}

namespace Thread

/-- Who runs the `Start` that this goroutine is inside, or has returned from. -/
def via : Thread → Option (PlayerId × Via)
  | .checking p via | .probing p via | .launching p via _ | .booting p via _ _ _ _
  | .restoring p via _ | .inserting p via _ _ | .discarding p via _ _ => some (p, via)
  | .calling p _ (.restore via) _ => some (p, via)
  | .returned (.started p via _) => some (p, via)
  | _ => none

theorem afterEnd_via (p : PlayerId) (err : Option PoolErr) (by_ : By) :
    (afterEnd p err by_).via = none := by
  unfold afterEnd
  split <;> rfl

end Thread

theorem Op.thread_via {op : Op} {p : PlayerId} {via : Via} (runs : op.thread.via = some (p, via)) :
    via = .request := by
  cases op with
  | start id =>
      unfold Op.thread at runs
      simp only at runs
      split at runs
      · simpa [Thread.via, eq_comm] using (congrArg (Option.map Prod.snd) runs)
      · simp [Thread.via] at runs
  | command id text =>
      unfold Op.thread at runs
      simp only at runs
      split at runs
      · split at runs <;> simp [Thread.via] at runs
      · simp [Thread.via] at runs
  | close => simp [Op.thread, Thread.via] at runs
  | endSession id | reset id =>
      unfold Op.thread at runs
      simp only at runs
      split at runs <;> simp [Thread.via] at runs

namespace Pool

variable {I : Interpreter G} {cfg : PoolConfig} {s t : Pool G} {a : Act} {p : PlayerId}

/-- The directory is removed while no session of the player is in the table or still
to be saved, and no `Start` of the player has an interpreter that it may insert. -/
def ResetApart (p : PlayerId) (s : Pool G) : Act → Prop
  | .wipe c .ok => s.threads.get c = some (.wiping p) → s.entries.get p = none ∧ s.Settled p ∧
      ∀ (c' : Nat) (here : Thread), s.threads.get c' = some here →
        here.brings.map Prod.fst ≠ some p
  | _ => True

instance (p : PlayerId) (s : Pool G) : (a : Act) → Decidable (ResetApart p s a)
  | .wipe c .ok =>
      inferInstanceAs (Decidable (s.threads.get c = _ → _ = none ∧ s.Settled p ∧ _))
  | .wipe _ .kept | .wipe _ .emptied | .call .. | .fire .. | .go .. | .move .. | .env .. =>
      inferInstanceAs (Decidable True)

/-- Only games begun after the last removal of the directory are played, saved or about
to enter the table, and whoever reset the player did so no later than that. -/
structure Reborn (p : PlayerId) (s : Pool G) : Prop where
  file : ∀ f, (s.disks p).save = some f → f.born = (s.disks p).wipes
  held : ∀ m i σ, s.Held p m → s.At p m i σ → σ.play.born = (s.disks p).wipes
  starting : ∀ (c : Nat) (here : Thread) m i σ, s.threads.get c = some here →
    here.brings = some (p, m) → s.At p m i σ → σ.play.born = (s.disks p).wipes
  writes : ∀ w ∈ (s.disks p).writes, w.play.born = w.wipes
  resets : ∀ (c : Nat) (here : Thread) k, s.threads.get c = some here →
    here.via = some (p, .reset k) → k ≤ (s.disks p).wipes

/-- A `Start` for a reset was one before, or its directory has just been removed. -/
theorem Onward.via {c k : Nat} {here : Option Thread} {next : Thread}
    (onward : Onward cfg s a t c here next) (runs : next.via = some (p, .reset k)) :
    (∃ before, here = some before ∧ before.via = some (p, .reset k)) ∨
      k = (s.disks p).wipes + 1 ∧ (t.disks p).wipes = (s.disks p).wipes + 1 := by
  cases onward with
  | calls => exact absurd (Op.thread_via runs) (by simp)
  | passes pass =>
      cases pass with
      | gone => rw [Thread.afterEnd_via] at runs; simp at runs
      | idempotent | full | checked | probed | raced | crowded => exact .inl ⟨_, rfl, runs⟩
      | _ => simp [Thread.via] at runs
  | closes => rw [Thread.afterEnd_via] at runs; simp at runs
  | lists =>
      unfold firstDeletion at runs
      split at runs <;> simp [Thread.via] at runs
  | @advances q n for_ call phase past =>
      cases for_ with
      | restore via => exact .inl ⟨_, rfl, runs⟩
      | reply | save by_ => simp [Thread.via] at runs
  | @leaves q n for_ call r =>
      cases for_ with
      | restore via => exact .inl ⟨_, rfl, runs⟩
      | reply => cases r <;> simp [Thread.afterCall, Thread.via] at runs
      | save by_ => simp [Thread.afterCall, Thread.via] at runs
  | wipes disks =>
      simp only [Thread.via, Option.some.injEq, Prod.mk.injEq, Via.reset.injEq] at runs
      obtain ⟨rfl, rfl⟩ := runs
      refine .inr ⟨rfl, ?_⟩
      rw [disks, setDisk_get, if_pos rfl]
      rfl
  | inserts | unrestored | restores | discards | creates | refuses | waits | started | startedNew
  | failed => exact .inl ⟨_, rfl, runs⟩
  | _ => simp [Thread.via] at runs

/-- A session goes back to a game begun after the last removal if it did so before or
has just been started. -/
theorem Reborn.born_step (reborn : Reborn p s) (owned : Owned s) (step : Steps I cfg s a t)
    (kept : (t.disks p).wipes = (s.disks p).wipes) {m i : Nat} {σ' : Session G}
    (old : ∀ σ, s.At p m i σ → σ.play.born = (s.disks p).wipes) (now : t.At p m i σ') :
    σ'.play.born = (t.disks p).wipes := by
  rw [kept]
  cases touched owned step now with
  | @same σ was same | @wrote c for_ call σ was at_ here phase same
  | @named c for_ call raw σ was at_ here phase same =>
      exact (congrArg Play.born same.play).trans (old σ was)
  | @completed c call σ was at_ here phase same =>
      exact (congrArg (·.play.born) same).trans (old σ was)
  | launched at_ new after fresh => exact fresh ▸ rfl
  | relaunched action at_ phase fresh => exact fresh ▸ rfl
  | @consumed ok σ action was read =>
      rcases Session.consume_play read with ⟨born, -, -⟩ | ⟨loaded, -⟩ | ⟨-, written⟩
      · exact born.trans (old σ was)
      · exact reborn.file _ loaded
      · rw [(Disk.write_eq_some written).1]
        exact old σ was

/-- A session that is played or still to be saved. -/
theorem Reborn.held_step (reborn : Reborn p s) (owned : Owned s) (step : Steps I cfg s a t)
    (kept : (t.disks p).wipes = (s.disks p).wipes) {m i : Nat} {σ' : Session G}
    (held : t.Held p m) (now : t.At p m i σ') : σ'.play.born = (t.disks p).wipes := by
  refine reborn.born_step owned step kept (fun σ was => ?_) now
  rcases Pool.held_step owned step held with before | ⟨c, -, enrols, -⟩
  · exact reborn.held m i σ before was
  · unfold Pool.enrols at enrols
    split at enrols
    · next q via hasSave n at_ =>
        simp only [Option.ite_none_right_eq_some, Option.some.injEq, Prod.mk.injEq] at enrols
        obtain ⟨-, rfl, rfl⟩ := enrols
        exact reborn.starting c _ n i σ at_ rfl was
    · simp at enrols

/-- A session that a `Start` may still insert. -/
theorem Reborn.starting_step (reborn : Reborn p s) (owned : Owned s) (step : Steps I cfg s a t)
    (kept : (t.disks p).wipes = (s.disks p).wipes) {c m i : Nat} {here : Thread} {σ' : Session G}
    (at_ : t.threads.get c = some here) (brings : here.brings = some (p, m))
    (now : t.At p m i σ') : σ'.play.born = (t.disks p).wipes := by
  refine reborn.born_step owned step kept (fun σ was => ?_) now
  rcases thread_before step at_ with same | onward
  · exact reborn.starting c here m i σ same brings was
  · rcases onward.brings_before brings with ⟨before, at', brings'⟩ | new
    · exact reborn.starting c before m i σ at' brings' was
    · obtain ⟨mgr, there, -⟩ := was
      have := (List.getElem?_eq_some_iff.mp there).1
      omega

/-- Whoever may insert a session after a removal might do so before it. -/
theorem brings_wiped {c c' m : Nat} {here : Thread} (step : Steps I cfg s (.wipe c .ok) t)
    (at_ : t.threads.get c' = some here) (brings : here.brings = some (p, m)) :
    s.threads.get c' = some here := by
  cases step with
  | wipes =>
      simp only [goes_frame, setDisk_frame, Table.get_set] at at_
      split at at_
      · rw [Option.some.injEq] at at_
        simp [← at_, Thread.brings] at brings
      · exact at_

theorem reborn_step (reborn : Reborn p s) (owned : Owned s) (apart : ResetApart p s a)
    (step : Steps I cfg s a t) : Reborn p t := by
  have resets : ∀ (c : Nat) (here : Thread) k, t.threads.get c = some here →
      here.via = some (p, .reset k) → k ≤ (t.disks p).wipes := by
    intro c here k at_ runs
    have grows := wipes_le step p
    rcases thread_before step at_ with same | onward
    · exact (reborn.resets c here k same runs).trans grows
    · rcases onward.via runs with ⟨before, at', same⟩ | ⟨rfl, wipes⟩
      · exact (reborn.resets c before k at' same).trans grows
      · exact wipes.ge
  have heldOn := reborn.held_step owned step
  have startingOn := reborn.starting_step owned step
  cases disk_step step p with
  | kept save writes wipes =>
      refine ⟨?_, fun m i σ held now => heldOn wipes held now,
        fun c here m i σ at_ brings now => startingOn wipes at_ brings now,
        writes ▸ reborn.writes, resets⟩
      rw [save, wipes]
      exact reborn.file
  | @consumed m i ok σ σ' action was read =>
      have unwritten (same : t.disks p = s.disks p) : Reborn p t :=
        ⟨same ▸ reborn.file, fun m i σ held now => heldOn (same ▸ rfl) held now,
          fun c here m i σ at_ brings now => startingOn (same ▸ rfl) at_ brings now,
          same ▸ reborn.writes, resets⟩
      rcases Session.consume_play read with ⟨-, -, same⟩ | ⟨-, same⟩ | ⟨saving, written⟩
      · exact unwritten same
      · exact unwritten same
      · have runs := (Session.consume_obeys read).1
        obtain ⟨play, save, writes, wipes⟩ := Disk.write_eq_some written
        have born : σ'.play.born = (s.disks p).wipes := by
          rw [play]
          exact reborn.held m i σ (.inr (.inr ⟨i, σ, was, runs, saving⟩)) was
        refine ⟨?_, fun m i σ held now => heldOn wipes held now,
          fun c here m i σ at_ brings now => startingOn wipes at_ brings now, ?_, resets⟩
        · intro f saved
          rw [save, Option.some.injEq] at saved
          rw [wipes, ← saved, born]
        · rw [writes]
          exact List.forall_mem_cons.mpr ⟨born, reborn.writes⟩
  | @wiped c action at_ gone =>
      subst action
      obtain ⟨vacant, settled, unbrought⟩ := apart at_
      have nothing (m : Nat) : ¬ t.Held p m := by
        intro held
        rcases Pool.held_step owned step held with (⟨e, listed, -⟩ | pending) | ⟨c', action, -⟩
        · rw [vacant] at listed; simp at listed
        · exact settled.not_pending m pending
        · simp at action
      refine ⟨?_, fun m i σ held => absurd held (nothing m), ?_, gone ▸ reborn.writes, resets⟩
      · rw [gone]
        simp [Disk.removeAll, Disk.save]
      · intro c' here m i σ at' brings
        exact absurd (by rw [brings]; rfl) (unbrought c' here (brings_wiped step at' brings))
  | emptied action at_ gone =>
      have clear : (t.disks p).save = none ∧ (t.disks p).wipes = (s.disks p).wipes ∧
          (t.disks p).writes = (s.disks p).writes := by
        rw [gone, Disk.clear]
        split
        · next absent => exact ⟨by simp [Disk.save, absent], rfl, rfl⟩
        · exact ⟨rfl, rfl, rfl⟩
      refine ⟨?_, fun m i σ held now => heldOn clear.2.1 held now,
        fun c here m i σ at_ brings now => startingOn clear.2.1 at_ brings now,
        clear.2.2 ▸ reborn.writes, resets⟩
      rw [clear.1]
      simp

theorem reborn_init : Reborn p (init : Pool G) where
  file f saved := by simp [init, Disk.init, Disk.save] at saved
  held m i σ held now := by
    obtain ⟨mgr, there, -⟩ := now
    simp [init] at there
  starting c here m i σ at_ := by simp [init] at at_
  writes w written := by simp [init, Disk.init] at written
  resets c here k at_ := by simp [init] at at_

theorem reborn (reached : (pool I cfg).Reachable (ResetApart p) s) :
    Reborn p s :=
  reached.invariant reborn_init fun _ _ _ reached reborn apart taken =>
    reborn_step reborn (owned reached) apart (pool_steps taken)

/-- What a reset promises once it has returned: the session in the table, the
save file and whatever was written since its removal of the directory go back to
a game begun after that. The removal was the player's `k`-th. -/
def ResetFinal (p : PlayerId) (k : Nat) (s : Pool G) : Prop :=
  (∀ e ∈ s.entries.get p, ∀ row ∈ s.managers[e.manager]?, ∀ σ ∈ row.2.current,
      k ≤ σ.play.born) ∧
    (∀ f ∈ (s.disks p).save, k ≤ f.born) ∧
    ∀ w ∈ (s.disks p).writes, k ≤ w.wipes → k ≤ w.play.born

instance (p : PlayerId) (k : Nat) (s : Pool G) : Decidable (s.ResetFinal p k) :=
  inferInstanceAs (Decidable (_ ∧ _ ∧ _))

end Pool

open Pool

/-- In every run in which each removal of the player's directory finds no session of the
player anywhere, a reset that has returned without an error is final. -/
theorem reset_is_final {I : Interpreter G} {cfg : PoolConfig} {p : PlayerId} {s : Pool G}
    {c k : Nat} (reached : (pool I cfg).Reachable (ResetApart p) s)
    (returned : s.threads.get c = some (.returned (.started p (.reset k) none))) :
    s.ResetFinal p k := by
  have inv := Pool.reborn reached
  have last := inv.resets c _ k returned rfl
  refine ⟨?_, fun f saved => last.trans (inv.file f saved).ge, ?_⟩
  · intro e listed row there σ current
    obtain ⟨mgr, here⟩ := (Pool.owned reached).entry p e listed
    rw [Option.mem_def, here, Option.some.injEq] at there
    subst there
    obtain ⟨i, -, at_⟩ := Option.bind_eq_some_iff.mp current
    exact last.trans (inv.held e.manager i σ (.inl ⟨e, listed, rfl⟩) ⟨mgr, here, at_⟩).ge
  · intro w written later
    exact (inv.writes w written).symm ▸ later

namespace Pool.Script

/-- A session is ended, and then the player is reset. -/
def resetting : List Act :=
  starts alice 0 0 ++ [Act.go 0] ++ ends alice 1 0 0 ++ resets alice 2 1

/-- An end takes the session out of the table and is overtaken by a reset before
it has the session saved. -/
def overtaking : List Act :=
  starts alice 0 0 ++ [Act.go 0] ++ [Act.call 1 (.endSession alice.text), .go 1] ++
    resets alice 2 1 ++ [Act.go 1] ++ requests 1 0 0 true

end Pool.Script

theorem reset_is_final_alice :
    ∃ s : Pool (List Text),
      s.threads.get 2 = some (.returned (.started alice (.reset 1) none)) ∧
        s.ResetFinal alice 1 := by
  obtain ⟨s, reached, returned⟩ := System.reaches (pool terse smallPool)
    (ResetApart alice)
    (fun s => s.threads.get 2 = some (.returned (.started alice (.reset 1) none)))
    Script.resetting (fun _ _ _ => trivial) (by decide)
  exact ⟨s, returned, reset_is_final (reached.mono fun _ _ => And.left) returned⟩

theorem reset_is_overtaken :
    ∃ s, (pool terse smallPool).Reachable (fun _ a => a.inTime = true) s ∧
      s.threads.get 2 = some (.returned (.started alice (.reset 1) none)) ∧
        ¬ s.ResetFinal alice 1 := by
  obtain ⟨s, reached, overtaken⟩ := System.reaches (pool terse smallPool)
    (fun _ a => a.inTime = true)
    (fun s => s.threads.get 2 = some (.returned (.started alice (.reset 1) none)) ∧
      ¬ s.ResetFinal alice 1)
    Script.overtaking (fun _ _ _ => trivial) (by decide)
  exact ⟨s, reached.mono fun _ _ => And.left, overtaken⟩

end Zorkbot.Pty
