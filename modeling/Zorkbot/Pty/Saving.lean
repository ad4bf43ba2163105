/-
# Only who ends a session saves it

A save is written when the interpreter reads a file name after it has read the
request. No player's command is such a request, and no file name is one. So
where a running interpreter is on its way to a save, the goroutine that took the
session out of the table to save it has not closed it yet.
-/

import Zorkbot.Pty.Games

namespace Zorkbot.Pty

open Go Transition

variable {G : Type}

/-! ## The name of the save file -/

theorem mem_trimSpace {c : Char} {t : Text} (listed : c ∈ t) (solid : isSpace c = false) :
    c ∈ trimSpace t := by
  have kept {l : Text} (listed : c ∈ l) : c ∈ l.dropWhile isSpace := by
    rw [← List.takeWhile_append_dropWhile (p := isSpace) (l := l), List.mem_append] at listed
    rcases listed with dropped | kept
    · rw [List.mem_takeWhile_imp dropped] at solid
      simp at solid
    · exact kept
  have first := kept listed
  unfold trimSpace trimRightFunc
  exact List.mem_reverse.mpr (kept (List.mem_reverse.mpr first))

theorem mem_basename {c : Char} {path : Text} (listed : c ∈ basename path) :
    c ∈ path ∨ c = '.' ∨ c = '/' := by
  unfold basename at listed
  split at listed
  · exact .inr (.inl (by simpa using listed))
  · simp only at listed
    split at listed
    · exact .inr (.inr (by simpa using listed))
    · have inner := (List.takeWhile_sublist _).subset (List.mem_reverse.mp listed)
      have trimmed := (List.dropWhile_sublist _).subset
        (List.mem_reverse.mp (List.mem_reverse.mp inner))
      exact .inl (List.mem_reverse.mp trimmed)

namespace PoolConfig

variable (cfg : PoolConfig) (p : PlayerId)

theorem savePath_single : '\n' ∉ cfg.savePath p := by
  have id : '\n' ∉ p.text := by
    have valid := p.valid
    simp only [matchesPlayerID, Bool.and_eq_true, List.all_eq_true] at valid
    intro listed
    have := valid.2 _ listed
    revert this
    decide
  have name : '\n' ∉ defaultSaveName cfg.gameFile := by
    unfold defaultSaveName
    rw [List.mem_append, not_or]
    refine ⟨fun listed => ?_, by decide⟩
    rcases mem_basename (List.take_subset _ _ listed) with inFile | dot | slash
    · exact cfg.single.2 inFile
    · revert dot; decide
    · revert slash; decide
  simp [savePath, saveDir, cfg.single.1, id, name]

/-- The name of a save file is no request. -/
theorem requestOf_savePath : requestOf (cfg.savePath p) = none := by
  have slash : '/' ∈ toLower (trimSpace (cfg.savePath p)) := by
    have listed : '/' ∈ cfg.savePath p := by simp [savePath]
    have trimmed := mem_trimSpace listed (by decide)
    exact List.mem_map.mpr ⟨'/', trimmed, by decide⟩
  have differs (word : Text) (plain : '/' ∉ word) :
      toLower (trimSpace (cfg.savePath p)) ≠ word := by
    rintro rfl
    exact plain slash
  rw [requestOf, if_neg (differs _ (by decide)), if_neg (differs _ (by decide))]

end PoolConfig

/-! ## On the way to a save -/

theorem Session.SameGame.saving {σ σ' : Session G} (same : σ.SameGame σ') (saving : σ'.Saving) :
    σ.Saving := by
  unfold Session.Saving at saving ⊢
  rwa [same.asking, same.input] at saving

/-- What is written makes an interpreter save only when it is a request. -/
theorem Session.saving_of_writeLines {c : Nat} {text : Text} {σ : Session G}
    (single : '\n' ∉ text) (saving : (σ.writeLines c text).Saving) :
    σ.Saving ∨ requestOf text = some .save := by
  rcases saving with asked | ⟨line, listed, requested⟩
  · exact .inl (.inl asked)
  · simp only [Session.writeLines, splitLines_of_notMem single, List.map_cons, List.map_nil,
      List.mem_append, List.mem_singleton] at listed
    rcases listed with old | rfl
    · exact .inl (.inr ⟨line, old, requested⟩)
    · exact .inr requested

namespace Thread

/-- The session that a goroutine is about to have saved. -/
def toSave : Thread → Option (PlayerId × Nat)
  | .saving p _ m => some (p, m)
  | .calling p m (.save _) call => if call.phase = .entered then some (p, m) else none
  | _ => none

theorem saves_of_toSave {t : Thread} {p : PlayerId} {m : Nat} (toSave : t.toSave = some (p, m)) :
    t.saves = some (p, m) := by
  unfold Thread.toSave at toSave
  unfold saves
  split at toSave <;> simp_all

theorem afterEnd_toSave (p : PlayerId) (err : Option PoolErr) (by_ : By) :
    (afterEnd p err by_).toSave = none := by
  unfold afterEnd
  split <;> rfl

theorem afterCall_toSave (p : PlayerId) (m : Nat) (r : Result) (for_ : For) :
    (afterCall p m r for_).toSave = none := by
  unfold afterCall
  split
  · rfl
  · split <;> rfl
  · rfl

end Thread

theorem Op.thread_toSave (op : Op) : op.thread.toSave = none := by
  cases op with
  | command id text =>
      unfold Op.thread
      simp only
      split
      · split <;> rfl
      · rfl
  | close => rfl
  | start id | endSession id | reset id =>
      unfold Op.thread
      simp only
      split <;> rfl

namespace Pool

variable {I : Interpreter G} {cfg : PoolConfig} {s t : Pool G} {a : Act}

/-- A goroutine is saving and closing this session. -/
def Saver (s : Pool G) (p : PlayerId) (m : Nat) : Prop :=
  ∃ c here, s.threads.get c = some here ∧ here.saves = some (p, m)

/-- A goroutine that saves a session goes on until it closes it. -/
theorem Onward.keeps_saving {c m : Nat} {p : PlayerId} {here next : Thread} (speaks : here.Speaks)
    (saves : here.saves = some (p, m)) (onward : Onward cfg s a t c (some here) next) :
    next.saves = some (p, m) ∨ ∃ by_, here = .closing p by_ m ∧ by_.save = true ∧
      t.endings = ⟨m, s.savedAt m⟩ :: s.endings ∧
      ∃ q mgr mgr', s.managers[m]? = some (q, mgr) ∧ mgr.close = some mgr' ∧
        t.managers = (s.setManager m mgr').managers := by
  cases onward with
  | saves => exact .inl saves
  | unsaved =>
      refine .inl ?_
      rw [Thread.saves, if_pos (show _ = true from speaks)]
      exact saves
  | @closes q by_ n closed endings =>
      simp only [Thread.saves, Option.ite_none_right_eq_some, Option.some.injEq,
        Prod.mk.injEq] at saves
      obtain ⟨saved, rfl, rfl⟩ := saves
      exact .inr ⟨by_, rfl, saved, by rw [endings, if_pos saved], closed⟩
  | @advances q n for_ call phase past =>
      cases for_ with
      | save by_ => exact .inl saves
      | restore via => simp [Thread.saves] at saves
      | reply => simp [Thread.saves] at saves
  | @leaves q n for_ call r =>
      cases for_ with
      | save by_ =>
          refine .inl ?_
          rw [Thread.afterCall, Thread.saves, if_pos speaks.1]
          exact saves
      | restore via => simp [Thread.saves] at saves
      | reply => simp [Thread.saves] at saves
  | passes pass => cases pass <;> simp [Thread.saves] at saves
  | _ => simp [Thread.saves] at saves

/-- Who saves a session goes on until it closes it. -/
theorem saver_step {p : PlayerId} {m : Nat} (owned : Owned s) (step : Steps I cfg s a t)
    (saver : s.Saver p m) :
    t.Saver p m ∨ ∃ c by_, s.threads.get c = some (.closing p by_ m) ∧ by_.save = true ∧
      t.endings = ⟨m, s.savedAt m⟩ :: s.endings ∧
      ∃ q mgr mgr', s.managers[m]? = some (q, mgr) ∧ mgr.close = some mgr' ∧
        t.managers = (s.setManager m mgr').managers := by
  obtain ⟨c, here, at_, saves⟩ := saver
  obtain ⟨next, at', rfl | onward⟩ := thread_after step at_
  · exact .inl ⟨c, next, at', saves⟩
  · rcases onward.keeps_saving (owned.speaks c here at_) saves with still | ⟨by_, rfl, closed⟩
    · exact .inl ⟨c, next, at', still⟩
    · exact .inr ⟨c, by_, at_, closed⟩

/-- A closed session does not run. -/
theorem saver_persists {p : PlayerId} {m : Nat} (owned : Owned s) (hosted : Hosted s)
    (step : Steps I cfg s a t) (saver : s.Saver p m) :
    t.Saver p m ∨ ∀ i σ, t.At p m i σ → σ.running = false := by
  rcases saver_step owned step saver with
    goes | ⟨c, by_, -, -, -, q, mgr, mgr', there, closed, managers⟩
  · exact .inl goes
  · refine .inr fun i σ now => ?_
    rcases at_setManager there managers now with ⟨-, -, listed⟩ | ⟨other, -⟩
    · exact (hosted m q mgr there).closed_stopped closed listed
    · exact absurd rfl other

/-- Where a running interpreter is on its way to a save, its session's saver has
not closed it yet. -/
def SavesOnly (s : Pool G) : Prop :=
  ∀ p m i σ, s.At p m i σ → σ.running = true → σ.Saving → s.Saver p m

theorem savesOnly_init : SavesOnly (init : Pool G) := by
  rintro p m i σ ⟨mgr, there, -⟩
  simp [init] at there

/-- An interpreter gets on its way to a save only by the save command of the
goroutine that ends its session. -/
theorem saving_step {p : PlayerId} {m i : Nat} {σ' : Session G} (owned : Owned s)
    (step : Steps I cfg s a t) (now : t.At p m i σ') (running : σ'.running = true)
    (saving : σ'.Saving) :
    (∃ σ, s.At p m i σ ∧ σ.running = true ∧ σ.Saving) ∨
      ∃ c by_ call, s.threads.get c = some (.calling p m (.save by_) call) ∧
        call.phase = .entered := by
  cases touched owned step now with
  | same was same => exact .inl ⟨_, was, same.running running, same.saving saving⟩
  | completed was at_ here phase same =>
      subst same
      exact .inl ⟨_, was, running, saving⟩
  | @wrote c for_ call σ was at_ here phase same =>
      have speaks := owned.speaks c _ at_
      have single : '\n' ∉ call.text ∧ (requestOf call.text = some .save →
          ∃ by_, for_ = .save by_) := by
        cases for_ with
        | restore via =>
            rw [show call.text = restoreText from speaks]
            exact ⟨by decide, fun asked => absurd asked (by decide)⟩
        | reply =>
            refine ⟨speaks.single, fun asked => ?_⟩
            rw [speaks.plain] at asked
            simp at asked
        | save by_ =>
            rw [show call.text = saveText from speaks.2]
            exact ⟨by decide, fun _ => ⟨by_, rfl⟩⟩
      rcases Session.saving_of_writeLines single.1 (same.saving saving) with old | asked
      · exact .inl ⟨σ, was, same.running running, old⟩
      · obtain ⟨by_, rfl⟩ := single.2 asked
        exact .inr ⟨c, by_, call, at_, phase⟩
  | @named c for_ call raw σ was at_ here phase same =>
      rcases Session.saving_of_writeLines (cfg.savePath_single p) (same.saving saving) with
        old | asked
      · exact .inl ⟨σ, was, same.running running, old⟩
      · rw [cfg.requestOf_savePath p] at asked
        simp at asked
  | launched at_ new after fresh =>
      subst fresh
      rcases saving with asked | ⟨line, listed, -⟩
      · simp [Session.spawn] at asked
      · simp [Session.spawn] at listed
  | relaunched action at_ phase fresh =>
      subst fresh
      rcases saving with asked | ⟨line, listed, -⟩
      · simp [Session.spawn] at asked
      · simp [Session.spawn] at listed
  | @consumed ok σ action was read =>
      generalize t.disks p = d' at read
      obtain ⟨runs, c, line, rest, τ, input, obeys, same⟩ := Session.consume_obeys read
      refine .inl ⟨σ, was, runs, ?_⟩
      rcases same.saving saving with asked | ⟨other, listed, requested⟩
      · cases obeys with
        | asks idle requested =>
            simp only [Option.some.injEq] at asked
            exact .inr ⟨(c, line), by simp [input], asked ▸ requested⟩
        | plays | saves | loads | fails => simp at asked
      · exact .inr ⟨other, by rw [input]; exact List.mem_cons_of_mem _ listed, requested⟩

theorem savesOnly_step (owned : Owned s) (hosted : Hosted s) (only : SavesOnly s)
    (step : Steps I cfg s a t) : SavesOnly t := by
  intro p m i σ' now running saving
  have saver : s.Saver p m := by
    rcases saving_step owned step now running saving with
      ⟨σ, was, runs, old⟩ | ⟨c, by_, call, at_, -⟩
    · exact only p m i σ was runs old
    · exact ⟨c, _, at_, rfl⟩
  rcases saver_persists owned hosted step saver with saver | stopped
  · exact saver
  · rw [stopped i σ' now] at running
    simp at running

theorem savesOnly {guard : Pool G → Act → Prop} (reached : (pool I cfg).Reachable guard s) :
    SavesOnly s :=
  reached.invariant savesOnly_init fun _ _ _ reached only _ taken =>
    savesOnly_step (owned reached) (hosted reached) only (pool_steps taken)

/-! ## Saves to come -/

/-- A goroutine gets about to have a session saved only where it takes it out of
the table. -/
theorem Onward.toSave {c m : Nat} {p : PlayerId} {here : Option Thread} {next : Thread}
    (onward : Onward cfg s a t c here next) (toSave : next.toSave = some (p, m)) :
    (∃ before, here = some before ∧ before.toSave = some (p, m)) ∨
      ∃ by_ e, here = some (.deleting p by_) ∧ by_.save = true ∧ s.entries.get p = some e ∧
        e.manager = m ∧ a = .go c ∧ t = (s.delete p e true).goes c (.saving p by_ m) := by
  cases onward with
  | calls => rw [Op.thread_toSave] at toSave; simp at toSave
  | passes pass =>
      cases pass with
      | gone => rw [Thread.afterEnd_toSave] at toSave; simp at toSave
      | _ => simp [Thread.toSave] at toSave
  | deletes found saved action after =>
      simp only [Thread.toSave, Option.some.injEq, Prod.mk.injEq] at toSave
      obtain ⟨rfl, rfl⟩ := toSave
      exact .inr ⟨_, _, rfl, saved, found, rfl, action, after⟩
  | saves => exact .inl ⟨_, rfl, by simpa [Thread.toSave] using toSave⟩
  | closes => rw [Thread.afterEnd_toSave] at toSave; simp at toSave
  | lists =>
      unfold firstDeletion at toSave
      split at toSave <;> simp [Thread.toSave] at toSave
  | @advances q n for_ call phase past =>
      cases for_ <;> simp [Thread.toSave, past] at toSave
  | leaves => rw [Thread.afterCall_toSave] at toSave; simp at toSave
  | _ => simp [Thread.toSave] at toSave

/-- A goroutine is about to have this session saved, or its interpreter is on its
way to a save. -/
def Pending (s : Pool G) (p : PlayerId) (m : Nat) : Prop :=
  (∃ c here, s.threads.get c = some here ∧ here.toSave = some (p, m)) ∨
    ∃ i σ, s.At p m i σ ∧ σ.running = true ∧ σ.Saving

/-- Whoever is to save a session holds it. -/
theorem Pending.saver {p : PlayerId} {m : Nat} (only : SavesOnly s) (pending : s.Pending p m) :
    s.Saver p m := by
  rcases pending with ⟨c, here, at_, toSave⟩ | ⟨i, σ, now, running, saving⟩
  · exact ⟨c, here, at_, Thread.saves_of_toSave toSave⟩
  · exact only p m i σ now running saving

/-- No save of a session of this player is to come. -/
def Settled (s : Pool G) (p : PlayerId) : Prop :=
  (∀ (c : Nat) (here : Thread), s.threads.get c = some here →
    here.toSave.map Prod.fst ≠ some p) ∧
  ∀ row ∈ s.managers, row.1 = p → ∀ σ ∈ row.2.sessions, σ.running = true → ¬ σ.Saving

instance (s : Pool G) (p : PlayerId) : Decidable (s.Settled p) :=
  inferInstanceAs (Decidable (_ ∧ _))

theorem Settled.not_pending {p : PlayerId} (settled : s.Settled p) (m : Nat) :
    ¬ s.Pending p m := by
  rintro (⟨c, here, at_, toSave⟩ | ⟨i, σ, ⟨mgr, there, listed⟩, running, saving⟩)
  · exact settled.1 c here at_ (by rw [toSave]; rfl)
  · exact settled.2 _ (List.mem_of_getElem? there) rfl σ (List.mem_of_getElem? listed)
      running saving

theorem settled_iff {p : PlayerId} : s.Settled p ↔ ∀ m, ¬ s.Pending p m := by
  refine ⟨fun settled m => settled.not_pending m, fun none_ => ⟨?_, ?_⟩⟩
  · intro c here at_ same
    obtain ⟨⟨q, m⟩, toSave, rfl⟩ := Option.map_eq_some_iff.mp same
    exact none_ m (.inl ⟨c, here, at_, toSave⟩)
  · rintro ⟨q, mgr⟩ listed rfl σ listed' running saving
    obtain ⟨m, there⟩ := List.mem_iff_getElem?.mp listed
    obtain ⟨i, at_⟩ := List.mem_iff_getElem?.mp listed'
    exact none_ m (.inr ⟨i, σ, ⟨mgr, there, at_⟩, running, saving⟩)

theorem Pending.there {p : PlayerId} {m : Nat} (owned : Owned s) (pending : s.Pending p m) :
    ∃ mgr, s.managers[m]? = some (p, mgr) := by
  rcases pending with ⟨c, here, at_, toSave⟩ | ⟨i, σ, ⟨mgr, there, -⟩, -⟩
  · exact owned.owner c here p m at_ (Thread.owns_of_saves (Thread.saves_of_toSave toSave))
  · exact ⟨mgr, there⟩

/-- A save gets to come only where a session leaves the table to be saved. -/
theorem pending_step {p : PlayerId} {m : Nat} (owned : Owned s) (step : Steps I cfg s a t)
    (pending : t.Pending p m) :
    s.Pending p m ∨ ∃ c by_ e, a = .go c ∧ s.threads.get c = some (.deleting p by_) ∧
      by_.save = true ∧ s.entries.get p = some e ∧ e.manager = m ∧
      t = (s.delete p e true).goes c (.saving p by_ e.manager) := by
  rcases pending with ⟨c, here, at_, toSave⟩ | ⟨i, σ, now, running, saving⟩
  · rcases thread_before step at_ with same | onward
    · exact .inl (.inl ⟨c, here, same, toSave⟩)
    · rcases onward.toSave toSave with
        ⟨before, at', same⟩ | ⟨by_, e, at', saved, found, rfl, action, after⟩
      · exact .inl (.inl ⟨c, before, at', same⟩)
      · exact .inr ⟨c, by_, e, action, at', saved, found, rfl, after⟩
  · rcases saving_step owned step now running saving with
      ⟨σ, was, runs, old⟩ | ⟨c, by_, call, at_, phase⟩
    · exact .inl (.inr ⟨i, σ, was, runs, old⟩)
    · exact .inl (.inl ⟨c, _, at_, by simp [Thread.toSave, phase]⟩)

/-! ## Sessions that are played or still to be saved -/

/-- The session that a goroutine's next step puts in the table. -/
def enrols (cfg : PoolConfig) (s : Pool G) (c : Nat) : Option (PlayerId × Nat) :=
  match s.threads.get c with
  | some (.inserting p _ _ m) =>
      if s.entries.get p = none ∧ (s.entries.size : Int) < cfg.maxActiveSessions then some (p, m)
      else none
  | _ => none

/-- A session is in the table because it was, or because it has just been put
there. -/
theorem entry_step {p : PlayerId} {e' : Entry} (step : Steps I cfg s a t)
    (listed : t.entries.get p = some e') :
    (∃ e, s.entries.get p = some e ∧ e.manager = e'.manager) ∨
      ∃ c via, a = .go c ∧ s.enrols cfg c = some (p, e'.manager) ∧ s.entries.get p = none ∧
        t = (s.insert cfg p c e'.manager).goes c (.returned (.started p via none)) := by
  have same {e : Entry} (listed : s.entries.get p = some e) :
      ∃ e₀, s.entries.get p = some e₀ ∧ e₀.manager = e.manager := ⟨e, listed, rfl⟩
  cases step with
  | @inserts c q via hasSave m at_ vacant room =>
      have entries : (s.insert cfg q c m).entries.get p = some e' := by simpa using listed
      rw [insert_entries] at entries
      split at entries
      · next here =>
          subst here
          rw [Option.some.injEq] at entries
          subst entries
          exact .inr ⟨c, via, rfl, by simp [enrols, at_, vacant, room], vacant, rfl⟩
      · exact .inl (same entries)
  | @touches c q text e at_ found =>
      obtain ⟨e₀, manager, -, touched⟩ := touch_entries cfg q e s
      have entries : (s.touch cfg q e).entries.get p = some e' := by simpa using listed
      rw [touched] at entries
      split at entries
      · next here =>
          subst here
          rw [Option.some.injEq] at entries
          subst entries
          exact .inl ⟨e, found, manager.symm⟩
      · exact .inl (same entries)
  | @deletes c q by_ e at_ found =>
      have entries : (s.entries.erase q).get p = some e' := by simpa using listed
      rw [Table.get_erase] at entries
      split at entries
      · simp at entries
      · exact .inl (same entries)
  | _ => exact .inl (same listed)

/-- A session stays in the table until a goroutine takes it out. -/
theorem entry_after {p : PlayerId} {e : Entry} (step : Steps I cfg s a t)
    (listed : s.entries.get p = some e) :
    (∃ e', t.entries.get p = some e' ∧ e'.manager = e.manager) ∨
      ∃ c by_, s.threads.get c = some (.deleting p by_) ∧ t.threads.get c =
        some (if by_.save then .saving p by_ e.manager else .closing p by_ e.manager) := by
  have same (entries : t.entries = s.entries) :
      ∃ e', t.entries.get p = some e' ∧ e'.manager = e.manager := ⟨e, entries ▸ listed, rfl⟩
  cases step with
  | @inserts c q via hasSave m at_ vacant room =>
      have other : p ≠ q := by
        rintro rfl
        rw [vacant] at listed
        simp at listed
      exact .inl ⟨e, by simp [insert_entries, other, listed], rfl⟩
  | @touches c q text e₀ at_ found =>
      obtain ⟨e', manager, -, touched⟩ := touch_entries cfg q e₀ s
      by_cases here : p = q
      · subst here
        rw [listed, Option.some.injEq] at found
        subst found
        exact .inl ⟨e', by simp [touched], manager⟩
      · exact .inl ⟨e, by simp [touched, here, listed], rfl⟩
  | @deletes c q by_ e₀ at_ found =>
      by_cases here : p = q
      · subst here
        rw [listed, Option.some.injEq] at found
        subst found
        exact .inr ⟨c, by_, at_, by simp⟩
      · exact .inl ⟨e, by simp [Table.get_erase, here, listed], rfl⟩
  | _ => exact .inl (same rfl)

theorem begins_step (step : Steps I cfg s a t) :
    t.begins = s.begins ∨ ∃ c p via m, a = .go c ∧ s.enrols cfg c = some (p, m) ∧
      t = (s.insert cfg p c m).goes c (.returned (.started p via none)) := by
  cases step with
  | @inserts c p via hasSave m at_ vacant room =>
      exact .inr ⟨c, p, via, m, rfl, by simp [enrols, at_, vacant, room], rfl⟩
  | touches | deletes => exact .inl (by simp)
  | _ => exact .inl rfl

/-- The sessions of a manager. -/
def sessionsOf (s : Pool G) (m : Nat) : List (Session G) :=
  ((s.managers[m]?).map fun row => row.2.sessions).getD []

theorem At.mem_sessionsOf {p : PlayerId} {m i : Nat} {σ : Session G} (now : s.At p m i σ) :
    σ ∈ s.sessionsOf m := by
  obtain ⟨mgr, there, listed⟩ := now
  rw [sessionsOf, there]
  exact List.mem_of_getElem? listed

/-- The session is in the table, or it is still to be saved. -/
def Held (s : Pool G) (p : PlayerId) (m : Nat) : Prop :=
  (∃ e, s.entries.get p = some e ∧ e.manager = m) ∨ s.Pending p m

theorem Held.there {p : PlayerId} {m : Nat} (owned : Owned s) (held : s.Held p m) :
    ∃ mgr, s.managers[m]? = some (p, mgr) := by
  rcases held with ⟨e, listed, rfl⟩ | pending
  · exact owned.entry p e listed
  · exact pending.there owned

/-- A session that is played or still to be saved was so before, or has just been
put in the table. -/
theorem held_step {p : PlayerId} {m : Nat} (owned : Owned s) (step : Steps I cfg s a t)
    (held : t.Held p m) :
    s.Held p m ∨ ∃ c, a = .go c ∧ s.enrols cfg c = some (p, m) ∧ t.managers = s.managers ∧
      t.disks = s.disks := by
  rcases held with ⟨e', listed, rfl⟩ | pending
  · rcases entry_step step listed with old | ⟨c, via, action, enrols, -, after⟩
    · exact .inl (.inl old)
    · exact .inr ⟨c, action, enrols, by simp [after], by simp [after]⟩
  · rcases pending_step owned step pending with old | ⟨c, by_, e, -, -, -, listed, same, -⟩
    · exact .inl (.inr old)
    · exact .inl (.inl ⟨e, listed, same⟩)

end Pool

end Zorkbot.Pty
