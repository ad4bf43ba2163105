/-
# What a step of the pool does to games and save files

An invariant of one manager, its calls and its starts holds of every manager of
the pool when each use the pool makes of a manager keeps it. With that, and with
the cases of what a step can do to a session and to a save file, the invariants
of the pool are proved without looking at its steps again.
-/

import Zorkbot.Pty.Ownership
import Zorkbot.Pty.Processes

namespace Zorkbot.Pty

open Go Transition Function

variable {G : Type}

namespace Thread

/-- The call that a goroutine is inside at a manager. -/
def calls (m : Nat) : Thread → Option Call
  | .calling _ n _ call => if n = m then some call else none
  | _ => none

/-- The start that a goroutine waits for at a manager. -/
def boots (m : Nat) : Thread → Option (Nat × Text)
  | .booting _ _ _ n i buf => if n = m then some (i, buf) else none
  | .calling _ n _ call => if n = m then call.phase.boot? else none
  | _ => none

end Thread

namespace Pool

variable {I : Interpreter G} {cfg : PoolConfig} {s t : Pool G} {a : Act}

/-- Who is inside which call at a manager. -/
def callsOn (s : Pool G) (m c : Nat) : Option Call := (s.threads.get c).bind (Thread.calls m)

/-- Who waits for which start at a manager. -/
def bootsOn (s : Pool G) (m c : Nat) : Option (Nat × Text) :=
  (s.threads.get c).bind (Thread.boots m)

theorem callsOn_set {c : Nat} {next : Thread} (threads : t.threads = s.threads.set c next)
    (m : Nat) : t.callsOn m = update (s.callsOn m) c (next.calls m) := by
  funext c'
  simp only [callsOn, threads, Table.get_set, update_apply]
  split <;> rfl

theorem bootsOn_set {c : Nat} {next : Thread} (threads : t.threads = s.threads.set c next)
    (m : Nat) : t.bootsOn m = update (s.bootsOn m) c (next.boots m) := by
  funext c'
  simp only [bootsOn, threads, Table.get_set, update_apply]
  split <;> rfl

/-- An invariant of a player's manager, of who is inside which call there and of
who waits for which start there. -/
abbrev ManagerInv (G : Type) : Type :=
  PlayerId → Manager G → (Nat → Option Call) → (Nat → Option (Nat × Text)) → Prop

/-- The invariant holds of every manager of the pool. -/
def Everywhere (inv : ManagerInv G) (s : Pool G) : Prop :=
  ∀ (m : Nat) (p : PlayerId) (mgr : Manager G), s.managers[m]? = some (p, mgr) →
    inv p mgr (s.callsOn m) (s.bootsOn m)

/-- Each use that the pool makes of a manager keeps the invariant. -/
structure Kept (I : Interpreter G) (cfg : PoolConfig) (s : Pool G) (a : Act)
    (inv : ManagerInv G) : Prop where
  created : ∀ {c : Nat} {p : PlayerId} {via : Via} {hasSave : Bool} {spawn : Spawn}
    {mgr : Manager G} {d : Disk G} {i : Nat},
    s.threads.get c = some (.launching p via hasSave) →
    Manager.new.launch I spawn (s.disks p) = some (mgr, d, some i) →
    inv p mgr (fun _ => none) (update (fun _ => none) c (some (i, [])))
  booted : ∀ {c : Nat} {p q : PlayerId} {via : Via} {hasSave : Bool} {m i : Nat} {buf : Text}
    {poll : Session.Poll} {mgr mgr' : Manager G} {b : Manager.Boot}, a = .move c (.poll poll) →
    s.threads.get c = some (.booting p via hasSave m i buf) → s.managers[m]? = some (q, mgr) →
    inv q mgr (s.callsOn m) (s.bootsOn m) → mgr.boot i buf poll = some (mgr', b) →
    inv q mgr' (s.callsOn m) (update (s.bootsOn m) c (b.boot? i))
  entered : ∀ {c : Nat} {here : Thread} {p q : PlayerId} {m : Nat} {text : Text} {for_ : For}
    {mgr mgr' : Manager G} {stage : Stage}, a = .go c → s.threads.get c = some here →
    here.enters = some (p, m, text, for_) → s.managers[m]? = some (q, mgr) →
    inv q mgr (s.callsOn m) (s.bootsOn m) → mgr.enter text = some (mgr', stage) →
    inv q mgr' (update (s.callsOn m) c stage.call?) (s.bootsOn m)
  advanced : ∀ {c : Nat} {p q : PlayerId} {m : Nat} {for_ : For} {call : Call}
    {move : Manager.Move} {mgr mgr' : Manager G} {d : Disk G} {stage : Stage},
    a = .move c move → s.threads.get c = some (.calling p m for_ call) →
    s.managers[m]? = some (q, mgr) → inv q mgr (s.callsOn m) (s.bootsOn m) →
    mgr.advance I (cfg.savePath p) c call move (s.disks p) = some (mgr', d, stage) →
    inv q mgr' (update (s.callsOn m) c stage.call?) (update (s.bootsOn m) c stage.boot?)
  completed : ∀ {c : Nat} {p q : PlayerId} {m : Nat} {call : Call} {move : Manager.Move}
    {mgr mgr' : Manager G} {d : Disk G} {output : Text},
    s.threads.get c = some (.calling p m .reply call) → s.managers[m]? = some (q, mgr) →
    inv q mgr (s.callsOn m) (s.bootsOn m) →
    mgr.advance I (cfg.savePath p) c call move (s.disks p) =
      some (mgr', d, .outside (.ok output)) →
    inv q mgr' (update (s.callsOn m) c none) (update (s.bootsOn m) c none) →
    inv q (mgr'.onSession call.session fun s => { s with saved := false })
      (update (s.callsOn m) c none) (update (s.bootsOn m) c none)
  closed : ∀ {c : Nat} {here : Thread} {p q : PlayerId} {m : Nat} {mgr mgr' : Manager G},
    s.threads.get c = some here →
    ((∃ via err, here = .discarding p via m err) ∨ ∃ by_, here = .closing p by_ m) →
    s.managers[m]? = some (q, mgr) → inv q mgr (s.callsOn m) (s.bootsOn m) →
    mgr.close = some mgr' → inv q mgr' (s.callsOn m) (s.bootsOn m)
  happened : ∀ {m : Nat} {p : PlayerId} {event : Manager.Env} {mgr mgr' : Manager G} {d : Disk G},
    a = .env m event → s.managers[m]? = some (p, mgr) →
    inv p mgr (s.callsOn m) (s.bootsOn m) →
    mgr.env I (cfg.savePath p) event (s.disks p) = some (mgr', d) →
    inv p mgr' (s.callsOn m) (s.bootsOn m)

theorem completed_session (i : Nat) (for_ : For) (r : Result) (mgr : Manager G) :
    (completed i for_ r mgr).session = mgr.session := by
  unfold completed
  split <;> rfl

/-- A manager was there before, or it is new and its player's directory is there. -/
theorem manager_before {p : PlayerId} {m : Nat} {mgr : Manager G} (step : Steps I cfg s a t)
    (now : t.managers[m]? = some (p, mgr)) :
    (∃ old, s.managers[m]? = some (p, old)) ∨ (t.disks p).dir ≠ .absent := by
  have untouched (managers : t.managers = s.managers) : ∃ old, s.managers[m]? = some (p, old) :=
    ⟨mgr, managers ▸ now⟩
  have changed {n : Nat} {new : Manager G} (managers : t.managers = (s.setManager n new).managers) :
      ∃ old, s.managers[m]? = some (p, old) := by
    rw [managers, setManager_get] at now
    split at now
    · obtain ⟨row, there, same⟩ := Option.map_eq_some_iff.mp now
      simp only [Prod.mk.injEq] at same
      exact ⟨row.2, by rw [there, ← same.1]⟩
    · exact ⟨mgr, now⟩
  cases step with
  | calls | fires | passes | lists | refuses | wipes | keeps | empties => exact .inl (untouched rfl)
  | inserts | touches | deletes => exact .inl (untouched (by simp))
  | enters | discards | closes | boots | advances | leaves | envs => exact .inl (changed rfl)
  | @creates c q via hasSave spawn new d i at_ launched =>
      have whole : (s.managers ++ [(q, new)])[m]? = some (p, mgr) := now
      by_cases inside : m < s.managers.length
      · rw [List.getElem?_append_left inside] at whole
        exact .inl ⟨mgr, whole⟩
      · right
        rw [List.getElem?_append_right (Nat.le_of_not_lt inside)] at whole
        have row := List.mem_of_getElem? whole
        simp only [List.mem_singleton, Prod.mk.injEq] at row
        have disk : ({ s.setDisk q d with managers := s.managers ++ [(q, new)] }.goes c
            (.booting q via hasSave s.managers.length i []) : Pool G).disks p = d := by
          simp [row.1, setDisk_get]
        rw [disk, (Manager.launch_started launched).2.2.1]
        unfold Disk.mkdirAll
        split <;> simp [*]

theorem everywhere_init {inv : ManagerInv G} : Everywhere inv (init : Pool G) := by
  intro m p mgr there
  simp [init] at there

/-- A goroutine's step that is at no manager before and after changes nothing for
any manager. -/
theorem Everywhere.passes {inv : ManagerInv G} {c : Nat} (everywhere : Everywhere inv s)
    (next : Thread) (managers : t.managers = s.managers)
    (threads : t.threads = s.threads.set c next)
    (calls : ∀ m, s.callsOn m c = next.calls m) (boots : ∀ m, s.bootsOn m c = next.boots m) :
    Everywhere inv t := by
  intro m p mgr there
  rw [managers] at there
  have sameCalls : t.callsOn m = s.callsOn m := by
    rw [callsOn_set threads, ← calls, update_eq_self]
  have sameBoots : t.bootsOn m = s.bootsOn m := by
    rw [bootsOn_set threads, ← boots, update_eq_self]
  rw [sameCalls, sameBoots]
  exact everywhere m p mgr there

/-- A goroutine's step at one manager changes nothing for the others. -/
theorem Everywhere.at_ {inv : ManagerInv G} {c : Nat} (everywhere : Everywhere inv s) (m : Nat)
    (mgr' : Manager G) (next : Thread) (managers : t.managers = (s.setManager m mgr').managers)
    (threads : t.threads = s.threads.set c next)
    (callsElse : ∀ n, n ≠ m → s.callsOn n c = next.calls n)
    (bootsElse : ∀ n, n ≠ m → s.bootsOn n c = next.boots n)
    {q : PlayerId} {mgr : Manager G} (found : s.managers[m]? = some (q, mgr))
    (here : inv q mgr' (update (s.callsOn m) c (next.calls m))
      (update (s.bootsOn m) c (next.boots m))) : Everywhere inv t := by
  intro n p mgr there
  rw [managers, setManager_get] at there
  split at there
  · next same =>
      subst same
      rw [found, Option.map_some, Option.some.injEq, Prod.mk.injEq] at there
      obtain ⟨rfl, rfl⟩ := there
      rw [callsOn_set threads, bootsOn_set threads]
      exact here
  · next other =>
      have sameCalls : t.callsOn n = s.callsOn n := by
        rw [callsOn_set threads, ← callsElse n (Ne.symm other), update_eq_self]
      have sameBoots : t.bootsOn n = s.bootsOn n := by
        rw [bootsOn_set threads, ← bootsElse n (Ne.symm other), update_eq_self]
      rw [sameCalls, sameBoots]
      exact everywhere n p mgr there

/-- The goroutine is inside no call and waits for no start. -/
def Idle (thread : Thread) : Prop := ∀ m, thread.calls m = none ∧ thread.boots m = none

theorem idle_op (op : Op) : Idle op.thread := by
  intro m
  cases op with
  | command id text =>
      unfold Op.thread
      simp only
      split
      · split <;> exact ⟨rfl, rfl⟩
      · exact ⟨rfl, rfl⟩
  | close => exact ⟨rfl, rfl⟩
  | start id | endSession id | reset id =>
      unfold Op.thread
      simp only
      split <;> exact ⟨rfl, rfl⟩

theorem idle_afterEnd (p : PlayerId) (err : Option PoolErr) (by_ : By) :
    Idle (Thread.afterEnd p err by_) := by
  intro m
  unfold Thread.afterEnd
  split <;> exact ⟨rfl, rfl⟩

theorem idle_afterCall (p : PlayerId) (m : Nat) (r : Result) (for_ : For) :
    Idle (Thread.afterCall p m r for_) := by
  intro n
  unfold Thread.afterCall
  split
  · exact ⟨rfl, rfl⟩
  · split <;> exact ⟨rfl, rfl⟩
  · exact ⟨rfl, rfl⟩

theorem Passes.idle {here next : Thread} (pass : Passes s here next) : Idle here ∧ Idle next := by
  cases pass with
  | gone => exact ⟨fun _ => ⟨rfl, rfl⟩, idle_afterEnd _ _ _⟩
  | _ => exact ⟨fun _ => ⟨rfl, rfl⟩, fun _ => ⟨rfl, rfl⟩⟩

theorem idle_enters {here : Thread} {x : PlayerId × Nat × Text × For}
    (about : here.enters = some x) : Idle here := by
  intro m
  unfold Thread.enters at about
  split at about
  · exact ⟨rfl, rfl⟩
  · exact ⟨rfl, rfl⟩
  · exact ⟨rfl, rfl⟩
  · simp at about

/-- A goroutine inside a manager was there before, or has just entered it. -/
theorem Onward.to_calling {c m : Nat} {p : PlayerId} {for_ : For} {call : Call}
    {here : Option Thread} (onward : Onward cfg s a t c here (.calling p m for_ call)) :
    (∃ before, a = .go c ∧ here = some before ∧ before.enters = some (p, m, call.text, for_) ∧
      call.phase = .entered) ∨ ∃ call', here = some (.calling p m for_ call') := by
  generalize now : Thread.calling p m for_ call = next at onward
  have calls : next.calls m = some call := by rw [← now]; exact if_pos rfl
  cases onward with
  | calls => rw [(idle_op _ m).1] at calls; simp at calls
  | passes pass => rw [(pass.idle.2 m).1] at calls; simp at calls
  | closes => rw [(idle_afterEnd _ _ _ m).1] at calls; simp at calls
  | leaves => rw [(idle_afterCall _ _ _ _ m).1] at calls; simp at calls
  | lists =>
      unfold firstDeletion at calls
      split at calls <;> simp [Thread.calls] at calls
  | restores action | commands action | saves action =>
      simp only [Thread.calling.injEq] at now
      obtain ⟨rfl, rfl, rfl, rfl⟩ := now
      exact .inl ⟨_, action, rfl, rfl, rfl⟩
  | advances past =>
      simp only [Thread.calling.injEq] at now
      obtain ⟨rfl, rfl, rfl, rfl⟩ := now
      exact .inr ⟨_, rfl⟩
  | _ => simp [Thread.calls] at calls

/-- A goroutine gets about to close a session without having had it saved, or
after its save command has returned or was turned away. -/
theorem Onward.to_closing {c m : Nat} {p : PlayerId} {by_ : By} {here : Option Thread}
    (onward : Onward cfg s a t c here (.closing p by_ m)) :
    (here = some (.deleting p by_) ∧ by_.save = false) ∨
      (a = .go c ∧ here = some (.saving p by_ m) ∧
        ∃ q mgr err, s.managers[m]? = some (q, mgr) ∧
          mgr.enter saveText = some (mgr, .outside (.err err))) ∨
      ∃ call r, here = some (.calling p m (.save by_) call) ∧ call.phase = .leaving r ∧
        ∃ q mgr, s.managers[m]? = some (q, mgr) ∧
          t.managers[m]? = some (q, { mgr with busy := false }) := by
  generalize now : Thread.closing p by_ m = next at onward
  have owns : next.owns = some (p, m) := by rw [← now]; rfl
  cases onward with
  | @calls op => rw [op.thread_owns.1] at owns; simp at owns
  | passes pass =>
      cases pass with
      | gone => rw [(Thread.afterEnd_owns ..).1] at owns; simp at owns
      | _ => simp at now
  | drops found unsaved =>
      simp only [Thread.closing.injEq] at now
      obtain ⟨rfl, rfl, rfl⟩ := now
      exact .inl ⟨rfl, unsaved⟩
  | unsaved action refused =>
      simp only [Thread.closing.injEq] at now
      obtain ⟨rfl, rfl, rfl⟩ := now
      exact .inr (.inl ⟨action, rfl, refused⟩)
  | closes => rw [(Thread.afterEnd_owns ..).1] at owns; simp at owns
  | @leaves q n for_ call r left after =>
      cases for_ with
      | save by' =>
          simp only [Thread.afterCall, Thread.closing.injEq] at now
          obtain ⟨rfl, rfl, rfl⟩ := now
          exact .inr (.inr ⟨call, r, rfl, left, after⟩)
      | restore => simp [Thread.afterCall] at now
      | reply => cases r <;> simp [Thread.afterCall] at now
  | lists =>
      unfold firstDeletion at now
      split at now <;> simp at now
  | _ => simp at now

/-- Between idle points nothing changes for any manager. -/
theorem Everywhere.idle {inv : ManagerInv G} {c : Nat} {here : Option Thread}
    (everywhere : Everywhere inv s) (next : Thread) (at_ : s.threads.get c = here)
    (managers : t.managers = s.managers) (threads : t.threads = s.threads.set c next)
    (before : ∀ thread, here = some thread → Idle thread) (after : Idle next) :
    Everywhere inv t := by
  refine everywhere.passes next managers threads (fun m => ?_) (fun m => ?_)
  · rw [(after m).1, callsOn, at_]
    cases here with
    | none => rfl
    | some thread => exact (before thread rfl m).1
  · rw [(after m).2, bootsOn, at_]
    cases here with
    | none => rfl
    | some thread => exact (before thread rfl m).2

/-- Nobody is at a manager that does not exist yet. -/
theorem Owned.nobody (owned : Owned s) {m : Nat} (beyond : s.managers.length ≤ m) :
    s.callsOn m = (fun _ => none) ∧ s.bootsOn m = fun _ => none := by
  have absent (p : PlayerId) (there : ∃ mgr, s.managers[m]? = some (p, mgr)) : False := by
    obtain ⟨mgr, there⟩ := there
    have := (List.getElem?_eq_some_iff.mp there).1
    omega
  have nowhere (c : Nat) (here : Thread) (at_ : s.threads.get c = some here) :
      here.calls m = none ∧ here.boots m = none := by
    cases here with
    | booting p via hasSave n i buf =>
        refine ⟨rfl, if_neg ?_⟩
        rintro rfl
        exact absent p (owned.owner c _ p n at_ rfl)
    | calling p n for_ call =>
        have elsewhere : n ≠ m := by
          rintro rfl
          cases for_ with
          | restore via => exact absent p (owned.owner c _ p n at_ rfl)
          | reply => exact absent p (owned.user c _ p n at_ rfl)
          | save by_ => exact absent p (owned.owner c _ p n at_ rfl)
        exact ⟨if_neg elsewhere, if_neg elsewhere⟩
    | _ => exact ⟨rfl, rfl⟩
  constructor
  · funext c
    simp only [callsOn, Option.bind_eq_none_iff]
    exact fun here at_ => (nowhere c here at_).1
  · funext c
    simp only [bootsOn, Option.bind_eq_none_iff]
    exact fun here at_ => (nowhere c here at_).2

/-- The rule for invariants of single managers: what each use of a manager keeps,
each step of the pool keeps. -/
theorem everywhere_step {inv : ManagerInv G} (owned : Owned s) (everywhere : Everywhere inv s)
    (kept : Kept I cfg s a inv) (step : Steps I cfg s a t) : Everywhere inv t := by
  have idle {thread : Thread} (idles : Idle thread) (before : Thread)
      (same : some thread = some before) : Idle before := by
    rw [Option.some.injEq] at same
    exact same ▸ idles
  have clear : ∀ m : Nat, (none : Option Call) = none ∧ (none : Option (Nat × Text)) = none :=
    fun _ => ⟨rfl, rfl⟩
  cases step with
  | calls new => exact everywhere.idle _ new rfl rfl (by simp) (idle_op _)
  | @fires timer c p num armed new =>
      exact everywhere.idle (.autoEnding p num) new rfl rfl (by simp) clear
  | passes at_ pass => exact everywhere.idle _ at_ rfl rfl (idle pass.idle.1) pass.idle.2
  | @inserts c p via hasSave m at_ vacant room =>
      exact everywhere.idle (.returned (.started p via none)) at_ (by simp) (by simp)
        (idle clear) clear
  | @touches c p text e at_ found =>
      exact everywhere.idle (.commanding p e.manager text) at_ (by simp) (by simp)
        (idle clear) clear
  | @deletes c p by_ e at_ found =>
      refine everywhere.idle (if by_.save then .saving p by_ e.manager
        else .closing p by_ e.manager) at_ (by simp) (by simp) (idle clear) ?_
      split <;> exact clear
  | @enters c here p q m text for_ mgr mgr' stage at_ about there entered =>
      have before := idle_enters about
      have calls : s.callsOn m c = none := by rw [callsOn, at_]; exact (before m).1
      have boots : s.bootsOn m c = none := by rw [bootsOn, at_]; exact (before m).2
      have inside : (stage.thread p m for_).calls m = stage.call? ∧
          (stage.thread p m for_).boots m = none := by
        obtain ⟨-, ⟨err, -, rfl, -⟩ | ⟨i, -, -, -, rfl⟩⟩ := Manager.enter_cases entered
        · exact idle_afterCall p m (.err err) for_ m
        · simp [Stage.thread, Thread.calls, Thread.boots, Stage.call?, Phase.boot?]
      refine everywhere.at_ m mgr' (stage.thread p m for_) rfl rfl ?_ ?_ there ?_
      · intro n other
        rw [callsOn, at_]
        refine (before n).1.trans ?_
        cases stage with
        | inside call => simp [Stage.thread, Thread.calls, Ne.symm other]
        | outside r => exact (idle_afterCall p m r for_ n).1.symm
      · intro n other
        rw [bootsOn, at_]
        refine (before n).2.trans ?_
        cases stage with
        | inside call => simp [Stage.thread, Thread.boots, Ne.symm other]
        | outside r => exact (idle_afterCall p m r for_ n).2.symm
      · rw [inside.1, inside.2, ← boots, update_eq_self]
        exact kept.entered rfl at_ about there (everywhere m q mgr there) entered
  | @discards c p q via m err mgr mgr' at_ there closed =>
      have calls (n : Nat) : s.callsOn n c = none := by rw [callsOn, at_]; rfl
      have boots (n : Nat) : s.bootsOn n c = none := by rw [bootsOn, at_]; rfl
      refine everywhere.at_ m mgr' (.returned (.started p via err)) rfl rfl
        (fun n _ => calls n) (fun n _ => boots n) there ?_
      rw [show Thread.calls m (.returned (.started p via err)) = none from rfl, ← calls m,
        show Thread.boots m (.returned (.started p via err)) = none from rfl, ← boots m,
        update_eq_self, update_eq_self]
      exact kept.closed at_ (.inl ⟨via, err, rfl⟩) there (everywhere m q mgr there) closed
  | @closes c p q by_ m mgr mgr' at_ there closed =>
      have calls (n : Nat) : s.callsOn n c = none := by rw [callsOn, at_]; rfl
      have boots (n : Nat) : s.bootsOn n c = none := by rw [bootsOn, at_]; rfl
      have after := idle_afterEnd p none by_
      refine everywhere.at_ m mgr' (Thread.afterEnd p none by_) rfl rfl
        (fun n _ => (calls n).trans (after n).1.symm)
        (fun n _ => (boots n).trans (after n).2.symm) there ?_
      rw [(after m).1, (after m).2, ← calls m, ← boots m, update_eq_self, update_eq_self]
      exact kept.closed at_ (.inr ⟨by_, rfl⟩) there (everywhere m q mgr there) closed
  | @lists c at_ =>
      refine everywhere.idle (firstDeletion s.entries.keys) at_ rfl rfl (idle clear) ?_
      unfold firstDeletion
      split <;> exact clear
  | @creates c p via hasSave spawn mgr d i at_ launched =>
      intro m q old there
      have threads : ({ s.setDisk p d with managers := s.managers ++ [(p, mgr)] }.goes c
          (.booting p via hasSave s.managers.length i []) : Pool G).threads =
          s.threads.set c (.booting p via hasSave s.managers.length i []) := rfl
      rw [callsOn_set threads, bootsOn_set threads]
      by_cases inside : m < s.managers.length
      · have there : s.managers[m]? = some (q, old) := by
          have whole : (s.managers ++ [(p, mgr)])[m]? = some (q, old) := there
          rwa [List.getElem?_append_left inside] at whole
        have calls : s.callsOn m c = none := by rw [callsOn, at_]; rfl
        have boots : s.bootsOn m c = none := by rw [bootsOn, at_]; rfl
        have elsewhere : s.managers.length ≠ m := by omega
        rw [show Thread.calls m (.booting p via hasSave s.managers.length i []) = none from rfl,
          show Thread.boots m (.booting p via hasSave s.managers.length i []) = none from
            if_neg elsewhere, ← calls, ← boots, update_eq_self, update_eq_self]
        exact everywhere m q old there
      · have outside := Nat.le_of_not_lt inside
        have whole : (s.managers ++ [(p, mgr)])[m]? = some (q, old) := there
        have bound := (List.getElem?_eq_some_iff.mp whole).1
        simp only [List.length_append, List.length_singleton] at bound
        have here : m = s.managers.length := by omega
        subst here
        rw [List.getElem?_append_right outside] at whole
        simp only [Nat.sub_self, List.getElem?_cons_zero, Option.some.injEq,
          Prod.mk.injEq] at whole
        obtain ⟨rfl, rfl⟩ := whole
        rw [(owned.nobody outside).1, (owned.nobody outside).2]
        have new := kept.created at_ launched
        simpa [Thread.calls, Thread.boots] using new
  | @refuses c p via hasSave spawn mgr d at_ launched =>
      exact everywhere.idle (.returned (.started p via (some .start))) at_ rfl rfl
        (idle clear) clear
  | @boots c p q via hasSave m i buf poll mgr mgr' b at_ there round =>
      have calls (n : Nat) : s.callsOn n c = none := by rw [callsOn, at_]; rfl
      have after : ∀ n, (b.thread p via hasSave m i).calls n = none ∧
          (b.thread p via hasSave m i).boots n = if m = n then b.boot? i else none := by
        intro n
        cases b with
        | waiting buf' => exact ⟨rfl, rfl⟩
        | started => cases hasSave <;> simp [Manager.Boot.thread, Thread.calls, Thread.boots,
            Manager.Boot.boot?]
        | failed => simp [Manager.Boot.thread, Thread.calls, Thread.boots, Manager.Boot.boot?]
      refine everywhere.at_ m mgr' (b.thread p via hasSave m i) rfl rfl
        (fun n _ => (calls n).trans (after n).1.symm) ?_ there ?_
      · intro n other
        rw [(after n).2, if_neg (Ne.symm other), bootsOn, at_]
        exact if_neg (Ne.symm other)
      · rw [(after m).1, (after m).2, if_pos rfl, ← calls m, update_eq_self]
        exact kept.booted rfl at_ there (everywhere m q mgr there) round
  | @advances c p q m for_ call call' move mgr mgr' d at_ there advanced =>
      refine everywhere.at_ m mgr' (.calling p m for_ call') rfl rfl ?_ ?_ there ?_
      · intro n other
        rw [callsOn, at_]
        simp [Thread.calls, Ne.symm other]
      · intro n other
        rw [bootsOn, at_]
        simp [Thread.boots, Ne.symm other]
      · have next := kept.advanced rfl at_ there (everywhere m q mgr there) advanced
        simpa [Thread.calls, Thread.boots, Stage.call?, Stage.boot?] using next
  | @leaves c p q m for_ call move mgr mgr' d r at_ there advanced =>
      have after := idle_afterCall p m r for_
      refine everywhere.at_ m (completed call.session for_ r mgr') (Thread.afterCall p m r for_)
        rfl rfl ?_ ?_ there ?_
      · intro n other
        rw [(after n).1, callsOn, at_]
        exact if_neg (Ne.symm other)
      · intro n other
        rw [(after n).2, bootsOn, at_]
        exact if_neg (Ne.symm other)
      · rw [(after m).1, (after m).2]
        have next := kept.advanced rfl at_ there (everywhere m q mgr there) advanced
        unfold completed
        split
        · exact kept.completed at_ there (everywhere m q mgr there) advanced next
        · exact next
  | @wipes c p at_ =>
      exact everywhere.idle (.checking p _) at_ rfl rfl (idle clear) clear
  | @keeps c p at_ => exact everywhere.idle (.returned _) at_ rfl rfl (idle clear) clear
  | @empties c p at_ => exact everywhere.idle (.returned _) at_ rfl rfl (idle clear) clear
  | @envs m p event mgr mgr' d there happened =>
      intro n q old found
      rw [show ((s.setManager m mgr').setDisk p d).managers = (s.setManager m mgr').managers
        from rfl, setManager_get] at found
      have calls : ((s.setManager m mgr').setDisk p d).callsOn n = s.callsOn n := rfl
      have boots : ((s.setManager m mgr').setDisk p d).bootsOn n = s.bootsOn n := rfl
      rw [calls, boots]
      split at found
      · next same =>
          subst same
          rw [there, Option.map_some, Option.some.injEq, Prod.mk.injEq] at found
          obtain ⟨rfl, rfl⟩ := found
          exact kept.happened rfl there (everywhere m p mgr there) happened
      · exact everywhere n q old found

/-! ## Processes -/

theorem bootsOn_booting {c : Nat} {p : PlayerId} {via : Via} {hasSave : Bool} {m i : Nat}
    {buf : Text} (at_ : s.threads.get c = some (.booting p via hasSave m i buf)) :
    s.bootsOn m c = some (i, buf) := by
  rw [bootsOn, at_]
  exact if_pos rfl

theorem bootsOn_calling {c : Nat} {p : PlayerId} {m : Nat} {for_ : For} {call : Call}
    (at_ : s.threads.get c = some (.calling p m for_ call)) :
    s.bootsOn m c = call.phase.boot? := by
  rw [bootsOn, at_]
  exact if_pos rfl

theorem callsOn_calling {c : Nat} {p : PlayerId} {m : Nat} {for_ : For} {call : Call}
    (at_ : s.threads.get c = some (.calling p m for_ call)) :
    s.callsOn m c = some call := by
  rw [callsOn, at_]
  exact if_pos rfl

/-- The processes of every manager are where they should be. -/
def Hosted (s : Pool G) : Prop := Everywhere (fun _ mgr _ boots => mgr.Hosts boots) s

theorem hosted_step (owned : Owned s) (hosted : Hosted s) (step : Steps I cfg s a t) :
    Hosted t := by
  refine everywhere_step owned hosted ⟨?_, ?_, ?_, ?_, ?_, ?_, ?_⟩ step
  · intro c p via hasSave spawn mgr d i at_ launched
    exact Manager.Hosts.new.launch launched c
  · intro c p q via hasSave m i buf poll mgr mgr' b _ at_ there hosts round
    exact hosts.boot (bootsOn_booting at_) (Manager.boots round)
  · intro c here p q m text for_ mgr mgr' stage _ at_ about there hosts entered
    exact hosts.enter entered
  · intro c p q m for_ call move mgr mgr' d stage _ at_ there hosts advanced
    exact hosts.advance (bootsOn_calling at_) (Manager.advances advanced)
  · intro c p q m call move mgr mgr' d output _ _ _ _ hosts
    exact hosts.onSession call.session _ (fun _ _ => id) fun _ _ => rfl
  · intro c here p q m mgr mgr' at_ _ there hosts closed
    exact hosts.close closed
  · intro m p event mgr mgr' d _ there hosts happened
    exact hosts.env happened

theorem hosted {guard : Pool G → Act → Prop} (reached : (pool I cfg).Reachable guard s) :
    Hosted s :=
  reached.invariant everywhere_init fun _ _ _ reached hosted _ taken =>
    hosted_step (owned reached) hosted (pool_steps taken)

/-! ## Sessions -/

/-- A session of a player, by its manager and its place there. -/
def At (s : Pool G) (p : PlayerId) (m i : Nat) (σ : Session G) : Prop :=
  ∃ mgr, s.managers[m]? = some (p, mgr) ∧ mgr.sessions[i]? = some σ

theorem At.unique {p : PlayerId} {m i : Nat} {σ σ' : Session G} (now : s.At p m i σ)
    (now' : s.At p m i σ') : σ = σ' := by
  obtain ⟨mgr, there, listed⟩ := now
  obtain ⟨mgr', there', listed'⟩ := now'
  rw [there, Option.some.injEq, Prod.mk.injEq] at there'
  rw [there'.2, listed', Option.some.injEq] at listed
  exact listed.symm

/-- At most one interpreter of a manager runs. -/
theorem At.sole {p : PlayerId} {m i i' : Nat} {σ σ' : Session G} (hosted : Hosted s)
    (now : s.At p m i σ) (running : σ.running = true) (now' : s.At p m i' σ')
    (running' : σ'.running = true) : i = i' := by
  obtain ⟨mgr, there, listed⟩ := now
  obtain ⟨mgr', there', listed'⟩ := now'
  rw [there, Option.some.injEq, Prod.mk.injEq] at there'
  rw [← there'.2] at listed'
  exact (hosted m p mgr there).sole listed running listed' running'

/-- What a step can have made of a session. -/
inductive Touched (I : Interpreter G) (cfg : PoolConfig) (s : Pool G) (a : Act) (t : Pool G)
    (p : PlayerId) (m i : Nat) (σ' : Session G) : Prop
  | same {σ : Session G} (was : s.At p m i σ) (same : σ.SameGame σ')
  | completed {c : Nat} {call : Call} {σ : Session G} (was : s.At p m i σ)
      (at_ : s.threads.get c = some (.calling p m .reply call)) (here : i = call.session)
      (phase : ∃ output, call.phase = .leaving (.ok output)) (same : σ' = { σ with saved := false })
  | wrote {c : Nat} {for_ : For} {call : Call} {σ : Session G} (was : s.At p m i σ)
      (at_ : s.threads.get c = some (.calling p m for_ call)) (here : i = call.session)
      (phase : call.phase = .entered) (same : (σ.writeLines c call.text).SameGame σ')
  | named {c : Nat} {for_ : For} {call : Call} {raw : Text} {σ : Session G} (was : s.At p m i σ)
      (at_ : s.threads.get c = some (.calling p m for_ call)) (here : i = call.session)
      (phase : call.phase = .draining .filename raw)
      (same : (σ.writeLines c (cfg.savePath p)).SameGame σ')
  | launched {c : Nat} {via : Via} {hasSave : Bool}
      (at_ : s.threads.get c = some (.launching p via hasSave)) (new : m = s.managers.length)
      (after : t.threads.get c = some (.booting p via hasSave m i []))
      (fresh : σ' = Session.spawn I (s.disks p).wipes)
  | relaunched {c : Nat} {for_ : For} {call : Call} (action : a = .move c (.relaunch .ok))
      (at_ : s.threads.get c = some (.calling p m for_ call)) (phase : call.phase = .timedOut)
      (fresh : σ' = Session.spawn I (s.disks p).wipes)
  | consumed {ok : Bool} {σ : Session G} (action : a = .env m (.consume i ok)) (was : s.At p m i σ)
      (read : σ.consume I (cfg.savePath p) ok (s.disks p) = some (σ', t.disks p))

/-- A changed manager has its own new sessions, and the others the old ones. -/
theorem at_setManager {m n i : Nat} {p q : PlayerId} {mgr mgr' : Manager G} {σ' : Session G}
    (there : s.managers[m]? = some (q, mgr))
    (managers : t.managers = (s.setManager m mgr').managers) (now : t.At p n i σ') :
    (n = m ∧ p = q ∧ mgr'.sessions[i]? = some σ') ∨ n ≠ m ∧ s.At p n i σ' := by
  obtain ⟨new, found, listed⟩ := now
  rw [managers, setManager_get] at found
  split at found
  · next same =>
      subst same
      rw [there, Option.map_some, Option.some.injEq, Prod.mk.injEq] at found
      obtain ⟨rfl, rfl⟩ := found
      exact .inl ⟨rfl, rfl, listed⟩
  · next other => exact .inr ⟨fun same => other same.symm, new, found, listed⟩

/-- The player in whose name a goroutine is inside a call is the manager's. -/
theorem Owned.caller {c m : Nat} {p q : PlayerId} {for_ : For} {call : Call} {mgr : Manager G}
    (owned : Owned s) (at_ : s.threads.get c = some (.calling p m for_ call))
    (there : s.managers[m]? = some (q, mgr)) : q = p := by
  have mine : ∃ mgr, s.managers[m]? = some (p, mgr) := by
    cases for_ with
    | restore via => exact owned.owner c _ p m at_ rfl
    | reply => exact owned.user c _ p m at_ rfl
    | save by_ => exact owned.owner c _ p m at_ rfl
  obtain ⟨mgr', there'⟩ := mine
  rw [there, Option.some.injEq, Prod.mk.injEq] at there'
  exact there'.1

theorem touched {p : PlayerId} {m i : Nat} {σ' : Session G} (owned : Owned s)
    (step : Steps I cfg s a t) (now : t.At p m i σ') : Touched I cfg s a t p m i σ' := by
  have untouched (managers : t.managers = s.managers) : Touched I cfg s a t p m i σ' := by
    obtain ⟨mgr, found, listed⟩ := now
    exact .same ⟨mgr, managers ▸ found, listed⟩ (.refl σ')
  cases step with
  | calls | fires | passes | lists | refuses | wipes | keeps | empties => exact untouched rfl
  | inserts | touches | deletes => exact untouched (by simp)
  | enters at_ about there entered =>
      rcases at_setManager there rfl now with ⟨rfl, rfl, listed⟩ | ⟨-, was⟩
      · exact .same ⟨_, there, Manager.enter_same entered listed⟩ (.refl σ')
      · exact .same was (.refl σ')
  | discards at_ there closed =>
      rcases at_setManager there rfl now with ⟨rfl, rfl, listed⟩ | ⟨-, was⟩
      · obtain ⟨σ, old, same⟩ := Manager.close_same closed listed
        exact .same ⟨_, there, old⟩ same
      · exact .same was (.refl σ')
  | closes at_ there closed =>
      rcases at_setManager there rfl now with ⟨rfl, rfl, listed⟩ | ⟨-, was⟩
      · obtain ⟨σ, old, same⟩ := Manager.close_same closed listed
        exact .same ⟨_, there, old⟩ same
      · exact .same was (.refl σ')
  | @creates c q via hasSave spawn mgr d j at_ launched =>
      obtain ⟨new, found, listed⟩ := now
      have whole : (s.managers ++ [(q, mgr)])[m]? = some (p, new) := found
      by_cases inside : m < s.managers.length
      · rw [List.getElem?_append_left inside] at whole
        exact .same ⟨new, whole, listed⟩ (.refl σ')
      · have outside := Nat.le_of_not_lt inside
        have bound := (List.getElem?_eq_some_iff.mp whole).1
        simp only [List.length_append, List.length_singleton] at bound
        have here : m = s.managers.length := by omega
        subst here
        rw [List.getElem?_append_right outside] at whole
        simp only [Nat.sub_self, List.getElem?_cons_zero, Option.some.injEq,
          Prod.mk.injEq] at whole
        obtain ⟨rfl, rfl⟩ := whole
        obtain ⟨-, rfl, -, rfl⟩ := Manager.launch_started launched
        have only : i = 0 ∧ σ' = Session.spawn I (s.disks q).wipes := by
          cases i with
          | zero => exact ⟨rfl, by simpa [Manager.new, Manager.closeCurrent] using listed.symm⟩
          | succ i => simp [Manager.new, Manager.closeCurrent] at listed
        obtain ⟨rfl, fresh⟩ := only
        exact .launched at_ rfl (Table.get_set_self _ _ _) fresh
  | boots at_ there round =>
      rcases at_setManager there rfl now with ⟨rfl, rfl, listed⟩ | ⟨-, was⟩
      · obtain ⟨σ, old, same⟩ := Manager.boot_same (Manager.boots round) listed
        exact .same ⟨_, there, old⟩ same
      · exact .same was (.refl σ')
  | advances at_ there advanced =>
      obtain rfl := owned.caller at_ there
      rcases at_setManager there rfl now with ⟨rfl, rfl, listed⟩ | ⟨-, was⟩
      · cases Manager.advance_touch (Manager.advances advanced) listed with
        | same old same => exact .same ⟨_, there, old⟩ same
        | wrote old here phase same => exact .wrote ⟨_, there, old⟩ at_ here phase same
        | named old here phase same => exact .named ⟨_, there, old⟩ at_ here phase same
        | spawned phase new fresh =>
            have longer := new ▸ (List.getElem?_eq_some_iff.mp listed).1
            exact .relaunched (by rw [Manager.timedOut_relaunches phase advanced longer]) at_ phase
              fresh
      · exact .same was (.refl σ')
  | @leaves c p q m for_ call move mgr mgr' d r at_ there advanced =>
      obtain rfl := owned.caller at_ there
      rcases at_setManager there rfl now with ⟨rfl, rfl, listed⟩ | ⟨-, was⟩
      · obtain ⟨phase, rfl⟩ := Manager.left_cases (Manager.advances advanced)
        unfold completed at listed
        split at listed
        · next output =>
            rcases Manager.Hosts.onSession_cases listed with ⟨σ, old, rfl, rfl⟩ | ⟨-, old⟩
            · exact .completed ⟨_, there, old⟩ at_ rfl ⟨output, phase⟩ rfl
            · exact .same ⟨_, there, old⟩ (.refl σ')
        · exact .same ⟨_, there, listed⟩ (.refl σ')
      · exact .same was (.refl σ')
  | @envs n q event mgr mgr' d there happened =>
      rcases at_setManager there rfl now with ⟨rfl, rfl, listed⟩ | ⟨-, was⟩
      · rcases Manager.env_cases happened listed with ⟨σ, old, same⟩ | ⟨ok, σ, rfl, old, read⟩
        · exact .same ⟨_, there, old⟩ same
        · have disk : ((s.setManager m mgr').setDisk p d).disks p = d := by simp [setDisk_get]
          exact .consumed rfl ⟨_, there, old⟩ (disk.symm ▸ read)
      · exact .same was (.refl σ')

/-- A session that read a line is what it was made of it. -/
theorem at_consumed {p : PlayerId} {m i : Nat} {ok : Bool} {σ : Session G}
    (step : Steps I cfg s (.env m (.consume i ok)) t) (was : s.At p m i σ) :
    ∃ σ', σ.consume I (cfg.savePath p) ok (s.disks p) = some (σ', t.disks p) ∧
      t.At p m i σ' := by
  obtain ⟨old, found, listed⟩ := was
  cases step with
  | @envs _ q _ mgr mgr' d there happened =>
      rw [found, Option.some.injEq, Prod.mk.injEq] at there
      obtain ⟨rfl, rfl⟩ := there
      simp only [Manager.env, listed] at happened
      cases read : σ.consume I (cfg.savePath p) ok (s.disks p) with
      | none => simp [read] at happened
      | some result =>
          simp only [read, Option.some.injEq, Prod.mk.injEq] at happened
          obtain ⟨rfl, rfl⟩ := happened
          refine ⟨result.1, by simp [setDisk_get], old.onSession i fun _ => result.1, ?_, ?_⟩
          · have managers : ((s.setManager m (old.onSession i fun _ => result.1)).setDisk p
                result.2).managers = (s.setManager m (old.onSession i fun _ => result.1)).managers :=
              rfl
            rw [managers, setManager_get, if_pos rfl, found]
            rfl
          · exact Manager.onSession_there listed _

/-! ## Save files -/

/-- What a step can have made of a player's disk. -/
inductive DiskStep (I : Interpreter G) (cfg : PoolConfig) (s : Pool G) (a : Act) (p : PlayerId)
    (d' : Disk G) : Prop
  | kept (save : d'.save = (s.disks p).save) (writes : d'.writes = (s.disks p).writes)
      (wipes : d'.wipes = (s.disks p).wipes)
      (present : (s.disks p).dir ≠ .absent → d'.dir ≠ .absent)
  | consumed {m i : Nat} {ok : Bool} {σ σ' : Session G} (action : a = .env m (.consume i ok))
      (was : s.At p m i σ) (read : σ.consume I (cfg.savePath p) ok (s.disks p) = some (σ', d'))
  | wiped {c : Nat} (action : a = .wipe c .ok) (at_ : s.threads.get c = some (.wiping p))
      (gone : d' = (s.disks p).removeAll)
  | emptied {c : Nat} (action : a = .wipe c .emptied) (at_ : s.threads.get c = some (.wiping p))
      (gone : d' = (s.disks p).clear)

theorem DiskStep.refl (p : PlayerId) : DiskStep I cfg s a p (s.disks p) := .kept rfl rfl rfl id

theorem DiskStep.made {p : PlayerId} {d' : Disk G}
    (made : d' = s.disks p ∨ d' = (s.disks p).mkdirAll) : DiskStep I cfg s a p d' := by
  rcases made with rfl | rfl
  · exact .refl p
  · unfold Disk.mkdirAll
    split
    · next none_ => exact .kept (by simp [Disk.save, none_]) rfl rfl fun _ => by simp
    · exact .refl p

theorem disk_step (step : Steps I cfg s a t) (p : PlayerId) :
    DiskStep I cfg s a p (t.disks p) := by
  have elsewhere {q : PlayerId} {d : Disk G} (disks : t.disks = (s.setDisk q d).disks)
      (here : p = q → DiskStep I cfg s a p d) : DiskStep I cfg s a p (t.disks p) := by
    rw [disks, setDisk_get]
    split
    · next same => exact here same
    · exact .refl p
  cases step with
  | calls | fires | passes | lists | keeps | enters | discards | closes | boots =>
      exact DiskStep.refl p
  | inserts | touches | deletes => simpa using DiskStep.refl p
  | creates at_ launched =>
      exact elsewhere rfl fun same => .made (.inr (same ▸ (Manager.launch_started launched).2.2.1))
  | refuses at_ launched =>
      exact elsewhere rfl fun same => .made (same ▸ (Manager.launch_refused launched).2.2)
  | advances at_ there advanced =>
      exact elsewhere rfl fun same =>
        .made (same ▸ Manager.advance_disk (Manager.advances advanced))
  | leaves at_ there advanced =>
      exact elsewhere rfl fun same =>
        .made (same ▸ Manager.advance_disk (Manager.advances advanced))
  | wipes at_ => exact elsewhere rfl fun same => .wiped rfl (same ▸ at_) (by rw [same])
  | empties at_ => exact elsewhere rfl fun same => .emptied rfl (same ▸ at_) (by rw [same])
  | @envs m q event mgr mgr' d there happened =>
      refine elsewhere rfl fun same => ?_
      subst same
      rcases Manager.env_disk happened with rfl | ⟨j, ok, σ, σ', rfl, old, read⟩
      · exact .refl p
      · exact .consumed rfl ⟨mgr, there, old⟩ read

/-- Removals of the directory are counted. -/
theorem wipes_le (step : Steps I cfg s a t) (p : PlayerId) :
    (s.disks p).wipes ≤ (t.disks p).wipes := by
  generalize made : t.disks p = d'
  cases made ▸ disk_step step p with
  | kept save writes wipes => exact wipes.ge
  | consumed action was read =>
      rcases Session.consume_play read with ⟨-, -, rfl⟩ | ⟨-, rfl⟩ | ⟨-, written⟩
      · exact le_rfl
      · exact le_rfl
      · exact (Disk.write_eq_some written).2.2.2.ge
  | wiped action at_ gone => exact gone ▸ Nat.le_succ _
  | emptied action at_ gone =>
      subst gone
      unfold Disk.clear
      split <;> exact le_rfl

end Pool

end Zorkbot.Pty
