/-
# What one step of the pool can do

Each step of a goroutine is named, with what it requires and what it changes.
Every invariant of the pool is proved from this classification.
-/

import Zorkbot.Pty.Pool

namespace Zorkbot.Pty

open Go Transition

variable {G : Type}

/-- The goroutine's next step is to enter `Manager.Command`. -/
def Thread.enters : Thread → Option (PlayerId × Nat × Text × For)
  | .restoring p via m => some (p, m, restoreText, .restore via)
  | .commanding p m text => some (p, m, text, .reply)
  | .saving p by_ m => some (p, m, saveText, .save by_)
  | _ => none

/-- Where a goroutine stands once it is inside `Manager.Command` or has left it. -/
def Stage.thread (p : PlayerId) (m : Nat) (for_ : For) : Stage → Thread
  | .inside call => .calling p m for_ call
  | .outside r => Thread.afterCall p m r for_

/-- Where `Start` goes after a round of the new session's start. -/
def Manager.Boot.thread (p : PlayerId) (via : Via) (hasSave : Bool) (m i : Nat) :
    Manager.Boot → Thread
  | .waiting buf => .booting p via hasSave m i buf
  | .started => if hasSave then .restoring p via m else .inserting p via false m
  | .failed => .returned (.started p via (some .start))

namespace Pool

variable {I : Interpreter G} {cfg : PoolConfig} {s t : Pool G} {c : Nat}

/-! ## What the operations leave alone -/

@[simp]
theorem goes_frame (c : Nat) (thread : Thread) (s : Pool G) :
    (s.goes c thread).entries = s.entries ∧ (s.goes c thread).nextNum = s.nextNum ∧
      (s.goes c thread).managers = s.managers ∧ (s.goes c thread).disks = s.disks ∧
      (s.goes c thread).threads = s.threads.set c thread ∧
      (s.goes c thread).endings = s.endings ∧ (s.goes c thread).begins = s.begins ∧
      (s.goes c thread).left = s.left ∧ (s.goes c thread).listings = s.listings :=
  ⟨rfl, rfl, rfl, rfl, rfl, rfl, rfl, rfl, rfl⟩

@[simp]
theorem setManager_frame (m : Nat) (mgr : Manager G) (s : Pool G) :
    (s.setManager m mgr).entries = s.entries ∧ (s.setManager m mgr).nextNum = s.nextNum ∧
      (s.setManager m mgr).disks = s.disks ∧ (s.setManager m mgr).threads = s.threads ∧
      (s.setManager m mgr).endings = s.endings ∧ (s.setManager m mgr).begins = s.begins ∧
      (s.setManager m mgr).left = s.left ∧ (s.setManager m mgr).listings = s.listings :=
  ⟨rfl, rfl, rfl, rfl, rfl, rfl, rfl, rfl⟩

@[simp]
theorem setDisk_frame (p : PlayerId) (d : Disk G) (s : Pool G) :
    (s.setDisk p d).entries = s.entries ∧ (s.setDisk p d).nextNum = s.nextNum ∧
      (s.setDisk p d).managers = s.managers ∧ (s.setDisk p d).threads = s.threads ∧
      (s.setDisk p d).endings = s.endings ∧ (s.setDisk p d).begins = s.begins ∧
      (s.setDisk p d).left = s.left ∧ (s.setDisk p d).listings = s.listings :=
  ⟨rfl, rfl, rfl, rfl, rfl, rfl, rfl, rfl⟩

@[simp]
theorem stop_frame (timer : Option Nat) (s : Pool G) :
    (s.stop timer).entries = s.entries ∧ (s.stop timer).nextNum = s.nextNum ∧
      (s.stop timer).managers = s.managers ∧ (s.stop timer).disks = s.disks ∧
      (s.stop timer).threads = s.threads ∧ (s.stop timer).endings = s.endings ∧
      (s.stop timer).begins = s.begins ∧ (s.stop timer).left = s.left ∧
      (s.stop timer).listings = s.listings := by
  cases timer <;> exact ⟨rfl, rfl, rfl, rfl, rfl, rfl, rfl, rfl, rfl⟩

@[simp]
theorem arm_frame (timeout : Int) (p : PlayerId) (num : Nat) (s : Pool G) :
    (s.arm timeout p num).1.entries = s.entries ∧ (s.arm timeout p num).1.nextNum = s.nextNum ∧
      (s.arm timeout p num).1.managers = s.managers ∧
      (s.arm timeout p num).1.disks = s.disks ∧ (s.arm timeout p num).1.threads = s.threads ∧
      (s.arm timeout p num).1.endings = s.endings ∧
      (s.arm timeout p num).1.begins = s.begins ∧ (s.arm timeout p num).1.left = s.left ∧
      (s.arm timeout p num).1.listings = s.listings := by
  unfold arm
  split <;> exact ⟨rfl, rfl, rfl, rfl, rfl, rfl, rfl, rfl, rfl⟩

@[simp]
theorem insert_frame (cfg : PoolConfig) (p : PlayerId) (c m : Nat) (s : Pool G) :
    (s.insert cfg p c m).nextNum = s.nextNum + 1 ∧
      (s.insert cfg p c m).managers = s.managers ∧ (s.insert cfg p c m).disks = s.disks ∧
      (s.insert cfg p c m).threads = s.threads ∧ (s.insert cfg p c m).endings = s.endings ∧
      (s.insert cfg p c m).begins = ⟨p, c, m, s.left p, s.stateOf m⟩ :: s.begins ∧
      (s.insert cfg p c m).left = s.left ∧ (s.insert cfg p c m).listings = s.listings := by
  simp [insert]

theorem insert_entries (cfg : PoolConfig) (p q : PlayerId) (c m : Nat) (s : Pool G) :
    (s.insert cfg p c m).entries.get q =
      if q = p then some ⟨m, s.nextNum, false, (s.arm cfg.idleStartTimeout p s.nextNum).2, none⟩
      else s.entries.get q := by
  simp [insert, Table.get_set]

@[simp]
theorem touch_frame (cfg : PoolConfig) (p : PlayerId) (e : Entry) (s : Pool G) :
    (s.touch cfg p e).nextNum = s.nextNum ∧ (s.touch cfg p e).managers = s.managers ∧
      (s.touch cfg p e).disks = s.disks ∧ (s.touch cfg p e).threads = s.threads ∧
      (s.touch cfg p e).endings = s.endings ∧ (s.touch cfg p e).begins = s.begins ∧
      (s.touch cfg p e).left = s.left ∧ (s.touch cfg p e).listings = s.listings := by
  unfold touch
  simp only
  split <;> simp

/-- An entry that was touched holds the same session. -/
theorem touch_entries (cfg : PoolConfig) (p : PlayerId) (e : Entry) (s : Pool G) :
    ∃ e', e'.manager = e.manager ∧ e'.num = e.num ∧
      ∀ q, (s.touch cfg p e).entries.get q = if q = p then some e' else s.entries.get q := by
  unfold touch
  refine ⟨_, ?_, ?_, fun q => Table.get_set s.entries p q _⟩
  · rfl
  · rfl

@[simp]
theorem delete_frame (p : PlayerId) (e : Entry) (save : Bool) (s : Pool G) :
    (s.delete p e save).entries = s.entries.erase p ∧ (s.delete p e save).nextNum = s.nextNum ∧
      (s.delete p e save).managers = s.managers ∧ (s.delete p e save).disks = s.disks ∧
      (s.delete p e save).threads = s.threads ∧ (s.delete p e save).endings = s.endings ∧
      (s.delete p e save).begins = s.begins ∧
      (s.delete p e save).left =
        (if save then Function.update s.left p (s.stateOf e.manager) else s.left) ∧
      (s.delete p e save).listings = s.listings := by
  simp [delete]

theorem setManager_get (m n : Nat) (mgr : Manager G) (s : Pool G) :
    (s.setManager m mgr).managers[n]? =
      if m = n then s.managers[n]?.map fun row => (row.1, mgr) else s.managers[n]? := by
  simp only [setManager, List.getElem?_modify]
  split <;> cases s.managers[n]? <;> rfl

theorem setDisk_get (p q : PlayerId) (d : Disk G) (s : Pool G) :
    (s.setDisk p d).disks q = if q = p then d else s.disks q := by
  simp [setDisk, Function.update_apply]

/-! ## The steps -/

/-- A step of one goroutine that changes nothing else. -/
inductive Passes (s : Pool G) : Thread → Thread → Prop
  | idempotent {p : PlayerId} {via : Via} {e : Entry} (found : s.entries.get p = some e) :
      Passes s (.checking p via) (.returned (.started p via none))
  | full {p : PlayerId} {via : Via} :
      Passes s (.checking p via) (.returned (.started p via (some .sessionFull)))
  | checked {p : PlayerId} {via : Via} (vacant : s.entries.get p = none) :
      Passes s (.checking p via) (.probing p via)
  | probed {p : PlayerId} {via : Via} :
      Passes s (.probing p via) (.launching p via (s.disks p).hasSaveFile)
  | raced {p : PlayerId} {via : Via} {hasSave : Bool} {m : Nat} {e : Entry}
      (found : s.entries.get p = some e) :
      Passes s (.inserting p via hasSave m) (.discarding p via m none)
  | crowded {p : PlayerId} {via : Via} {hasSave : Bool} {m : Nat} :
      Passes s (.inserting p via hasSave m) (.discarding p via m (some .sessionFull))
  | missing {p : PlayerId} {text : Text} :
      Passes s (.lookup p text) (.returned (.failed .sessionNotFound))
  | current {p : PlayerId} {num : Nat} : Passes s (.autoEnding p num) (.deleting p (.timer num))
  | stale {p : PlayerId} {num : Nat} (other : ∀ e, s.entries.get p = some e → e.num ≠ num) :
      Passes s (.autoEnding p num) (.returned (.ended p none))
  | gone {p : PlayerId} {by_ : By} (vacant : s.entries.get p = none) :
      Passes s (.deleting p by_) (Thread.afterEnd p (some .sessionNotFound) by_)

/-- What the players that `Close` lists become. -/
def firstDeletion : List PlayerId → Thread
  | [] => .returned .closed
  | p :: rest => .deleting p (.shutdown rest)

/-- What `Close` finds. -/
def listing (s : Pool G) : Listing :=
  ⟨s.entries.rows.map fun row => (row.1, row.2.manager),
    (s.threads.rows.filter fun row => row.2.isStart).map (·.1)⟩

/-- What one step of the pool can do. -/
inductive Steps (I : Interpreter G) (cfg : PoolConfig) (s : Pool G) : Act → Pool G → Prop
  | calls {c : Nat} {op : Op} (new : s.threads.get c = none) :
      Steps I cfg s (.call c op) (s.goes c op.thread)
  | fires {timer c : Nat} {p : PlayerId} {num : Nat} (armed : s.timers.get timer = some (p, num))
      (new : s.threads.get c = none) :
      Steps I cfg s (.fire timer c)
        ({ s with timers := s.timers.erase timer }.goes c (.autoEnding p num))
  | passes {c : Nat} {here next : Thread} (at_ : s.threads.get c = some here)
      (pass : Passes s here next) : Steps I cfg s (.go c) (s.goes c next)
  | inserts {c : Nat} {p : PlayerId} {via : Via} {hasSave : Bool} {m : Nat}
      (at_ : s.threads.get c = some (.inserting p via hasSave m))
      (vacant : s.entries.get p = none) (room : s.entries.size < cfg.maxActiveSessions) :
      Steps I cfg s (.go c) ((s.insert cfg p c m).goes c (.returned (.started p via none)))
  | touches {c : Nat} {p : PlayerId} {text : Text} {e : Entry}
      (at_ : s.threads.get c = some (.lookup p text)) (found : s.entries.get p = some e) :
      Steps I cfg s (.go c) ((s.touch cfg p e).goes c (.commanding p e.manager text))
  | deletes {c : Nat} {p : PlayerId} {by_ : By} {e : Entry}
      (at_ : s.threads.get c = some (.deleting p by_)) (found : s.entries.get p = some e) :
      Steps I cfg s (.go c) ((s.delete p e by_.save).goes c
        (if by_.save then .saving p by_ e.manager else .closing p by_ e.manager))
  | enters {c : Nat} {here : Thread} {p q : PlayerId} {m : Nat} {text : Text} {for_ : For}
      {mgr mgr' : Manager G} {stage : Stage} (at_ : s.threads.get c = some here)
      (about : here.enters = some (p, m, text, for_)) (there : s.managers[m]? = some (q, mgr))
      (entered : mgr.enter text = some (mgr', stage)) :
      Steps I cfg s (.go c) ((s.setManager m mgr').goes c (stage.thread p m for_))
  | discards {c : Nat} {p q : PlayerId} {via : Via} {m : Nat} {err : Option PoolErr}
      {mgr mgr' : Manager G} (at_ : s.threads.get c = some (.discarding p via m err))
      (there : s.managers[m]? = some (q, mgr)) (closed : mgr.close = some mgr') :
      Steps I cfg s (.go c) ((s.setManager m mgr').goes c (.returned (.started p via err)))
  | closes {c : Nat} {p q : PlayerId} {by_ : By} {m : Nat} {mgr mgr' : Manager G}
      (at_ : s.threads.get c = some (.closing p by_ m)) (there : s.managers[m]? = some (q, mgr))
      (closed : mgr.close = some mgr') :
      Steps I cfg s (.go c) { (s.setManager m mgr').goes c (Thread.afterEnd p none by_) with
        endings := if by_.save then ⟨m, s.savedAt m⟩ :: s.endings else s.endings }
  | lists {c : Nat} (at_ : s.threads.get c = some .listing) :
      Steps I cfg s (.go c)
        ({ s with listings := s.listings.set c s.listing }.goes c (firstDeletion s.entries.keys))
  | creates {c : Nat} {p : PlayerId} {via : Via} {hasSave : Bool} {spawn : Spawn}
      {mgr : Manager G} {d : Disk G} {i : Nat}
      (at_ : s.threads.get c = some (.launching p via hasSave))
      (launched : Manager.new.launch I spawn (s.disks p) = some (mgr, d, some i)) :
      Steps I cfg s (.move c (.relaunch spawn))
        ({ s.setDisk p d with managers := s.managers ++ [(p, mgr)] }.goes c
          (.booting p via hasSave s.managers.length i []))
  | refuses {c : Nat} {p : PlayerId} {via : Via} {hasSave : Bool} {spawn : Spawn}
      {mgr : Manager G} {d : Disk G} (at_ : s.threads.get c = some (.launching p via hasSave))
      (launched : Manager.new.launch I spawn (s.disks p) = some (mgr, d, none)) :
      Steps I cfg s (.move c (.relaunch spawn))
        ((s.setDisk p d).goes c (.returned (.started p via (some .start))))
  | boots {c : Nat} {p q : PlayerId} {via : Via} {hasSave : Bool} {m i : Nat} {buf : Text}
      {poll : Session.Poll} {mgr mgr' : Manager G} {b : Manager.Boot}
      (at_ : s.threads.get c = some (.booting p via hasSave m i buf))
      (there : s.managers[m]? = some (q, mgr)) (round : mgr.boot i buf poll = some (mgr', b)) :
      Steps I cfg s (.move c (.poll poll))
        ((s.setManager m mgr').goes c (b.thread p via hasSave m i))
  | advances {c : Nat} {p q : PlayerId} {m : Nat} {for_ : For} {call call' : Call}
      {move : Manager.Move} {mgr mgr' : Manager G} {d : Disk G}
      (at_ : s.threads.get c = some (.calling p m for_ call))
      (there : s.managers[m]? = some (q, mgr))
      (advanced : mgr.advance I (cfg.savePath p) c call move (s.disks p) =
        some (mgr', d, .inside call')) :
      Steps I cfg s (.move c move)
        (((s.setManager m mgr').setDisk p d).goes c (.calling p m for_ call'))
  | leaves {c : Nat} {p q : PlayerId} {m : Nat} {for_ : For} {call : Call}
      {move : Manager.Move} {mgr mgr' : Manager G} {d : Disk G} {r : Result}
      (at_ : s.threads.get c = some (.calling p m for_ call))
      (there : s.managers[m]? = some (q, mgr))
      (advanced : mgr.advance I (cfg.savePath p) c call move (s.disks p) =
        some (mgr', d, .outside r)) :
      Steps I cfg s (.move c move)
        (((s.setManager m (completed call.session for_ r mgr')).setDisk p d).goes c
          (Thread.afterCall p m r for_))
  | wipes {c : Nat} {p : PlayerId} (at_ : s.threads.get c = some (.wiping p)) :
      Steps I cfg s (.wipe c .ok) ((s.setDisk p (s.disks p).removeAll).goes c
        (.checking p (.reset ((s.disks p).wipes + 1))))
  | keeps {c : Nat} {p : PlayerId} (at_ : s.threads.get c = some (.wiping p)) :
      Steps I cfg s (.wipe c .kept) (s.goes c (.returned (.failed .removal)))
  | empties {c : Nat} {p : PlayerId} (at_ : s.threads.get c = some (.wiping p)) :
      Steps I cfg s (.wipe c .emptied)
        ((s.setDisk p (s.disks p).clear).goes c (.returned (.failed .removal)))
  | envs {m : Nat} {p : PlayerId} {event : Manager.Env} {mgr mgr' : Manager G} {d : Disk G}
      (there : s.managers[m]? = some (p, mgr))
      (happened : mgr.env I (cfg.savePath p) event (s.disks p) = some (mgr', d)) :
      Steps I cfg s (.env m event) ((s.setManager m mgr').setDisk p d)

theorem enter_steps {here : Thread} {p : PlayerId} {m : Nat} {text : Text} {for_ : For}
    (at_ : s.threads.get c = some here) (about : here.enters = some (p, m, text, for_))
    (taken : s.enter c p m text for_ = some t) : Steps I cfg s (.go c) t := by
  unfold enter at taken
  split at taken
  · simp at taken
  · next q mgr there =>
      split at taken
      · simp at taken
      · next mgr' call entered =>
          simp only [Option.some.injEq] at taken
          subst taken
          exact .enters at_ about there entered
      · next mgr' r entered =>
          simp only [Option.some.injEq] at taken
          subst taken
          exact .enters at_ about there entered

theorem close_eq_some {m : Nat} {next : Thread} (taken : s.close c m next = some t) :
    ∃ q mgr mgr', s.managers[m]? = some (q, mgr) ∧ mgr.close = some mgr' ∧
      t = (s.setManager m mgr').goes c next := by
  unfold close at taken
  split at taken
  · simp at taken
  · next q mgr there =>
      obtain ⟨mgr', closed, rfl⟩ := Option.map_eq_some_iff.mp taken
      exact ⟨q, mgr, mgr', there, closed, rfl⟩

theorem go_steps {here : Thread} (at_ : s.threads.get c = some here)
    (taken : s.go cfg c here = some t) : Steps I cfg s (.go c) t := by
  unfold go at taken
  split at taken
  · next p via =>
      split at taken
      · next present =>
          obtain ⟨e, found⟩ := Option.isSome_iff_exists.mp present
          simp only [Option.some.injEq] at taken
          exact taken ▸ .passes at_ (.idempotent found)
      · next vacant =>
          split at taken
          · simp only [Option.some.injEq] at taken
            exact taken ▸ .passes at_ .full
          · simp only [Option.some.injEq] at taken
            exact taken ▸ .passes at_ (.checked (by simpa using vacant))
  · simp only [Option.some.injEq] at taken
    exact taken ▸ .passes at_ .probed
  · exact enter_steps at_ rfl taken
  · next p via hasSave m =>
      split at taken
      · next present =>
          obtain ⟨e, found⟩ := Option.isSome_iff_exists.mp present
          simp only [Option.some.injEq] at taken
          exact taken ▸ .passes at_ (.raced found)
      · next vacant =>
          split at taken
          · simp only [Option.some.injEq] at taken
            exact taken ▸ .passes at_ .crowded
          · next room =>
              simp only [Option.some.injEq] at taken
              exact taken ▸ .inserts at_ (by simpa using vacant) (by simpa using room)
  · obtain ⟨q, mgr, mgr', there, closed, rfl⟩ := close_eq_some taken
    exact .discards at_ there closed
  · split at taken
    · simp only [Option.some.injEq] at taken
      exact taken ▸ .passes at_ .missing
    · next e found =>
        simp only [Option.some.injEq] at taken
        exact taken ▸ .touches at_ found
  · exact enter_steps at_ rfl taken
  · next p num =>
      split at taken
      · next e found =>
          split at taken <;> simp only [Option.some.injEq] at taken
          · exact taken ▸ .passes at_ .current
          · next other =>
              have stale : ∀ e', s.entries.get p = some e' → e'.num ≠ num := by
                intro e' found'
                rw [found] at found'
                cases found'
                exact other
              exact taken ▸ .passes at_ (.stale stale)
      · next vacant =>
          simp only [Option.some.injEq] at taken
          exact taken ▸ .passes at_ (.stale (by simp [vacant]))
  · next p by_ =>
      split at taken
      · next vacant =>
          simp only [Option.some.injEq] at taken
          exact taken ▸ .passes at_ (.gone vacant)
      · next e found =>
          simp only [Option.some.injEq] at taken
          exact taken ▸ .deletes at_ found
  · exact enter_steps at_ rfl taken
  · next p by_ m =>
      obtain ⟨u, closing, rfl⟩ := Option.map_eq_some_iff.mp taken
      obtain ⟨q, mgr, mgr', there, closed, rfl⟩ := close_eq_some closing
      have closes : Steps I cfg s (.go c) _ := .closes at_ there closed
      cases by_ <;> exact closes
  · have lists : Steps I cfg s (.go c) _ := .lists at_
    simp only at taken
    split at taken
    · next empty =>
        simp only [Option.some.injEq] at taken
        rw [empty] at lists
        exact taken ▸ lists
    · next p rest keys =>
        simp only [Option.some.injEq] at taken
        rw [keys] at lists
        exact taken ▸ lists
  · simp at taken

theorem move_steps {here : Thread} {move : Manager.Move} (at_ : s.threads.get c = some here)
    (taken : s.move I cfg c move here = some t) : Steps I cfg s (.move c move) t := by
  unfold Pool.move at taken
  split at taken
  · next p via hasSave =>
      split at taken
      · next spawn =>
          simp only at taken
          split at taken
          · simp at taken
          · next launched =>
              simp only [Option.some.injEq] at taken
              exact taken ▸ .refuses at_ launched
          · next launched =>
              simp only [Option.some.injEq] at taken
              exact taken ▸ .creates at_ launched
      · simp at taken
  · next p via hasSave m i buf =>
      split at taken
      · next poll q mgr there =>
          split at taken
          · simp at taken
          · next round =>
              simp only [Option.some.injEq] at taken
              exact taken ▸ .boots at_ there round
          · next round =>
              simp only [Option.some.injEq] at taken
              exact taken ▸ .boots at_ there round
          · next round =>
              simp only [Option.some.injEq] at taken
              exact taken ▸ .boots at_ there round
      · simp at taken
  · next p m for_ call =>
      split at taken
      · simp at taken
      · next q mgr there =>
          split at taken
          · simp at taken
          · next advanced =>
              simp only [Option.some.injEq] at taken
              exact taken ▸ .advances at_ there advanced
          · next advanced =>
              simp only [Option.some.injEq] at taken
              exact taken ▸ .leaves at_ there advanced
  · simp at taken

theorem steps {a : Act} (taken : s.step I cfg a = some t) : Steps I cfg s a t := by
  cases a with
  | call c op =>
      simp only [step] at taken
      split at taken
      · next new =>
          simp only [Option.some.injEq] at taken
          exact taken ▸ .calls new
      · simp at taken
  | fire timer c =>
      simp only [step] at taken
      split at taken
      · next p num armed new =>
          simp only [Option.some.injEq] at taken
          exact taken ▸ .fires armed new
      · simp at taken
  | go c =>
      obtain ⟨here, at_, taken⟩ := Option.bind_eq_some_iff.mp taken
      exact go_steps at_ taken
  | move c move =>
      obtain ⟨here, at_, taken⟩ := Option.bind_eq_some_iff.mp taken
      exact move_steps at_ taken
  | wipe c removal =>
      obtain ⟨here, at_, taken⟩ := Option.bind_eq_some_iff.mp taken
      unfold wipe at taken
      split at taken
      · split at taken <;> simp only [Option.some.injEq] at taken
        · exact taken ▸ .wipes at_
        · exact taken ▸ .keeps at_
        · exact taken ▸ .empties at_
      · simp at taken
  | env m event =>
      simp only [step] at taken
      split at taken
      · simp at taken
      · next p mgr there =>
          split at taken
          · simp at taken
          · next mgr' d happened =>
              simp only [Option.some.injEq] at taken
              exact taken ▸ .envs there happened

theorem pool_steps {a : Act} (taken : (pool I cfg).step s a = some t) :
    Steps I cfg.withDefaults s a t := steps taken

/-! ## Where a goroutine goes -/

/-- From where to where one step can take a goroutine. Of what else the step does,
only what it does to the table and the save files is told. -/
inductive Onward (cfg : PoolConfig) (s : Pool G) (a : Act) (t : Pool G) (c : Nat) :
    Option Thread → Thread → Prop
  | calls {op : Op} (action : a = .call c op) : Onward cfg s a t c none op.thread
  | fires {p : PlayerId} {num : Nat} : Onward cfg s a t c none (.autoEnding p num)
  | passes {here next : Thread} (pass : Passes s here next) (action : a = .go c) :
      Onward cfg s a t c (some here) next
  | inserts {p : PlayerId} {via : Via} {hasSave : Bool} {m : Nat}
      (vacant : s.entries.get p = none) (room : s.entries.size < cfg.maxActiveSessions)
      (action : a = .go c)
      (after : t = (s.insert cfg p c m).goes c (.returned (.started p via none))) :
      Onward cfg s a t c (some (.inserting p via hasSave m)) (.returned (.started p via none))
  | touches {p : PlayerId} {text : Text} {e : Entry} (found : s.entries.get p = some e) :
      Onward cfg s a t c (some (.lookup p text)) (.commanding p e.manager text)
  | deletes {p : PlayerId} {by_ : By} {e : Entry} (found : s.entries.get p = some e)
      (saved : by_.save = true) (action : a = .go c)
      (after : t = (s.delete p e true).goes c (.saving p by_ e.manager)) :
      Onward cfg s a t c (some (.deleting p by_)) (.saving p by_ e.manager)
  | drops {p : PlayerId} {by_ : By} {e : Entry} (found : s.entries.get p = some e)
      (unsaved : by_.save = false) (action : a = .go c)
      (after : t = (s.delete p e false).goes c (.closing p by_ e.manager)) :
      Onward cfg s a t c (some (.deleting p by_)) (.closing p by_ e.manager)
  | restores {p : PlayerId} {via : Via} {m i : Nat} (action : a = .go c) :
      Onward cfg s a t c (some (.restoring p via m))
        (.calling p m (.restore via) ⟨restoreText, i, .entered⟩)
  | unrestored {p : PlayerId} {via : Via} {m : Nat}
      (refused : ∃ q mgr err, s.managers[m]? = some (q, mgr) ∧
        mgr.enter restoreText = some (mgr, .outside (.err err))) :
      Onward cfg s a t c (some (.restoring p via m)) (.inserting p via true m)
  | commands {p : PlayerId} {m i : Nat} {text : Text} (action : a = .go c) :
      Onward cfg s a t c (some (.commanding p m text)) (.calling p m .reply ⟨text, i, .entered⟩)
  | refused {p : PlayerId} {m : Nat} {text : Text} {err : Err} :
      Onward cfg s a t c (some (.commanding p m text)) (.returned (.failed (.manager err)))
  | saves {p : PlayerId} {by_ : By} {m i : Nat} (action : a = .go c) :
      Onward cfg s a t c (some (.saving p by_ m)) (.calling p m (.save by_) ⟨saveText, i, .entered⟩)
  | unsaved {p : PlayerId} {by_ : By} {m : Nat} (action : a = .go c)
      (refused : ∃ q mgr err, s.managers[m]? = some (q, mgr) ∧
        mgr.enter saveText = some (mgr, .outside (.err err))) :
      Onward cfg s a t c (some (.saving p by_ m)) (.closing p by_ m)
  | discards {p : PlayerId} {via : Via} {m : Nat} {err : Option PoolErr} :
      Onward cfg s a t c (some (.discarding p via m err)) (.returned (.started p via err))
  | closes {p : PlayerId} {by_ : By} {m : Nat}
      (closed : ∃ q mgr mgr', s.managers[m]? = some (q, mgr) ∧ mgr.close = some mgr' ∧
        t.managers = (s.setManager m mgr').managers)
      (endings : t.endings = if by_.save then ⟨m, s.savedAt m⟩ :: s.endings else s.endings) :
      Onward cfg s a t c (some (.closing p by_ m)) (Thread.afterEnd p none by_)
  | lists : Onward cfg s a t c (some .listing) (firstDeletion s.entries.keys)
  | creates {p : PlayerId} {via : Via} {hasSave : Bool} {i : Nat} :
      Onward cfg s a t c (some (.launching p via hasSave))
        (.booting p via hasSave s.managers.length i [])
  | refuses {p : PlayerId} {via : Via} {hasSave : Bool} :
      Onward cfg s a t c (some (.launching p via hasSave)) (.returned (.started p via (some .start)))
  | waits {p : PlayerId} {via : Via} {hasSave : Bool} {m i : Nat} {buf buf' : Text} :
      Onward cfg s a t c (some (.booting p via hasSave m i buf)) (.booting p via hasSave m i buf')
  | started {p : PlayerId} {via : Via} {m i : Nat} {buf : Text}
      (now : ∃ q mgr, t.managers[m]? = some (q, mgr) ∧ mgr.session = some i) :
      Onward cfg s a t c (some (.booting p via true m i buf)) (.restoring p via m)
  | startedNew {p : PlayerId} {via : Via} {m i : Nat} {buf : Text}
      (now : ∃ q mgr, t.managers[m]? = some (q, mgr) ∧ mgr.session = some i) :
      Onward cfg s a t c (some (.booting p via false m i buf)) (.inserting p via false m)
  | failed {p : PlayerId} {via : Via} {hasSave : Bool} {m i : Nat} {buf : Text} :
      Onward cfg s a t c (some (.booting p via hasSave m i buf))
        (.returned (.started p via (some .start)))
  | advances {p : PlayerId} {m : Nat} {for_ : For} {call : Call} {phase : Phase}
      (past : phase ≠ .entered) :
      Onward cfg s a t c (some (.calling p m for_ call)) (.calling p m for_ (call.to phase))
  | leaves {p : PlayerId} {m : Nat} {for_ : For} {call : Call} {r : Result}
      (left : call.phase = .leaving r)
      (now : ∃ q mgr, s.managers[m]? = some (q, mgr) ∧
        t.managers[m]? = some (q, completed call.session for_ r { mgr with busy := false })) :
      Onward cfg s a t c (some (.calling p m for_ call)) (Thread.afterCall p m r for_)
  | wipes {p : PlayerId} (disks : t.disks = (s.setDisk p (s.disks p).removeAll).disks) :
      Onward cfg s a t c (some (.wiping p)) (.checking p (.reset ((s.disks p).wipes + 1)))
  | givesUp {p : PlayerId} : Onward cfg s a t c (some (.wiping p)) (.returned (.failed .removal))

theorem onward_enters {a : Act} {here : Thread} {p q : PlayerId} {m : Nat} {text : Text}
    {for_ : For} {mgr mgr' : Manager G} {stage : Stage} (action : a = .go c)
    (about : here.enters = some (p, m, text, for_)) (there : s.managers[m]? = some (q, mgr))
    (entered : mgr.enter text = some (mgr', stage)) :
    Onward cfg s a t c (some here) (stage.thread p m for_) := by
  obtain ⟨-, ⟨err, rfl, rfl, -⟩ | ⟨i, -, -, -, rfl⟩⟩ := Manager.enter_cases entered
  all_goals
    cases here <;> simp only [Thread.enters, Option.some.injEq, Prod.mk.injEq,
      reduceCtorEq] at about <;> obtain ⟨rfl, rfl, rfl, rfl⟩ := about
  · exact .unrestored ⟨q, _, err, there, entered⟩
  · exact .refused
  · exact .unsaved action ⟨q, _, err, there, entered⟩
  · exact .restores action
  · exact .commands action
  · exact .saves action

/-- Nothing but one goroutine goes anywhere. -/
theorem onward {a : Act} (step : Steps I cfg s a t) :
    t.threads = s.threads ∨
      ∃ c next, Onward cfg s a t c (s.threads.get c) next ∧ t.threads = s.threads.set c next := by
  -- The goroutine that moves, where it was and where it is now.
  have goes {c : Nat} {here : Option Thread} {next : Thread} (at_ : s.threads.get c = here)
      (onward : Onward cfg s a t c here next) (threads : t.threads = s.threads.set c next) :
      ∃ c next, Onward cfg s a t c (s.threads.get c) next ∧ t.threads = s.threads.set c next :=
    ⟨c, next, at_ ▸ onward, threads⟩
  cases step with
  | calls new => exact .inr (goes new (.calls rfl) rfl)
  | fires armed new => exact .inr (goes new .fires rfl)
  | passes at_ pass => exact .inr (goes at_ (.passes pass rfl) rfl)
  | inserts at_ vacant room => exact .inr (goes at_ (.inserts vacant room rfl rfl) (by simp))
  | touches at_ found => exact .inr (goes at_ (.touches found) (by simp))
  | @deletes c p by_ e at_ found =>
      by_cases saved : by_.save = true
      · exact .inr (goes at_ (.deletes found saved rfl (by simp [saved])) (by simp [saved]))
      · have unsaved : by_.save = false := by simpa using saved
        exact .inr (goes at_ (.drops found unsaved rfl (by simp [unsaved])) (by simp [unsaved]))
  | enters at_ about there entered => 
      exact .inr (goes at_ (onward_enters rfl about there entered) rfl)
  | discards at_ there closed => exact .inr (goes at_ .discards rfl)
  | closes at_ there closed =>
      exact .inr (goes at_ (.closes ⟨_, _, _, there, closed, rfl⟩ rfl) rfl)
  | lists at_ => exact .inr (goes at_ .lists rfl)
  | creates at_ launched => exact .inr (goes at_ .creates rfl)
  | refuses at_ launched => exact .inr (goes at_ .refuses rfl)
  | @boots c p q via hasSave m i buf poll mgr mgr' b at_ there round =>
      refine .inr (goes at_ ?_ rfl)
      cases b with
      | waiting buf' => exact .waits
      | started =>
          have now : ∃ q mgr, ((s.setManager m mgr').goes c
              (Manager.Boot.started.thread p via hasSave m i)).managers[m]? = some (q, mgr) ∧
              mgr.session = some i := by
            refine ⟨q, mgr', ?_, Manager.boots_started (Manager.boots round)⟩
            simp [setManager_get, there]
          cases hasSave
          · exact .startedNew now
          · exact .started now
      | failed => exact .failed
  | advances at_ there advanced =>
      obtain ⟨phase, rfl, past⟩ := Manager.advances_phase (Manager.advances advanced)
      exact .inr (goes at_ (.advances past) rfl)
  | @leaves c p q m for_ call move mgr mgr' d r at_ there advanced =>
      obtain ⟨phase, rfl⟩ := Manager.left_cases (Manager.advances advanced)
      refine .inr (goes at_ (.leaves phase ⟨q, mgr, there, ?_⟩) rfl)
      rw [show (((s.setManager m (completed call.session for_ r { mgr with busy := false })).setDisk
          p d).goes c (Thread.afterCall p m r for_)).managers = (s.setManager m (completed
          call.session for_ r { mgr with busy := false })).managers from rfl, setManager_get,
        if_pos rfl, there]
      rfl
  | wipes at_ => exact .inr (goes at_ (.wipes rfl) rfl)
  | keeps at_ => exact .inr (goes at_ .givesUp rfl)
  | empties at_ => exact .inr (goes at_ .givesUp rfl)
  | envs there happened => exact .inl rfl

/-- A goroutine is where it was, or one step further. -/
theorem thread_before {a : Act} {now : Thread} (step : Steps I cfg s a t)
    (at_ : t.threads.get c = some now) :
    s.threads.get c = some now ∨ Onward cfg s a t c (s.threads.get c) now := by
  rcases onward step with same | ⟨c', next, onward, threads⟩
  · exact .inl (same ▸ at_)
  · rw [threads, Table.get_set] at at_
    split at at_
    · next here =>
        rw [Option.some.injEq] at at_
        subst here at_
        exact .inr onward
    · exact .inl at_

/-- A goroutine stays where it is, or goes one step further. -/
theorem thread_after {a : Act} {here : Thread} (step : Steps I cfg s a t)
    (at_ : s.threads.get c = some here) :
    ∃ next, t.threads.get c = some next ∧ (next = here ∨ Onward cfg s a t c (some here) next) := by
  rcases onward step with same | ⟨c', next, onward, threads⟩
  · exact ⟨here, same ▸ at_, .inl rfl⟩
  · rw [threads, Table.get_set]
    split
    · next mine =>
        subst mine
        exact ⟨next, rfl, .inr (at_ ▸ onward)⟩
    · exact ⟨here, at_, .inl rfl⟩

/-- Where one goroutine moves, the others stay. -/
theorem others_stay {a : Act} {c' : Nat} (step : Steps I cfg s a t)
    (moved : t.threads.get c ≠ s.threads.get c) (other : c' ≠ c) :
    t.threads.get c' = s.threads.get c' := by
  rcases onward step with same | ⟨c₀, next, -, threads⟩
  · rw [same]
  · rw [threads, Table.get_set] at moved ⊢
    split at moved
    · next here => rw [if_neg (here ▸ other)]
    · exact absurd rfl moved

end Pool

end Zorkbot.Pty
