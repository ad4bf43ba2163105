/-
# Stripping escape sequences

Terminal output is plain text between two kinds of escape sequences. Both
services strip them with the same two expressions, operating system commands
first and control sequences after. A control sequence ends with its final
character. A command ends with a bell or with a string terminator, but the
expression takes any text without a bell as its payload, and as much of it as
it can.

So a command that ends with a string terminator is taken together with whatever
follows it, up to the next bell or else to the last terminator. That text is
lost with it, which nobody notices exactly when no plain text stands there.
-/

import Mathlib.Data.Char
import Zorkbot.Bot.Packetize
import Zorkbot.Pty.Text

namespace Zorkbot.Compose

open Go Pty

/-! ## Deleting matches -/

section

variable {f : Text → Option Nat}

theorem deleteMatches_skip (x : Text) (n : Nat) (t : Text) :
    deleteMatches f (x.length + n) (x ++ t) = deleteMatches f n t := by
  induction x with
  | nil => rw [List.length_nil, Nat.zero_add, List.nil_append]
  | cons c x ih =>
      rw [List.length_cons, Nat.add_right_comm, List.cons_append, deleteMatches]
      exact ih

/-- A match that goes on for `n` characters after what it started with. -/
theorem deleteMatches_match {c : Char} {x t : Text} {n : Nat}
    (matches_ : f (c :: x ++ t) = some ((c :: x).length + n)) :
    deleteMatches f 0 (c :: x ++ t) = deleteMatches f n t := by
  rw [List.cons_append] at matches_ ⊢
  rw [List.length_cons, Nat.add_right_comm] at matches_
  simp only [deleteMatches, matches_]
  exact deleteMatches_skip x n t

theorem deleteMatches_cons {c : Char} {t : Text} (none_ : f (c :: t) = none) :
    deleteMatches f 0 (c :: t) = c :: deleteMatches f 0 t := by
  simp only [deleteMatches, none_]

theorem deleteMatches_keep {x : Text} (none_ : ∀ c ∈ x, ∀ t, f (c :: t) = none) (t : Text) :
    deleteMatches f 0 (x ++ t) = x ++ deleteMatches f 0 t := by
  induction x with
  | nil => rfl
  | cons c x ih =>
      rw [List.cons_append, deleteMatches_cons (none_ c List.mem_cons_self _),
        ih fun d listed => none_ d (List.mem_cons_of_mem _ listed), List.cons_append]

end

/-! ## Segments -/

/-- A text without an escape and without a bell. -/
def Clean (t : Text) : Prop := '\x1b' ∉ t ∧ '\x07' ∉ t

/-- A stretch of terminal output: plain text, a control sequence, or an operating
system command that ends with a bell or with a string terminator. -/
inductive Segment
  | plain (text : Text) (clean : Clean text)
  | csi (parameters intermediates : Text) (final : Char)
      (parametrised : ∀ c ∈ parameters, isParameter c = true)
      (intermediate : ∀ c ∈ intermediates, isIntermediate c = true) (ends : isFinal final = true)
  | osc (payload : Text) (bell : Bool) (clean : Clean payload)

namespace Segment

/-- What the terminal is sent. -/
def render : Segment → Text
  | .plain text _ => text
  | .csi parameters intermediates final _ _ _ =>
      '\x1b' :: '[' :: (parameters ++ intermediates ++ [final])
  | .osc payload bell _ => '\x1b' :: ']' :: (payload ++ if bell then ['\x07'] else ['\x1b', '\\'])

/-- What a reader is meant to see. -/
def text : Segment → Text
  | .plain text _ => text
  | _ => []

def isOsc : Segment → Bool
  | .osc _ _ _ => true
  | _ => false

/-- A segment is a command, or no command ends in it. -/
@[elab_as_elim]
theorem osc_or_calm {motive : Segment → Prop}
    (osc : ∀ payload bell clean, motive (.osc payload bell clean))
    (calm : ∀ seg : Segment, seg.isOsc = false → motive seg) (seg : Segment) : motive seg := by
  cases seg with
  | osc payload bell clean => exact osc payload bell clean
  | plain | csi => exact calm _ rfl

end Segment

def render (segs : List Segment) : Text := segs.flatMap Segment.render

def plainText (segs : List Segment) : Text := segs.flatMap Segment.text

/-- Whether an operating system command follows. -/
def later (segs : List Segment) : Bool := segs.any Segment.isOsc

/-- No plain text stands between a command that ends with a string terminator and
the next command. The flag says whether the last command before was one. -/
def Apart (opened : Bool) : List Segment → Prop
  | [] => True
  | .plain text _ :: rest =>
      (opened = true → later rest = true → text = []) ∧ Apart opened rest
  | .csi .. :: rest => Apart opened rest
  | .osc _ bell _ :: rest => Apart (!bell) rest

/-- The segments that the first expression leaves. -/
def kept (opened : Bool) : List Segment → List Segment
  | [] => []
  | .osc _ bell _ :: rest => kept (!bell) rest
  | seg :: rest => if opened && later rest then kept opened rest else seg :: kept opened rest

/-! ## Operating system commands -/

/-- How much of a text is taken together with an open command before it. -/
def oscEnd (t : Text) : Nat :=
  match beforeBell t with
  | some n => n + 1
  | none => (throughTerminator t).getD 0

theorem beforeBell_append {x : Text} (silent : '\x07' ∉ x) (t : Text) :
    beforeBell (x ++ t) = (beforeBell t).map (x.length + ·) := by
  have before : ∀ c ∈ x, (c ≠ '\x07') := fun c listed same => silent (same ▸ listed)
  simp only [beforeBell, List.mem_append, silent, false_or]
  split
  · rw [List.takeWhile_append_of_pos (by simpa using before), List.length_append]
    rfl
  · rfl

theorem beforeBell_cons (t : Text) : beforeBell ('\x07' :: t) = some 0 := by
  simp [beforeBell]

theorem throughTerminator_cons {c : Char} {t : Text} (apart : c = '\x1b' → t.head? ≠ some '\\') :
    throughTerminator (c :: t) = (throughTerminator t).map (1 + ·) := by
  cases t with
  | nil => rfl
  | cons d t =>
      have no : ¬ (c = '\x1b' ∧ d = '\\') := fun both => apart both.1 (by rw [both.2]; rfl)
      rw [throughTerminator, if_neg no]
      cases throughTerminator (d :: t) with
      | none => rfl
      | some n => rw [Option.map_some, Nat.add_comm]

theorem throughTerminator_append {x : Text} (unescaped : '\x1b' ∉ x) (t : Text) :
    throughTerminator (x ++ t) = (throughTerminator t).map (x.length + ·) := by
  induction x with
  | nil => simp
  | cons c x ih =>
      rw [List.mem_cons, not_or] at unescaped
      rw [List.cons_append, throughTerminator_cons fun same => absurd same.symm unescaped.1,
        ih unescaped.2, Option.map_map, List.length_cons]
      congr 1
      funext n
      simp only [Function.comp_apply]
      omega

/-- A string terminator ends a payload, unless a later one does. -/
theorem throughTerminator_terminator (t : Text) :
    throughTerminator ('\x1b' :: '\\' :: t) = some (2 + (throughTerminator t).getD 0) := by
  rw [throughTerminator, throughTerminator_cons fun same => absurd same (by decide)]
  cases throughTerminator t with
  | none => rfl
  | some n => simp only [Option.map_some, Option.getD_some]; congr 1; omega

theorem throughTerminator_pos {t : Text} {n : Nat} (found : throughTerminator t = some n) :
    0 < n := by
  unfold throughTerminator at found
  split at found
  · split at found
    · simp only [Option.some.injEq] at found
      omega
    · simp only [Option.ite_none_right_eq_some, Option.some.injEq] at found
      omega
  · simp at found

/-- Text in which no command ends is taken when what follows it is. -/
theorem oscEnd_append {x t : Text} (bells : beforeBell (x ++ t) = (beforeBell t).map (x.length + ·))
    (terminators : throughTerminator (x ++ t) = (throughTerminator t).map (x.length + ·)) :
    oscEnd (x ++ t) = if oscEnd t = 0 then 0 else x.length + oscEnd t := by
  cases bell : beforeBell t with
  | some n => simp [oscEnd, bells, bell, Nat.add_assoc]
  | none =>
      cases found : throughTerminator t with
      | none => simp [oscEnd, bells, terminators, bell, found]
      | some n =>
          have positive := throughTerminator_pos found
          simp [oscEnd, bells, terminators, bell, found, Nat.ne_of_gt positive]

theorem oscLength_cons {c : Char} (plain : c ≠ '\x1b') (t : Text) : oscLength (c :: t) = none := by
  unfold oscLength
  split
  · next same => exact absurd (List.cons.inj same).1 plain
  · rfl

theorem oscEnd_command (t : Text) :
    oscEnd ('\x1b' :: ']' :: t) = (oscLength ('\x1b' :: ']' :: t)).getD 0 := by
  have bells := beforeBell_append (x := ['\x1b', ']']) (by decide) t
  have terminators : throughTerminator ('\x1b' :: ']' :: t) =
      (throughTerminator t).map (2 + ·) := by
    rw [throughTerminator_cons (by simp),
      throughTerminator_cons fun same => absurd same (by decide), Option.map_map]
    congr 1
    funext n
    simp only [Function.comp_apply]
    omega
  simp only [List.cons_append, List.nil_append] at bells
  simp only [oscEnd, oscLength, bells, terminators]
  cases beforeBell t with
  | some n =>
      simp only [Option.map_some, Option.getD_some, List.length_cons, List.length_nil]
      omega
  | none => cases throughTerminator t <;> simp [Nat.add_comm]

namespace Segment

theorem csi_clean {parameters intermediates : Text} {final : Char}
    (parametrised : ∀ c ∈ parameters, isParameter c = true)
    (intermediate : ∀ c ∈ intermediates, isIntermediate c = true) (ends : isFinal final = true) :
    Clean (parameters ++ intermediates ++ [final]) := by
  have avoids (c : Char)
      (no : isParameter c = false ∧ isIntermediate c = false ∧ isFinal c = false) :
      c ∉ parameters ++ intermediates ++ [final] := by
    simp only [List.mem_append, List.mem_singleton, not_or]
    refine ⟨⟨fun listed => ?_, fun listed => ?_⟩, ?_⟩
    · exact absurd (parametrised c listed) (by simp [no.1])
    · exact absurd (intermediate c listed) (by simp [no.2.1])
    · rintro rfl
      exact absurd ends (by simp [no.2.2])
  exact ⟨avoids _ (by decide), avoids _ (by decide)⟩

/-- A command is taken whole, and one without a bell takes more. -/
theorem oscLength_osc (payload : Text) (bell : Bool) (clean : Clean payload) (t : Text) :
    oscLength ((osc payload bell clean).render ++ t) =
      some ((osc payload bell clean).render.length + if bell then 0 else oscEnd t) := by
  obtain ⟨unescaped, silent⟩ := clean
  cases bell with
  | true =>
      have bells : beforeBell (payload ++ '\x07' :: t) = some payload.length := by
        rw [beforeBell_append silent, beforeBell_cons]
        rfl
      simp [render, oscLength, bells]
  | false =>
      have bells : beforeBell (payload ++ '\x1b' :: '\\' :: t) =
          (beforeBell t).map (payload.length + 2 + ·) := by
        have quiet : '\x07' ∉ payload ++ ['\x1b', '\\'] := by simp [silent]
        simpa using beforeBell_append quiet t
      have terminators : throughTerminator (payload ++ '\x1b' :: '\\' :: t) =
          some (payload.length + (2 + (throughTerminator t).getD 0)) := by
        rw [throughTerminator_append unescaped, throughTerminator_terminator]
        rfl
      simp only [render, oscLength, oscEnd, List.cons_append, List.append_assoc, bells, terminators,
        Bool.false_eq_true, if_false, List.nil_append, List.length_cons, List.length_append,
        List.length_nil]
      cases beforeBell t with
      | some n => simp only [Option.map_some, Option.some.injEq]; omega
      | none => simp only [Option.map_none, Option.map_some, Option.some.injEq]; omega

theorem oscEnd_osc (payload : Text) (bell : Bool) (clean : Clean payload) (t : Text) :
    oscEnd ((osc payload bell clean).render ++ t) =
      (osc payload bell clean).render.length + if bell then 0 else oscEnd t := by
  have length := oscLength_osc payload bell clean t
  simp only [render, List.cons_append] at length ⊢
  rw [oscEnd_command, length]
  rfl

/-- No command ends in any other segment. -/
theorem oscEnd_calm {seg : Segment} (calm : seg.isOsc = false) (t : Text) :
    oscEnd (seg.render ++ t) = if oscEnd t = 0 then 0 else seg.render.length + oscEnd t := by
  cases seg with
  | plain text clean =>
      exact oscEnd_append (beforeBell_append clean.2 t) (throughTerminator_append clean.1 t)
  | csi parameters intermediates final parametrised intermediate ends =>
      obtain ⟨unescaped, silent⟩ := csi_clean parametrised intermediate ends
      refine oscEnd_append (beforeBell_append ?_ t) ?_
      · simp only [render, List.mem_cons, not_or]
        exact ⟨by decide, by decide, silent⟩
      · simp only [render, List.cons_append]
        rw [throughTerminator_cons (by simp),
          throughTerminator_cons fun same => absurd same (by decide),
          throughTerminator_append unescaped, Option.map_map, Option.map_map]
        congr 1
        funext n
        simp only [Function.comp_apply, List.length_cons]
        omega
  | osc payload bell clean => simp [isOsc] at calm

/-- The first expression leaves any other segment as it is. -/
theorem deleteMatches_calm {seg : Segment} (calm : seg.isOsc = false) (t : Text) :
    deleteMatches oscLength 0 (seg.render ++ t) = seg.render ++ deleteMatches oscLength 0 t := by
  have plain {x : Text} (unescaped : '\x1b' ∉ x) (t : Text) :
      deleteMatches oscLength 0 (x ++ t) = x ++ deleteMatches oscLength 0 t :=
    deleteMatches_keep (fun c listed => oscLength_cons fun same => unescaped (same ▸ listed)) t
  cases seg with
  | plain text clean => exact plain clean.1 t
  | csi parameters intermediates final parametrised intermediate ends =>
      have body := csi_clean parametrised intermediate ends
      simp only [render, List.cons_append]
      rw [deleteMatches_cons rfl, deleteMatches_cons (oscLength_cons (by decide) _), plain body.1]
  | osc payload bell clean => simp [isOsc] at calm

end Segment

theorem render_cons (seg : Segment) (rest : List Segment) :
    render (seg :: rest) = seg.render ++ render rest := rfl

/-- Something of a text is taken by an open command exactly when another command
follows. -/
theorem oscEnd_eq_zero (segs : List Segment) : oscEnd (render segs) = 0 ↔ later segs = false := by
  induction segs with
  | nil => exact iff_of_true rfl rfl
  | cons seg rest ih =>
      cases seg using Segment.osc_or_calm with
      | osc payload bell clean =>
          rw [render_cons, Segment.oscEnd_osc]
          simp [later, Segment.render, Segment.isOsc]
      | calm seg calm =>
          rw [render_cons, Segment.oscEnd_calm calm, later, List.any_cons, calm, Bool.false_or]
          change _ ↔ later rest = false
          rw [← ih]
          split
          · next none_ => exact iff_of_true rfl none_
          · next some_ => exact iff_of_false (by omega) some_

theorem kept_calm {seg : Segment} (calm : seg.isOsc = false) (opened : Bool) (rest : List Segment) :
    kept opened (seg :: rest) =
      if opened && later rest then kept opened rest else seg :: kept opened rest := by
  cases seg with
  | osc payload bell clean => simp [Segment.isOsc] at calm
  | plain | csi => rfl

/-- What the first expression leaves, at the start of a text and inside an open
command. -/
theorem delete_osc (segs : List Segment) :
    deleteMatches oscLength 0 (render segs) = render (kept false segs) ∧
      deleteMatches oscLength (oscEnd (render segs)) (render segs) = render (kept true segs) := by
  induction segs with
  | nil => exact ⟨rfl, rfl⟩
  | cons seg rest ih =>
      obtain ⟨closed, opened⟩ := ih
      cases seg using Segment.osc_or_calm with
      | osc payload bell clean =>
          have inside : deleteMatches oscLength (if bell then 0 else oscEnd (render rest))
              (render rest) = render (kept (!bell) rest) := by
            cases bell with
            | true => exact closed
            | false => exact opened
          have length := Segment.oscLength_osc payload bell clean (render rest)
          rw [render_cons, Segment.oscEnd_osc, deleteMatches_skip]
          exact ⟨(deleteMatches_match length).trans inside, inside⟩
      | calm seg calm =>
          rw [kept_calm calm, kept_calm calm, render_cons, Segment.oscEnd_calm calm]
          refine ⟨?_, ?_⟩
          · rw [Segment.deleteMatches_calm calm, closed]
            rfl
          · by_cases none_ : oscEnd (render rest) = 0
            · rw [none_] at opened
              rw [if_pos none_, Segment.deleteMatches_calm calm, opened,
                (oscEnd_eq_zero rest).mp none_]
              rfl
            · have follows : later rest = true := by simpa using mt (oscEnd_eq_zero rest).mpr none_
              rw [if_neg none_, deleteMatches_skip, opened, follows]
              rfl

theorem calm_of_mem_kept (opened : Bool) (segs : List Segment) :
    ∀ seg ∈ kept opened segs, seg.isOsc = false := by
  induction segs generalizing opened with
  | nil => simp [kept]
  | cons seg rest ih =>
      cases seg using Segment.osc_or_calm with
      | osc payload bell clean => exact ih (!bell)
      | calm seg calm =>
          rw [kept_calm calm]
          split
          · exact ih opened
          · exact List.forall_mem_cons.mpr ⟨calm, ih opened⟩

/-! ## Control sequences -/

theorem csiLength_cons {c : Char} (plain : c ≠ '\x1b') (t : Text) : csiLength (c :: t) = none := by
  unfold csiLength
  split
  · next same => exact absurd (List.cons.inj same).1 plain
  · rfl

theorem intermediate_apart {c : Char} (intermediate : isIntermediate c = true) :
    isParameter c = false := by
  simp only [isIntermediate, Bool.and_eq_true, decide_eq_true_eq] at intermediate
  have below {d : Char} (above : '/' < d) : c < d := lt_of_le_of_lt intermediate.2 above
  simp [isParameter, below (d := '0') (by decide), (below (d := ';') (by decide)).ne,
    (below (d := '?') (by decide)).ne]

theorem final_apart {c : Char} (final : isFinal c = true) :
    isParameter c = false ∧ isIntermediate c = false := by
  simp only [isFinal, Bool.and_eq_true, decide_eq_true_eq] at final
  have above {d : Char} (below : d < '@') : d < c := lt_of_lt_of_le below final.1
  simp [isParameter, isIntermediate, above (d := '9') (by decide),
    (above (d := ';') (by decide)).ne', (above (d := '?') (by decide)).ne',
    above (d := '/') (by decide)]

/-- A control sequence is taken whole, and no more. -/
theorem csiLength_csi {parameters intermediates : Text} {final : Char}
    (parametrised : ∀ c ∈ parameters, isParameter c = true)
    (intermediate : ∀ c ∈ intermediates, isIntermediate c = true) (ends : isFinal final = true)
    (t : Text) :
    csiLength ('\x1b' :: '[' :: (parameters ++ (intermediates ++ final :: t))) =
      some (2 + parameters.length + intermediates.length + 1) := by
  obtain ⟨noParameter, noIntermediate⟩ := final_apart ends
  have stops : (intermediates ++ final :: t).takeWhile isParameter = [] ∧
      (intermediates ++ final :: t).dropWhile isParameter = intermediates ++ final :: t := by
    cases intermediates with
    | nil => simp [noParameter]
    | cons c rest => simp [intermediate_apart (intermediate c List.mem_cons_self)]
  simp only [csiLength, List.takeWhile_append_of_pos parametrised,
    List.dropWhile_append_of_pos parametrised, stops.1, stops.2,
    List.takeWhile_append_of_pos intermediate, List.dropWhile_append_of_pos intermediate]
  simp [noIntermediate, ends]

/-- Without commands the second expression leaves the plain text. -/
theorem delete_csi {segs : List Segment} (calm : ∀ seg ∈ segs, seg.isOsc = false) :
    deleteMatches csiLength 0 (render segs) = plainText segs := by
  induction segs with
  | nil => rfl
  | cons seg rest ih =>
      obtain ⟨first, others⟩ := List.forall_mem_cons.mp calm
      have later := ih others
      cases seg with
      | plain text clean =>
          rw [render_cons, Segment.render, deleteMatches_keep, later]
          · rfl
          · exact fun c listed => csiLength_cons fun same => clean.1 (same ▸ listed)
      | csi parameters intermediates final parametrised intermediate ends =>
          have length := csiLength_csi parametrised intermediate ends (render rest)
          rw [render_cons, Segment.render]
          refine (deleteMatches_match (n := 0) ?_).trans later
          simp only [List.cons_append, List.append_assoc, List.nil_append, length, List.length_cons,
            List.length_append, List.length_nil, Option.some.injEq]
          omega
      | osc payload bell clean => simp [Segment.isOsc] at first

/-! ## What is lost -/

theorem plainText_cons (seg : Segment) (rest : List Segment) :
    plainText (seg :: rest) = seg.text ++ plainText rest := rfl

theorem kept_length (opened : Bool) (segs : List Segment) :
    (plainText (kept opened segs)).length ≤ (plainText segs).length := by
  induction segs generalizing opened with
  | nil => exact Nat.le_refl _
  | cons seg rest ih =>
      cases seg using Segment.osc_or_calm with
      | osc payload bell clean => exact ih (!bell)
      | calm seg calm =>
          have more := ih opened
          rw [kept_calm calm, plainText_cons, List.length_append]
          split
          · omega
          · rw [plainText_cons, List.length_append]
            omega

theorem kept_iff_apart (opened : Bool) (segs : List Segment) :
    plainText (kept opened segs) = plainText segs ↔ Apart opened segs := by
  induction segs generalizing opened with
  | nil => exact iff_of_true rfl trivial
  | cons seg rest ih =>
      cases seg with
      | plain text clean =>
          rw [kept_calm rfl, plainText_cons, Apart, ← ih opened]
          split
          · next taken =>
              rw [Bool.and_eq_true] at taken
              constructor
              · intro same
                have shorter := kept_length opened rest
                rw [same, List.length_append] at shorter
                have nothing : text = [] := List.length_eq_zero_iff.mp (by
                  simp only [Segment.text] at shorter
                  omega)
                subst nothing
                exact ⟨fun _ _ => rfl, same⟩
              · rintro ⟨nothing, same⟩
                rw [same, Segment.text, nothing taken.1 taken.2]
                rfl
          · next left_ =>
              rw [plainText_cons, List.append_cancel_left_eq]
              exact (and_iff_right fun open_ follows =>
                absurd (by simp [open_, follows]) left_).symm
      | csi parameters intermediates final parametrised intermediate ends =>
          rw [kept_calm rfl, plainText_cons, Apart, ← ih opened]
          split
          · rfl
          · rfl
      | osc payload bell clean => exact ih (!bell)

/-- Both services strip a sequence of segments down to its plain text exactly when
no plain text stands between a command that ends with a string terminator and the
next command. -/
theorem strips_iff_apart (segs : List Segment) :
    (stripANSI (render segs) = plainText segs ↔ Apart false segs) ∧
      (Bot.stripAnsi (render segs) = plainText segs ↔ Apart false segs) := by
  have stripped : deleteMatches csiLength 0 (deleteMatches oscLength 0 (render segs)) =
      plainText (kept false segs) := by
    rw [(delete_osc segs).1, delete_csi (calm_of_mem_kept false segs)]
  rw [stripANSI, Bot.stripAnsi, stripped]
  exact ⟨kept_iff_apart false segs, kept_iff_apart false segs⟩

/-- A title is set, the game prints its prompt, and another title is set. -/
def titled : List Segment :=
  [.osc "0;Zork".toList false ⟨by decide, by decide⟩,
    .plain "West of House\n>".toList ⟨by decide, by decide⟩,
    .osc "0;Zork".toList true ⟨by decide, by decide⟩]

theorem prompt_is_stripped :
    plainText titled = "West of House\n>".toList ∧
      stripANSI (render titled) ≠ plainText titled ∧
      Bot.stripAnsi (render titled) ≠ plainText titled := by
  decide

end Zorkbot.Compose
