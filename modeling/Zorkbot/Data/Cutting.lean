/-
# Cutting a stream into frames

Frames are separated by a fixed piece. A reader appends each chunk that comes to what it has, cuts
off every frame that is complete and keeps the rest. It does not matter how the stream is cut into
chunks.
-/

import Mathlib.Data.List.Basic
import Mathlib.Data.List.Infix

namespace Cutting

universe u

variable {α : Type u} [DecidableEq α] {separator s t frame : List α} {i : Nat}

/-- Where the separator is first. -/
def indexOf (separator : List α) : List α → Option Nat
  | [] => if separator = [] then some 0 else none
  | a :: s => if separator <+: a :: s then some 0 else (indexOf separator s).map (· + 1)

/-- The first frame and what is behind its separator. -/
def cut (separator s : List α) : Option (List α × List α) :=
  (indexOf separator s).map fun i => (s.take i, s.drop (i + separator.length))

/-- A separator that is not empty. -/
structure Separator (α : Type u) where
  piece : List α
  some : piece ≠ []

theorem le_length_of_indexOf (found : indexOf separator s = some i) :
    i + separator.length ≤ s.length := by
  induction s generalizing i with
  | nil =>
      rw [indexOf] at found
      split at found
      · next empty =>
          obtain rfl := Option.some.inj found
          simp [empty]
      · cases found
  | cons a s ih =>
      rw [indexOf] at found
      split at found
      · next here =>
          obtain rfl := Option.some.inj found
          simpa using here.length_le
      · obtain ⟨j, behind, rfl⟩ := Option.map_eq_some_iff.mp found
        have := ih behind
        rw [List.length_cons]
        omega

/-- What comes later does not bring the first separator forward. -/
theorem indexOf_append (found : indexOf separator s = some i) (t : List α) :
    indexOf separator (s ++ t) = some i := by
  induction s generalizing i with
  | nil =>
      rw [indexOf] at found
      split at found
      · next empty =>
          obtain rfl := Option.some.inj found
          subst empty
          cases t with
          | nil => rfl
          | cons b t => rw [List.nil_append, indexOf, if_pos List.nil_prefix]
      · cases found
  | cons a s ih =>
      rw [indexOf] at found
      split at found
      · next here =>
          have still : separator <+: a :: (s ++ t) := here.trans (List.prefix_append (a :: s) t)
          rw [List.cons_append, indexOf, if_pos still, found]
      · next elsewhere =>
          obtain ⟨j, behind, rfl⟩ := Option.map_eq_some_iff.mp found
          have room := le_length_of_indexOf behind
          have not_here : ¬separator <+: a :: (s ++ t) := fun here =>
            elsewhere (List.prefix_of_prefix_length_le here (List.prefix_append (a :: s) t)
              (by rw [List.length_cons]; omega))
          rw [List.cons_append, indexOf, if_neg not_here, ih behind]
          rfl

theorem cut_append {rest : List α} (found : cut separator s = some (frame, rest)) (t : List α) :
    cut separator (s ++ t) = some (frame, rest ++ t) := by
  obtain ⟨i, at_, is⟩ := Option.map_eq_some_iff.mp found
  obtain ⟨rfl, rfl⟩ := Prod.mk.inj is
  have room := le_length_of_indexOf at_
  rw [cut, indexOf_append at_, Option.map_some, List.take_append_of_le_length (by omega),
    List.drop_append_of_le_length room]

theorem length_lt_of_cut {rest : List α} (nonempty : separator ≠ [])
    (found : cut separator s = some (frame, rest)) : rest.length < s.length := by
  obtain ⟨i, at_, is⟩ := Option.map_eq_some_iff.mp found
  obtain ⟨rfl, rfl⟩ := Prod.mk.inj is
  have room := le_length_of_indexOf at_
  have := List.length_pos_iff.mpr nonempty
  rw [List.length_drop]
  omega

/-- The separator is not in a part without its first element. -/
theorem indexOf_append_of_notMem {a : α} {more part : List α} (without : a ∉ part)
    (s : List α) : indexOf (a :: more) (part ++ s) =
      (indexOf (a :: more) s).map (· + part.length) := by
  induction part with
  | nil => exact Option.map_id'.symm
  | cons b part ih =>
      rw [List.mem_cons, not_or] at without
      obtain ⟨differs, without⟩ := without
      have not_here : ¬a :: more <+: b :: (part ++ s) := fun here =>
        differs (List.cons_prefix_cons.mp here).1
      rw [List.cons_append, indexOf, if_neg not_here, ih without, Option.map_map]
      congr 1

/-- The separator is first at the end. -/
def Framed (separator frame : List α) : Prop :=
  indexOf separator (frame ++ separator) = some frame.length

/-- A frame is cut off, whatever is behind it. -/
theorem Framed.cut (framed : Framed separator frame) (rest : List α) :
    Cutting.cut separator (frame ++ separator ++ rest) = some (frame, rest) := by
  have whole : Cutting.cut separator (frame ++ separator) = some (frame, []) := by
    rw [Cutting.cut, framed, Option.map_some, List.take_left, ← List.length_append,
      List.drop_length]
  rw [cut_append whole, List.nil_append]

/-! ## All frames -/

/-- Every complete frame, and the rest. -/
def drain (separator : Separator α) (s : List α) : List (List α) × List α :=
  match _found : cut separator.piece s with
  | some (frame, rest) =>
      let (frames, last) := drain separator rest
      (frame :: frames, last)
  | none => ([], s)
termination_by s.length
decreasing_by exact length_lt_of_cut separator.some _found

variable {σ : Separator α}

theorem drain_of_cut {rest : List α} (found : cut σ.piece s = some (frame, rest)) :
    drain σ s = (frame :: (drain σ rest).1, (drain σ rest).2) := by
  rw [drain]
  split
  · next is =>
      obtain ⟨rfl, rfl⟩ := Prod.mk.inj (Option.some.inj (found.symm.trans is))
      rfl
  · next missing => cases found.symm.trans missing

theorem drain_of_none (missing : cut σ.piece s = none) : drain σ s = ([], s) := by
  rw [drain]
  split
  · next is => cases missing.symm.trans is
  · rfl

/-- Draining what has come and then what comes is draining all of it. -/
theorem drain_append (s t : List α) : drain σ (s ++ t) =
    ((drain σ s).1 ++ (drain σ ((drain σ s).2 ++ t)).1, (drain σ ((drain σ s).2 ++ t)).2) := by
  induction len : s.length using Nat.strong_induction_on generalizing s with
  | _ n ih =>
      subst len
      cases found : cut σ.piece s with
      | none => rw [drain_of_none found, List.nil_append]
      | some pair =>
          obtain ⟨frame, rest⟩ := pair
          have shorter := length_lt_of_cut σ.some found
          rw [drain_of_cut found, drain_of_cut (cut_append found t), ih _ shorter rest rfl,
            List.cons_append]

/-- A stream of frames is cut into them. -/
theorem drain_flatMap {frames : List (List α)} (framed : ∀ f ∈ frames, Framed σ.piece f)
    (nothing : cut σ.piece [] = none) :
    drain σ (frames.flatMap (· ++ σ.piece)) = (frames, []) := by
  induction frames with
  | nil => exact drain_of_none nothing
  | cons f frames ih =>
      have first := framed f List.mem_cons_self
      rw [List.flatMap_cons, drain_of_cut (first.cut _),
        ih fun g there => framed g (List.mem_cons_of_mem f there)]

end Cutting
