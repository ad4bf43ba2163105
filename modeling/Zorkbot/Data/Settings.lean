/-
# Settings

A record is filled in by steps that may fail. Each of them sets one place of the record. What a
place holds in the end depends on the one step that sets it, provided that the others leave it.
-/

namespace Settings

universe u v w

variable {ε : Type u} {γ α : Type v} {β σ : Type w}

/-- A place in a record. -/
structure Place (γ : Type v) (α : Type v) where
  get : γ → α
  put : α → γ → γ
  get_put : ∀ a c, get (put a c) = a

/-- A step leaves what is read of the record. -/
def Keeps (step : γ → Except ε γ) (read : γ → β) : Prop :=
  ∀ ⦃c c'⦄, step c = .ok c' → read c' = read c

/-- What is done first and what is done then, when both can be done. -/
theorem bind_eq_ok {first : Except ε α} {next : α → Except ε γ} {c : γ}
    (done : first >>= next = .ok c) : ∃ a, first = .ok a ∧ next a = .ok c := by
  cases first with
  | error e => cases done
  | ok a => exact ⟨a, rfl, done⟩

theorem Keeps.bind {first : Except ε α} {step : α → γ → Except ε γ} {read : γ → β}
    (keeps : ∀ a, Keeps (step a) read) : Keeps (fun c => first >>= fun a => step a c) read := by
  intro c c' done
  obtain ⟨a, _, done⟩ := bind_eq_ok done
  exact keeps a done

/-- What is made of a list has what is made of each. -/
theorem mem_of_mapM {f : σ → Except ε β} {l : List σ} {made : List β}
    (done : l.mapM f = .ok made) {s : σ} (there : s ∈ l) : ∃ b ∈ made, f s = .ok b := by
  induction l generalizing made with
  | nil => cases there
  | cons t l ih =>
      rw [List.mapM_cons] at done
      obtain ⟨b, first, done⟩ := bind_eq_ok done
      obtain ⟨rest, then_, last⟩ := bind_eq_ok done
      obtain rfl := Except.ok.inj last
      rcases List.mem_cons.mp there with rfl | there
      · exact ⟨b, List.mem_cons_self, first⟩
      · obtain ⟨b', listed, is⟩ := ih then_ there
        exact ⟨b', List.mem_cons_of_mem b listed, is⟩

/-- A run of steps leaves what each of them leaves. -/
theorem keeps_foldlM {steps : List σ} {apply : γ → σ → Except ε γ} {read : γ → β}
    (keeps : ∀ s ∈ steps, Keeps (fun c => apply c s) read) :
    Keeps (fun c => steps.foldlM apply c) read := by
  induction steps with
  | nil =>
      intro c c' done
      exact congrArg read (Except.ok.inj done).symm
  | cons s steps ih =>
      intro c c' done
      dsimp only at done
      rw [List.foldlM_cons] at done
      obtain ⟨d, first, then_⟩ := bind_eq_ok done
      rw [ih (fun t there => keeps t (List.mem_cons_of_mem s there)) then_,
        keeps s List.mem_cons_self first]

/-- Each of two steps leaves what the other is about. -/
def Apart (apply : γ → σ → Except ε γ) (read : σ → γ → β) (s t : σ) : Prop :=
  Keeps (fun c => apply c s) (read t) ∧ Keeps (fun c => apply c t) (read s)

/-- What a step is about is in the end what it was made by the step. -/
theorem foldlM_reads {steps : List σ} {apply : γ → σ → Except ε γ} {read : σ → γ → β} {s : σ}
    {c c' : γ} (apart : steps.Pairwise (Apart apply read)) (there : s ∈ steps)
    (done : steps.foldlM apply c = .ok c') :
    ∃ d d', apply d s = .ok d' ∧ read s d = read s c ∧ read s c' = read s d' := by
  obtain ⟨before, after, rfl⟩ := List.append_of_mem there
  rw [List.foldlM_append] at done
  obtain ⟨d, first, rest⟩ := bind_eq_ok done
  rw [List.foldlM_cons] at rest
  obtain ⟨d', set, rest⟩ := bind_eq_ok rest
  obtain ⟨_, behind, between⟩ := List.pairwise_append.mp apart
  refine ⟨d, d', set, ?_, ?_⟩
  · exact keeps_foldlM (fun t early => (between t early s List.mem_cons_self).1) first
  · exact keeps_foldlM (fun t late => ((List.pairwise_cons.mp behind).1 t late).2) rest

end Settings
