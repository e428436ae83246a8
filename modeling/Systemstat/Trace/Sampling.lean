import Mathlib.Order.Basic

/-! # Sampling a system that advances

A sampler is started at one moment of a system and finished at later ones, any number of
times; between the calls the system advances, and other samples are started and finished.
What a sample is finished with depends on the moments of its own two calls alone, so a
fact about any two such moments in order holds of every sample in every run.
-/

namespace Systemstat.Sampling

variable {κ μ β ε : Type}

structure Sampler (κ μ β ε : Type) where
  start : κ → Except ε μ
  done : μ → κ → β

inductive Action (κ : Type)
  | advance (later : κ)
  | start
  | done (sample : Nat)

structure Finished (κ β : Type) where
  sample : Nat
  moment : κ
  result : β

/-- The system now, the samples with the moments they were started at, and what was
returned so far. -/
structure World (κ μ β : Type) where
  now : κ
  started : List (κ × μ)
  finished : List (Finished κ β)

def World.boot (now : κ) : World κ μ β := ⟨now, [], []⟩

section Moments

variable [Preorder κ]

/-- Every sample was started at a moment of the past, and what it returned was made of
that moment and a later one, which is past as well. -/
structure Inv (sampler : Sampler κ μ β ε) (origin : κ) (s : World κ μ β) : Prop where
  now : origin ≤ s.now
  started : ∀ k m, (k, m) ∈ s.started → origin ≤ k ∧ k ≤ s.now ∧ sampler.start k = .ok m
  finished : ∀ f ∈ s.finished, ∃ k m, s.started[f.sample]? = some (k, m) ∧ k ≤ f.moment ∧
    f.moment ≤ s.now ∧ f.result = sampler.done m f.moment

theorem inv_boot (origin : κ) : Inv sampler origin (World.boot origin) where
  now := le_refl origin
  started := by
    intro k m h
    cases h
  finished := by
    intro f h
    cases h

/-- A relation between any two moments in order, and what a sample of them returns. -/
def Relates (sampler : Sampler κ μ β ε) (R : κ → κ → β → Prop) : Prop :=
  ∀ k m k', sampler.start k = .ok m → k ≤ k' → R k k' (sampler.done m k')

end Moments

/-! ## Runs -/

section Runs

variable [Preorder κ] [DecidableLE κ] (sampler : Sampler κ μ β ε)

/-- A sample that fails to start leaves nothing behind. -/
def step (s : World κ μ β) : Action κ → Option (World κ μ β)
  | .advance later => if s.now ≤ later then some { s with now := later } else none
  | .start =>
      match sampler.start s.now with
      | .error _ => some s
      | .ok m => some { s with started := s.started ++ [(s.now, m)] }
  | .done sample =>
      match s.started[sample]? with
      | none => none
      | some (_, m) =>
          some { s with finished := s.finished ++ [⟨sample, s.now, sampler.done m s.now⟩] }

def run : World κ μ β → List (Action κ) → Option (World κ μ β)
  | s, [] => some s
  | s, a :: actions =>
      match step sampler s a with
      | none => none
      | some s' => run s' actions

variable {sampler}

theorem step_cases {s s' : World κ μ β} {a : Action κ} (h : step sampler s a = some s') :
    (∃ later, a = .advance later ∧ s.now ≤ later ∧ s' = { s with now := later }) ∨
    (a = .start ∧ ∃ e, sampler.start s.now = .error e ∧ s' = s) ∨
    (a = .start ∧ ∃ m, sampler.start s.now = .ok m ∧
      s' = { s with started := s.started ++ [(s.now, m)] }) ∨
    (∃ sample k m, a = .done sample ∧ s.started[sample]? = some (k, m) ∧
      s' = { s with finished := s.finished ++ [⟨sample, s.now, sampler.done m s.now⟩] }) := by
  cases a with
  | advance later =>
      simp only [step] at h
      by_cases hle : s.now ≤ later
      · rw [if_pos hle, Option.some.injEq] at h
        exact .inl ⟨later, rfl, hle, h.symm⟩
      · rw [if_neg hle] at h
        cases h
  | start =>
      simp only [step] at h
      cases hstart : sampler.start s.now with
      | error e =>
          rw [hstart, Option.some.injEq] at h
          exact .inr (.inl ⟨rfl, e, rfl, h.symm⟩)
      | ok m =>
          rw [hstart, Option.some.injEq] at h
          exact .inr (.inr (.inl ⟨rfl, m, rfl, h.symm⟩))
  | done sample =>
      simp only [step] at h
      cases hs : s.started[sample]? with
      | none =>
          rw [hs] at h
          cases h
      | some km =>
          rw [hs, Option.some.injEq] at h
          exact .inr (.inr (.inr ⟨sample, km.1, km.2, rfl, hs, h.symm⟩))

theorem step_inv {origin : κ} {s s' : World κ μ β} {a : Action κ}
    (h : step sampler s a = some s') (hi : Inv sampler origin s) : Inv sampler origin s' := by
  obtain ⟨hnow, hstarted, hfinished⟩ := hi
  obtain ⟨later, -, hle, rfl⟩ | ⟨-, _, -, rfl⟩ | ⟨-, m, hm, rfl⟩ | ⟨sample, k, m, -, hs, rfl⟩ :=
    step_cases h
  · refine ⟨hnow.trans hle, fun k m hmem => ?_, fun f hf => ?_⟩
    · obtain ⟨ho, hk, hstart⟩ := hstarted k m hmem
      exact ⟨ho, hk.trans hle, hstart⟩
    · obtain ⟨k, m, hs, hk, hat, hresult⟩ := hfinished f hf
      exact ⟨k, m, hs, hk, hat.trans hle, hresult⟩
  · exact ⟨hnow, hstarted, hfinished⟩
  · refine ⟨hnow, fun k m' hmem => ?_, fun f hf => ?_⟩
    · rcases List.mem_append.mp hmem with hmem | hmem
      · exact hstarted k m' hmem
      · rw [List.mem_singleton, Prod.mk.injEq] at hmem
        obtain ⟨rfl, rfl⟩ := hmem
        exact ⟨hnow, le_refl _, hm⟩
    · obtain ⟨k, m', hs, hrest⟩ := hfinished f hf
      have hlt := (List.getElem?_eq_some_iff.mp hs).1
      exact ⟨k, m', by rw [List.getElem?_append_left hlt, hs], hrest⟩
  · refine ⟨hnow, hstarted, fun f hf => ?_⟩
    rcases List.mem_append.mp hf with hf | hf
    · exact hfinished f hf
    · rw [List.mem_singleton] at hf
      subst hf
      obtain ⟨_, hk, _⟩ := hstarted k m (List.mem_of_getElem? hs)
      exact ⟨k, m, hs, hk, le_refl _, rfl⟩

theorem run_inv {origin : κ} {s s' : World κ μ β} {actions : List (Action κ)}
    (h : run sampler s actions = some s') (hi : Inv sampler origin s) :
    Inv sampler origin s' := by
  induction actions generalizing s with
  | nil =>
      rw [run, Option.some.injEq] at h
      exact h ▸ hi
  | cons a actions ih =>
      rw [run] at h
      cases hstep : step sampler s a with
      | none =>
          rw [hstep] at h
          cases h
      | some t =>
          rw [hstep] at h
          exact ih h (step_inv hstep hi)

/-- In every run, everything that was returned relates the moment its sample was started
at and the moment it was finished at. -/
theorem run_relates {R : κ → κ → β → Prop} (hR : Relates sampler R) {origin : κ}
    {actions : List (Action κ)} {s : World κ μ β}
    (h : run sampler (World.boot origin) actions = some s) :
    ∀ f ∈ s.finished, ∃ k m, s.started[f.sample]? = some (k, m) ∧ origin ≤ k ∧ k ≤ f.moment ∧
      f.moment ≤ s.now ∧ R k f.moment f.result := by
  intro f hf
  have hi := run_inv h (inv_boot origin)
  obtain ⟨k, m, hs, hk, hat, hresult⟩ := hi.finished f hf
  obtain ⟨ho, _, hstart⟩ := hi.started k m (List.mem_of_getElem? hs)
  exact ⟨k, m, hs, ho, hk, hat, hresult ▸ hR k m f.moment hstart hk⟩

end Runs

end Systemstat.Sampling
