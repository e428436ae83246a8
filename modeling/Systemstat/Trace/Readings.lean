import Systemstat.Collections.FirstError

/-! # Reading while the world moves on

A program asks one question after the other and computes with the answers. Between two
of its questions the world may move on, so the answers are of different moments. In a
world that stands still, the program is a function of the world.
-/

namespace Systemstat.Readings

open Collections

/-- The answer to the question `i` is of the type `ο i`. -/
inductive Program {ι : Type} (ο : ι → Type) (α : Type)
  | done (a : α)
  | ask (i : ι) (next : ο i → Program ο α)

variable {ι : Type} {ο : ι → Type} {α β γ ε : Type}

namespace Program

def bind : Program ο α → (α → Program ο β) → Program ο β
  | .done a, f => f a
  | .ask i next, f => .ask i fun answer => (next answer).bind f

instance : Monad (Program ο) where
  pure := .done
  bind := .bind

def still (world : ∀ i, ο i) : Program ο α → α
  | .done a => a
  | .ask i next => (next (world i)).still world

/-- The result in a world that moves on with each question, and the moment after the last. -/
def moving (world : Nat → ∀ i, ο i) : Program ο α → Nat → α × Nat
  | .done a, t => (a, t)
  | .ask i next, t => (next (world t i)).moving world (t + 1)

theorem still_bind (world : ∀ i, ο i) (p : Program ο α) (f : α → Program ο β) :
    (p >>= f).still world = (f (p.still world)).still world := by
  induction p with
  | done a => rfl
  | ask i next ih => exact ih (world i)

theorem moving_bind (world : Nat → ∀ i, ο i) (p : Program ο α) (f : α → Program ο β) (t : Nat) :
    (p >>= f).moving world t =
      (f (p.moving world t).1).moving world (p.moving world t).2 := by
  induction p generalizing t with
  | done a => rfl
  | ask i next ih => exact ih (world t i) (t + 1)

theorem moving_still (world : ∀ i, ο i) (p : Program ο α) (t : Nat) :
    (p.moving (fun _ => world) t).1 = p.still world := by
  induction p generalizing t with
  | done a => rfl
  | ask i next ih => exact ih (world i) (t + 1)

end Program

/-! ## Programs that fail -/

abbrev Reads (ο : ι → Type) (ε α : Type) := ExceptT ε (Program ο) α

namespace Reads

def still (world : ∀ i, ο i) (p : Reads ο ε α) : Except ε α := p.run.still world

def moving (world : Nat → ∀ i, ο i) (p : Reads ο ε α) (t : Nat) : Except ε α × Nat :=
  p.run.moving world t

def query (i : ι) (f : ο i → Except ε α) : Reads ο ε α :=
  ExceptT.mk (.ask i fun answer => .done (f answer))

/-- What no question is needed for. -/
def lift (r : Except ε α) : Reads ο ε α := ExceptT.mk (.done r)

def collect (g : γ → Reads ο ε β) : List γ → Reads ο ε (List β)
  | [] => pure []
  | c :: cs => do
      let b ← g c
      let bs ← collect g cs
      return b :: bs

theorem still_query (world : ∀ i, ο i) (i : ι) (f : ο i → Except ε α) :
    still world (query i f) = f (world i) := rfl

theorem still_lift (world : ∀ i, ο i) (r : Except ε α) :
    still world (lift r : Reads ο ε α) = r := rfl

theorem still_pure (world : ∀ i, ο i) (a : α) : still world (pure a : Reads ο ε α) = .ok a := rfl

theorem still_bind (world : ∀ i, ο i) (p : Reads ο ε α) (f : α → Reads ο ε β) :
    still world (p >>= f) = still world p >>= fun a => still world (f a) := by
  refine (Program.still_bind world p.run _).trans ?_
  unfold still
  cases p.run.still world <;> rfl

theorem moving_still (world : ∀ i, ο i) (p : Reads ο ε α) (t : Nat) :
    (moving (fun _ => world) p t).1 = still world p := p.run.moving_still world t

theorem moving_query (world : Nat → ∀ i, ο i) (i : ι) (f : ο i → Except ε α) (t : Nat) :
    moving world (query i f) t = (f (world t i), t + 1) := rfl

theorem moving_lift (world : Nat → ∀ i, ο i) (r : Except ε α) (t : Nat) :
    moving world (lift r : Reads ο ε α) t = (r, t) := rfl

theorem moving_pure (world : Nat → ∀ i, ο i) (a : α) (t : Nat) :
    moving world (pure a : Reads ο ε α) t = (.ok a, t) := rfl

theorem moving_bind_of_ok {world : Nat → ∀ i, ο i} {p : Reads ο ε α} {t t' : Nat} {a : α}
    (h : moving world p t = (.ok a, t')) (f : α → Reads ο ε β) :
    moving world (p >>= f) t = moving world (f a) t' := by
  refine (Program.moving_bind world p.run _ t).trans ?_
  unfold moving at h
  rw [h]
  rfl

theorem moving_bind_of_error {world : Nat → ∀ i, ο i} {p : Reads ο ε α} {t t' : Nat} {e : ε}
    (h : moving world p t = (.error e, t')) (f : α → Reads ο ε β) :
    moving world (p >>= f) t = (.error e, t') := by
  refine (Program.moving_bind world p.run _ t).trans ?_
  unfold moving at h
  rw [h]
  rfl

/-! ## Loops -/

/-- In a still world the loop pushes what each element gives. -/
theorem still_collect (world : ∀ i, ο i) (g : γ → Reads ο ε β) (cs : List γ) (out : List β) :
    (still world (collect g cs)).map (out ++ ·) =
      pushAll (fun c => still world (g c)) cs out := by
  induction cs generalizing out with
  | nil =>
      rw [collect, still_pure, pushAll, Except.map, List.append_nil]
  | cons c cs ih =>
      rw [collect, still_bind, pushAll]
      cases hc : still world (g c) with
      | error e => rfl
      | ok b =>
          simp only
          rw [← ih (out ++ [b])]
          show Except.map _ (still world (collect g cs >>= fun bs => pure (b :: bs))) = _
          rw [still_bind]
          cases still world (collect g cs) with
          | error e => rfl
          | ok bs => simp [still_pure, bind, Except.bind, Except.map]

theorem still_collect_nil (world : ∀ i, ο i) (g : γ → Reads ο ε β) (cs : List γ) :
    still world (collect g cs) = pushAll (fun c => still world (g c)) cs [] := by
  rw [← still_collect]
  cases still world (collect g cs) <;> rfl

/-- In a moving world, each element of a loop of single questions has a moment of its own. -/
theorem moving_collect {world : Nat → ∀ i, ο i} {g : γ → Reads ο ε β} {cs : List γ} {t : Nat}
    {Q : Nat → β → Prop}
    (h : ∀ i c, cs[i]? = some c → ∃ b, moving world (g c) (t + i) = (.ok b, t + i + 1) ∧ Q i b) :
    ∃ bs, moving world (collect g cs) t = (.ok bs, t + cs.length) ∧ bs.length = cs.length ∧
      ∀ i b, bs[i]? = some b → Q i b := by
  induction cs generalizing t Q with
  | nil => exact ⟨[], rfl, rfl, fun i b hb => by cases hb⟩
  | cons c cs ih =>
      obtain ⟨b, hb, hQ⟩ := h 0 c rfl
      rw [Nat.add_zero] at hb
      obtain ⟨bs, hbs, hlen, hQs⟩ := ih (t := t + 1) (Q := fun i => Q (i + 1)) fun i c' hc' => by
        have hlater := h (i + 1) c' hc'
        rwa [show t + (i + 1) = t + 1 + i by omega] at hlater
      refine ⟨b :: bs, ?_, by rw [List.length_cons, hlen, List.length_cons], ?_⟩
      · rw [collect, moving_bind_of_ok hb, moving_bind_of_ok hbs, moving_pure, List.length_cons]
        congr 1
        omega
      · intro i b' hb'
        cases i with
        | zero =>
            cases hb'
            exact hQ
        | succ i => exact hQs i b' hb'

/-- What a loop of single questions that never fail collects, each of its own moment. -/
theorem moving_collect_zipIdx {world : Nat → ∀ i, ο i} {g : γ → Reads ο ε β} {v : γ × Nat → β}
    (h : ∀ c n, moving world (g c) n = (.ok (v (c, n)), n + 1)) (cs : List γ) (t : Nat) :
    moving world (collect g cs) t = (.ok ((cs.zipIdx t).map v), t + cs.length) := by
  induction cs generalizing t with
  | nil => rfl
  | cons c cs ih =>
      rw [collect, moving_bind_of_ok (h c t), moving_bind_of_ok (ih (t + 1)), moving_pure,
        List.zipIdx_cons, List.map_cons, List.length_cons, Nat.add_assoc, Nat.add_comm 1]

end Reads

end Systemstat.Readings
