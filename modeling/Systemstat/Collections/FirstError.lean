import Mathlib.Data.List.Forall2

/-! # Loops that leave at the first error

A loop over a list that pushes what each element gives, and returns the error of the
first element that gives none. What it returns has one value for each element, in
order; what it fails with is what the first failing element fails with, however the
elements behind it fare.
-/

namespace Systemstat.Collections

variable {ε α β : Type} {f : α → Except ε β} {as : List α} {out out' : List β}

def pushAll (f : α → Except ε β) : List α → List β → Except ε (List β)
  | [], out => .ok out
  | a :: as, out =>
      match f a with
      | .error e => .error e
      | .ok b => pushAll f as (out ++ [b])

theorem pushAll_of_error {a : α} {e : ε} (h : f a = .error e) (as : List α) (out : List β) :
    pushAll f (a :: as) out = .error e := by
  rw [pushAll, h]

theorem pushAll_of_ok {a : α} {b : β} (h : f a = .ok b) (as : List α) (out : List β) :
    pushAll f (a :: as) out = pushAll f as (out ++ [b]) := by
  rw [pushAll, h]

theorem pushAll_eq_ok_iff : pushAll f as out = .ok out' ↔
    ∃ bs, out' = out ++ bs ∧ List.Forall₂ (fun a b => f a = .ok b) as bs := by
  induction as generalizing out with
  | nil =>
      constructor
      · intro h
        cases h
        exact ⟨[], (List.append_nil _).symm, .nil⟩
      · rintro ⟨bs, rfl, hbs⟩
        cases hbs
        rw [List.append_nil]
        rfl
  | cons a as ih =>
      cases ha : f a with
      | error e =>
          rw [pushAll_of_error ha]
          constructor
          · intro h
            cases h
          · rintro ⟨bs, _, hbs⟩
            cases hbs with
            | cons hb _ =>
                rw [ha] at hb
                cases hb
      | ok b =>
          rw [pushAll_of_ok ha, ih]
          constructor
          · rintro ⟨bs, rfl, hbs⟩
            exact ⟨b :: bs, by simp, .cons ha hbs⟩
          · rintro ⟨bs, rfl, hbs⟩
            cases hbs with
            | cons hb hrest =>
                rw [ha, Except.ok.injEq] at hb
                subst hb
                exact ⟨_, by simp, hrest⟩

theorem pushAll_eq_error_iff {e : ε} : pushAll f as out = .error e ↔
    ∃ pre a post, as = pre ++ a :: post ∧ (∀ x ∈ pre, ∃ b, f x = .ok b) ∧ f a = .error e := by
  induction as generalizing out with
  | nil =>
      constructor
      · intro h
        cases h
      · rintro ⟨pre, a, post, h, _, _⟩
        simp at h
  | cons a as ih =>
      cases ha : f a with
      | error e' =>
          rw [pushAll_of_error ha]
          constructor
          · intro h
            cases h
            exact ⟨[], a, as, rfl, by simp, ha⟩
          · rintro ⟨pre, a', post, hsplit, hpre, ha'⟩
            cases pre with
            | nil =>
                cases hsplit
                rw [ha, Except.error.injEq] at ha'
                rw [ha']
            | cons x pre =>
                cases hsplit
                obtain ⟨b, hb⟩ := hpre a (by simp)
                rw [ha] at hb
                cases hb
      | ok b =>
          rw [pushAll_of_ok ha, ih]
          constructor
          · rintro ⟨pre, a', post, rfl, hpre, ha'⟩
            refine ⟨a :: pre, a', post, rfl, ?_, ha'⟩
            rw [List.forall_mem_cons]
            exact ⟨⟨b, ha⟩, hpre⟩
          · rintro ⟨pre, a', post, hsplit, hpre, ha'⟩
            cases pre with
            | nil =>
                cases hsplit
                rw [ha] at ha'
                cases ha'
            | cons x pre =>
                cases hsplit
                exact ⟨pre, a', post, rfl, fun x hx => hpre x (by simp [hx]), ha'⟩

end Systemstat.Collections
