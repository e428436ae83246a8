import Systemstat.Nom.Calculus

/-! # Runs of a repetition

`Reads p i os rest` is a complete run of the greedy loop on `p`: the items it
collects from `i`, each consuming something, and the rest at which `p` fails.
The run determines the result of `fold_many0`, `many0` and `many1`, so that a
statement about a repetition is proved by exhibiting its run.
-/

namespace Systemstat.Nom

variable {α β : Type}

/-- Every item that is read consumes something, so the guard against endless loops
never ends the repetition. -/
def Progresses (p : Parser α) : Prop :=
  ∀ {i rest : Str} {a : α}, Yields p i rest a → rest.length < i.length

inductive Reads (p : Parser α) : Str → List α → Str → Prop
  | stop {i : Str} (h : Fails p i) : Reads p i [] i
  | item {i i₁ rest : Str} {o : α} {os : List α} (h : Yields p i i₁ o)
      (hlt : i₁.length < i.length) (run : Reads p i₁ os rest) : Reads p i (o :: os) rest

theorem manyLoop_of_reads {p : Parser α} {i rest : Str} {os : List α} (code : ErrorKind)
    (g : β → α → β) (run : Reads p i os rest) (fuel : Nat) (hf : i.length < fuel) (acc : β) :
    manyLoop code p g fuel i acc = .ok (rest, os.foldl g acc) := by
  induction run generalizing fuel acc with
  | stop h =>
      obtain ⟨e, he⟩ := h
      obtain ⟨fuel, rfl⟩ : ∃ n, fuel = n + 1 := ⟨fuel - 1, by omega⟩
      simp [manyLoop, he]
  | item h hlt _ ih =>
      obtain ⟨fuel, rfl⟩ : ∃ n, fuel = n + 1 := ⟨fuel - 1, by omega⟩
      unfold Yields at h
      have hne := Nat.ne_of_lt hlt
      simp only [manyLoop, h, if_neg hne, List.foldl_cons]
      exact ih fuel (by omega) (g acc _)

theorem foldl_push (os acc : List α) : os.foldl push acc = acc ++ os := by
  induction os generalizing acc with
  | nil => simp
  | cons o os ih => simp [push, ih]

theorem Reads.foldMany0 {p : Parser α} {i rest : Str} {os : List α} (init : β)
    (g : β → α → β) (run : Reads p i os rest) :
    Yields (Nom.foldMany0 p init g) i rest (os.foldl g init) :=
  manyLoop_of_reads .many0 g run _ (by omega) init

theorem Reads.many0 {p : Parser α} {i rest : Str} {os : List α} (run : Reads p i os rest) :
    Yields (Nom.many0 p) i rest os := by
  have h := run.foldMany0 [] push
  rwa [foldl_push, List.nil_append] at h

theorem Reads.many1 {p : Parser α} {i rest : Str} {os : List α} (run : Reads p i os rest)
    (hne : os ≠ []) : Yields (Nom.many1 p) i rest os := by
  cases run with
  | stop h => exact (hne rfl).elim
  | @item _ _ _ o os h hlt run =>
      have hl := manyLoop_of_reads .many1 push run _ (Nat.lt_succ_self _) [o]
      rw [foldl_push] at hl
      unfold Yields at h
      simp only [Yields, Nom.many1, h]
      exact hl

theorem Fails.many1 {p : Parser α} {i : Str} (h : Fails p i) : Fails (Nom.many1 p) i := by
  obtain ⟨e, he⟩ := h
  exact ⟨e, by simp only [Nom.many1, he]⟩

theorem Reads.many1_fails {p : Parser α} {i rest : Str} (run : Reads p i [] rest) :
    Fails (Nom.many1 p) i := by
  cases run with
  | stop h => exact h.many1

theorem prefix_of_manyLoop {code : ErrorKind} {p : Parser α} {fuel : Nat} {i rest : Str}
    {acc os : List α} (h : manyLoop code p push fuel i acc = .ok (rest, os)) : acc <+: os := by
  induction fuel generalizing i acc with
  | zero => cases h
  | succ fuel ih =>
      unfold manyLoop at h
      split at h
      · cases h
        exact List.prefix_rfl
      · cases h
      · split at h
        · cases h
        · exact (List.prefix_append acc _).trans (ih h)

theorem Yields.many1_ne_nil {p : Parser α} {i rest : Str} {os : List α}
    (h : Yields (Nom.many1 p) i rest os) : os ≠ [] := by
  unfold Yields Nom.many1 at h
  split at h
  · cases h
  · have hfirst := prefix_of_manyLoop h
    rintro rfl
    exact List.cons_ne_nil _ _ (List.prefix_nil.mp hfirst)

/-! ## The guard against endless loops -/

def EndsAtGuard (code : ErrorKind) (r : IResult α) : Prop :=
  ∃ i, r = .error (.error ⟨i, code⟩)

def AvoidsGuard (code : ErrorKind) (p : Parser α) : Prop := ∀ i, ¬ EndsAtGuard code (p i)

theorem Yields.not_endsAtGuard {p : Parser α} {i rest : Str} {a : α} (h : Yields p i rest a)
    (code : ErrorKind) : ¬ EndsAtGuard code (p i) := by
  intro hend
  obtain ⟨j, hj⟩ := hend
  unfold Yields at h
  rw [h] at hj
  cases hj

theorem AvoidsGuard.bind {code : ErrorKind} {p : Parser α} {f : α → Parser β}
    (hp : AvoidsGuard code p) (hf : ∀ a, AvoidsGuard code (f a)) : AvoidsGuard code (p >>= f) := by
  intro i hend
  obtain ⟨j, hj⟩ := hend
  cases h : p i with
  | error e =>
      simp only [Bind.bind, h] at hj
      cases hj
      exact hp i ⟨j, h⟩
  | ok r =>
      simp only [Bind.bind, h] at hj
      exact hf r.2 r.1 ⟨j, hj⟩

theorem AvoidsGuard.mapRes {code : ErrorKind} {p : Parser α} (hp : AvoidsGuard code p)
    (f : α → Option β) (hcode : code ≠ .mapRes) : AvoidsGuard code (Nom.mapRes p f) := by
  intro i hend
  obtain ⟨j, hj⟩ := hend
  cases h : p i with
  | error e =>
      simp only [Nom.mapRes, h] at hj
      cases hj
      exact hp i ⟨j, h⟩
  | ok r =>
      cases hf : f r.2 with
      | none =>
          simp only [Nom.mapRes, h, hf] at hj
          cases hj
          exact hcode rfl
      | some b =>
          simp only [Nom.mapRes, h, hf] at hj
          cases hj

theorem avoidsGuard_pure (code : ErrorKind) (a : α) : AvoidsGuard code (Pure.pure a : Parser α) :=
  fun i => (Yields.pure i a).not_endsAtGuard code

theorem avoidsGuard_takeWhile0 (code : ErrorKind) (p : Char → Bool) :
    AvoidsGuard code (takeWhile0 p) := fun i => (takeWhile0_yields p i).not_endsAtGuard code

theorem avoidsGuard_notLineEnding {code : ErrorKind} (hcode : code ≠ .tag) :
    AvoidsGuard code notLineEnding := by
  intro i hend
  obtain ⟨j, hj⟩ := hend
  unfold notLineEnding at hj
  split at hj
  · split at hj
    · cases hj
    · cases hj
      exact hcode rfl
  · cases hj

/-- Where every input has a complete run, `many1` only fails as its first item does. -/
theorem AvoidsGuard.many1 {code : ErrorKind} {p : Parser α} (hp : AvoidsGuard code p)
    (hruns : ∀ i, ∃ os rest, Reads p i os rest) : AvoidsGuard code (Nom.many1 p) := by
  intro i hend
  obtain ⟨j, hj⟩ := hend
  obtain ⟨os, rest, run⟩ := hruns i
  cases run with
  | stop hf =>
      obtain ⟨e, he⟩ := hf
      simp only [Nom.many1, he] at hj
      cases hj
      exact hp i ⟨j, he⟩
  | item hy hlt run =>
      have hok : Yields (Nom.many1 p) i _ _ := (Reads.item hy hlt run).many1 (List.cons_ne_nil _ _)
      exact hok.not_endsAtGuard code ⟨j, hj⟩

end Systemstat.Nom
