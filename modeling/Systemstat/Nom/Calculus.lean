import Systemstat.Nom.Parser
import Systemstat.Text.Runs

/-! # Outcome calculus for parsers

`Yields` and `Fails` are the two outcomes that a complete parser has on an
input: a value with the rest of the input, or a recoverable error. Every
primitive and every combinator has one rule for each outcome, so the outcome of
a composed parser is assembled from those of its parts and no proof about a
composed parser unfolds the sequencing.
-/

namespace Systemstat.Nom

variable {α β γ δ : Type}

def Yields (p : Parser α) (i rest : Str) (a : α) : Prop := p i = .ok (rest, a)

def Fails (p : Parser α) (i : Str) : Prop := ∃ e, p i = .error (.error e)

theorem Yields.value? {p : Parser α} {i rest : Str} {a : α} (h : Yields p i rest a) :
    (p i).value? = some a := by
  unfold Yields at h
  rw [h]
  rfl

theorem exists_yields_of_value? {p : Parser α} {i : Str} {a : α} (h : (p i).value? = some a) :
    ∃ rest, Yields p i rest a := by
  cases hp : p i with
  | error e =>
      rw [hp] at h
      cases h
  | ok r =>
      rw [hp] at h
      cases h
      exact ⟨r.1, hp⟩

theorem Fails.value? {p : Parser α} {i : Str} (h : Fails p i) : (p i).value? = none := by
  obtain ⟨e, he⟩ := h
  rw [he]
  rfl

theorem Yields.unique {p : Parser α} {i r₁ r₂ : Str} {a₁ a₂ : α} (h₁ : Yields p i r₁ a₁)
    (h₂ : Yields p i r₂ a₂) : r₁ = r₂ ∧ a₁ = a₂ := by
  unfold Yields at h₁ h₂
  rw [h₁] at h₂
  cases h₂
  exact ⟨rfl, rfl⟩

theorem Yields.not_fails {p : Parser α} {i rest : Str} {a : α} (h : Yields p i rest a) :
    ¬ Fails p i := by
  rintro ⟨e, he⟩
  unfold Yields at h
  rw [h] at he
  cases he

theorem Fails.error {p : Parser α} {i : Str} (h : Fails p i) : ∃ e, p i = .error e := by
  obtain ⟨e, he⟩ := h
  exact ⟨_, he⟩

/-! ## Sequencing -/

theorem Yields.pure (i : Str) (a : α) : Yields (Pure.pure a : Parser α) i i a := rfl

theorem Yields.bind {p : Parser α} {f : α → Parser β} {i r₁ r₂ : Str} {a : α} {b : β}
    (h₁ : Yields p i r₁ a) (h₂ : Yields (f a) r₁ r₂ b) : Yields (p >>= f) i r₂ b := by
  unfold Yields at h₁
  simp only [Yields, Bind.bind, h₁]
  exact h₂

theorem Fails.bind {p : Parser α} (f : α → Parser β) {i : Str} (h : Fails p i) :
    Fails (p >>= f) i := by
  obtain ⟨e, he⟩ := h
  exact ⟨e, by simp only [Bind.bind, he]⟩

theorem Yields.bind_fails {p : Parser α} {f : α → Parser β} {i rest : Str} {a : α}
    (h₁ : Yields p i rest a) (h₂ : Fails (f a) rest) : Fails (p >>= f) i := by
  unfold Yields at h₁
  simp only [Fails, Bind.bind, h₁]
  exact h₂

theorem Yields.of_bind {p : Parser α} {f : α → Parser β} {i rest : Str} {b : β}
    (h : Yields (p >>= f) i rest b) : ∃ r a, Yields p i r a ∧ Yields (f a) r rest b := by
  cases hp : p i with
  | error e =>
      simp only [Yields, Bind.bind, hp] at h
      cases h
  | ok r =>
      simp only [Yields, Bind.bind, hp] at h
      exact ⟨r.1, r.2, hp, h⟩

/-- The condition decides between the two outcomes. -/
def ReadsIff (p : Parser α) (i : Str) (c : Prop) : Prop :=
  (c ∧ ∃ rest a, Yields p i rest a) ∨ (¬ c ∧ Fails p i)

theorem ReadsIff.pure {c : Prop} (h : c) (i : Str) (a : α) :
    ReadsIff (Pure.pure a : Parser α) i c :=
  .inl ⟨h, i, a, .pure i a⟩

/-- What comes first in a sequence and yields decides nothing. -/
theorem ReadsIff.bind {p : Parser α} {f : α → Parser β} {i r : Str} {a : α} {c : Prop}
    (h₁ : Yields p i r a) (h₂ : ReadsIff (f a) r c) : ReadsIff (p >>= f) i c := by
  obtain ⟨hc, rest, b, hy⟩ | ⟨hc, hf⟩ := h₂
  · exact .inl ⟨hc, rest, b, h₁.bind hy⟩
  · exact .inr ⟨hc, h₁.bind_fails hf⟩

theorem ReadsIff.isSome_value?_iff {p : Parser α} {i : Str} {c : Prop} (h : ReadsIff p i c) :
    (p i).value?.isSome ↔ c := by
  obtain ⟨hc, rest, a, hy⟩ | ⟨hc, hf⟩ := h
  · rw [hy.value?]
    exact iff_of_true rfl hc
  · rw [hf.value?]
    exact iff_of_false Bool.false_ne_true hc

/-! ## Primitive parsers -/

theorem takeWhile0_yields (p : Char → Bool) (i : Str) :
    Yields (takeWhile0 p) i (i.dropWhile p) (i.takeWhile p) := rfl

theorem multispace0_yields (i : Str) :
    Yields multispace0 i (i.dropWhile isMultispace) (i.takeWhile isMultispace) := rfl

theorem takeWhile1_yields {code : ErrorKind} {p : Char → Bool} {i : Str}
    (h : i.takeWhile p ≠ []) :
    Yields (takeWhile1 code p) i (i.dropWhile p) (i.takeWhile p) := by
  simp [Yields, takeWhile1, h]

theorem takeWhile1_fails {code : ErrorKind} {p : Char → Bool} {i : Str}
    (h : i.takeWhile p = []) : Fails (takeWhile1 code p) i :=
  ⟨⟨i, code⟩, by simp [takeWhile1, h]⟩

theorem tag_yields (t rest : Str) : Yields (tag t) (t ++ rest) rest t := by
  have h : t.isPrefixOf (t ++ rest) = true := by simp
  simp [Yields, tag, h]

theorem tag_fails {t i : Str} (h : ¬ t <+: i) : Fails (tag t) i := by
  have h' : t.isPrefixOf i = false := by
    simpa [← List.isPrefixOf_iff_prefix] using h
  simp [Fails, tag, h']

theorem findSubstring_singleton {c : Char} {before rest : Str} (h : c ∉ before) :
    findSubstring [c] (before ++ c :: rest) = some (before, c :: rest) := by
  induction before with
  | nil => simp [findSubstring]
  | cons d before ih =>
      rw [List.mem_cons, not_or] at h
      simp [findSubstring, h.1, ih h.2]

theorem takeUntil_yields {c : Char} {before rest : Str} (h : c ∉ before) :
    Yields (takeUntil [c]) (before ++ c :: rest) (c :: rest) before := by
  simp only [Yields, takeUntil, findSubstring_singleton h]

theorem findSubstring_singleton_of_not_mem {c : Char} {i : Str} (h : c ∉ i) :
    findSubstring [c] i = none := by
  induction i with
  | nil => rfl
  | cons d i ih =>
      rw [List.mem_cons, not_or] at h
      simp [findSubstring, h.1, ih h.2]

theorem takeUntil_fails {c : Char} {i : Str} (h : c ∉ i) : Fails (takeUntil [c]) i :=
  ⟨⟨i, .takeUntil⟩, by simp only [takeUntil, findSubstring_singleton_of_not_mem h]⟩

/-- Up to a character: without it there is an error, and with it the text is split there. -/
theorem takeUntil_cases (c : Char) (i : Str) :
    (i.dropWhile (fun d => d != c) = [] ∧ Fails (takeUntil [c]) i) ∨
    ∃ t, i.dropWhile (fun d => d != c) = c :: t ∧
      Yields (takeUntil [c]) i (c :: t) (i.takeWhile fun d => d != c) := by
  have hsplit := List.takeWhile_append_dropWhile (p := fun d => d != c) (l := i)
  have hrun := Text.maximalRun_takeWhile (fun d => d != c) i
  have hmem : c ∉ i.takeWhile (fun d => d != c) := fun hm => by simpa using hrun.all c hm
  cases hd : i.dropWhile (fun d => d != c) with
  | nil =>
      rw [hd, List.append_nil] at hsplit
      rw [hsplit] at hmem
      exact .inl ⟨rfl, takeUntil_fails hmem⟩
  | cons d t =>
      obtain rfl : d = c := by simpa [hd] using hrun.ends d
      refine .inr ⟨t, rfl, ?_⟩
      have hy : Yields (takeUntil [d]) (i.takeWhile (fun e => e != d) ++ d :: t) (d :: t)
          (i.takeWhile fun e => e != d) := takeUntil_yields hmem
      rwa [← hd, hsplit, hd] at hy

/-! ## Combinators -/

theorem Yields.map {p : Parser α} {i rest : Str} {a : α} (f : α → β) (h : Yields p i rest a) :
    Yields (Nom.map p f) i rest (f a) := h.bind (.pure rest (f a))

theorem Fails.map {p : Parser α} {i : Str} (f : α → β) (h : Fails p i) :
    Fails (Nom.map p f) i := h.bind _

theorem Yields.mapRes {p : Parser α} {f : α → Option β} {i rest : Str} {a : α} {b : β}
    (h : Yields p i rest a) (hf : f a = some b) : Yields (Nom.mapRes p f) i rest b := by
  unfold Yields at h
  simp only [Yields, Nom.mapRes, h, hf]

theorem Yields.mapRes_fails {p : Parser α} {f : α → Option β} {i rest : Str} {a : α}
    (h : Yields p i rest a) (hf : f a = none) : Fails (Nom.mapRes p f) i := by
  unfold Yields at h
  exact ⟨⟨i, .mapRes⟩, by simp only [Nom.mapRes, h, hf]⟩

theorem Fails.mapRes {p : Parser α} (f : α → Option β) {i : Str} (h : Fails p i) :
    Fails (Nom.mapRes p f) i := by
  obtain ⟨e, he⟩ := h
  exact ⟨e, by simp only [Nom.mapRes, he]⟩

theorem Yields.verify {p : Parser α} {test : α → Bool} {i rest : Str} {a : α}
    (h : Yields p i rest a) (ht : test a = true) : Yields (Nom.verify p test) i rest a := by
  unfold Yields at h
  simp only [Yields, Nom.verify, h, ht, if_true]

theorem Yields.verify_fails {p : Parser α} {test : α → Bool} {i rest : Str} {a : α}
    (h : Yields p i rest a) (ht : test a = false) : Fails (Nom.verify p test) i := by
  unfold Yields at h
  exact ⟨⟨i, .verify⟩, by simp [Nom.verify, h, ht]⟩

theorem Fails.verify {p : Parser α} (test : α → Bool) {i : Str} (h : Fails p i) :
    Fails (Nom.verify p test) i := by
  obtain ⟨e, he⟩ := h
  exact ⟨e, by simp only [Nom.verify, he]⟩

theorem Yields.opt {p : Parser α} {i rest : Str} {a : α} (h : Yields p i rest a) :
    Yields (Nom.opt p) i rest (some a) := by
  unfold Yields at h
  simp only [Yields, Nom.opt, h]

theorem Fails.opt {p : Parser α} {i : Str} (h : Fails p i) : Yields (Nom.opt p) i i none := by
  obtain ⟨e, he⟩ := h
  simp only [Yields, Nom.opt, he]

theorem Yields.complete {p : Parser α} {i rest : Str} {a : α} (h : Yields p i rest a) :
    Yields (Nom.complete p) i rest a := by
  unfold Yields at h
  simp only [Yields, Nom.complete, h]

theorem Fails.complete {p : Parser α} {i : Str} (h : Fails p i) : Fails (Nom.complete p) i := by
  obtain ⟨e, he⟩ := h
  exact ⟨e, by simp only [Nom.complete, he]⟩

theorem Yields.pair {first : Parser α} {second : Parser β} {i r₁ r₂ : Str} {a : α} {b : β}
    (h₁ : Yields first i r₁ a) (h₂ : Yields second r₁ r₂ b) :
    Yields (Nom.pair first second) i r₂ (a, b) := h₁.bind (h₂.bind (.pure r₂ (a, b)))

theorem Fails.pair {first : Parser α} (second : Parser β) {i : Str} (h : Fails first i) :
    Fails (Nom.pair first second) i := h.bind _

theorem Yields.pair_fails {first : Parser α} {second : Parser β} {i r : Str} {a : α}
    (h₁ : Yields first i r a) (h₂ : Fails second r) : Fails (Nom.pair first second) i :=
  h₁.bind_fails (h₂.bind _)

theorem Yields.preceded {first : Parser γ} {second : Parser α} {i r₁ r₂ : Str} {c : γ} {a : α}
    (h₁ : Yields first i r₁ c) (h₂ : Yields second r₁ r₂ a) :
    Yields (Nom.preceded first second) i r₂ a := h₁.bind h₂

theorem Yields.delimited {first : Parser γ} {second : Parser α} {third : Parser δ}
    {i r₁ r₂ r₃ : Str} {c : γ} {a : α} {d : δ} (h₁ : Yields first i r₁ c)
    (h₂ : Yields second r₁ r₂ a) (h₃ : Yields third r₂ r₃ d) :
    Yields (Nom.delimited first second third) i r₃ a :=
  h₁.bind (h₂.bind (h₃.bind (.pure r₃ a)))

theorem Yields.delimited_fails {first : Parser γ} {second : Parser α} (third : Parser δ)
    {i r : Str} {c : γ} (h₁ : Yields first i r c) (h₂ : Fails second r) :
    Fails (Nom.delimited first second third) i := h₁.bind_fails (h₂.bind _)

theorem Yields.delimited_fails_third {first : Parser γ} {second : Parser α} {third : Parser δ}
    {i r₁ r₂ : Str} {c : γ} {a : α} (h₁ : Yields first i r₁ c) (h₂ : Yields second r₁ r₂ a)
    (h₃ : Fails third r₂) : Fails (Nom.delimited first second third) i :=
  h₁.bind_fails (h₂.bind_fails (h₃.bind _))

end Systemstat.Nom
