import Mathlib.Data.List.Nodup

/-! # Lists of cells in memory

A list as an operating system hands it out: cells in memory, each with the address of the
next one, and a null pointer behind the last. A loop that follows the pointers is a loop
over the nodes of the list exactly where the null pointer is there; then no address comes
twice, and the loop ends after as many rounds as there are cells.
-/

namespace Systemstat.Pointers

variable {α ν β ε : Type}

structure Cell (α ν : Type) where
  node : ν
  next : Option α

/-- `none` is an address that may not be read. -/
abbrev Heap (α ν : Type) := α → Option (Cell α ν)

/-- The cells from a pointer to the null pointer. -/
inductive Chain (heap : Heap α ν) : Option α → List (α × ν) → Prop
  | nil : Chain heap none []
  | cons {p : α} {cell : Cell α ν} {cells : List (α × ν)} (h : heap p = some cell)
      (rest : Chain heap cell.next cells) : Chain heap (some p) ((p, cell.node) :: cells)

inductive Walk (β : Type)
  | faulted
  | returned (result : β)

/-- The loop from a pointer, with the addresses that it has read. `none` is a loop that
has not ended within the fuel. -/
def walk (heap : Heap α ν) (body : ν → β → Except ε β) :
    Nat → Option α → β → Option (List α × Walk (Except ε β))
  | 0, _, _ => none
  | _ + 1, none, b => some ([], .returned (.ok b))
  | fuel + 1, some p, b =>
      match heap p with
      | none => some ([], .faulted)
      | some cell =>
          match body cell.node b with
          | .error e => some ([p], .returned (.error e))
          | .ok b' => (walk heap body fuel cell.next b').map fun run => (p :: run.1, run.2)

/-- The loop over a list, with the addresses of the nodes that it comes to. -/
def loop (body : ν → β → Except ε β) : List (α × ν) → β → List α × Except ε β
  | [], b => ([], .ok b)
  | (p, node) :: cells, b =>
      match body node b with
      | .error e => ([p], .error e)
      | .ok b' => (p :: (loop body cells b').1, (loop body cells b').2)

variable {heap : Heap α ν} {body : ν → β → Except ε β} {p : Option α}
  {cells : List (α × ν)}

/-! ## Chains -/

theorem Chain.unique {cells' : List (α × ν)} (h : Chain heap p cells)
    (h' : Chain heap p cells') : cells = cells' := by
  induction h generalizing cells' with
  | nil =>
      cases h'
      rfl
  | cons hcell _ ih =>
      cases h' with
      | cons hcell' hrest' =>
          rw [hcell, Option.some.injEq] at hcell'
          subst hcell'
          rw [ih hrest']

/-- From every cell of a chain there is a chain, and it is not longer. -/
theorem Chain.suffix {q : α} (h : Chain heap p cells) (hq : q ∈ cells.map Prod.fst) :
    ∃ rest, Chain heap (some q) rest ∧ rest.length ≤ cells.length := by
  induction h with
  | nil => cases hq
  | cons hcell hrest ih =>
      rw [List.map_cons, List.mem_cons] at hq
      rcases hq with rfl | hq
      · exact ⟨_, .cons hcell hrest, Nat.le_refl _⟩
      · obtain ⟨rest, hchain, hlen⟩ := ih hq
        exact ⟨rest, hchain, Nat.le_succ_of_le hlen⟩

/-- A list that ends comes to no address twice. -/
theorem Chain.nodup (h : Chain heap p cells) : (cells.map Prod.fst).Nodup := by
  induction h with
  | nil => exact List.nodup_nil
  | cons hcell hrest ih =>
      refine List.nodup_cons.mpr ⟨fun hmem => ?_, ih⟩
      obtain ⟨rest, hchain, hlen⟩ := hrest.suffix hmem
      rw [hchain.unique (.cons hcell hrest), List.length_cons] at hlen
      omega

/-! ## Loops -/

theorem loop_visited_prefix (cells : List (α × ν)) (b : β) :
    (loop body cells b).1 <+: cells.map Prod.fst := by
  induction cells generalizing b with
  | nil => exact List.prefix_refl _
  | cons cell cells ih =>
      obtain ⟨q, node⟩ := cell
      rw [loop, List.map_cons]
      cases body node b with
      | error e => exact ⟨cells.map Prod.fst, rfl⟩
      | ok b' => exact List.cons_prefix_cons.mpr ⟨rfl, ih b'⟩

/-- On a list that ends the pointers are followed to its end, or to the first error. -/
theorem walk_of_chain {fuel : Nat} (h : Chain heap p cells) (hfuel : cells.length < fuel)
    (b : β) : walk heap body fuel p b =
      some ((loop body cells b).1, .returned (loop body cells b).2) := by
  induction h generalizing fuel b with
  | nil =>
      obtain ⟨fuel, rfl⟩ := Nat.exists_eq_succ_of_ne_zero (Nat.ne_zero_of_lt hfuel)
      rfl
  | @cons q cell cells hcell _ ih =>
      obtain ⟨fuel, rfl⟩ := Nat.exists_eq_succ_of_ne_zero (Nat.ne_zero_of_lt hfuel)
      rw [walk, loop, hcell]
      cases hbody : body cell.node b with
      | error e => simp only [hbody]
      | ok b' =>
          rw [List.length_cons] at hfuel
          simp only [hbody, ih (Nat.lt_of_succ_lt_succ hfuel) b', Option.map_some]

/-- A loop that comes out of the list without an error has found its end. -/
theorem exists_chain_of_walk {fuel : Nat} {b b' : β} {visited : List α}
    (h : walk heap body fuel p b = some (visited, .returned (.ok b'))) :
    ∃ cells, Chain heap p cells ∧ visited = cells.map Prod.fst := by
  induction fuel generalizing p b visited with
  | zero => cases h
  | succ fuel ih =>
      cases p with
      | none =>
          cases h
          exact ⟨[], .nil, rfl⟩
      | some q =>
          rw [walk] at h
          cases hcell : heap q with
          | none =>
              rw [hcell] at h
              cases h
          | some cell =>
              rw [hcell] at h
              cases hbody : body cell.node b with
              | error e =>
                  simp only [hbody] at h
                  cases h
              | ok next =>
                  simp only [hbody] at h
                  obtain ⟨⟨seen, out⟩, hrun, heq⟩ := Option.map_eq_some_iff.mp h
                  rw [Prod.mk.injEq] at heq
                  obtain ⟨rfl, rfl⟩ := heq
                  obtain ⟨cells, hchain, rfl⟩ := ih hrun
                  exact ⟨_, .cons hcell hchain, rfl⟩

/-- A loop whose body never fails returns exactly where the list ends: not from a list
that runs in a circle, and not from one that leads out of the memory. -/
theorem walk_returns_iff (hbody : ∀ node b, ∃ b', body node b = .ok b') (b : β) :
    (∃ fuel visited b', walk heap body fuel p b = some (visited, .returned (.ok b'))) ↔
      ∃ cells, Chain heap p cells := by
  have hloop : ∀ (cells : List (α × ν)) b, ∃ b', (loop body cells b).2 = .ok b' := by
    intro cells
    induction cells with
    | nil => exact fun b => ⟨b, rfl⟩
    | cons cell cells ih =>
        intro b
        obtain ⟨b', hb'⟩ := hbody cell.2 b
        obtain ⟨out, hout⟩ := ih b'
        exact ⟨out, by rw [loop, hb', hout]⟩
  constructor
  · rintro ⟨fuel, visited, b', h⟩
    obtain ⟨cells, hchain, _⟩ := exists_chain_of_walk h
    exact ⟨cells, hchain⟩
  · rintro ⟨cells, hchain⟩
    obtain ⟨b', hb'⟩ := hloop cells b
    refine ⟨cells.length + 1, (loop body cells b).1, b', ?_⟩
    rw [walk_of_chain hchain (Nat.lt_succ_self _), hb']

end Systemstat.Pointers
