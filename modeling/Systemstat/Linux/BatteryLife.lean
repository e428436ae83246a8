import Systemstat.Arith.Accumulate
import Systemstat.Linux.FileValues
import Systemstat.Linux.PowerSupply
import Systemstat.Text.Lossy

/-! # Reading the batteries

`battery_life` goes through the devices under `/sys/class/power_supply` and adds up
the readings of the batteries that have all three of them.
-/

namespace Systemstat.Linux

open Nom Text Arith

/-- `value_from_file(s + "/type").map(|t| t == kind).unwrap_or(false)`. -/
def isOfType (files : Files) (s : String) (kind : String) : Bool :=
  match valueFromFile some files (s ++ "/type") with
  | .ok t => t == kind.toList
  | .error _ => false

/-- `value_from_file(file).or_else(|_| value_from_file(other))`. -/
def reading (files : Files) (file other : String) : IoResult (BitVec 32) :=
  match i32FromFile files file with
  | .ok value => .ok value
  | .error _ => i32FromFile files other

/-! ## The devices -/

/-- What `read_dir` yields: an error, or a path, whose bytes need not be UTF-8. -/
abbrev DirEntry := IoResult Bytes

/-- What the loops find: the files, and the entries that `read_dir` lists. -/
structure Sysfs where
  files : Files
  readDir : String → IoResult (List DirEntry)

/-- `e.unwrap().path()` and `p.to_str().unwrap()`; nothing is a panic. -/
def entryPath : DirEntry → Option String
  | .ok p => (toStr p).map String.ofList
  | .error _ => none

/-- A listing of these paths, with nothing that cannot be read. -/
def listed (paths : List String) : List DirEntry := paths.map fun s => .ok (utf8 s.toList)

def filesOf (contents : List (String × String)) : Files := fun path =>
  match contents.lookup path with
  | some text => .ok text.toList
  | none => .error (.os 2)

structure BatteryReadings where
  full : BitVec 32
  now : BitVec 32
  current : BitVec 32
  deriving DecidableEq, Repr

def BatteryReadings.add (l r : BatteryReadings) : BatteryReadings :=
  ⟨l.full + r.full, l.now + r.now, l.current + r.current⟩

/-- `if let (Ok(f), Ok(n), Ok(c)) = (f, n, c)`. -/
def ifAllOk {α β : Type} (body : α → α → α → β) :
    IoResult α → IoResult α → IoResult α → Option β
  | .ok f, .ok n, .ok c => some (body f n c)
  | _, _, _ => none

/-- The body of the loop, up to the readings that it adds. -/
def batteryReadings (files : Files) (s : String) : Option BatteryReadings :=
  if isOfType files s "Battery" then
    ifAllOk .mk (reading files (s ++ "/energy_full") (s ++ "/charge_full"))
      (reading files (s ++ "/energy_now") (s ++ "/charge_now"))
      (reading files (s ++ "/power_now") (s ++ "/current_now"))
  else none

/-- Nothing is a panic. -/
def batteryLoop (files : Files) : List DirEntry → BatteryReadings → Option BatteryReadings
  | [], totals => some totals
  | e :: entries, totals => do
      let s ← entryPath e
      match batteryReadings files s with
      | some readings => batteryLoop files entries (totals.add readings)
      | none => batteryLoop files entries totals

/-- Nothing is a panic; the early return leaves the entries behind it alone. -/
def onAcLoop (files : Files) : List DirEntry → Bool → Option (IoResult Bool)
  | [], onAc => some (.ok onAc)
  | e :: entries, onAc => do
      let s ← entryPath e
      if isOfType files s "Mains" then
        match i32FromFile files (s ++ "/online") with
        | .ok v => onAcLoop files entries (onAc || v == 1#32)
        | .error e => some (.error e)
      else onAcLoop files entries onAc

def powerSupplyDir : String := "/sys/class/power_supply"

def onAcPower (sys : Sysfs) : Option (IoResult Bool) :=
  match sys.readDir powerSupplyDir with
  | .error e => some (.error e)
  | .ok entries => onAcLoop sys.files entries false

def batteryLife (sys : Sysfs) : Option (IoResult BatteryLife) :=
  match sys.readDir powerSupplyDir with
  | .error e => some (.error e)
  | .ok entries => do
      let totals ← batteryLoop sys.files entries ⟨0#32, 0#32, 0#32⟩
      -- the mains supplies are asked for only where the totals are not of nothing
      let onAc ← if totals.full ≠ 0#32 then onAcPower sys else some (.ok false)
      return batteryOfTotals (onAc.toOption == some true) totals.full totals.now totals.current

theorem ifAllOk_eq_some_iff {α β : Type} {body : α → α → α → β} {f n c : IoResult α} {r : β} :
    ifAllOk body f n c = some r ↔
      ∃ f' n' c', f = .ok f' ∧ n = .ok n' ∧ c = .ok c' ∧ body f' n' c' = r := by
  cases f with
  | error e => simp [ifAllOk]
  | ok f =>
      cases n with
      | error e => simp [ifAllOk]
      | ok n =>
          cases c with
          | error e => simp [ifAllOk]
          | ok c => simp [ifAllOk]

theorem entryPath_eq_some_iff {e : DirEntry} {s : String} :
    entryPath e = some s ↔ e = .ok (utf8 s.toList) := by
  cases e with
  | error e =>
      constructor
      · intro h
        cases h
      · intro h
        cases h
  | ok p =>
      rw [entryPath, Option.map_eq_some_iff, Except.ok.injEq]
      constructor
      · rintro ⟨name, hname, rfl⟩
        rw [String.toList_ofList]
        exact toStr_eq_some_iff.mp hname
      · rintro rfl
        exact ⟨_, toStr_eq_some_iff.mpr rfl, String.ofList_toList⟩

theorem entryPath_named (s : String) : entryPath (.ok (utf8 s.toList)) = some s :=
  entryPath_eq_some_iff.mpr rfl

/-! ## The batteries that count -/

def HasType (files : Files) (s kind : String) : Prop :=
  ∃ k, readFile files (s ++ "/type") = .ok (kind.toList ++ List.replicate k '\n')

/-- The value is in the first of the two files, or in the other one when the first holds none. -/
def Gives (files : Files) (file other : String) (x : BitVec 32) : Prop :=
  FileWritesInt files file x.toInt ∨
    (∀ y : BitVec 32, ¬ FileWritesInt files file y.toInt) ∧ FileWritesInt files other x.toInt

structure Available (files : Files) (s : String) (r : BatteryReadings) : Prop where
  battery : HasType files s "Battery"
  full : Gives files (s ++ "/energy_full") (s ++ "/charge_full") r.full
  now : Gives files (s ++ "/energy_now") (s ++ "/charge_now") r.now
  current : Gives files (s ++ "/power_now") (s ++ "/current_now") r.current

/-- The readings of exactly the batteries that have all three, in the order of the listing. -/
inductive Batteries (files : Files) : List DirEntry → List BatteryReadings → Prop
  | nil : Batteries files [] []
  | counts {s : String} {entries : List DirEntry} {r : BatteryReadings}
      {rs : List BatteryReadings} : Available files s r → Batteries files entries rs →
      Batteries files (.ok (utf8 s.toList) :: entries) (r :: rs)
  | lacks {e : DirEntry} {entries : List DirEntry} {rs : List BatteryReadings} :
      (∀ s r, e = .ok (utf8 s.toList) → ¬ Available files s r) → Batteries files entries rs →
      Batteries files (e :: entries) rs

theorem isOfType_iff {files : Files} {s kind : String} (hkind : NoNewlineEnd kind.toList) :
    isOfType files s kind = true ↔ HasType files s kind := by
  have hvalue : valueFromFile some files (s ++ "/type") = .ok kind.toList ↔
      HasType files s kind := by
    unfold valueFromFile HasType
    cases hread : readFile files (s ++ "/type") with
    | error e => simp [bind, Except.bind]
    | ok text =>
        simp only [bind, Except.bind, Except.ok.injEq]
        constructor
        · intro h
          obtain ⟨k, hk⟩ := exists_newlines text
          exact ⟨k, by rw [← h, ← hk]⟩
        · rintro ⟨k, rfl⟩
          exact rdropWhile_newlines hkind k
  rw [← hvalue, isOfType]
  cases valueFromFile some files (s ++ "/type") with
  | error e => simp
  | ok text => simp

theorem reading_eq_ok_iff {files : Files} {file other : String} {x : BitVec 32} :
    reading files file other = .ok x ↔ Gives files file other x := by
  rw [reading, Gives, ← i32FromFile_error_iff, ← i32FromFile_eq_ok_iff, ← i32FromFile_eq_ok_iff]
  cases i32FromFile files file with
  | ok value => simp
  | error e => simp

theorem batteryReadings_eq_some_iff {files : Files} {s : String} {r : BatteryReadings} :
    batteryReadings files s = some r ↔ Available files s r := by
  have htype : isOfType files s "Battery" = true ↔ HasType files s "Battery" :=
    isOfType_iff (by decide)
  unfold batteryReadings
  constructor
  · intro h
    split at h
    · next hbattery =>
      obtain ⟨f, n, c, hf, hn, hc, rfl⟩ := ifAllOk_eq_some_iff.mp h
      exact ⟨htype.mp hbattery, reading_eq_ok_iff.mp hf, reading_eq_ok_iff.mp hn,
        reading_eq_ok_iff.mp hc⟩
    · cases h
  · intro h
    rw [if_pos (htype.mpr h.battery), ifAllOk_eq_some_iff]
    exact ⟨_, _, _, reading_eq_ok_iff.mpr h.full, reading_eq_ok_iff.mpr h.now,
      reading_eq_ok_iff.mpr h.current, rfl⟩

/-! ## The sums -/

def entryReadings (files : Files) (e : DirEntry) : Option BatteryReadings :=
  (entryPath e).bind (batteryReadings files)

def counted (files : Files) (entries : List DirEntry) : List BatteryReadings :=
  entries.filterMap (entryReadings files)

theorem entryReadings_eq_some_iff {files : Files} {e : DirEntry} {r : BatteryReadings} :
    entryReadings files e = some r ↔
      ∃ s : String, e = .ok (utf8 s.toList) ∧ Available files s r := by
  simp only [entryReadings, Option.bind_eq_some_iff, entryPath_eq_some_iff,
    batteryReadings_eq_some_iff]

theorem batteries_iff {files : Files} {entries : List DirEntry} {rs : List BatteryReadings} :
    Batteries files entries rs ↔ rs = counted files entries := by
  constructor
  · intro h
    induction h with
    | nil => rfl
    | counts havailable _ ih =>
        rw [ih, counted, counted, List.filterMap_cons_some
          (entryReadings_eq_some_iff.mpr ⟨_, rfl, havailable⟩)]
    | @lacks e entries rs hlacks _ ih =>
        have hnone : entryReadings files e = none := by
          rw [Option.eq_none_iff_forall_ne_some]
          intro r hr
          obtain ⟨s, hs, havailable⟩ := entryReadings_eq_some_iff.mp hr
          exact hlacks s r hs havailable
        rw [ih, counted, counted, List.filterMap_cons_none hnone]
  · rintro rfl
    induction entries with
    | nil => exact .nil
    | cons e entries ih =>
        cases hreadings : entryReadings files e with
        | none =>
            rw [counted, List.filterMap_cons_none hreadings]
            refine .lacks (fun s r hs havailable => ?_) ih
            rw [entryReadings_eq_some_iff.mpr ⟨s, hs, havailable⟩] at hreadings
            cases hreadings
        | some r =>
            obtain ⟨s, rfl, havailable⟩ := entryReadings_eq_some_iff.mp hreadings
            rw [counted, List.filterMap_cons_some hreadings]
            exact .counts havailable ih

def batteryLoopOverflows (files : Files) : List DirEntry → BatteryReadings → Bool
  | [], _ => false
  | e :: entries, totals =>
      match entryReadings files e with
      | some r =>
          totals.full.saddOverflow r.full || totals.now.saddOverflow r.now ||
            totals.current.saddOverflow r.current ||
            batteryLoopOverflows files entries (totals.add r)
      | none => batteryLoopOverflows files entries totals

/-- Every entry can be read, and its path is UTF-8. -/
def AllNamed (entries : List DirEntry) : Prop := ∀ e ∈ entries, ∃ s : Str, e = .ok (utf8 s)

theorem exists_entryPath {e : DirEntry} {s : Str} (h : e = .ok (utf8 s)) :
    entryPath e = some (String.ofList s) := by
  rw [entryPath_eq_some_iff, String.toList_ofList]
  exact h

theorem allNamed_listed (paths : List String) : AllNamed (listed paths) := by
  intro e he
  obtain ⟨s, _, rfl⟩ := List.mem_map.mp he
  exact ⟨s.toList, rfl⟩

theorem batteryLoop_eq (files : Files) {entries : List DirEntry} (h : AllNamed entries)
    (totals : BatteryReadings) :
    batteryLoop files entries totals = some ((counted files entries).foldl .add totals) := by
  induction entries generalizing totals with
  | nil => rfl
  | cons e entries ih =>
      obtain ⟨s, hs⟩ := h e (by simp)
      have hpath := exists_entryPath hs
      have hrest : AllNamed entries := fun e he => h e (by simp [he])
      rw [batteryLoop, counted, List.filterMap_cons, entryReadings, hpath]
      simp only [Option.bind_some, bind]
      cases batteryReadings files (String.ofList s) with
      | none => exact ih hrest totals
      | some readings => exact ih hrest (totals.add readings)

theorem batteryLoopOverflows_eq (files : Files) (entries : List DirEntry)
    (totals : BatteryReadings) : batteryLoopOverflows files entries totals =
      (runOverflows BitVec.saddOverflow totals.full ((counted files entries).map (·.full)) ||
        runOverflows BitVec.saddOverflow totals.now ((counted files entries).map (·.now)) ||
        runOverflows BitVec.saddOverflow totals.current
          ((counted files entries).map (·.current))) := by
  induction entries generalizing totals with
  | nil => rfl
  | cons e entries ih =>
      rw [batteryLoopOverflows, counted, List.filterMap_cons]
      cases entryReadings files e with
      | none => exact ih totals
      | some r =>
          simp only [ih, List.map_cons, runOverflows, counted, BatteryReadings.add]
          ac_rfl

/-- Each of the three totals is a sum of its own. -/
theorem foldl_add_field (field : BatteryReadings → BitVec 32)
    (hadd : ∀ l r : BatteryReadings, field (l.add r) = field l + field r)
    (rs : List BatteryReadings) (totals : BatteryReadings) :
    field (rs.foldl .add totals) = (rs.map field).foldl (· + ·) (field totals) := by
  induction rs generalizing totals with
  | nil => rfl
  | cons r rs ih => rw [List.foldl_cons, ih, hadd, List.map_cons, List.foldl_cons]

/-! ## Exact totals -/

/-- What the loop hands on are the integer sums of these readings, and nothing overflows on
the way to them. -/
structure SumsExact (files : Files) (entries : List DirEntry) (rs : List BatteryReadings) :
    Prop where
  noOverflow : batteryLoopOverflows files entries ⟨0#32, 0#32, 0#32⟩ = false
  totals : ∃ totals, batteryLoop files entries ⟨0#32, 0#32, 0#32⟩ = some totals ∧
    totals.full.toInt = signedSum (rs.map (·.full)) ∧
    totals.now.toInt = signedSum (rs.map (·.now)) ∧
    totals.current.toInt = signedSum (rs.map (·.current))

/-- The sum of one of the readings is taken without an overflow, and is exact. -/
def RunExact (xs : List (BitVec 32)) : Prop :=
  runOverflows BitVec.saddOverflow 0#32 xs = false ∧
    (xs.foldl (· + ·) 0#32).toInt = signedSum xs

theorem sumsExact_iff_runs {files : Files} {entries : List DirEntry} {rs : List BatteryReadings}
    (hnamed : AllNamed entries) (hbatteries : Batteries files entries rs) :
    SumsExact files entries rs ↔ RunExact (rs.map (·.full)) ∧ RunExact (rs.map (·.now)) ∧
      RunExact (rs.map (·.current)) := by
  have hcounted := batteries_iff.mp hbatteries
  have hover := batteryLoopOverflows_eq files entries ⟨0#32, 0#32, 0#32⟩
  have hloop := batteryLoop_eq files hnamed ⟨0#32, 0#32, 0#32⟩
  rw [← hcounted] at hover hloop
  have hfull := foldl_add_field (·.full) (fun _ _ => rfl) rs ⟨0#32, 0#32, 0#32⟩
  have hnow := foldl_add_field (·.now) (fun _ _ => rfl) rs ⟨0#32, 0#32, 0#32⟩
  have hcurrent := foldl_add_field (·.current) (fun _ _ => rfl) rs ⟨0#32, 0#32, 0#32⟩
  simp only at hover hfull hnow hcurrent
  rw [RunExact, RunExact, RunExact, ← hfull, ← hnow, ← hcurrent]
  constructor
  · intro h
    have hnone := h.noOverflow
    rw [hover, Bool.or_eq_false_iff, Bool.or_eq_false_iff] at hnone
    obtain ⟨totals, htotals, hsums⟩ := h.totals
    rw [hloop, Option.some.injEq] at htotals
    subst htotals
    exact ⟨⟨hnone.1.1, hsums.1⟩, ⟨hnone.1.2, hsums.2.1⟩, hnone.2, hsums.2.2⟩
  · intro h
    constructor
    · rw [hover, h.1.1, h.2.1.1, h.2.2.1]
      rfl
    · exact ⟨_, hloop, h.1.2, h.2.1.2, h.2.2.2⟩

theorem runExact_iff {rs : List BatteryReadings} {field : BatteryReadings → BitVec 32}
    (hnonneg : ∀ r ∈ rs, 0 ≤ (field r).toInt) :
    RunExact (rs.map field) ↔ signedSum (rs.map field) < 2 ^ 31 := by
  apply signed_exact_iff
  intro x hx
  obtain ⟨r, hr, rfl⟩ := List.mem_map.mp hx
  exact hnonneg r hr

theorem batteryLoop_named {files : Files} {entries : List DirEntry}
    {totals result : BatteryReadings} (h : batteryLoop files entries totals = some result) :
    AllNamed entries := by
  induction entries generalizing totals with
  | nil =>
      intro e he
      cases he
  | cons e entries ih =>
      cases hpath : entryPath e with
      | none =>
          rw [batteryLoop, hpath] at h
          cases h
      | some s =>
          simp only [batteryLoop, hpath, bind, Option.bind_some] at h
          have hrest : AllNamed entries := by
            split at h
            · exact ih h
            · exact ih h
          intro e' he'
          rcases List.mem_cons.mp he' with rfl | he'
          · exact ⟨s.toList, entryPath_eq_some_iff.mp hpath⟩
          · exact hrest e' he'

/-- Three sums of 32 bits are exact exactly when each of them is below the largest and no
entry is a panic. -/
theorem sumsExact_iff {files : Files} {entries : List DirEntry} {rs : List BatteryReadings}
    (hbatteries : Batteries files entries rs)
    (hnonneg : ∀ r ∈ rs, 0 ≤ r.full.toInt ∧ 0 ≤ r.now.toInt ∧ 0 ≤ r.current.toInt) :
    SumsExact files entries rs ↔ AllNamed entries ∧ signedSum (rs.map (·.full)) < 2 ^ 31 ∧
      signedSum (rs.map (·.now)) < 2 ^ 31 ∧ signedSum (rs.map (·.current)) < 2 ^ 31 := by
  rw [← runExact_iff fun r hr => (hnonneg r hr).1, ← runExact_iff fun r hr => (hnonneg r hr).2.1,
    ← runExact_iff fun r hr => (hnonneg r hr).2.2]
  constructor
  · intro h
    obtain ⟨totals, hloop, _⟩ := h.totals
    have hnamed := batteryLoop_named hloop
    exact ⟨hnamed, (sumsExact_iff_runs hnamed hbatteries).mp h⟩
  · intro h
    exact (sumsExact_iff_runs h.1 hbatteries).mpr h.2

def energyBattery (s full now power : String) : List (String × String) :=
  [(s ++ "/type", "Battery\n"), (s ++ "/energy_full", full), (s ++ "/energy_now", now),
    (s ++ "/power_now", power)]

/-- Two batteries that count, a third one that does not say its current, and a mains supply. -/
def threeBatteries : Files := filesOf
  (energyBattery "BAT0" "50\n" "40\n" "+7\n" ++
    [("BAT1/type", "Battery"), ("BAT1/charge_full", "30\n"), ("BAT1/energy_now", "?\n"),
      ("BAT1/charge_now", "010\n"), ("BAT1/current_now", "5\n\n"), ("BAT2/type", "Battery\n"),
      ("BAT2/energy_full", "90\n"), ("BAT2/energy_now", "90\n"), ("AC/type", "Mains\n")])

theorem sumsExact_iff_three :
    SumsExact threeBatteries (listed ["BAT0", "AC", "BAT1", "BAT2"])
      [⟨50#32, 40#32, 7#32⟩, ⟨30#32, 10#32, 5#32⟩] :=
  (sumsExact_iff (batteries_iff.mpr (by decide)) (by decide)).mpr
    ⟨allNamed_listed _, by decide⟩

/-- Two batteries of two kilowatt hours are too much for 32 bits of microwatt hours. -/
theorem sumsExact_two_large : ¬ ∀ (files : Files) (paths : List String)
    (rs : List BatteryReadings), Batteries files (listed paths) rs →
    (∀ r ∈ rs, 0 ≤ r.full.toInt ∧ 0 ≤ r.now.toInt ∧ 0 ≤ r.current.toInt) →
    SumsExact files (listed paths) rs := by
  intro h
  let files := filesOf (energyBattery "BAT0" "2000000000\n" "1000000000\n" "0\n" ++
    energyBattery "BAT1" "2000000000\n" "1000000000\n" "0\n")
  have hbatteries : Batteries files (listed ["BAT0", "BAT1"])
      [⟨2000000000#32, 1000000000#32, 0#32⟩, ⟨2000000000#32, 1000000000#32, 0#32⟩] :=
    batteries_iff.mpr (by decide)
  have hover := (h files _ _ hbatteries (by decide)).noOverflow
  revert hover
  decide

/-! ## The published capacity -/

/-- What is published of exact totals is the share of the sums, unless a mains supply is a
panic. -/
theorem batteryLife_capacity {sys : Sysfs} {entries : List DirEntry} {rs : List BatteryReadings}
    (hdir : sys.readDir powerSupplyDir = .ok entries) (hexact : SumsExact sys.files entries rs)
    (hfull : signedSum (rs.map (·.full)) ≠ 0) {onAc : IoResult Bool}
    (hmains : onAcPower sys = some onAc) :
    ∃ b, batteryLife sys = some (.ok b) ∧ b.remainingCapacity =
      (signedSum (rs.map (·.now)) : ℚ) / (signedSum (rs.map (·.full)) : ℚ) := by
  obtain ⟨totals, hloop, hfullSum, hnowSum, _⟩ := hexact.totals
  have hne : totals.full ≠ 0#32 := by
    apply ne_zero_of_toInt_ne
    rw [hfullSum]
    exact hfull
  simp only [batteryLife, hdir, hloop, bind, Option.bind, if_pos hne, hmains, batteryOfTotals]
  refine ⟨_, rfl, ?_⟩
  rw [capacity, hnowSum, hfullSum]

end Systemstat.Linux
