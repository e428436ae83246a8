import Systemstat.Linux.BatteryLife

/-! # The order of a directory

`read_dir` promises no order. The loop of `on_ac_power` stops at the first mains
supply that cannot be read, and the loop of `battery_life` passes over a battery
that lacks a reading; what they return is the same for every order of the entries.
Both panic at an entry that cannot be read or named, so with one of these it depends on
the order whether the early return comes first.
-/

namespace Systemstat.Linux

open Nom Text Arith

/-! ## Mains supplies -/

def unreadableMains (files : Files) (e : DirEntry) : Bool :=
  (entryPath e).any fun s =>
    isOfType files s "Mains" && (i32FromFile files (s ++ "/online")).toOption.isNone

def onlineMains (files : Files) (e : DirEntry) : Bool :=
  (entryPath e).any fun s =>
    isOfType files s "Mains" && (i32FromFile files (s ++ "/online")).toOption == some 1#32

/-- The early return takes the value away and nothing else: where every mains supply
can be read, the loop is the disjunction over all of them. -/
theorem onAcLoop_toOption (files : Files) {entries : List DirEntry} (h : AllNamed entries)
    (onAc : Bool) : ∃ r, onAcLoop files entries onAc = some r ∧
      r.toOption = if entries.any (unreadableMains files) then none
        else some (onAc || entries.any (onlineMains files)) := by
  induction entries generalizing onAc with
  | nil => exact ⟨.ok onAc, rfl, by simp [Except.toOption]⟩
  | cons e entries ih =>
      obtain ⟨name, hname⟩ := h e (by simp)
      have hpath := exists_entryPath hname
      have hrest : AllNamed entries := fun e he => h e (by simp [he])
      generalize String.ofList name = s at hpath
      simp only [onAcLoop, List.any_cons, unreadableMains, onlineMains, hpath, Option.any_some,
        bind, Option.bind_some]
      cases htype : isOfType files s "Mains" with
      | false =>
          rw [if_neg (by decide)]
          simp only [Bool.false_and, Bool.false_or]
          exact ih hrest onAc
      | true =>
          rw [if_pos rfl]
          cases honline : i32FromFile files (s ++ "/online") with
          | error e =>
              refine ⟨.error e, rfl, ?_⟩
              simp [Except.toOption]
          | ok v =>
              obtain ⟨r, hr, hvalue⟩ := ih hrest (onAc || v == 1#32)
              refine ⟨r, hr, ?_⟩
              rw [hvalue, Bool.or_assoc]
              simp [Except.toOption]

theorem onAcPower_toOption {sys : Sysfs} {entries : List DirEntry} (h : AllNamed entries)
    (hdir : sys.readDir powerSupplyDir = .ok entries) :
    ∃ r, onAcPower sys = some r ∧
      r.toOption = if entries.any (unreadableMains sys.files) then none
        else some (entries.any (onlineMains sys.files)) := by
  obtain ⟨r, hr, hvalue⟩ := onAcLoop_toOption sys.files h false
  rw [Bool.false_or] at hvalue
  refine ⟨r, ?_, hvalue⟩
  rw [onAcPower, hdir]
  exact hr

/-- A mains supply whose `online` file holds no number. -/
def HasUnreadableMains (files : Files) (entries : List DirEntry) : Prop :=
  ∃ s : String, .ok (utf8 s.toList) ∈ entries ∧ HasType files s "Mains" ∧
    ∀ x : BitVec 32, ¬ FileWritesInt files (s ++ "/online") x.toInt

theorem any_unreadableMains_iff {files : Files} {entries : List DirEntry} :
    entries.any (unreadableMains files) = true ↔ HasUnreadableMains files entries := by
  have hmains : ∀ s, isOfType files s "Mains" = true ↔ HasType files s "Mains" :=
    fun _ => isOfType_iff (by decide)
  have hentry : ∀ e, unreadableMains files e = true ↔ ∃ s : String, e = .ok (utf8 s.toList) ∧
      HasType files s "Mains" ∧
        ∀ x : BitVec 32, ¬ FileWritesInt files (s ++ "/online") x.toInt := by
    intro e
    simp only [unreadableMains, Option.any_eq_true, entryPath_eq_some_iff, Bool.and_eq_true,
      Option.isNone_iff_eq_none, toOption_eq_none_iff, i32FromFile_error_iff, hmains]
  simp only [List.any_eq_true, hentry, HasUnreadableMains]
  constructor
  · rintro ⟨e, hmem, s, rfl, hunreadable⟩
    exact ⟨s, hmem, hunreadable⟩
  · rintro ⟨s, hmem, hunreadable⟩
    exact ⟨_, hmem, s, rfl, hunreadable⟩

/-! ## Batteries -/

/-- It is as if the entry were not there. -/
theorem batteryLoop_of_lacks {files : Files} {e : DirEntry} {pre post : List DirEntry}
    (hnamed : AllNamed (pre ++ e :: post))
    (h : ∀ s r, e = .ok (utf8 (String.toList s)) → ¬ Available files s r)
    (totals : BatteryReadings) :
    batteryLoop files (pre ++ e :: post) totals = batteryLoop files (pre ++ post) totals := by
  have hnone : entryReadings files e = none := by
    rw [Option.eq_none_iff_forall_ne_some]
    intro r hr
    obtain ⟨s, hs, havailable⟩ := entryReadings_eq_some_iff.mp hr
    exact h s r hs havailable
  have hcounted : counted files (pre ++ e :: post) = counted files (pre ++ post) := by
    simp only [counted, List.filterMap_append, List.filterMap_cons_none hnone]
  have hrest : AllNamed (pre ++ post) := by
    intro e' he'
    refine hnamed e' ?_
    rw [List.mem_append] at he' ⊢
    exact he'.imp_right (List.mem_cons_of_mem e)
  rw [batteryLoop_eq files hnamed, batteryLoop_eq files hrest, hcounted]

theorem BatteryReadings.add_right_comm (l r s : BatteryReadings) :
    (l.add r).add s = (l.add s).add r := by
  simp only [BatteryReadings.add, BitVec.add_assoc, BitVec.add_comm r.full,
    BitVec.add_comm r.now, BitVec.add_comm r.current]

theorem counted_perm (files : Files) {entries entries' : List DirEntry}
    (hperm : entries.Perm entries') : (counted files entries).Perm (counted files entries') :=
  hperm.filterMap _

theorem AllNamed.perm {entries entries' : List DirEntry} (h : AllNamed entries)
    (hperm : entries'.Perm entries) : AllNamed entries' :=
  fun e he => h e (hperm.subset he)

theorem batteryLoop_perm (files : Files) {entries entries' : List DirEntry}
    (hnamed : AllNamed entries) (hperm : entries.Perm entries') (totals : BatteryReadings) :
    batteryLoop files entries totals = batteryLoop files entries' totals := by
  rw [batteryLoop_eq files hnamed, batteryLoop_eq files (hnamed.perm hperm.symm),
    (counted_perm files hperm).foldl_eq'
      (fun r _ s _ totals => BatteryReadings.add_right_comm totals r s) totals]

/-- The absolute values of each of the three readings sum to less than the largest word. -/
structure AbsSumsFit (rs : List BatteryReadings) : Prop where
  full : absSum (rs.map (·.full)) < 2 ^ 31
  now : absSum (rs.map (·.now)) < 2 ^ 31
  current : absSum (rs.map (·.current)) < 2 ^ 31

theorem AbsSumsFit.perm {rs rs' : List BatteryReadings} (h : AbsSumsFit rs)
    (hperm : rs.Perm rs') : AbsSumsFit rs' := by
  have hsum : ∀ field : BatteryReadings → BitVec 32,
      absSum (rs'.map field) = absSum (rs.map field) :=
    fun field => (absSum_perm (hperm.map field)).symm
  constructor
  · rw [hsum]
    exact h.full
  · rw [hsum]
    exact h.now
  · rw [hsum]
    exact h.current

theorem runExact_of_absSum_lt {xs : List (BitVec 32)} (h : absSum xs < 2 ^ 31) : RunExact xs := by
  have hzero : (0#32).toInt = 0 := BitVec.toInt_zero
  have hover : runOverflows BitVec.saddOverflow 0#32 xs = false := by
    apply runOverflows_of_absSum_lt
    rw [hzero, Int.natAbs_zero, Nat.zero_add]
    exact h
  have hsum := toInt_foldl_add hover
  rw [hzero, Int.zero_add] at hsum
  exact ⟨hover, hsum⟩

theorem AbsSumsFit.sumsExact {files : Files} {entries : List DirEntry}
    {rs : List BatteryReadings} (h : AbsSumsFit rs) (hnamed : AllNamed entries)
    (hbatteries : Batteries files entries rs) : SumsExact files entries rs :=
  (sumsExact_iff_runs hnamed hbatteries).mpr ⟨runExact_of_absSum_lt h.full,
    runExact_of_absSum_lt h.now, runExact_of_absSum_lt h.current⟩

/-! ## Any order -/

/-- Two listings of one directory give the same answers: whether there is mains power,
with an error exactly where a mains supply cannot be read, and the totals over the
batteries, which are the exact sums as long as the readings fit. -/
structure SameInEitherOrder (sys sys' : Sysfs) (entries entries' : List DirEntry) : Prop where
  onAc : (∃ onAc, onAcPower sys = some (.ok onAc) ∧ onAcPower sys' = some (.ok onAc)) ∨
    ∃ e e', onAcPower sys = some (.error e) ∧ onAcPower sys' = some (.error e')
  onAcError : (∃ e, onAcPower sys = some (.error e)) ↔ HasUnreadableMains sys.files entries
  totals : ∀ rs, Batteries sys.files entries rs → AbsSumsFit rs →
    SumsExact sys.files entries rs ∧ SumsExact sys'.files entries' rs ∧
      batteryLoop sys.files entries ⟨0#32, 0#32, 0#32⟩ =
        batteryLoop sys'.files entries' ⟨0#32, 0#32, 0#32⟩
  lacking : ∀ pre e post, entries = pre ++ e :: post →
    (∀ s r, e = .ok (utf8 (String.toList s)) → ¬ Available sys.files s r) →
    batteryLoop sys.files entries ⟨0#32, 0#32, 0#32⟩ =
      batteryLoop sys.files (pre ++ post) ⟨0#32, 0#32, 0#32⟩

/-- The directory is there, and `read_dir` lists it in this order. -/
structure Sysfs.Lists (sys : Sysfs) (files : Files) (entries : List DirEntry) : Prop where
  files : sys.files = files
  readDir : sys.readDir powerSupplyDir = .ok entries

def OrderFree (files : Files) (entries : List DirEntry) : Prop :=
  ∀ sys sys' : Sysfs, ∀ l l', sys.Lists files l → sys'.Lists files l' →
    l.Perm entries → l'.Perm entries → SameInEitherOrder sys sys' l l'

variable {files : Files}

theorem onAcPower_same {sys sys' : Sysfs} {l l' : List DirEntry} (hnamed : AllNamed l)
    (hlists : sys.Lists files l) (hlists' : sys'.Lists files l') (hperm : l.Perm l') :
    (∃ onAc, onAcPower sys = some (.ok onAc) ∧ onAcPower sys' = some (.ok onAc)) ∨
      ∃ e e', onAcPower sys = some (.error e) ∧ onAcPower sys' = some (.error e') := by
  obtain ⟨r, hr, hvalue⟩ := onAcPower_toOption hnamed hlists.readDir
  obtain ⟨r', hr', hvalue'⟩ := onAcPower_toOption (hnamed.perm hperm.symm) hlists'.readDir
  rw [hlists'.files, ← hperm.any_eq, ← hperm.any_eq, ← hlists.files, ← hvalue] at hvalue'
  rw [hr, hr']
  cases r with
  | ok onAc =>
      rw [toOption_eq_some_iff.mp hvalue']
      exact .inl ⟨onAc, rfl, rfl⟩
  | error e =>
      obtain ⟨e', he'⟩ := toOption_eq_none_iff.mp hvalue'
      rw [he']
      exact .inr ⟨e, e', rfl, rfl⟩

theorem onAcPower_error_iff {sys : Sysfs} {l : List DirEntry} (hnamed : AllNamed l)
    (hdir : sys.readDir powerSupplyDir = .ok l) :
    (∃ e, onAcPower sys = some (.error e)) ↔ HasUnreadableMains sys.files l := by
  obtain ⟨r, hr, hvalue⟩ := onAcPower_toOption hnamed hdir
  have hnone : (∃ e, onAcPower sys = some (.error e)) ↔ r.toOption = none := by
    simp only [hr, Option.some.injEq, toOption_eq_none_iff]
  rw [hnone, hvalue, ← any_unreadableMains_iff]
  simp

theorem sameInEitherOrder_of_allNamed {sys sys' : Sysfs} {l l' : List DirEntry}
    (hnamed : AllNamed l) (hlists : sys.Lists files l) (hlists' : sys'.Lists files l')
    (hperm : l.Perm l') : SameInEitherOrder sys sys' l l' := by
  constructor
  · exact onAcPower_same hnamed hlists hlists' hperm
  · exact onAcPower_error_iff hnamed hlists.readDir
  · intro rs hrs hfit
    rw [hlists.files] at hrs
    rw [hlists.files, hlists'.files]
    have hsums := hfit.sumsExact hnamed hrs
    have hloop := batteryLoop_perm files hnamed hperm ⟨0#32, 0#32, 0#32⟩
    have hfit' : AbsSumsFit (counted files l') :=
      AbsSumsFit.perm (batteries_iff.mp hrs ▸ hfit) (counted_perm files hperm)
    have hsums' := hfit'.sumsExact (hnamed.perm hperm.symm) (batteries_iff.mpr rfl)
    exact ⟨hsums, ⟨hsums'.noOverflow, hloop ▸ hsums.totals⟩, hloop⟩
  · rintro pre e post rfl hlacks
    exact batteryLoop_of_lacks hnamed hlacks _

/-- An entry that cannot be read or named is a panic where it comes first. -/
theorem onAcPower_of_unnamed {sys : Sysfs} {e : DirEntry} {entries : List DirEntry}
    (he : entryPath e = none) (hdir : sys.readDir powerSupplyDir = .ok (e :: entries)) :
    onAcPower sys = none := by
  rw [onAcPower, hdir]
  simp only [onAcLoop, he, bind, Option.bind_none]

/-- The order is of no consequence exactly when every entry can be read and named. -/
theorem orderFree_iff (files : Files) (entries : List DirEntry) :
    OrderFree files entries ↔ AllNamed entries := by
  constructor
  · intro h e he
    cases hpath : entryPath e with
    | some s => exact ⟨s.toList, entryPath_eq_some_iff.mp hpath⟩
    | none =>
        have hperm : (e :: entries.erase e).Perm entries := (List.perm_cons_erase he).symm
        have hlists : Sysfs.Lists ⟨files, fun _ => .ok (e :: entries.erase e)⟩ files
            (e :: entries.erase e) := ⟨rfl, rfl⟩
        have hpanic := onAcPower_of_unnamed hpath hlists.readDir
        obtain ⟨onAc, hok, _⟩ | ⟨_, _, herror, _⟩ := (h _ _ _ _ hlists hlists hperm hperm).onAc
        · rw [hpanic] at hok
          cases hok
        · rw [hpanic] at herror
          cases herror
  · intro hnamed sys sys' l l' hlists hlists' hl hl'
    exact sameInEitherOrder_of_allNamed (hnamed.perm hl) hlists hlists' (hl.trans hl'.symm)

/-- A mains supply that does not say whether it is online, and a name that is not UTF-8. -/
def unnamedBehindMains : List DirEntry := [.ok (utf8 "AC".toList), .ok [0xff]]

def silentMains : Files := filesOf [("AC/type", "Mains\n")]

/-- The one order is an error, and the other a panic. -/
theorem orderFree_unnamed : ¬ OrderFree silentMains unnamedBehindMains := by
  intro h
  let sys : Sysfs := ⟨silentMains, fun _ => .ok unnamedBehindMains⟩
  let sys' : Sysfs := ⟨silentMains, fun _ => .ok unnamedBehindMains.reverse⟩
  have herror : onAcPower sys = some (.error (.os 2)) := by decide
  have hpanic : onAcPower sys' = none := by decide
  have hsame := h sys sys' _ _ ⟨rfl, rfl⟩ ⟨rfl, rfl⟩ (.refl _) (List.reverse_perm _)
  obtain ⟨onAc, hok, _⟩ | ⟨_, _, _, herror'⟩ := hsame.onAc
  · rw [herror] at hok
    cases hok
  · rw [hpanic] at herror'
    cases herror'

/-- What is published depends on the order no more than the loops do. -/
theorem batteryLife_perm {sys sys' : Sysfs} {l l' : List DirEntry} (hnamed : AllNamed l)
    (hlists : sys.Lists files l) (hlists' : sys'.Lists files l') (hperm : l.Perm l') :
    batteryLife sys = batteryLife sys' := by
  have hloop := batteryLoop_perm files hnamed hperm ⟨0#32, 0#32, 0#32⟩
  rw [batteryLife, batteryLife, hlists.readDir, hlists'.readDir]
  simp only [hlists.files, hlists'.files, hloop]
  obtain ⟨onAc, hsys, hsys'⟩ | ⟨e, e', hsys, hsys'⟩ := onAcPower_same hnamed hlists hlists' hperm
  · rw [hsys, hsys']
  · rw [hsys, hsys']
    cases batteryLoop files l' ⟨0#32, 0#32, 0#32⟩ with
    | none => rfl
    | some totals =>
        simp only [bind, Option.bind_some]
        split
        · rfl
        · rfl

end Systemstat.Linux
