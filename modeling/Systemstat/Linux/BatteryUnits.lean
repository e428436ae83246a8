import Systemstat.Linux.BatteryLife

/-! # Units of the battery readings

The kernel gives the state of a battery as energy or as charge, and the three readings
fall back from one to the other on their own. They are of one family exactly when the
energy files of all batteries that count can be read, or none of them can.
-/

namespace Systemstat.Linux

inductive UnitFamily
  | energy
  | charge
  deriving DecidableEq, Repr

/-! ## Readings with their families -/

structure Traced where
  family : UnitFamily
  value : BitVec 32

/-- `reading`, with the family of the file that the value is from. -/
def tracedReading (files : Files) (energyFile chargeFile : String) : IoResult Traced :=
  match i32FromFile files energyFile with
  | .ok value => .ok ⟨.energy, value⟩
  | .error _ => (i32FromFile files chargeFile).map (Traced.mk .charge)

theorem tracedReading_value (files : Files) (energyFile chargeFile : String) :
    (tracedReading files energyFile chargeFile).map Traced.value =
      reading files energyFile chargeFile := by
  unfold tracedReading reading
  cases i32FromFile files energyFile with
  | ok value => rfl
  | error e =>
      cases i32FromFile files chargeFile with
      | ok value => rfl
      | error e => rfl

structure TracedReadings where
  full : Traced
  now : Traced
  current : Traced

namespace TracedReadings

def values (r : TracedReadings) : BatteryReadings := ⟨r.full.value, r.now.value, r.current.value⟩

def families (r : TracedReadings) : List UnitFamily :=
  [r.full.family, r.now.family, r.current.family]

end TracedReadings

def tracedReadings (files : Files) (s : String) : Option TracedReadings :=
  if isOfType files s "Battery" then
    ifAllOk .mk (tracedReading files (s ++ "/energy_full") (s ++ "/charge_full"))
      (tracedReading files (s ++ "/energy_now") (s ++ "/charge_now"))
      (tracedReading files (s ++ "/power_now") (s ++ "/current_now"))
  else none

theorem ifAllOk_map (f n c : IoResult Traced) :
    (ifAllOk TracedReadings.mk f n c).map TracedReadings.values =
      ifAllOk BatteryReadings.mk (f.map Traced.value) (n.map Traced.value)
        (c.map Traced.value) := by
  cases f with
  | error e => rfl
  | ok f =>
      cases n with
      | error e => rfl
      | ok n =>
          cases c with
          | error e => rfl
          | ok c => rfl

theorem tracedReadings_values (files : Files) (s : String) :
    (tracedReadings files s).map TracedReadings.values = batteryReadings files s := by
  unfold tracedReadings batteryReadings
  split
  · simp only [ifAllOk_map, tracedReading_value]
  · rfl

def added (files : Files) (entries : List String) : List TracedReadings :=
  entries.filterMap (tracedReadings files)

theorem batteryLoop_added (files : Files) (entries : List String) (totals : BatteryReadings) :
    batteryLoop files (listed entries) totals =
      some (((added files entries).map TracedReadings.values).foldl .add totals) := by
  have hcounted : counted files (listed entries) = entries.filterMap (batteryReadings files) := by
    simp only [counted, listed, List.filterMap_map, Function.comp_def, entryReadings,
      entryPath_named, Option.bind_some]
  rw [batteryLoop_eq files (allNamed_listed entries), hcounted, added, List.map_filterMap]
  simp only [tracedReadings_values]

/-- What is added for one battery is of one family, and so is what is added up in each
of the totals. -/
structure UnitsKept (files : Files) (entries : List String) : Prop where
  battery : ∀ r ∈ added files entries,
    r.full.family = r.now.family ∧ r.now.family = r.current.family
  totals : ∀ r ∈ added files entries, ∀ r' ∈ added files entries,
    r.full.family = r'.full.family ∧ r.now.family = r'.now.family ∧
      r.current.family = r'.current.family

theorem unitsKept_iff_family (files : Files) (entries : List String) : UnitsKept files entries ↔
    ∃ family, ∀ r ∈ added files entries, ∀ f ∈ r.families, f = family := by
  constructor
  · intro h
    cases hadded : added files entries with
    | nil => exact ⟨.energy, fun r hr => by cases hr⟩
    | cons first rest =>
        have hfirst : first ∈ added files entries := by simp [hadded]
        refine ⟨first.full.family, fun r hr f hf => ?_⟩
        rw [← hadded] at hr
        have hbattery := h.battery r hr
        have htotal := (h.totals r hr first hfirst).1
        simp only [TracedReadings.families, List.mem_cons, List.not_mem_nil, or_false] at hf
        rcases hf with rfl | rfl | rfl
        · exact htotal
        · rw [← hbattery.1, htotal]
        · rw [← hbattery.2, ← hbattery.1, htotal]
  · intro h
    obtain ⟨family, hfamily⟩ := h
    have hall : ∀ r ∈ added files entries,
        r.full.family = family ∧ r.now.family = family ∧ r.current.family = family := by
      intro r hr
      simpa [TracedReadings.families] using hfamily r hr
    constructor
    · intro r hr
      obtain ⟨hf, hn, hc⟩ := hall r hr
      exact ⟨hf.trans hn.symm, hn.trans hc.symm⟩
    · intro r hr r' hr'
      obtain ⟨hf, hn, hc⟩ := hall r hr
      obtain ⟨hf', hn', hc'⟩ := hall r' hr'
      exact ⟨hf.trans hf'.symm, hn.trans hn'.symm, hc.trans hc'.symm⟩

/-! ## The files that can be read -/

def readableInt (files : Files) (path : String) : Bool := (i32FromFile files path).isOk

def familyOf (files : Files) (energyFile : String) : UnitFamily :=
  if readableInt files energyFile then .energy else .charge

theorem tracedReading_ok {files : Files} {energyFile chargeFile : String} {t : Traced}
    (h : tracedReading files energyFile chargeFile = .ok t) :
    t.family = familyOf files energyFile := by
  unfold tracedReading at h
  unfold familyOf readableInt
  cases henergy : i32FromFile files energyFile with
  | ok value =>
      rw [henergy] at h
      cases h
      rfl
  | error e =>
      rw [henergy] at h
      cases hcharge : i32FromFile files chargeFile with
      | ok value =>
          rw [hcharge] at h
          cases h
          rfl
      | error e =>
          rw [hcharge] at h
          cases h

theorem tracedReading_exists_iff (files : Files) (energyFile chargeFile : String) :
    (∃ t, tracedReading files energyFile chargeFile = .ok t) ↔
      readableInt files energyFile = true ∨ readableInt files chargeFile = true := by
  unfold tracedReading readableInt
  cases i32FromFile files energyFile with
  | ok value => exact iff_of_true ⟨_, rfl⟩ (.inl rfl)
  | error e =>
      cases i32FromFile files chargeFile with
      | ok value => exact iff_of_true ⟨_, rfl⟩ (.inr rfl)
      | error e => simp [Except.isOk, Except.toBool, Except.map]

/-- The energy files of the readings, each with the charge file that stands in for it. -/
def readingFiles : List (String × String) :=
  [("/energy_full", "/charge_full"), ("/energy_now", "/charge_now"), ("/power_now", "/current_now")]

/-- A battery of which all three readings are available. -/
def Counts (files : Files) (s : String) : Prop :=
  isOfType files s "Battery" = true ∧ ∀ pair ∈ readingFiles,
    readableInt files (s ++ pair.1) = true ∨ readableInt files (s ++ pair.2) = true

/-- The families of a battery are those of its energy files. -/
theorem tracedReadings_families {files : Files} {s : String} {r : TracedReadings}
    (h : tracedReadings files s = some r) :
    Counts files s ∧ r.families = readingFiles.map fun p => familyOf files (s ++ p.1) := by
  unfold tracedReadings at h
  by_cases htype : isOfType files s "Battery" = true
  · rw [if_pos htype, ifAllOk_eq_some_iff] at h
    obtain ⟨f, n, c, hf, hn, hc, rfl⟩ := h
    constructor
    · simp only [Counts, readingFiles, List.forall_mem_cons, ← tracedReading_exists_iff]
      exact ⟨htype, ⟨f, hf⟩, ⟨n, hn⟩, ⟨c, hc⟩, by simp⟩
    · simp only [TracedReadings.families, readingFiles, List.map_cons, List.map_nil,
        tracedReading_ok hf, tracedReading_ok hn, tracedReading_ok hc]
  · rw [if_neg htype] at h
    cases h

theorem exists_tracedReadings {files : Files} {s : String} (h : Counts files s) :
    ∃ r, tracedReadings files s = some r := by
  simp only [Counts, readingFiles, List.forall_mem_cons, ← tracedReading_exists_iff] at h
  obtain ⟨htype, ⟨f, hf⟩, ⟨n, hn⟩, ⟨c, hc⟩, _⟩ := h
  refine ⟨⟨f, n, c⟩, ?_⟩
  rw [tracedReadings, if_pos htype, ifAllOk_eq_some_iff]
  exact ⟨f, n, c, hf, hn, hc, rfl⟩

theorem familyOf_eq_energy (files : Files) (energyFile : String) :
    familyOf files energyFile = .energy ↔ readableInt files energyFile = true := by
  unfold familyOf
  split <;> simp_all

theorem familyOf_eq_charge (files : Files) (energyFile : String) :
    familyOf files energyFile = .charge ↔ readableInt files energyFile = false := by
  unfold familyOf
  split <;> simp_all

/-- One family for everything added is one for the energy files of all that count. -/
theorem family_added_iff (files : Files) (entries : List String) (family : UnitFamily) :
    (∀ r ∈ added files entries, ∀ f ∈ r.families, f = family) ↔
      ∀ s ∈ entries, Counts files s → ∀ p ∈ readingFiles,
        familyOf files (s ++ p.1) = family := by
  constructor
  · intro h s hs hcounts p hp
    obtain ⟨r, hr⟩ := exists_tracedReadings hcounts
    apply h r (List.mem_filterMap.mpr ⟨s, hs, hr⟩)
    rw [(tracedReadings_families hr).2]
    exact List.mem_map.mpr ⟨p, hp, rfl⟩
  · intro h r hr f hf
    obtain ⟨s, hs, htraced⟩ := List.mem_filterMap.mp hr
    obtain ⟨hcounts, hfamilies⟩ := tracedReadings_families htraced
    rw [hfamilies] at hf
    obtain ⟨p, hp, rfl⟩ := List.mem_map.mp hf
    exact h s hs hcounts p hp

/-- The units are kept exactly when the batteries agree on their energy files. -/
theorem unitsKept_iff (files : Files) (entries : List String) : UnitsKept files entries ↔
    (∀ s ∈ entries, Counts files s → ∀ p ∈ readingFiles, readableInt files (s ++ p.1) = true) ∨
    ∀ s ∈ entries, Counts files s → ∀ p ∈ readingFiles, readableInt files (s ++ p.1) = false := by
  simp only [unitsKept_iff_family, family_added_iff]
  constructor
  · intro h
    obtain ⟨family, hfamily⟩ := h
    cases family with
    | energy =>
        simp only [familyOf_eq_energy] at hfamily
        exact .inl hfamily
    | charge =>
        simp only [familyOf_eq_charge] at hfamily
        exact .inr hfamily
  · intro h
    rcases h with henergy | hcharge
    · simp only [← familyOf_eq_energy] at henergy
      exact ⟨.energy, henergy⟩
    · simp only [← familyOf_eq_charge] at hcharge
      exact ⟨.charge, hcharge⟩

/-- A battery whose charge is given, but whose rate is given as power. -/
theorem unitsKept_mixed_battery :
    ¬ ∀ (files : Files) (entries : List String), UnitsKept files entries := by
  intro h
  let files := filesOf [("BAT0/type", "Battery\n"), ("BAT0/charge_full", "5000000\n"),
    ("BAT0/charge_now", "2500000\n"), ("BAT0/power_now", "10000000\n")]
  have hadded : added files ["BAT0"] =
      [⟨⟨.charge, 5000000#32⟩, ⟨.charge, 2500000#32⟩, ⟨.energy, 10000000#32⟩⟩] := by rfl
  have hkept := (h files ["BAT0"]).battery
  rw [hadded] at hkept
  have hfamily := (hkept _ (List.mem_singleton.mpr rfl)).2
  cases hfamily

end Systemstat.Linux
