import Systemstat.Bsd.Memory
import Systemstat.Collections.FirstError

/-! # CPU load on FreeBSD and OpenBSD

FreeBSD reads the counters of all CPUs with one call into a buffer whose size was asked
for once. OpenBSD asks for the number of CPUs and then reads them one by one, and a CPU
that cannot be read fails the whole.
-/

namespace Systemstat.Bsd

variable {w : Nat}

structure SysctlCpu (w : Nat) where
  user : BitVec w
  nice : BitVec w
  system : BitVec w
  interrupt : BitVec w
  idle : BitVec w

def SysctlCpu.into (cpu : SysctlCpu w) : CpuTime w where
  user := cpu.user
  nice := cpu.nice
  system := cpu.system
  interrupt := cpu.interrupt
  idle := cpu.idle
  other := 0

/-- The closures of `cpu_load`; their `zip` has the two readings the other way round than
that of Linux. There is no `iowait` in a load here, and none is counted. -/
def loadsOf (loads now : List (CpuTime w)) : List CPULoad :=
  List.zipWith (fun prev now => (now.sub prev).toCpuload) loads now

end Systemstat.Bsd

/-! ## FreeBSD -/

namespace Systemstat.FreeBsd

open Bsd

variable {w : Nat} {σ : Type}

/-- `mem::size_of::<bsd::sysctl_cpu>()`. -/
def sizeOfSysctlCpu (w : Nat) : Nat := 5 * (w / 8)

/-- What `kern.cp_times` leaves in a buffer of so many records. -/
abbrev CpTimes (w : Nat) := (cpus : Nat) → Option (Vector (SysctlCpu w) cpus)

/-- `measure_cpu`, where `none` is the panic of `data[0]`. -/
def measureCpu (cpTimesSize : Nat) (kernCpTimes : CpTimes w) :
    IoResult (Option (List (CpuTime w))) := do
  let cpus := cpTimesSize / sizeOfSysctlCpu w
  if cpus = 0 then return none
  else
    let data ← sysctl (kernCpTimes cpus)
    return some (data.toList.map SysctlCpu.into)

/-- The measurement and what it returns are `none` after a panic. -/
def cpuLoad (cpTimesSize : Nat) (kernCpTimes : σ → CpTimes w) (sys : σ) :
    IoResult (Option (DelayedMeasurement σ (Option (List CPULoad)))) := do
  match ← measureCpu cpTimesSize (kernCpTimes sys) with
  | none => return none
  | some loads =>
      return some ⟨fun later => do
        match ← measureCpu cpTimesSize (kernCpTimes later) with
        | none => return none
        | some now => return some (loadsOf loads now)⟩

theorem measureCpu_of_some {cpTimesSize : Nat} {kernCpTimes : CpTimes w}
    {data : Vector (SysctlCpu w) (cpTimesSize / sizeOfSysctlCpu w)}
    (hpos : cpTimesSize / sizeOfSysctlCpu w ≠ 0) (h : kernCpTimes _ = some data) :
    measureCpu cpTimesSize kernCpTimes = .ok (some (data.toList.map SysctlCpu.into)) := by
  simp only [measureCpu, if_neg hpos, h]
  rfl

end Systemstat.FreeBsd

/-! ## OpenBSD -/

namespace Systemstat.OpenBsd

open Bsd Collections

variable {w : Nat} {σ : Type}

/-- `sysctl_cpu`, with the time a CPU has spent spinning. -/
structure SysctlCpu (w : Nat) where
  user : BitVec w
  nice : BitVec w
  system : BitVec w
  spin : BitVec w
  interrupt : BitVec w
  idle : BitVec w

def SysctlCpu.into (cpu : SysctlCpu w) : CpuTime w where
  user := cpu.user
  nice := cpu.nice
  system := cpu.system
  interrupt := cpu.interrupt
  idle := cpu.idle
  other := 0

/-- The answers of the kernel: `hw.ncpu`, and `kern.cptime2` for the number of a CPU. -/
structure CpuSysctls (w : Nat) where
  hwNcpu : Option (BitVec w)
  kernCptime2 : BitVec 32 → Option (SysctlCpu w)

def measureCpu (kern : CpuSysctls w) : IoResult (List (CpuTime w)) := do
  let cpus ← sysctl kern.hwNcpu
  let data ← pushAll (fun i => sysctl (kern.kernCptime2 (.ofNat 32 i))) (List.range cpus.toNat) []
  return data.map SysctlCpu.into

def cpuLoad (kern : σ → CpuSysctls w) (sys : σ) :
    IoResult (DelayedMeasurement σ (List CPULoad)) := do
  let loads ← measureCpu (kern sys)
  return ⟨fun later => do
    let now ← measureCpu (kern later)
    return loadsOf loads now⟩

/-- The times of every CPU, in the order of their numbers, or the error of the first call
that fails, however the CPUs behind it fare. -/
theorem measureCpu_eq_ok_iff {kern : CpuSysctls w} {times : List (CpuTime w)} :
    measureCpu kern = .ok times ↔ ∃ cpus data, kern.hwNcpu = some cpus ∧
      List.Forall₂ (fun i cpu => kern.kernCptime2 (.ofNat 32 i) = some cpu)
        (List.range cpus.toNat) data ∧ times = data.map SysctlCpu.into := by
  have hsysctl : ∀ {α : Type} {r : Option α} {a : α}, sysctl r = .ok a ↔ r = some a := by
    intro α r a
    cases r with
    | none => exact iff_of_false (fun h => by cases h) (fun h => by cases h)
    | some b => simp [sysctl]
  constructor
  · intro h
    obtain ⟨cpus, hcpus, h⟩ := exists_of_bind_eq_ok h
    obtain ⟨data, hdata, h⟩ := exists_of_bind_eq_ok h
    cases h
    obtain ⟨bs, rfl, hbs⟩ := pushAll_eq_ok_iff.mp hdata
    refine ⟨cpus, _, hsysctl.mp hcpus, ?_, rfl⟩
    exact hbs.imp fun _ _ hcpu => hsysctl.mp hcpu
  · rintro ⟨cpus, data, hcpus, hdata, rfl⟩
    have hpush : pushAll (fun i => sysctl (kern.kernCptime2 (.ofNat 32 i)))
        (List.range cpus.toNat) [] = .ok data :=
      pushAll_eq_ok_iff.mpr ⟨data, rfl, hdata.imp fun _ _ hcpu => hsysctl.mpr hcpu⟩
    simp only [measureCpu, hcpus, sysctl, bind, Except.bind] at hpush ⊢
    rw [hpush]
    rfl

end Systemstat.OpenBsd
