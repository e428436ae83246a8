import Systemstat.Linux.CpuSection
import Systemstat.Linux.ProcDiskstats

/-! # Lists that end early

`many0` and `many1` turn the first line that cannot be read into the end of the
list. The device list is complete exactly when every line can be read; the CPU
list when its lines stand together behind another line and can all be read, or
when nothing is returned at all.
-/

namespace Systemstat.Linux

open Nom Text

variable {w : Nat} {s : Str}

/-- Every non-blank line has an entry, and one that cannot be read is an error. -/
def DevicesComplete (w : Nat) (s : Str) : Prop :=
  (∀ rest stats, Yields (procDiskstats w) s rest stats → stats.length = (textItems s).length) ∧
  ((∃ u ∈ textItems s, readable (procDiskstatsEntry w) u = none) →
    (∃ e, procDiskstats w s = .error e) ∧
    ∀ files : Files, readFile files "/proc/diskstats" = .ok s →
      ∃ e, blockDeviceStatistics w files = .error e)

theorem devicesComplete_iff (w : Nat) (s : Str) : DevicesComplete w s ↔
    ∀ u ∈ textItems s, (readable (procDiskstatsEntry w) u).isSome := by
  obtain ⟨rest, hy⟩ := procDiskstats_yields w s
  rw [← collectOk_length_eq_iff]
  constructor
  · intro h
    exact h.1 rest _ hy
  · intro hlength
    refine ⟨fun r stats hy' => ?_, fun hlost => ?_⟩
    · rw [(hy'.unique hy).2, hlength]
    · obtain ⟨u, hu, hnone⟩ := hlost
      have hsome := (collectOk_length_eq_iff _ _).mp hlength u hu
      rw [hnone] at hsome
      cases hsome

/-- Which texts of the two files are read to a complete list, or refused. -/
theorem listsComplete_iff (w : Nat) (disks stat : Str) :
    (DevicesComplete w disks ↔
      ∀ u ∈ textItems disks, (readable (procDiskstatsEntry w) u).isSome) ∧
    (CpusComplete w stat ↔ (Refused w stat ∨ CpuSection w stat)) :=
  ⟨devicesComplete_iff w disks, cpusComplete_iff w stat⟩

/-- A partition whose line has four counters ends the list of devices. -/
theorem listsComplete_short_line :
    ¬ ∀ (w : Nat) (disks stat : Str), DevicesComplete w disks ∧ CpusComplete w stat := by
  intro h
  let text := "8 0 sda 1 2 3 4 5 6 7 8 9 10 11\n8 1 sda1 1 2 3 4\n8 2 sda2 1 2 3 4\n".toList
  have hvalue : (procDiskstats 64 text).value? =
      some [⟨"sda".toList, 1, 2, 3, 4, 5, 6, 7, 8, 9, 10, 11⟩] := by decide
  obtain ⟨rest, hy⟩ := exists_yields_of_value? hvalue
  have hlength := (h 64 text []).1.1 rest _ hy
  revert hlength
  decide

end Systemstat.Linux
