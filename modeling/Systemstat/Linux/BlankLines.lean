import Systemstat.Linux.CpuSection
import Systemstat.Linux.ProcMeminfo
import Systemstat.Linux.ProcDiskstats
import Systemstat.Linux.ProcMounts

/-! # Progress and blank lines

The repetitions of the four procfs parsers end at an item that cannot be read and
never at the guard against endless loops, on any text; and what they return
depends on the items of the text only, so that blank lines are not seen.
-/

namespace Systemstat.Linux

open Nom Text

variable {α : Type} {w : Nat} {s t : Str}

/-! ## The guard -/

theorem avoidsGuard_ws {code : ErrorKind} {p : Parser α} (hp : AvoidsGuard code p) :
    AvoidsGuard code (ws p) :=
  (avoidsGuard_takeWhile0 code isMultispace).bind fun _ => hp.bind fun a =>
    (avoidsGuard_takeWhile0 code isMultispace).bind fun _ => avoidsGuard_pure code a

theorem avoidsGuard_ws_notLineEnding : AvoidsGuard .many1 (ws notLineEnding) :=
  avoidsGuard_ws (avoidsGuard_notLineEnding (by decide))

theorem avoidsGuard_lines {h : Str → Option α} (item : IsLineItem (mapRes (ws notLineEnding) h) h) :
    AvoidsGuard .many1 (many1 (mapRes (ws notLineEnding) h)) := by
  refine (avoidsGuard_ws_notLineEnding.mapRes h (by decide)).many1 fun i => ?_
  obtain ⟨rest, run, _⟩ := item.reads i
  exact ⟨_, rest, run⟩

theorem avoidsGuard_procMounts : AvoidsGuard .many1 procMounts :=
  avoidsGuard_lines procMounts_item

theorem avoidsGuard_procStatCpuTimes (w : Nat) : AvoidsGuard .many1 (procStatCpuTimes w) := by
  have hfirst : AvoidsGuard .many1
      (map (ws notLineEnding) fun line => procStatCpuAggregate line) :=
    avoidsGuard_ws_notLineEnding.bind fun line => avoidsGuard_pure .many1 _
  exact hfirst.bind fun _ => avoidsGuard_lines (procStatCpuTimes_item w)

/-! ## The items decide -/

section

variable (h : textItems t = textItems s)

include h

theorem procMeminfo_value?_congr (w : Nat) :
    (procMeminfo w t).value? = (procMeminfo w s).value? := by
  obtain ⟨_, ht⟩ := procMeminfo_yields w t
  obtain ⟨_, hs⟩ := procMeminfo_yields w s
  rw [ht.value?, hs.value?, h]

theorem procDiskstats_value?_congr (w : Nat) :
    (procDiskstats w t).value? = (procDiskstats w s).value? := by
  obtain ⟨_, ht⟩ := procDiskstats_yields w t
  obtain ⟨_, hs⟩ := procDiskstats_yields w s
  rw [ht.value?, hs.value?, h]

theorem procMounts_value?_congr : (procMounts t).value? = (procMounts s).value? := by
  have ht : (procMounts t).value? = _ := procMounts_item.many1_value? t
  have hs : (procMounts s).value? = _ := procMounts_item.many1_value? s
  rw [ht, hs, h]

theorem procStatCpuTimes_value?_congr (w : Nat) :
    (procStatCpuTimes w t).value? = (procStatCpuTimes w s).value? := by
  rcases procStatCpuTimes_outcome w s with href | ⟨first, rest, r, hitems, hs⟩
  · have href' : Refused w t := by
      unfold Refused
      rwa [h]
    rw [(fails_of_refused href').value?, (fails_of_refused href).value?]
  · rcases procStatCpuTimes_outcome w t with href | ⟨first', rest', r', hitems', ht⟩
    · have href' : Refused w s := by
        unfold Refused
        rwa [← h]
      exact absurd (fails_of_refused href') hs.not_fails
    · rw [h, hitems] at hitems'
      cases hitems'
      rw [ht.value?, hs.value?]

end

/-! ## The four loops -/

/-- Every item of the four repetitions takes something, no repetition ends at its
guard, two of them have a result for every text, and blank lines change no result. -/
theorem procfs_loops (w : Nat) :
    ((∃ item, procMeminfo w = foldMany0 item ∅ insertSized ∧ Progresses item) ∧
      (∃ item, procDiskstats w = many0 item ∧ Progresses item) ∧
      (∃ item, procMounts = many1 item ∧ Progresses item) ∧
      ∃ item, procStatCpuTimes w = preceded
        (map (ws notLineEnding) fun line => procStatCpuAggregate line) (many1 item) ∧
        Progresses item) ∧
    (∀ s : Str, ¬ EndsAtGuard .many0 (procMeminfo w s) ∧
      ¬ EndsAtGuard .many0 (procDiskstats w s) ∧ ¬ EndsAtGuard .many1 (procMounts s) ∧
      ¬ EndsAtGuard .many1 (procStatCpuTimes w s)) ∧
    (∀ s : Str, (∃ rest map, Yields (procMeminfo w) s rest map) ∧
      ∃ rest stats, Yields (procDiskstats w) s rest stats) ∧
    ∀ s t : Str, BlankLinesAdded s t →
      (procMeminfo w t).value? = (procMeminfo w s).value? ∧
      (procDiskstats w t).value? = (procDiskstats w s).value? ∧
      (procMounts t).value? = (procMounts s).value? ∧
      (procStatCpuTimes w t).value? = (procStatCpuTimes w s).value? := by
  refine ⟨⟨?_, ?_, ?_, ?_⟩, fun s => ?_, fun s => ?_, fun s t hadded => ?_⟩
  · exact ⟨_, rfl, (procMeminfo_item w).progresses⟩
  · exact ⟨_, rfl, (procDiskstats_item w).progresses⟩
  · exact ⟨_, rfl, procMounts_item.progresses⟩
  · exact ⟨_, rfl, (procStatCpuTimes_item w).progresses⟩
  · obtain ⟨_, hmap⟩ := procMeminfo_yields w s
    obtain ⟨_, hlist⟩ := procDiskstats_yields w s
    exact ⟨hmap.not_endsAtGuard .many0, hlist.not_endsAtGuard .many0,
      avoidsGuard_procMounts s, avoidsGuard_procStatCpuTimes w s⟩
  · obtain ⟨rest, hmap⟩ := procMeminfo_yields w s
    obtain ⟨rest', hlist⟩ := procDiskstats_yields w s
    exact ⟨⟨rest, _, hmap⟩, rest', _, hlist⟩
  · have h := textItems_blankLinesAdded hadded
    exact ⟨procMeminfo_value?_congr h w, procDiskstats_value?_congr h w,
      procMounts_value?_congr h, procStatCpuTimes_value?_congr h w⟩

end Systemstat.Linux
