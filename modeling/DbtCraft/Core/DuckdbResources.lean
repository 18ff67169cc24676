/-
# DuckDB resource limits

`app/core/duckdb_resources.py`: how many DuckDB instances may work at once, and
the share of the machine's memory that each of them is given. What the operating
system reports about memory is a parameter. The code computes the share in
floating point; here it is the exact quotient, rounded down.
-/

import DbtCraft.Config
import DbtCraft.Python.Text
import Mathlib.Tactic.Ring

namespace DbtCraft.Core.DuckdbResources

open DbtCraft.Python

/-- What the operating system reports, in bytes: the installed memory, and the
container's ceiling unless it is unlimited. -/
structure Memory where
  host : Option ℕ
  cgroup : Option ℕ

/-- `available_memory_bytes`: the container's ceiling first. -/
def availableMemoryBytes (memory : Memory) : Option ℕ :=
  match memory.cgroup, memory.host with
  | some cgroup, none => some cgroup
  | some cgroup, some host => if cgroup < host then some cgroup else some host
  | none, host => host

/-- `concurrent_engine_slots`. -/
def concurrentEngineSlots (settings : Settings) : ℕ :=
  (max 1 settings.maxConcurrentDbtRuns + max 0 settings.maxConcurrentQueries).toNat

/-- A value of DuckDB's `memory_limit`. -/
inductive MemoryLimit
  | /-- An explicit `DUCKDB_MEMORY_LIMIT`. -/
    configured (text : String)
  | computed (megabytes : ℕ)
  deriving DecidableEq

/-- `_MIN_LIMIT_MB`. -/
def minLimitMb : ℕ := 256

/-- The bytes of one megabyte. -/
def megabyte : ℕ := 1024 * 1024

/-- `int(total * _MEMORY_HEADROOM / slots / (1024 * 1024))`. -/
def sharedMegabytes (total slots : ℕ) : ℕ := total * 3 / (4 * slots * megabyte)

/-- `memory_limit_per_run`. -/
def memoryLimitPerRun (settings : Settings) (memory : Memory) : Option MemoryLimit :=
  let configured := strip settings.duckdbMemoryLimit
  if configured ≠ "" then some (.configured configured)
  else
    match availableMemoryBytes memory with
    | none | some 0 => none
    | some total =>
      let megabytes := sharedMegabytes total (concurrentEngineSlots settings)
      if megabytes < minLimitMb then none else some (.computed megabytes)

/-! ## What the limit is worth -/

theorem concurrentEngineSlots_eq (settings : Settings) :
    (concurrentEngineSlots settings : ℤ) =
      max 1 settings.maxConcurrentDbtRuns + max 0 settings.maxConcurrentQueries := by
  unfold concurrentEngineSlots
  omega

/-- All shares together are within three quarters of the memory. -/
theorem slots_mul_sharedMegabytes_le (total slots : ℕ) :
    4 * (slots * (sharedMegabytes total slots * megabyte)) ≤ 3 * total := by
  have hquotient := Nat.div_mul_le_self (total * 3) (4 * slots * megabyte)
  calc
    4 * (slots * (sharedMegabytes total slots * megabyte)) =
        total * 3 / (4 * slots * megabyte) * (4 * slots * megabyte) := by
      unfold sharedMegabytes
      ring
    _ ≤ total * 3 := hquotient
    _ = 3 * total := by ring

/-- A computed limit is a share of the memory that is available. -/
theorem memoryLimitPerRun_eq_computed {settings : Settings} {memory : Memory} {megabytes : ℕ}
    (hlimit : memoryLimitPerRun settings memory = some (.computed megabytes)) :
    ∃ total, availableMemoryBytes memory = some total ∧
      megabytes = sharedMegabytes total (concurrentEngineSlots settings) := by
  unfold memoryLimitPerRun at hlimit
  simp only at hlimit
  split at hlimit
  · simp at hlimit
  · split at hlimit
    · cases hlimit
    · cases hlimit
    next total _ htotal =>
      split at hlimit
      · cases hlimit
      · simp only [Option.some.injEq, MemoryLimit.computed.injEq] at hlimit
        exact ⟨total, htotal, hlimit.symm⟩

/-- **The memory budget.** As many activities as there are slots, each with the
computed limit, use at most three quarters of the available memory. -/
theorem memory_within_budget {settings : Settings} {memory : Memory}
    {activities megabytes total : ℕ} (hslots : activities ≤ concurrentEngineSlots settings)
    (hlimit : memoryLimitPerRun settings memory = some (.computed megabytes))
    (htotal : availableMemoryBytes memory = some total) :
    4 * (activities * (megabytes * megabyte)) ≤ 3 * total := by
  obtain ⟨available, havailable, rfl⟩ := memoryLimitPerRun_eq_computed hlimit
  rw [htotal] at havailable
  cases havailable
  calc
    4 * (activities * (sharedMegabytes total (concurrentEngineSlots settings) * megabyte)) ≤
        4 * (concurrentEngineSlots settings *
          (sharedMegabytes total (concurrentEngineSlots settings) * megabyte)) :=
      Nat.mul_le_mul_left _ (Nat.mul_le_mul_right _ hslots)
    _ ≤ 3 * total := slots_mul_sharedMegabytes_le total _

/-- The default settings on a machine with 16 GiB: five slots of 2457 MB. -/
example : memoryLimitPerRun {} ⟨some (16 * 1024 * megabyte), none⟩ = some (.computed 2457) := by
  decide

end DbtCraft.Core.DuckdbResources
