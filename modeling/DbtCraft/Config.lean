/-
# Settings

`Settings` of `app/config.py`: the values the modelled code reads, with their
defaults. Each is an environment variable parsed by `int`, so the numbers that
the code compares are integers; times are in seconds.
-/

import Mathlib.Data.Int.Notation
import Mathlib.Data.Nat.Notation

namespace DbtCraft

/-- `app/config.py`. -/
structure Settings where
  fileLockTtl : ℕ := 60
  fileLockWaitTimeout : ℕ := 30
  maxConcurrentDbtRuns : ℤ := 3
  maxConcurrentQueries : ℤ := 2
  duckdbMemoryLimit : String := ""
  dbtSubprocessTimeout : ℕ := 1800
  dbtWarmWorkerCount : ℤ := 1
  dbtWarmWorkerQueueSize : ℤ := 100
  dbtWarmWorkerRecycleJobs : ℤ := 100
  dbtWarmWorkerEnabled : Bool := true
  dbtWarmWorkerMaxProjects : ℤ := 8
  dbtWarmWorkerIdleSeconds : ℤ := 900
  schedulerLeaderTtl : ℕ := 90
  schedulerMisfireGraceSeconds : ℤ := 3600

end DbtCraft
