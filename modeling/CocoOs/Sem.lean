import CocoOs.Defs

/-!
# Semaphores (`os_sem.c`)

Semaphore creation and the saturating counters.  The id of a semaphore is a
signed 16-bit integer, the counters are 8-bit.
-/

namespace CocoOs

namespace SemTable

/-- `os_sem_init`. -/
def osSemInit (cfg : Config) (sems : SemTable) : SemTable :=
  if 0 < cfg.nTotalSemaphores then { sems with nSemaphores := 0 } else sems

/-- `os_sem_create`. -/
def osSemCreate (cfg : Config) (sems : SemTable) (max initial : Nat) :
    Outcome (Int × SemTable) :=
  if 0 < cfg.nTotalSemaphores then
    if sems.nSemaphores < cfg.nTotalSemaphores then
      let sems :=
        { sems with
          semList :=
            Function.update sems.semList sems.nSemaphores
              { maxValue := max, value := initial }
          nSemaphores := (sems.nSemaphores + 1) % 256 }
      .ok ((sems.nSemaphores : Int) - 1, sems)
    else .error .assertion
  else .ok (-1, sems)

/-- `sem_bin_create`. -/
def semBinCreate (cfg : Config) (sems : SemTable) (initial : Bool) :
    Outcome (Int × SemTable) :=
  sems.osSemCreate cfg 1 initial.toNat

/-- `sem_counting_create`. -/
def semCountingCreate (cfg : Config) (sems : SemTable) (max initial : Nat) :
    Outcome (Int × SemTable) :=
  sems.osSemCreate cfg max initial

/-- `os_sem_larger_than_zero`. -/
def osSemLargerThanZero (cfg : Config) (sems : SemTable) (sem : Int) : Bool :=
  if 0 < cfg.nTotalSemaphores then 0 < (sems.semList sem).value else false

/-- `os_sem_value_get`. -/
def osSemValueGet (cfg : Config) (sems : SemTable) (sem : Int) : Nat :=
  if 0 < cfg.nTotalSemaphores then (sems.semList sem).value else 0

/-- `os_sem_decrement`. -/
def osSemDecrement (cfg : Config) (sems : SemTable) (sem : Int) : SemTable :=
  if 0 < cfg.nTotalSemaphores ∧ 0 < (sems.semList sem).value then
    { sems with
      semList :=
        Function.update sems.semList sem
          { sems.semList sem with value := (sems.semList sem).value - 1 } }
  else sems

/-- `os_sem_increment`. -/
def osSemIncrement (cfg : Config) (sems : SemTable) (sem : Int) : SemTable :=
  if 0 < cfg.nTotalSemaphores ∧
      (sems.semList sem).value < (sems.semList sem).maxValue then
    { sems with
      semList :=
        Function.update sems.semList sem
          { sems.semList sem with value := (sems.semList sem).value + 1 } }
  else sems

/-- The semaphore was created since the last `os_sem_init`. -/
def Created (cfg : Config) (sems : SemTable) (sem : Int) : Prop :=
  0 < cfg.nTotalSemaphores ∧ 0 ≤ sem ∧ sem < sems.nSemaphores

instance (cfg : Config) (sems : SemTable) (sem : Int) :
    Decidable (sems.Created cfg sem) :=
  inferInstanceAs (Decidable (_ ∧ _))

end SemTable

end CocoOs
