/-
How a batch fetch is carried out: the size of its buckets, how many are in flight at once,
and how failed calls are repeated.
-/
import ItemStore.Retry

namespace ItemStore

/-- The settings of a batch fetch. -/
structure BatchConfig where
  /-- The most keys of one bucket. -/
  maxBatchSize : Nat := 100
  /-- The most buckets in flight at once; without it all are. -/
  maxConcurrency : Option Nat := none
  retry : RetryPolicy := .immediate

namespace BatchConfig

/-- The most keys the store accepts in one call. -/
def maxKeysPerCall : Nat := 100

/-- The fault of settings that cannot be used. -/
def fault? (c : BatchConfig) : Option ArgumentFault :=
  if c.maxBatchSize = 0 || maxKeysPerCall < c.maxBatchSize then some (.batchSize maxKeysPerCall)
  else if c.maxConcurrency = some 0 then some .noConcurrency
  else if c.retry.multiplier < 1.0 then some .shrinkingBackoff
  else none

/-- Accepts settings that can be used. -/
def validate (c : BatchConfig) : Except Error Unit :=
  match c.fault? with
  | some fault => .error (.argument fault)
  | none => .ok ()

end BatchConfig

end ItemStore
