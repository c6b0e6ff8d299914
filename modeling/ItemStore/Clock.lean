/-
The clock.

Times are in milliseconds.  What is computed takes no time: the clock moves only while
everything waits.  A wait is never longer than thirty years, however long it was to be.
-/

namespace ItemStore

/-- The longest wait: thirty years of 365 days. -/
def longestWait : Nat := 946080000000

/-- The time that a wait of a given length takes. -/
def waitTime (ms : Nat) : Nat := min ms longestWait

end ItemStore
