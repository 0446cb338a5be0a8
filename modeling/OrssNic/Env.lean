import OrssNic.Library.Loops
import OrssNic.Library.Heap

/-!
# Build-time configuration and abnormal outcomes

The constants are those of `env.h`. `Halt` lists the ways in which a call of
the program does not return: the two `exit(1)` paths, a memory access outside
its object, a null pointer, the value of a function that ran off its end, a
division by zero, a loop that never ends, and a wait on a socket that has
delivered nothing more.
-/

namespace OrssNic

def OVS_HOST_IFINDEX : UInt16 := 2
def OVS_NETWORK_IFINDEX : UInt16 := 1
def OVS_OUTPUT_ACTION_MAX_LEN : UInt16 := 65535
def RING_SIZE : ℕ := 16
def HASHMAP_SIZE : ℕ := 1024
def NB_CORES : ℕ := 8
def IMBALANCE_THRESHOLD : ℚ := 1 / 10
def MAX_REBALANCE_ITERATIONS : ℕ := 10
def MAX_HANDLED_FLOWS : ℕ := 1024
def MAX_STATS_REPLY : ℕ := 32
def MAX_ACTIONS : ℕ := 4

inductive Halt
  | hashmapFull
  | coreFull
  | outOfBounds
  | nullPointer
  | missingReturn
  | divisionByZero
  | diverges
  | blocked
  deriving DecidableEq, Repr

end OrssNic
