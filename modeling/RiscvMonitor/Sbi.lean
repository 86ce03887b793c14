import RiscvMonitor.Word

/-!
# SBI return codes and hart states

The values of `sbi.h` that the services return to S-mode in `a0`, and the states
of the hart state management extension.
-/

namespace RiscvMonitor

inductive SbiError where
  | success
  | failed
  | notSupported
  | invalidParam
  | denied
  | invalidAddress
  | alreadyAvailable
  | alreadyStarted
  | alreadyStopped
  | noShmem
  | invalidState
  | badRange
  | timeout
  | io
  | deniedLocked
deriving DecidableEq, Repr

def SbiError.code : SbiError → Int
  | .success => 0
  | .failed => -1
  | .notSupported => -2
  | .invalidParam => -3
  | .denied => -4
  | .invalidAddress => -5
  | .alreadyAvailable => -6
  | .alreadyStarted => -7
  | .alreadyStopped => -8
  | .noShmem => -9
  | .invalidState => -10
  | .badRange => -11
  | .timeout => -12
  | .io => -13
  | .deniedLocked => -14

inductive HsmState where
  | started
  | stopped
  | startPending
  | stopPending
  | suspended
  | suspendPending
  | resumePending
deriving DecidableEq, Repr

end RiscvMonitor
