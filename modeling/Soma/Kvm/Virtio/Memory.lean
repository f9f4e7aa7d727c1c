import Soma.Lib.Serial

/-! # Faults shared by the virtio models -/

namespace Soma.Kvm

/-- A rejected guest-memory access. -/
inductive GuestMemoryError where
  /-- The range runs past the end of the address space. -/
  | overflow (addr len : U64)
  /-- The range does not lie inside one registered region. -/
  | outOfRegion (addr len : U64)
deriving DecidableEq

/-- A failure the device cannot report for one request: it stops the device. -/
inductive DeviceFault where
  | memory (error : GuestMemoryError)
  | backend
  | protocol
deriving DecidableEq

end Soma.Kvm
