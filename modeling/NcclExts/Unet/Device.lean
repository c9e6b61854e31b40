import NcclExts.Unet.MrCache

/-!
# Physical devices and the protection domain they share

All comms on a device use one protection domain. The first comm allocates it and
the last one deallocates it; a counter on the device tracks the comms in between.
The outcomes of the verbs calls are arguments: `none` is a failed allocation.
-/

namespace NcclExts.Unet

/-- `link_layer` of a port. -/
inductive LinkLayer where
  | infiniband
  | ethernet
deriving DecidableEq, Repr

/-- The fields of `struct ibv_port_attr` that connecting reads. -/
structure IbvPortAttr where
  lid : Nat
  activeMtu : Nat
  linkLayer : LinkLayer
  grhRequired : Bool
  gidTblLen : Nat
deriving DecidableEq, Repr

/-- The fields of `struct ncclIbDev` that connecting and registering use. -/
structure NcclIbDev where
  portNum : Nat
  portAttr : IbvPortAttr
  ar : Int
  pdRefs : Int
  pd : Option Nat
  mrCache : NcclIbMrCache
deriving DecidableEq, Repr

/-- `struct ncclIbNetCommDevBase`: what a comm holds on one device. -/
structure NcclIbNetCommDevBase where
  pd : Option Nat
  cq : Option Nat
deriving DecidableEq, Repr

/-- What `ncclIbInitCommDevBase` leaves behind, and whether it called the verbs
allocation of a protection domain. -/
structure InitOutcome where
  result : NcclResult
  dev : NcclIbDev
  base : NcclIbNetCommDevBase
  allocated : Bool
deriving DecidableEq, Repr

/-- `ncclIbInitCommDevBase`. The count rises before the allocation, and the device
records what the allocation returned even when it failed. -/
def ncclIbInitCommDevBase (ibDev : NcclIbDev) (allocPd createCq : Option Nat) : InitOutcome :=
  let first := ibDev.pdRefs = 0
  let ibDev := { ibDev with pdRefs := ibDev.pdRefs + 1 }
  let ibDev := if first then { ibDev with pd := allocPd } else ibDev
  if first ∧ allocPd = none then ⟨.ncclSystemError, ibDev, ⟨none, none⟩, true⟩
  else
    let base : NcclIbNetCommDevBase := ⟨ibDev.pd, createCq⟩
    if createCq = none then ⟨.ncclSystemError, ibDev, base, first⟩
    else ⟨.ncclSuccess, ibDev, base, first⟩

/-- What `ncclIbDestroyBase` leaves behind, and whether it called the verbs
deallocation of the protection domain. -/
structure DestroyOutcome where
  result : NcclResult
  dev : NcclIbDev
  deallocated : Bool
deriving DecidableEq, Repr

/-- `ncclIbDestroyBase`; the device keeps its pointer to a deallocated domain. -/
def ncclIbDestroyBase (ibDev : NcclIbDev) (destroyCqOk deallocPdOk : Bool) : DestroyOutcome :=
  if destroyCqOk = false then ⟨.ncclSystemError, ibDev, false⟩
  else
    let ibDev := { ibDev with pdRefs := ibDev.pdRefs - 1 }
    if ibDev.pdRefs = 0 then
      ⟨if deallocPdOk then .ncclSuccess else .ncclSystemError, ibDev, true⟩
    else ⟨.ncclSuccess, ibDev, false⟩

end NcclExts.Unet
