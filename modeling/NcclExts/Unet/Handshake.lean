import NcclExts.Foundation.RoundRobin
import NcclExts.Foundation.Traced
import NcclExts.Unet.ChunkBytes
import NcclExts.Unet.Device

/-!
# Connecting

The two sides of a connection exchange metadata: first the connecting side sends what
it has, then the accepting side sets up its queue pairs from it and answers, and then
the connecting side sets up its own. Each side derives the number of its queue pairs
from its own settings, and indexes the arrays of the other side's metadata with it.

Metadata is built on the stack and sent whole. An entry that was not written goes out
with whatever the stack held, so metadata notes which of its parts were written; no
function of the program reads these notes. The verbs calls succeed here, with the
answers that a side holds for them.
-/

namespace NcclExts.Unet

open NcclExts.Foundation

/-- `struct ibv_ece`. -/
structure IbvEce where
  vendorId : UInt32
  options : UInt32
  compMask : UInt32
deriving DecidableEq, Repr

/-- `struct ncclIbQpInfo`. -/
structure NcclIbQpInfo where
  qpn : UInt32
  ece : IbvEce
  eceSupported : Bool
  devIndex : Int
deriving DecidableEq, Repr

/-- `struct ncclIbDevInfo`. -/
structure NcclIbDevInfo where
  lid : Nat
  ibPort : Nat
  mtu : Nat
  linkLayer : LinkLayer
  isGlobal : Bool
  spn : UInt64
  iid : UInt64
  fifoRkey : UInt32
deriving DecidableEq, Repr

/-- The parts of metadata that are written and read on their own. An entry of `qpInfo`
stands for its `qpn` and `devIndex`. -/
inductive Place where
  | qpInfo (q : Nat)
  | eceSupported (q : Nat)
  | ece (q : Nat)
  | devs (i : Int)
deriving DecidableEq, Repr

/-- `struct ncclIbConnectionMetadata`, with the parts of it that were written. -/
structure NcclIbConnectionMetadata where
  qpInfo : Nat → NcclIbQpInfo
  devs : Int → NcclIbDevInfo
  ndevs : Nat
  rank : Int32
  fifoAddr : Nat
  filled : Place → Bool

/-- What one side knows and is told: its settings, the ports of its merged device, and
what verbs answer for the device or queue pair of an index. `queryEce` and `setEce`
answer `none` and `false` when the queue pair does not support it. -/
structure Side where
  ndevs : Nat
  qpsPerConn : Int
  eceEnable : Bool
  isGlobal : Bool
  tc : Nat
  fifoTc : Nat
  sl : Nat
  rank : Int32
  portNum : Nat → Nat
  portAttr : Nat → IbvPortAttr
  gidIndex : Nat → Nat
  gid : Nat → UInt64 × UInt64
  fifoAddr : Nat
  fifoRkey : Nat → UInt32
  qpNum : Nat → UInt32
  queryEce : Nat → Option IbvEce
  setEce : Nat → Bool
  someDev : 0 < ndevs
  atMostTwo : ndevs ≤ 2

/-- `comm->base.nqps`: the product is truncated to an `int`. -/
def Side.nqps (side : Side) : Int := wrapInt (side.qpsPerConn * side.ndevs)

/-- How often a loop over the queue pairs runs. -/
def Side.numQps (side : Side) : Nat := side.nqps.toNat

/-- The device of a queue pair: `devIndex = (devIndex + 1) % ndevs` after each. -/
def Side.devIndex (side : Side) : Nat → Nat
  | 0 => 0
  | q + 1 => (side.devIndex q + 1) % side.ndevs

/-- The arguments of a call of `ncclIbRtrQp`. -/
structure RtrCall where
  sGidIndex : Nat
  destQpNum : UInt32
  info : NcclIbDevInfo
  overrideTc : Bool
deriving DecidableEq, Repr

/-- The fields of `struct ibv_qp_attr` that moving to RTR sets from its arguments. -/
structure IbvQpAttr where
  pathMtu : Nat
  destQpNum : UInt32
  dlid : Nat
  portNum : Nat
  sl : Nat
  grh : Option (UInt64 × UInt64 × Nat × Nat)
deriving DecidableEq, Repr

/-- `ncclIbRtrQp`; a global route has the destination GID, the index of the source GID
and the traffic class. -/
def ncclIbRtrQp (side : Side) (call : RtrCall) : IbvQpAttr :=
  { pathMtu := call.info.mtu
    destQpNum := call.destQpNum
    dlid := call.info.lid
    portNum := call.info.ibPort
    sl := side.sl
    grh :=
      if call.info.linkLayer = .ethernet ∨ call.info.isGlobal then
        some (call.info.spn, call.info.iid, call.sGidIndex,
          if side.fifoTc ≠ 0 ∧ call.overrideTc then side.fifoTc else side.tc)
      else none }

/-- `struct ncclIbQp` when connecting is over: its number, its devices on both sides, the
options in the call that set ECE, if there was one, and the call that moved it to RTR. -/
structure ConnectedQp where
  qpNum : UInt32
  devIndex : Nat
  remDevIdx : Int
  ece : Option IbvEce
  rtr : RtrCall
deriving DecidableEq, Repr

/-- What connecting leaves in a comm: its queue pairs, the devices of the other side,
and the address and keys of the other side's FIFO. -/
structure Connected where
  nqps : Int
  qps : Nat → ConnectedQp
  nRemDevs : Nat
  remDevs : Nat → NcclIbDevInfo
  remFifoAddr : Nat
  peerRank : Int32

/-- The facts of a local device that metadata tells; the connecting side leaves its GID
out where the route is not global. -/
def Side.devInfo (side : Side) (i : Nat) : NcclIbDevInfo :=
  { lid := (side.portAttr i).lid
    ibPort := side.portNum i
    mtu := (side.portAttr i).activeMtu
    linkLayer := (side.portAttr i).linkLayer
    isGlobal := side.isGlobal || (side.portAttr i).grhRequired
    spn := (side.gid i).1
    iid := (side.gid i).2
    fifoRkey := side.fifoRkey i }

/-- A device whose GID is left out tells what the stack held for it. -/
def NcclIbDevInfo.withoutGid (info stack : NcclIbDevInfo) : NcclIbDevInfo :=
  if info.linkLayer = .ethernet ∨ info.isGlobal then info
  else { info with spn := stack.spn, iid := stack.iid }

namespace NcclIbConnectionMetadata

/-- Read the `qpn` and the `devIndex` of a queue pair. -/
def readQpInfo (info : NcclIbConnectionMetadata) (q : Nat) : Traced Place (UInt32 × Int) :=
  .read (.qpInfo q) ((info.qpInfo q).qpn, (info.qpInfo q).devIndex)

/-- Read the `ece_supported` of a queue pair. -/
def readEceSupported (info : NcclIbConnectionMetadata) (q : Nat) : Traced Place Bool :=
  .read (.eceSupported q) (info.qpInfo q).eceSupported

/-- Read the `ece` of a queue pair. -/
def readEce (info : NcclIbConnectionMetadata) (q : Nat) : Traced Place IbvEce :=
  .read (.ece q) (info.qpInfo q).ece

/-- Read a device. -/
def readDev (info : NcclIbConnectionMetadata) (i : Int) : Traced Place NcclIbDevInfo :=
  .read (.devs i) (info.devs i)

end NcclIbConnectionMetadata

/-- The metadata the connecting side sends, built over what the stack held. A write past
the end of an array goes elsewhere. -/
def connectMeta (side : Side) (stack : NcclIbConnectionMetadata) : NcclIbConnectionMetadata :=
  { qpInfo := fun q =>
      if q < side.numQps ∧ q < maxQps then
        { qpn := side.qpNum q
          ece := if side.eceEnable then (side.queryEce q).getD (stack.qpInfo q).ece
            else (stack.qpInfo q).ece
          eceSupported := side.eceEnable && (side.queryEce q).isSome
          devIndex := side.devIndex q }
      else stack.qpInfo q
    devs := fun i =>
      if 0 ≤ i ∧ i < side.ndevs then (side.devInfo i.toNat).withoutGid (stack.devs i)
      else stack.devs i
    ndevs := side.ndevs
    rank := side.rank
    fifoAddr := side.fifoAddr
    filled := fun
      | .qpInfo q | .eceSupported q => q < side.numQps ∧ q < maxQps
      | .ece q => q < side.numQps ∧ q < maxQps ∧ side.eceEnable ∧ (side.queryEce q).isSome
      | .devs i => 0 ≤ i ∧ i < side.ndevs }

/-- The body of the loops over the queue pairs: set ECE as the other side says, and move
the queue pair to RTR. -/
def setupQp (side : Side) (remMeta : NcclIbConnectionMetadata) (overrideTc : Bool) (q : Nat) :
    Traced Place ConnectedQp := do
  let (qpn, remDevIdx) ← remMeta.readQpInfo q
  let supported ← remMeta.readEceSupported q
  let ece ← if supported then some <$> remMeta.readEce q else pure none
  let remDevInfo ← remMeta.readDev remDevIdx
  pure
    { qpNum := side.qpNum q
      devIndex := side.devIndex q
      remDevIdx := remDevIdx
      ece := ece
      rtr :=
        { sGidIndex := side.gidIndex (side.devIndex q)
          destQpNum := qpn
          info := remDevInfo
          overrideTc := overrideTc } }

/-- Set up a queue pair of the accepting side; the first one overrides the traffic
class. -/
def acceptQp (side : Side) (remMeta : NcclIbConnectionMetadata) (q : Nat) :
    Traced Place ConnectedQp :=
  setupQp side remMeta (q = 0) q

/-- Set up a queue pair of the connecting side. -/
def connectQp (side : Side) (remMeta : NcclIbConnectionMetadata) (q : Nat) :
    Traced Place ConnectedQp :=
  setupQp side remMeta false q

/-- What the accepting side answers for ECE on a queue pair. The support flag is written
only where the other side advertised support, and the options only where setting and
querying them are supported. -/
def answerEce (side : Side) (q : Nat) (stack : NcclIbQpInfo) : Option IbvEce → NcclIbQpInfo
  | none => stack
  | some _ =>
    if side.setEce q then
      { stack with
        ece := (side.queryEce q).getD stack.ece
        eceSupported := (side.queryEce q).isSome }
    else { stack with eceSupported := false }

/-- The metadata the accepting side answers, given the queue pairs it set up and the MTUs
of the other side's devices. -/
def acceptMeta (side : Side) (stack : NcclIbConnectionMetadata) (qps : Nat → ConnectedQp)
    (remMtus : Nat → Nat) : NcclIbConnectionMetadata :=
  { qpInfo := fun q =>
      if q < side.numQps ∧ q < maxQps then
        { answerEce side q (stack.qpInfo q) (qps q).ece with
          qpn := side.qpNum q
          devIndex := side.devIndex q }
      else stack.qpInfo q
    devs := fun i =>
      if 0 ≤ i ∧ i < side.ndevs then
        { side.devInfo i.toNat with
          mtu := min (remMtus i.toNat) (side.portAttr i.toNat).activeMtu }
      else stack.devs i
    ndevs := side.ndevs
    rank := side.rank
    fifoAddr := side.fifoAddr
    filled := fun
      | .qpInfo q => q < side.numQps ∧ q < maxQps
      | .eceSupported q => q < side.numQps ∧ q < maxQps ∧ (qps q).ece.isSome
      | .ece q =>
        q < side.numQps ∧ q < maxQps ∧ (qps q).ece.isSome ∧ side.setEce q ∧
          (side.queryEce q).isSome
      | .devs i => 0 ≤ i ∧ i < side.ndevs }

/-- `ncclIbAccept` between receiving the metadata and sending its own. -/
def acceptSetup (side : Side) (stack remMeta : NcclIbConnectionMetadata) :
    Traced Place (Connected × NcclIbConnectionMetadata) := do
  let remDevs ← Traced.loop remMeta.ndevs fun i => remMeta.readDev i
  let qps ← Traced.loop side.numQps fun q => acceptQp side remMeta q
  let peerDevs ← Traced.loop side.ndevs fun i => remMeta.readDev i
  pure
    ({ nqps := side.nqps
       qps := qps
       nRemDevs := remMeta.ndevs
       remDevs := remDevs
       remFifoAddr := remMeta.fifoAddr
       peerRank := remMeta.rank },
      acceptMeta side stack qps fun i => (peerDevs i).mtu)

/-- Some device has another link layer than the first. -/
def linksDiffer (ndevs : Nat) (devs : Nat → NcclIbDevInfo) (first : NcclIbDevInfo) : Bool :=
  (List.range ndevs).any fun i => (devs i).linkLayer ≠ first.linkLayer

/-- `ncclIbConnect` between receiving the metadata and sending the ready word; `none`
when the devices of the other side have different link layers. -/
def connectSetup (side : Side) (remMeta : NcclIbConnectionMetadata) :
    Traced Place (Option Connected) := do
  let first ← remMeta.readDev 0
  let remDevs ← Traced.loop remMeta.ndevs fun i => remMeta.readDev i
  if linksDiffer remMeta.ndevs remDevs first then
    pure none
  else
    let qps ← Traced.loop side.numQps fun q => connectQp side remMeta q
    pure <| some
      { nqps := side.nqps
        qps := qps
        nRemDevs := remMeta.ndevs
        remDevs := remDevs
        remFifoAddr := remMeta.fifoAddr
        peerRank := remMeta.rank }

end NcclExts.Unet
