import FerrisOnAir.Awdl.Overlap
import FerrisOnAir.Foundation.PeekQueue

/-! # Transmission of MSDUs to AWDL peers

`foa_awdl/src/runner/tx.rs`. `transmit_frame` gives up in many places, each with a plain
return, and `run_session` retires the MSDU behind it. Parsing Ethernet and IPv6 and
serializing the frame belong to other crates and are parameters; without the feature
`ndp-inject` no neighbour solicitation is found.
-/
namespace FerrisOnAir.Awdl

structure EthernetFrame where
  srcAddr : Address
  dstAddr : Address
  ethertype : ℕ
  payload : List UInt8

/-- The data frame of an MSDU, around an LLC frame with the OUI of AWDL. -/
structure AwdlMsduFrame where
  sourceAddress : Address
  destinationAddress : Address
  etherType : ℕ
  payload : List UInt8
  sequenceNumber : ℕ

structure AwdlMsduCrates where
  ethernetFrame : List UInt8 → Option EthernetFrame
  findNdpSolicit : EthernetFrame → Option Address
  pwrite : AwdlMsduFrame → Option ℕ

inductive AwdlTxCall
  | ndpInjectSignal (peer : Address)
  | allocTxBuf
  | timerAt (timestamp : ℕ)
  | transmitEdca (frame : AwdlMsduFrame) (written : ℕ)

inductive AwdlSessionCall
  | transmitFrame (calls : List AwdlTxCall)
  | txDone

/-- The shared state a pass finds: the cache before and after the buffer is awaited. -/
structure AwdlMsduContext where
  cacheBefore : PeerCache
  cache : PeerCache
  syncState : SynchronizationState
  now : ℕ
  sequenceNumber : ℕ

namespace AwdlMsduCrates
variable (crates : AwdlMsduCrates) (context : AwdlMsduContext)

/-- Serializing the frame and enqueueing it. -/
def writeFrame (frame : EthernetFrame) : List AwdlTxCall :=
  let msdu : AwdlMsduFrame := ⟨frame.srcAddr,frame.dstAddr,frame.ethertype,frame.payload,
    context.sequenceNumber⟩
  match crates.pwrite msdu with
  | none => []
  | some written => [.transmitEdca msdu written]

/-- What is left to do once the slot of the destination is known. -/
def atSlot (frame : EthernetFrame) : OverlapSlotState → Option (List AwdlTxCall)
  | .overlappingAt timestamp => (instantAdd timestamp 110).map (fun t =>
      .timerAt t :: crates.writeFrame context frame)
  | .peerNotInCache => some []
  | .noOverlappingSlots => some []
  | .currentlyOverlapping => some (crates.writeFrame context frame)

/-- `transmit_frame`; adding to an instant may panic. -/
def transmitFrame (msdu : List UInt8) : Option (List AwdlTxCall) :=
  match crates.ethernetFrame msdu with
  | none => some []
  | some frame =>
    match crates.findNdpSolicit frame with
    | some peer => some [.ndpInjectSignal peer]
    | none =>
      if isMulticast frame.dstAddr = false ∧ (context.cacheBefore.get frame.dstAddr).isNone then
        some []
      else
        ((context.cache.getCommonSlotForPeer frame.dstAddr context.syncState context.now).bind
          (crates.atSlot context frame)).map (fun calls => .allocTxBuf :: calls)

/-- One pass of `run_session`, after `tx_buf`. -/
def runSession (msdu : List UInt8) : Option (List AwdlSessionCall) :=
  (crates.transmitFrame context msdu).map (fun calls => [.transmitFrame calls,.txDone])

/-- How often a pass retires the MSDU it fetched. -/
def retirements (msdu : List UInt8) : Option ℕ :=
  (crates.runSession context msdu).map (fun calls => calls.countP
    (fun call => match call with
      | .txDone => true
      | .transmitFrame _ => false))

variable {crates context} {s : Consumer (List UInt8)} {msdu : List UInt8}

/-- A pass retires its MSDU however `transmit_frame` returns. -/
theorem poppedOnce_iff_returns (h : s.queue.peek = some msdu) :
    s.PoppedOnce crates.retirements context ↔ (crates.transmitFrame context msdu).isSome := by
  rw [Consumer.poppedOnce_iff h]
  unfold retirements runSession
  cases crates.transmitFrame context msdu with
  | none => simp
  | some calls => simp

/-- In particular one that is no Ethernet frame. -/
theorem poppedOnce_of_unparsed (h : s.queue.peek = some msdu)
    (hparse : crates.ethernetFrame msdu = none) :
    s.PoppedOnce crates.retirements context := by
  rw [poppedOnce_iff_returns h,transmitFrame,hparse]
  rfl

end AwdlMsduCrates

end FerrisOnAir.Awdl
