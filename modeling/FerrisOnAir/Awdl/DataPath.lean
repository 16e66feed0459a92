import FerrisOnAir.Awdl.Interface
import FerrisOnAir.Awdl.Neighbors

/-! # MSDUs from stack to stack

`AwdlMsduTxRunner` await by await, over all sessions of an interface, with `process_data_frame`
of a node that hears it. A session that ends drops the transmitting runner wherever it waits,
with the MSDU it works on still at the head of the queue. The formats around an MSDU are those
of other crates and parameters here. Release builds let the sequence number wrap.
-/
namespace FerrisOnAir.Awdl

/-- What reception reads of a data frame; the payload is there if it is neither wrapped nor
aggregated. -/
structure AwdlDataFrame where
  destinationAddress : Option Address
  sourceAddress : Option Address
  payload : Option (List UInt8)

structure AwdlDataCrates extends AwdlMsduCrates where
  ethernetBytes : EthernetFrame → List UInt8
  mpduBytes : Address → Address → Address → List UInt8 → List UInt8
  snapLlcBytes : List UInt8 → ℕ → List UInt8 → List UInt8
  awdlDataBytes : ℕ → List UInt8 → ℕ → List UInt8
  dataFrame : List UInt8 → Option AwdlDataFrame
  snapLlcFrame : List UInt8 → Option (List UInt8 × List UInt8)
  awdlDataFrame : List UInt8 → Option (ℕ × List UInt8)

def appleOui : List UInt8 := [0x00,0x17,0xf2]

/-- `AWDL_MTU`. -/
def awdlMtu : ℕ := 1484

namespace AwdlDataCrates
variable (crates : AwdlDataCrates)

/-- The bytes that `transmit_frame` writes. -/
def mpdu (frame : AwdlMsduFrame) : List UInt8 :=
  crates.mpduBytes awdlBssid frame.destinationAddress frame.sourceAddress
    (crates.snapLlcBytes appleOui 0x0800
      (crates.awdlDataBytes frame.etherType frame.payload frame.sequenceNumber))

/-- `serialize_ethernet_frame`; the header takes 14 bytes. -/
def serializeEthernetFrame (length : ℕ) (frame : EthernetFrame) : Option (List UInt8) :=
  if 14 + frame.payload.length ≤ length then some (crates.ethernetBytes frame) else none

/-- `process_data_frame`, and whether a buffer of the stack is free in time. -/
def processDataFrame (mpdu : List UInt8) (rxBuf : Bool) : Option (List UInt8) :=
  match crates.dataFrame mpdu with
  | some ⟨some destinationAddress,some sourceAddress,some payload⟩ =>
    match crates.snapLlcFrame payload with
    | some (oui,body) =>
      if oui ≠ appleOui then none
      else match crates.awdlDataFrame body with
        | some (etherType,payload) =>
          if rxBuf then crates.serializeEthernetFrame awdlMtu
            ⟨sourceAddress,destinationAddress,etherType,payload⟩
          else none
        | none => none
    | none => none
  | _ => none

/-- The readers of the crates undo their writers. -/
structure RoundTrips : Prop where
  ethernetBytes : ∀ msdu frame, crates.ethernetFrame msdu = some frame →
    crates.ethernetBytes frame = msdu ∧ msdu.length = 14 + frame.payload.length ∧
      frame.ethertype < 2 ^ 16
  dataFrame : ∀ bssid destinationAddress sourceAddress body,
    crates.dataFrame (crates.mpduBytes bssid destinationAddress sourceAddress body) =
      some ⟨some destinationAddress,some sourceAddress,some body⟩
  snapLlcFrame : ∀ oui etherType payload, oui.length = 3 →
    crates.snapLlcFrame (crates.snapLlcBytes oui etherType payload) = some (oui,payload)
  awdlDataFrame : ∀ etherType payload sequenceNumber, etherType < 2 ^ 16 →
    crates.awdlDataFrame (crates.awdlDataBytes etherType payload sequenceNumber) =
      some (etherType,payload)

/-- The MSDU of an Ethernet frame. -/
def msduFrame (frame : EthernetFrame) (sequenceNumber : ℕ) : AwdlMsduFrame :=
  ⟨frame.srcAddr,frame.dstAddr,frame.ethertype,frame.payload,sequenceNumber⟩

variable {crates} {msdu : List UInt8} {frame : EthernetFrame}

/-- The stack of the receiver gets the bytes that the one of the sender has queued. -/
theorem processDataFrame_mpdu (hc : crates.RoundTrips)
    (hframe : crates.ethernetFrame msdu = some frame) (hlength : msdu.length ≤ awdlMtu)
    (sequenceNumber : ℕ) (rxBuf : Bool) :
    crates.processDataFrame (crates.mpdu (msduFrame frame sequenceNumber)) rxBuf =
      if rxBuf then some msdu else none := by
  obtain ⟨hbytes,hheader,htype⟩ := hc.ethernetBytes msdu frame hframe
  have hbody := hc.awdlDataFrame frame.ethertype frame.payload sequenceNumber htype
  have hfits : 14 + frame.payload.length ≤ awdlMtu := hheader ▸ hlength
  unfold processDataFrame mpdu msduFrame
  simp only [hc.dataFrame,hc.snapLlcFrame _ _ _ (show appleOui.length = 3 from rfl),hbody,
    ne_eq,not_true_eq_false,if_false]
  cases rxBuf with
  | true =>
    rw [if_pos rfl,if_pos rfl,serializeEthernetFrame,if_pos hfits]
    exact congrArg some hbytes
  | false => rfl

end AwdlDataCrates

/-- Where the transmitting runner awaits: the next MSDU, a buffer or the slot of its peer. -/
inductive MsduTxTask
  | idle
  | allocating (frame : EthernetFrame)
  | sleeping (frame : EthernetFrame) (timestamp : ℕ)

def MsduTxTask.frame : MsduTxTask → Option EthernetFrame
  | idle => none
  | allocating frame => some frame
  | sleeping frame _ => some frame

/-- A frame that the queue of the driver took, the position of its MSDU and the one at which the
session began. -/
structure Transmission where
  position : ℕ
  sessionStart : ℕ
  mpdu : List UInt8
deriving DecidableEq

/-- `received` is what the stack of the other node got, with the positions. -/
structure MsduPath (n : ℕ) where
  interface : AwdlInterface n
  txQueue : PeekQueue (List UInt8)
  task : MsduTxTask
  dataFrameSequenceNumber : ℕ
  sessionStart : ℕ
  air : List Transmission
  received : List (ℕ × List UInt8)

inductive MsduPathOp (n : ℕ)
  | queueMsdu (msdu : List UInt8)
  | interface (op : InterfaceOp n)
  | fetch
  | allocTxBuf (now : ℕ) (enqueued : Bool)
  | timer (now : ℕ) (enqueued : Bool)
  | receive (index : ℕ) (rxBuf : Bool)

namespace MsduPath
variable {n : ℕ} (config : InterfaceConfig n) (crates : AwdlDataCrates) (s : MsduPath n)

def begin (interface : AwdlInterface n) : MsduPath n := ⟨interface,⟨[],0⟩,.idle,0,0,[],[]⟩

/-- The end of a pass of `run_session`. -/
def txDone : MsduPath n := { s with
  txQueue := s.txQueue.pop 1
  task := .idle
  dataFrameSequenceNumber := (s.dataFrameSequenceNumber + 1) % 2 ^ 16 }

/-- `transmit_frame` up to its first await. -/
def fetch (msdu : List UInt8) : MsduPath n :=
  match crates.ethernetFrame msdu with
  | none => s.txDone
  | some frame =>
    match crates.findNdpSolicit frame with
    | some _ => s.txDone
    | none =>
      if isMulticast frame.dstAddr = false ∧
          (s.interface.resources.peerCache.get frame.dstAddr).isNone then s.txDone
      else { s with task := .allocating frame }

/-- Its end; whether the queue of the driver takes the frame does not matter. -/
def transmit (frame : EthernetFrame) (enqueued : Bool) : MsduPath n :=
  let msdu := AwdlDataCrates.msduFrame frame s.dataFrameSequenceNumber
  match crates.pwrite msdu with
  | none => s.txDone
  | some _ =>
    if enqueued then
      { s.txDone with air := s.air ++ [⟨s.txQueue.done,s.sessionStart,crates.mpdu msdu⟩] }
    else s.txDone

/-- What follows the allocation; adding to an instant may panic. -/
def atSlot (frame : EthernetFrame) (enqueued : Bool) : OverlapSlotState → Option (MsduPath n)
  | .overlappingAt timestamp => (instantAdd timestamp 110).map (fun t =>
      { s with task := .sleeping frame t })
  | .peerNotInCache => some s.txDone
  | .noOverlappingSlots => some s.txDone
  | .currentlyOverlapping => some (s.transmit crates frame enqueued)

/-- A value of the state signal ends the session and drops its runner. -/
def restart (interface : AwdlInterface n) : InterfaceOp n → MsduPath n
  | .poll _ => { s with
      interface := interface
      task := .idle
      dataFrameSequenceNumber := 0
      sessionStart := s.txQueue.done }
  | _ => { s with interface := interface }

def inSession : Bool :=
  match s.interface.state with
  | .active _ _ => true
  | .inactive => false

def next : MsduPathOp n → Option (MsduPath n)
  | .queueMsdu msdu =>
    if msdu.length ≤ awdlMtu then some { s with txQueue := s.txQueue.push msdu } else none
  | .interface op => (s.interface.next config op).map (fun interface => s.restart interface op)
  | .fetch =>
    match s.inSession,s.task,s.txQueue.peek with
    | true,.idle,some msdu => some (s.fetch crates msdu)
    | _,_,_ => none
  | .allocTxBuf now enqueued =>
    match s.task with
    | .allocating frame => (s.interface.resources.peerCache.getCommonSlotForPeer frame.dstAddr
        s.interface.resources.syncState now).bind (s.atSlot crates frame enqueued)
    | _ => none
  | .timer now enqueued =>
    match s.task with
    | .sleeping frame timestamp =>
      if timestamp ≤ now then some (s.transmit crates frame enqueued) else none
    | _ => none
  | .receive index rxBuf => s.air[index]?.map (fun sent => { s with
      received := s.received ++
        ((crates.processDataFrame sent.mpdu rxBuf).map (Prod.mk sent.position)).toList })

def Step (s : MsduPath n) (op : MsduPathOp n) (t : MsduPath n) : Prop :=
  s.next config crates op = some t

/-- The MSDU at a position is an Ethernet frame that is no solicitation. -/
def Holds (position : ℕ) (frame : EthernetFrame) : Prop :=
  ∃ msdu, s.txQueue.items[position]? = some msdu ∧ crates.ethernetFrame msdu = some frame ∧
    crates.findNdpSolicit frame = none

/-- A transmission of the frame at its position, numbered from the beginning of its session. -/
def Sent (sent : Transmission) : Prop :=
  sent.sessionStart ≤ sent.position ∧ ∃ frame, s.Holds crates sent.position frame ∧ sent.mpdu =
    crates.mpdu (AwdlDataCrates.msduFrame frame ((sent.position - sent.sessionStart) % 2 ^ 16))

structure Sound (s : MsduPath n) : Prop where
  bounded : ∀ msdu ∈ s.txQueue.items, msdu.length ≤ awdlMtu
  started : s.sessionStart ≤ s.txQueue.done
  numbered : s.dataFrameSequenceNumber = (s.txQueue.done - s.sessionStart) % 2 ^ 16
  task : ∀ frame, s.task.frame = some frame → s.Holds crates s.txQueue.done frame
  sent : ∀ sent ∈ s.air, sent.position < s.txQueue.done ∧ s.Sent crates sent
  ordered : (s.air.map Transmission.position).Pairwise (· < ·)
  received : ∀ r ∈ s.received, s.txQueue.items[r.1]? = some r.2 ∧
    r.1 ∈ s.air.map Transmission.position

variable {config crates s} {t : MsduPath n} {op : MsduPathOp n} {frame : EthernetFrame}

theorem Holds.push {position : ℕ} (h : s.Holds crates position frame) (msdu : List UInt8) :
    Holds crates { s with txQueue := s.txQueue.push msdu } position frame := by
  obtain ⟨queued,hqueued,hframe⟩ := h
  have hlt := (List.getElem?_eq_some_iff.mp hqueued).1
  exact ⟨queued,(List.getElem?_append_left hlt).trans hqueued,hframe⟩

theorem sound_queueMsdu (hs : s.Sound crates) {msdu : List UInt8} (h : msdu.length ≤ awdlMtu) :
    Sound crates { s with txQueue := s.txQueue.push msdu } where
  bounded := by
    intro queued hqueued
    rcases List.mem_append.mp hqueued with hbefore | hnew
    · exact hs.bounded queued hbefore
    · rw [List.mem_singleton.mp hnew]
      exact h
  started := hs.started
  numbered := hs.numbered
  task := fun frame hframe => (hs.task frame hframe).push msdu
  sent := by
    intro sent hsent
    obtain ⟨hlt,hsession,frame,hholds,hmpdu⟩ := hs.sent sent hsent
    exact ⟨hlt,hsession,frame,hholds.push msdu,hmpdu⟩
  ordered := hs.ordered
  received := by
    intro r hr
    obtain ⟨hqueued,hsent⟩ := hs.received r hr
    have hlt := (List.getElem?_eq_some_iff.mp hqueued).1
    exact ⟨(List.getElem?_append_left hlt).trans hqueued,hsent⟩

/-- A dropped runner leaves its MSDU at the head of the queue. -/
theorem sound_restart (hs : s.Sound crates) (interface : AwdlInterface n) (op : InterfaceOp n) :
    (s.restart interface op).Sound crates := by
  have hkept : Sound crates { s with interface := interface } :=
    ⟨hs.bounded,hs.started,hs.numbered,hs.task,hs.sent,hs.ordered,hs.received⟩
  cases op with
  | poll now =>
    refine ⟨hs.bounded,le_rfl,?_,?_,hs.sent,hs.ordered,hs.received⟩
    · exact (congrArg (· % 2 ^ 16) (Nat.sub_self s.txQueue.done)).symm
    · intro frame hframe
      cases hframe
  | _ => exact hkept

theorem sound_txDone (hs : s.Sound crates) : s.txDone.Sound crates where
  bounded := hs.bounded
  started := hs.started.trans (Nat.le_succ _)
  numbered := by
    change (s.dataFrameSequenceNumber + 1) % 2 ^ 16 = (s.txQueue.done + 1 - s.sessionStart) % 2 ^ 16
    rw [hs.numbered,Nat.sub_add_comm hs.started,Nat.mod_add_mod]
  task := by
    intro frame hframe
    cases hframe
  sent := fun sent hsent => ⟨(hs.sent sent hsent).1.trans (Nat.lt_succ_self _),(hs.sent sent hsent).2⟩
  ordered := hs.ordered
  received := hs.received

theorem sound_transmit (hs : s.Sound crates) (h : s.task.frame = some frame) (enqueued : Bool) :
    (s.transmit crates frame enqueued).Sound crates := by
  have hdone := sound_txDone hs
  unfold transmit
  simp only
  split
  · exact hdone
  · split
    · refine ⟨hdone.bounded,hdone.started,hdone.numbered,hdone.task,?_,?_,?_⟩
      · intro sent hsent
        rcases List.mem_append.mp hsent with hbefore | hnew
        · exact hdone.sent sent hbefore
        · rw [List.mem_singleton.mp hnew]
          refine ⟨Nat.lt_succ_self _,hs.started,frame,hs.task frame h,?_⟩
          rw [hs.numbered]
      · rw [List.map_append]
        refine List.pairwise_append.mpr ⟨hs.ordered,List.pairwise_singleton _ _,?_⟩
        rintro position hposition _ hnew
        obtain ⟨sent,hsent,rfl⟩ := List.mem_map.mp hposition
        rw [List.mem_singleton.mp hnew]
        exact (hs.sent sent hsent).1
      · intro r hr
        obtain ⟨hqueued,hsent⟩ := hs.received r hr
        refine ⟨hqueued,?_⟩
        rw [List.map_append]
        exact List.mem_append_left _ hsent
    · exact hdone

theorem sound_fetch (hs : s.Sound crates) {msdu : List UInt8} (h : s.txQueue.peek = some msdu) :
    (s.fetch crates msdu).Sound crates := by
  have hdone := sound_txDone hs
  unfold fetch
  split
  · exact hdone
  · rename_i frame hframe
    split
    · exact hdone
    · rename_i hsolicit
      split
      · exact hdone
      · refine ⟨hs.bounded,hs.started,hs.numbered,?_,hs.sent,hs.ordered,hs.received⟩
        rintro _ ⟨⟩
        exact ⟨msdu,h,hframe,hsolicit⟩

theorem sound_atSlot (hs : s.Sound crates) (h : s.task.frame = some frame) {enqueued : Bool}
    {slot : OverlapSlotState} (hat : s.atSlot crates frame enqueued slot = some t) :
    t.Sound crates := by
  cases slot with
  | noOverlappingSlots =>
    cases hat
    exact sound_txDone hs
  | peerNotInCache =>
    cases hat
    exact sound_txDone hs
  | currentlyOverlapping =>
    cases hat
    exact sound_transmit hs h enqueued
  | overlappingAt timestamp =>
    obtain ⟨instant,-,rfl⟩ := Option.map_eq_some_iff.mp hat
    refine ⟨hs.bounded,hs.started,hs.numbered,?_,hs.sent,hs.ordered,hs.received⟩
    rintro _ ⟨⟩
    exact hs.task frame h

/-- A transmission that is heard reaches the stack exactly if that has a buffer. -/
theorem received_sent (hc : crates.RoundTrips) (hs : s.Sound crates) {sent : Transmission}
    (h : sent ∈ s.air) : ∃ msdu, s.txQueue.items[sent.position]? = some msdu ∧
      ∀ rxBuf, crates.processDataFrame sent.mpdu rxBuf = if rxBuf then some msdu else none := by
  obtain ⟨-,-,frame,⟨msdu,hqueued,hframe,-⟩,hmpdu⟩ := hs.sent sent h
  refine ⟨msdu,hqueued,fun rxBuf => ?_⟩
  rw [hmpdu]
  exact AwdlDataCrates.processDataFrame_mpdu hc hframe
    (hs.bounded msdu (List.mem_of_getElem? hqueued)) _ rxBuf

theorem sound_step (hc : crates.RoundTrips) (hs : s.Sound crates) (h : Step config crates s op t) :
    t.Sound crates := by
  cases op with
  | queueMsdu msdu =>
    obtain ⟨hlength,h⟩ := Option.ite_none_right_eq_some.mp h
    cases h
    exact sound_queueMsdu hs hlength
  | interface op =>
    obtain ⟨interface,-,rfl⟩ := Option.map_eq_some_iff.mp h
    exact sound_restart hs interface op
  | fetch =>
    simp only [Step,next] at h
    split at h
    · rename_i hpeek
      cases h
      exact sound_fetch hs hpeek
    · cases h
  | allocTxBuf now enqueued =>
    simp only [Step,next] at h
    split at h
    · rename_i frame htask
      obtain ⟨slot,-,hat⟩ := Option.bind_eq_some_iff.mp h
      exact sound_atSlot hs (by rw [htask]; rfl) hat
    · cases h
  | timer now enqueued =>
    simp only [Step,next] at h
    split at h
    · rename_i frame timestamp htask
      obtain ⟨-,h⟩ := Option.ite_none_right_eq_some.mp h
      cases h
      exact sound_transmit hs (by rw [htask]; rfl) enqueued
    · cases h
  | receive index rxBuf =>
    obtain ⟨sent,hsent,rfl⟩ := Option.map_eq_some_iff.mp h
    have hmem := List.mem_of_getElem? hsent
    obtain ⟨msdu,hqueued,hpassed⟩ := received_sent hc hs hmem
    refine ⟨hs.bounded,hs.started,hs.numbered,hs.task,hs.sent,hs.ordered,?_⟩
    intro r hr
    rcases List.mem_append.mp hr with hbefore | hnew
    · exact hs.received r hbefore
    · rw [hpassed] at hnew
      cases rxBuf with
      | true =>
        rw [List.mem_singleton.mp hnew]
        exact ⟨hqueued,List.mem_map_of_mem hmem⟩
      | false => cases hnew

theorem sound_begin (interface : AwdlInterface n) : (begin interface).Sound crates := by
  refine ⟨?_,le_rfl,rfl,?_,?_,List.Pairwise.nil,?_⟩
  · intro msdu hmsdu
    cases hmsdu
  · intro frame hframe
    cases hframe
  · intro sent hsent
    cases hsent
  · intro r hr
    cases hr

/-! ## What is not lost -/

/-- An MSDU for everyone that is no solicitation and fits a buffer. -/
def Multicast (crates : AwdlDataCrates) (msdu : List UInt8) : Prop :=
  ∃ frame, crates.ethernetFrame msdu = some frame ∧ crates.findNdpSolicit frame = none ∧
    isMulticast frame.dstAddr = true ∧
    ∀ number, (crates.pwrite (AwdlDataCrates.msduFrame frame number)).isSome

/-- The stack queues nothing else, and the queue of the driver takes every frame. -/
def Multicasts (crates : AwdlDataCrates) (_ : MsduPath n) : MsduPathOp n → Prop
  | .queueMsdu msdu => Multicast crates msdu
  | .allocTxBuf _ enqueued => enqueued = true
  | .timer _ enqueued => enqueued = true
  | _ => True

structure Lossless (crates : AwdlDataCrates) (s : MsduPath n) : Prop where
  multicast : ∀ msdu ∈ s.txQueue.items, Multicast crates msdu
  transmitted : s.air.map Transmission.position = List.range s.txQueue.done

theorem Holds.multicast {position : ℕ} (h : s.Holds crates position frame)
    (hl : s.Lossless crates) : isMulticast frame.dstAddr = true ∧
      ∀ number, (crates.pwrite (AwdlDataCrates.msduFrame frame number)).isSome := by
  obtain ⟨msdu,hqueued,hframe,-⟩ := h
  obtain ⟨other,hother,-,hmulticast,hpwrite⟩ :=
    hl.multicast msdu (List.mem_of_getElem? hqueued)
  obtain rfl := Option.some.inj (hframe.symm.trans hother)
  exact ⟨hmulticast,hpwrite⟩

theorem lossless_transmit (hs : s.Sound crates) (hl : s.Lossless crates)
    (h : s.task.frame = some frame) : (s.transmit crates frame true).Lossless crates := by
  obtain ⟨-,hpwrite⟩ := (hs.task frame h).multicast hl
  obtain ⟨written,hwritten⟩ := Option.isSome_iff_exists.mp (hpwrite s.dataFrameSequenceNumber)
  unfold transmit
  simp only [hwritten,if_true]
  refine ⟨hl.multicast,?_⟩
  rw [List.map_append,hl.transmitted]
  exact List.range_succ.symm

theorem lossless_step (hs : s.Sound crates) (hl : s.Lossless crates)
    (h : Guarded (Multicasts crates) (Step config crates) s op t) : t.Lossless crates := by
  obtain ⟨hop,h⟩ := h
  cases op with
  | queueMsdu msdu =>
    obtain ⟨-,h⟩ := Option.ite_none_right_eq_some.mp h
    cases h
    refine ⟨?_,hl.transmitted⟩
    intro queued hqueued
    rcases List.mem_append.mp hqueued with hbefore | hnew
    · exact hl.multicast queued hbefore
    · rw [List.mem_singleton.mp hnew]
      exact hop
  | interface op =>
    obtain ⟨interface,-,rfl⟩ := Option.map_eq_some_iff.mp h
    cases op <;> exact ⟨hl.multicast,hl.transmitted⟩
  | fetch =>
    simp only [Step,next] at h
    split at h
    · rename_i msdu _ _ hpeek
      obtain ⟨frame,hframe,hsolicit,hmulticast,-⟩ :=
        hl.multicast msdu (List.mem_of_getElem? hpeek)
      have hfetch : s.fetch crates msdu = { s with task := .allocating frame } := by
        unfold fetch
        simp [hframe,hsolicit,hmulticast]
      rw [hfetch] at h
      cases h
      exact ⟨hl.multicast,hl.transmitted⟩
    · cases h
  | allocTxBuf now enqueued =>
    simp only [Step,next] at h
    split at h
    · rename_i frame htask
      obtain ⟨slot,hslot,hat⟩ := Option.bind_eq_some_iff.mp h
      have hframe : s.task.frame = some frame := by rw [htask]; rfl
      rw [PeerCache.getCommonSlotForPeer,if_pos ((hs.task frame hframe).multicast hl).1] at hslot
      obtain ⟨timestamp,-,rfl⟩ := Option.map_eq_some_iff.mp hslot
      obtain ⟨instant,-,rfl⟩ := Option.map_eq_some_iff.mp hat
      exact ⟨hl.multicast,hl.transmitted⟩
    · cases h
  | timer now enqueued =>
    simp only [Step,next] at h
    split at h
    · rename_i frame timestamp htask
      obtain ⟨-,h⟩ := Option.ite_none_right_eq_some.mp h
      cases h
      obtain rfl : enqueued = true := hop
      exact lossless_transmit hs hl (by rw [htask]; rfl)
    · cases h
  | receive index rxBuf =>
    obtain ⟨sent,-,rfl⟩ := Option.map_eq_some_iff.mp h
    exact ⟨hl.multicast,hl.transmitted⟩

/-- In every run, over all sessions, the MSDUs are transmitted in the order in which they were
queued, each once at most and numbered from the beginning of its session. A stack gets the bytes
that the other one queued, and from every transmission that is heard while it has a buffer. If
all are multicast and the queue of the driver takes every frame, none that left the queue was
lost to the end of a session. -/
theorem msdus_of_runs (hc : crates.RoundTrips) {interface : AwdlInterface n}
    {ops : List (MsduPathOp n)} (hr : Runs (Step config crates) (begin interface) ops s) :
    (s.air.map Transmission.position).Pairwise (· < ·) ∧
      (∀ sent ∈ s.air, sent.position < s.txQueue.done ∧ s.Sent crates sent) ∧
      (∀ r ∈ s.received, s.txQueue.items[r.1]? = some r.2 ∧
        r.1 ∈ s.air.map Transmission.position) ∧
      (∀ index sent, s.air[index]? = some sent → ∃ msdu,
        s.txQueue.items[sent.position]? = some msdu ∧ ∀ rxBuf t,
          Step config crates s (.receive index rxBuf) t →
            t.received = s.received ++ if rxBuf then [(sent.position,msdu)] else []) ∧
      (Runs (Guarded (Multicasts crates) (Step config crates)) (begin interface) ops s →
        s.air.map Transmission.position = List.range s.txQueue.done) := by
  have hs : s.Sound crates :=
    hr.invariant (I := Sound crates) (fun _ _ _ => sound_step hc) (sound_begin interface)
  refine ⟨hs.ordered,hs.sent,hs.received,?_,?_⟩
  · intro index sent hsent
    obtain ⟨msdu,hqueued,hpassed⟩ := received_sent hc hs (List.mem_of_getElem? hsent)
    refine ⟨msdu,hqueued,fun rxBuf t h => ?_⟩
    simp only [Step,next,hsent,Option.map_some,hpassed] at h
    cases h
    cases rxBuf with
    | true => rfl
    | false => rfl
  · intro hguarded
    have hboth := hguarded.invariant (I := fun s => s.Sound crates ∧ s.Lossless crates)
      (fun s op t hst h => ⟨sound_step hc hst.1 h.2,lossless_step hst.1 hst.2 h⟩)
      ⟨sound_begin interface,(fun msdu hmsdu => by cases hmsdu),rfl⟩
    exact hboth.2.transmitted

end MsduPath

/-! ## The formats -/

section Formats

def beBytes (x : ℕ) : List UInt8 := [UInt8.ofNat (x / 256),UInt8.ofNat x]

def addressBytes (a : Address) : List UInt8 := List.ofFn a

def addressOf (b₀ b₁ b₂ b₃ b₄ b₅ : UInt8) : Address
  | 0 => b₀
  | 1 => b₁
  | 2 => b₂
  | 3 => b₃
  | 4 => b₄
  | 5 => b₅

theorem beBytes_beU16 (a b : UInt8) : beBytes (Rsn.beU16 a b) = [a,b] := by
  have h := fromBeBytes_toNat a b
  have hhigh := high_fromBeBytes (a := a) (b := b)
  have hlow := low_fromBeBytes (a := a) (b := b)
  rw [h] at hhigh hlow
  rw [beBytes,Rsn.beU16,hhigh,hlow]

theorem beU16_beBytes {x : ℕ} (h : x < 2 ^ 16) :
    Rsn.beU16 (UInt8.ofNat (x / 256)) (UInt8.ofNat x) = x := by
  rw [Rsn.beU16,UInt8.toNat_ofNat',UInt8.toNat_ofNat']
  omega

theorem addressOf_self (a : Address) : addressOf (a 0) (a 1) (a 2) (a 3) (a 4) (a 5) = a := by
  funext i
  match i with
  | 0 => rfl
  | 1 => rfl
  | 2 => rfl
  | 3 => rfl
  | 4 => rfl
  | 5 => rfl

def readEthernetFrame : List UInt8 → Option EthernetFrame
  | d₀ :: d₁ :: d₂ :: d₃ :: d₄ :: d₅ :: s₀ :: s₁ :: s₂ :: s₃ :: s₄ :: s₅ :: t₀ :: t₁ :: payload =>
    some ⟨addressOf s₀ s₁ s₂ s₃ s₄ s₅,addressOf d₀ d₁ d₂ d₃ d₄ d₅,Rsn.beU16 t₀ t₁,payload⟩
  | _ => none

/-- An unprotected data frame between stations. -/
def readDataFrame : List UInt8 → Option AwdlDataFrame
  | c₀ :: c₁ :: _ :: _ :: d₀ :: d₁ :: d₂ :: d₃ :: d₄ :: d₅ :: s₀ :: s₁ :: s₂ :: s₃ :: s₄ :: s₅ ::
      _ :: _ :: _ :: _ :: _ :: _ :: _ :: _ :: body =>
    if c₀ = 0x08 ∧ c₁ = 0x00 then
      some ⟨some (addressOf d₀ d₁ d₂ d₃ d₄ d₅),some (addressOf s₀ s₁ s₂ s₃ s₄ s₅),some body⟩
    else none
  | _ => none

def readSnapLlcFrame : List UInt8 → Option (List UInt8 × List UInt8)
  | a :: b :: c :: o₀ :: o₁ :: o₂ :: _ :: _ :: payload =>
    if a = 0xaa ∧ b = 0xaa ∧ c = 0x03 then some ([o₀,o₁,o₂],payload) else none
  | _ => none

def readAwdlDataFrame : List UInt8 → Option (ℕ × List UInt8)
  | a :: b :: _ :: _ :: _ :: _ :: t₀ :: t₁ :: payload =>
    if a = 0x03 ∧ b = 0x04 then some (Rsn.beU16 t₀ t₁,payload) else none
  | _ => none

/-- The formats for a stack without IPv6, with unlimited buffers. -/
def wireCrates : AwdlDataCrates where
  ethernetFrame := readEthernetFrame
  findNdpSolicit := fun _ => none
  pwrite := fun frame => some (40 + frame.payload.length)
  ethernetBytes := fun frame => addressBytes frame.dstAddr ++ addressBytes frame.srcAddr ++
    beBytes frame.ethertype ++ frame.payload
  mpduBytes := fun bssid destinationAddress sourceAddress body => [0x08,0x00,0,0] ++
    addressBytes destinationAddress ++ addressBytes sourceAddress ++ addressBytes bssid ++
    [0,0] ++ body
  snapLlcBytes := fun oui etherType payload => [0xaa,0xaa,0x03] ++ oui ++ beBytes etherType ++
    payload
  awdlDataBytes := fun etherType payload sequenceNumber => [0x03,0x04,UInt8.ofNat sequenceNumber,
    UInt8.ofNat (sequenceNumber / 256),0,0] ++ beBytes etherType ++ payload
  dataFrame := readDataFrame
  snapLlcFrame := readSnapLlcFrame
  awdlDataFrame := readAwdlDataFrame

theorem wireCrates_roundTrips : wireCrates.RoundTrips where
  ethernetBytes := by
    intro msdu frame h
    change readEthernetFrame msdu = some frame at h
    unfold readEthernetFrame at h
    split at h
    · rename_i t₀ t₁ payload
      cases h
      refine ⟨?_,?_,?_⟩
      · change addressBytes _ ++ addressBytes _ ++ beBytes (Rsn.beU16 t₀ t₁) ++ payload = _
        rw [beBytes_beU16]
        rfl
      · simp only [List.length_cons]
        omega
      · have h₀ := t₀.toNat_lt
        have h₁ := t₁.toNat_lt
        simp only [Rsn.beU16]
        omega
    · cases h
  dataFrame := by
    intro bssid destinationAddress sourceAddress body
    exact congrArg₂ (fun d a => some (AwdlDataFrame.mk (some d) (some a) (some body)))
      (addressOf_self destinationAddress) (addressOf_self sourceAddress)
  snapLlcFrame := by
    intro oui etherType payload h
    obtain ⟨o₀,o₁,o₂,rfl⟩ := List.length_eq_three.mp h
    rfl
  awdlDataFrame := by
    intro etherType payload sequenceNumber h
    change some (Rsn.beU16 (UInt8.ofNat (etherType / 256)) (UInt8.ofNat etherType),payload) = _
    rw [beU16_beBytes h]

end Formats

namespace MsduPath

/-- A broadcast, fetched before the end of a session and transmitted in the next one. -/
theorem msdus_of_runs_restarted :
    let config : InterfaceConfig 1 := ⟨0,fun _ => true,⟨some 16,fun keys _ => keys.length⟩,4⟩
    let msdu : List UInt8 := [255,255,255,255,255,255,1,1,1,1,1,1,8,0,42]
    ∃ s : MsduPath 1, Runs (Step config wireCrates)
      (begin (AwdlInterface.new config (.new 1) (fun _ => 1)))
      [.interface .beginStart,.interface .completeStart,.interface (.poll 100),.queueMsdu msdu,
        .fetch,.interface .stop,.interface (.poll 5000),.interface .beginStart,
        .interface .completeStart,.interface (.poll 6000),.fetch,.allocTxBuf 6000 true,
        .timer 999999 true,.receive 0 true] s ∧
      (s.received = [(0,msdu)] ∧ s.air.map Transmission.position = [0]) ∧
      ∀ r ∈ s.received, s.txQueue.items[r.1]? = some r.2 := by
  intro config msdu
  refine Runs.exists_of_execute (fun _ _ _ h => h) (fun s => s.received = [(0,msdu)] ∧
    s.air.map Transmission.position = [0]) (by decide +kernel) ?_
  rintro s hr ⟨hreceived,hair⟩
  obtain ⟨-,-,hqueued,-⟩ := msdus_of_runs wireCrates_roundTrips hr
  exact ⟨⟨hreceived,hair⟩,fun r h => (hqueued r h).1⟩

end MsduPath

end FerrisOnAir.Awdl
