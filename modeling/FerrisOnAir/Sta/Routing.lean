import FerrisOnAir.Foundation.Runs
import FerrisOnAir.Rsn.KeyEnvelope
import FerrisOnAir.Sta.RxRouter

/-! # Which MSDUs reach the network stack

One pass of `RoutingRunner::run` has no await behind the reception, so it is a function
of the state it finds. Connections, off channel operations, router operations, keys and
free buffers of the network stack change arbitrarily between two passes. Parsing and
the split of a CCMP frame are those of the `ieee80211` crate and parameters here.
-/
namespace FerrisOnAir.Sta
open Rsn Util
variable {n : ℕ} {F : Type*}

/-- `MTU`. -/
def mtu : ℕ := 1514

def isMulticast (address : Bytes 6) : Bool := address ⟨0,by decide⟩ &&& 1 == 1

/-- A typed data frame with the addresses that its header resolves to. -/
structure DataMpdu extends Rsn.DataFrame where
  destinationAddress : Option (Bytes 6)
  sourceAddress : Option (Bytes 6)

structure SubFrame where
  payload : List UInt8
  sourceAddress : Bytes 6
  destinationAddress : Bytes 6

inductive DataFrameReadPayload
  | single (payload : List UInt8)
  | amsdu (subFrames : List SubFrame)

inductive PotentiallyWrappedPayload
  | unwrapped (payload : DataFrameReadPayload)
  | cryptoWrapped (packetNumber : ℕ) (payload : DataFrameReadPayload)

structure RoutingCodec (F : Type*) where
  genericFrame : F → Option GenericFrame
  dataFrame : F → Option DataMpdu
  potentiallyWrappedPayload : DataMpdu → Option PotentiallyWrappedPayload
  snapLlcFrame : List UInt8 → Option (ℕ × List UInt8)

/-- A payload is wrapped exactly if the frame has the Protected flag. -/
def RoutingCodec.WrapsProtected (codec : RoutingCodec F) : Prop :=
  ∀ d w, codec.potentiallyWrappedPayload d = some w →
    (d.isProtected = true ↔ ∃ pn payload, w = .cryptoWrapped pn payload)

structure Msdu where
  destination : Bytes 6
  source : Bytes 6
  etherType : ℕ
  payload : List UInt8

/-- What the routing task reads: the own address of the connection, the interface of the
off channel operation, the keys, the router and the free buffers of the network stack. -/
structure RoutingState (n : ℕ) (F : Type*) where
  connection : Option (Bytes 6)
  offChannelOperationInterface : Option (Fin n)
  cryptoState : Option CryptoState
  router : RxRouter F StaRxRouterOperation
  rxBuffers : ℕ

/-- An MSDU handed over, the frame it came in and the state in which that was received. -/
structure Delivery (n : ℕ) (F : Type*) where
  frame : F
  state : RoutingState n F
  msdu : Msdu

structure RoutingRunner (n : ℕ) (F : Type*) where
  state : RoutingState n F
  delivered : List (Delivery n F)

inductive RoutingOp (n : ℕ) (F : Type*)
  | receive (frame : F)
  | environment (state : RoutingState n F)

/-- The key ID in the first eight bytes of a protected frame, behind the check of the
reserved bits and the extended IV flag. -/
def ccmpKeyId : List UInt8 → Option ℕ
  | _ :: _ :: b₂ :: b₃ :: _ :: _ :: _ :: _ :: _ =>
    if b₂ ≠ 0 ∨ b₃ &&& 0x3f ≠ 0x20 then none else some (b₃ >>> 6).toNat
  | _ => none

namespace RoutingCodec
variable (codec : RoutingCodec F)

/-- `is_key_frame`. -/
def isKeyFrame (frame : F) : Bool :=
  match (codec.dataFrame frame).bind codec.potentiallyWrappedPayload with
  | some (.unwrapped (.single bytes)) | some (.cryptoWrapped _ (.single bytes)) =>
    bytes.take 8 == eapolLlc && bytes[9]? == some 3
  | _ => false

def handleDownlinkMsdu (rxBuffers : ℕ) (payload : List UInt8) (source destination : Bytes 6) :
    Option Msdu :=
  match codec.snapLlcFrame payload with
  | none => none
  | some (etherType,body) =>
    if rxBuffers = 0 then none
    else if 14 + body.length ≤ mtu then some ⟨destination,source,etherType,body⟩
    else none

/-- The subframes are handed over up to the first one that fails. -/
def handleSubFrames : ℕ → List SubFrame → List Msdu
  | _,[] => []
  | rxBuffers,f :: fs =>
    match codec.handleDownlinkMsdu rxBuffers f.payload f.sourceAddress f.destinationAddress with
    | none => []
    | some msdu => msdu :: handleSubFrames (rxBuffers - 1) fs

end RoutingCodec

namespace RoutingState
variable (codec : RoutingCodec F) (interface : Fin n) (queueDepth : ℕ) (s : RoutingState n F)

def inOffChannelOperation : Bool := s.offChannelOperationInterface == some interface

def offChannelOperationInProgress : Bool := s.offChannelOperationInterface.isSome

def connectingMacAddress : Option (Bytes 6) :=
  ((s.router.operationState .foreground).or (s.router.operationState .background)).bind
    StaRxRouterOperation.connectingMacAddress

def processPotentiallyWrappedPayload (isGroup : Bool) (keyId : ℕ) :
    PotentiallyWrappedPayload → Option DataFrameReadPayload × RoutingState n F
  | .unwrapped payload => (some payload,s)
  | .cryptoWrapped packetNumber payload =>
    match s.cryptoState with
    | none => (none,s)
    | some crypto =>
      let r := crypto.validateData isGroup keyId packetNumber
      (if r.1 then some payload else none,{ s with cryptoState := some r.2 })

/-- The key ID `handle_data_rx` works with. -/
def wireKeyId (d : DataMpdu) : Option ℕ :=
  if d.isProtected then d.payload.bind ccmpKeyId else some 0

def handleDataRx (d : DataMpdu) : List Msdu × RoutingState n F :=
  match d.destinationAddress,d.sourceAddress,wireKeyId d,codec.potentiallyWrappedPayload d with
  | some destination,some source,some keyId,some wrapped =>
    let r := s.processPotentiallyWrappedPayload (isMulticast destination) keyId wrapped
    let msdus := match r.1 with
      | none => []
      | some (.single payload) =>
        (codec.handleDownlinkMsdu s.rxBuffers payload source destination).toList
      | some (.amsdu subFrames) => codec.handleSubFrames s.rxBuffers subFrames
    (msdus,{ r.2 with rxBuffers := r.2.rxBuffers - msdus.length })
  | _,_,_,_ => ([],s)

/-- The address filter: what is neither multicast nor for the address in use. -/
def addressRejected (address1 : Bytes 6) : Bool :=
  !isMulticast address1 &&
    (s.connection.or s.connectingMacAddress).any (fun ownAddress => ownAddress != address1)

/-- One pass of `RoutingRunner::run`. -/
def receive (frame : F) : List Msdu × RoutingState n F :=
  match codec.genericFrame frame with
  | none => ([],s)
  | some g =>
    let route := { s with
      router := (s.router.routeFrame (staRouter codec.genericFrame queueDepth) frame).2 }
    if s.addressRejected g.address1 then ([],s)
    else if !s.inOffChannelOperation interface && s.offChannelOperationInProgress then ([],s)
    else if s.connection.isSome && !codec.isKeyFrame frame && g.frameType == .data then
      match codec.dataFrame frame with
      | none => ([],s)
      | some d => if s.inOffChannelOperation interface then ([],s) else s.handleDataRx codec d
    else ([],route)

end RoutingState

namespace RoutingRunner
variable (codec : RoutingCodec F) (interface : Fin n) (queueDepth : ℕ)

def step (s : RoutingRunner n F) : RoutingOp n F → RoutingRunner n F
  | .receive frame =>
    let r := s.state.receive codec interface queueDepth frame
    { state := r.2, delivered := s.delivered ++ r.1.map (fun msdu => ⟨frame,s.state,msdu⟩) }
  | .environment state => { s with state := state }

def Step (s : RoutingRunner n F) (op : RoutingOp n F) (t : RoutingRunner n F) : Prop :=
  t = s.step codec interface queueDepth op

end RoutingRunner

/-- The packet number is above the last one accepted under the key of the wire key ID: the
group key with that ID, or the PTK with ID 0. -/
def Fresh (crypto : CryptoState) (isGroup : Bool) (keyId packetNumber : ℕ) : Prop :=
  if isGroup then ∃ a, crypto.securityAssociations.groupKey keyId = some a ∧
    a.replayCounter < packetNumber
  else keyId = 0 ∧ crypto.securityAssociations.ptksa.replayCounter < packetNumber

/-- A protected frame with a well-formed CCMP header whose packet number is fresh. -/
def ProtectedFresh (codec : RoutingCodec F) (state : RoutingState n F) (d : DataMpdu) : Prop :=
  ∃ crypto destination keyId packetNumber payload, state.cryptoState = some crypto ∧
    d.destinationAddress = some destination ∧ d.payload.bind ccmpKeyId = some keyId ∧
    codec.potentiallyWrappedPayload d = some (.cryptoWrapped packetNumber payload) ∧
    Fresh crypto (isMulticast destination) keyId packetNumber

/-- Delivered while connected and while no off channel operation was in progress; if the
frame was protected, with a fresh packet number under an active RSNA. -/
def Authorised (codec : RoutingCodec F) (e : Delivery n F) : Prop :=
  e.state.connection.isSome = true ∧ e.state.offChannelOperationInterface = none ∧
    ∃ d, codec.dataFrame e.frame = some d ∧
      (d.isProtected = true → ProtectedFresh codec e.state d)

theorem validateData_fresh {crypto : CryptoState} {isGroup : Bool} {keyId packetNumber : ℕ}
    (h : (crypto.validateData isGroup keyId packetNumber).1 = true) :
    Fresh crypto isGroup keyId packetNumber := by
  have hfresh {N : ℕ} {a : TransientKeySecurityAssociation N}
      (ha : (a.updateAndValidateReplayCounter packetNumber).1 = true) :
      a.replayCounter < packetNumber := by
    by_contra hle
    rw [TransientKeySecurityAssociation.updateAndValidate_of_le (Nat.not_lt.mp hle)] at ha
    cases ha
  unfold CryptoState.validateData at h
  unfold Fresh SecurityAssociations.groupKey
  cases isGroup with
  | true =>
    simp only [if_true] at h ⊢
    by_cases hk : keyId < 4
    · simp only [dif_pos hk] at h ⊢
      cases ha : crypto.securityAssociations.groupKeys ⟨keyId,hk⟩ with
      | none => simp only [ha] at h; cases h
      | some a =>
        simp only [ha] at h
        exact ⟨a,rfl,hfresh h⟩
    · simp only [dif_neg hk] at h
      cases h
  | false =>
    simp only [Bool.false_eq_true,if_false] at h ⊢
    by_cases hk : keyId = 0
    · simp only [if_pos hk] at h
      exact ⟨hk,hfresh h⟩
    · simp only [if_neg hk] at h
      cases h

section Pass
variable {codec : RoutingCodec F} {interface : Fin n} {queueDepth : ℕ} {s : RoutingState n F}
  {frame : F} {msdu : Msdu}

theorem handleDataRx_protected (hw : codec.WrapsProtected) {d : DataMpdu}
    (h : msdu ∈ (s.handleDataRx codec d).1) (hd : d.isProtected = true) :
    ProtectedFresh codec s d := by
  unfold RoutingState.handleDataRx at h
  split at h
  · rename_i destination source keyId wrapped hdest hsrc hid hwrapped
    obtain ⟨pn,payload,rfl⟩ := (hw d wrapped hwrapped).mp hd
    simp only [RoutingState.processPotentiallyWrappedPayload] at h
    cases hcrypto : s.cryptoState with
    | none =>
      simp only [hcrypto] at h
      cases h
    | some crypto =>
      simp only [hcrypto] at h
      cases hv : (crypto.validateData (isMulticast destination) keyId pn).1 with
      | false =>
        simp only [hv,Bool.false_eq_true,if_false] at h
        cases h
      | true =>
        rw [RoutingState.wireKeyId,if_pos hd] at hid
        exact ⟨crypto,destination,keyId,pn,payload,hcrypto,hdest,hid,hwrapped,
          validateData_fresh hv⟩
  · cases h

/-- The checks a data frame has to pass on its way to `handle_data_rx`. -/
def handsOver (codec : RoutingCodec F) (interface : Fin n) (s : RoutingState n F) (frame : F)
    (g : GenericFrame) : Bool :=
  !s.addressRejected g.address1 &&
    !(!s.inOffChannelOperation interface && s.offChannelOperationInProgress) &&
    (s.connection.isSome && !codec.isKeyFrame frame && g.frameType == .data) &&
    !s.inOffChannelOperation interface

theorem receive_fst : (s.receive codec interface queueDepth frame).1 =
    ((codec.genericFrame frame).bind (fun g => (codec.dataFrame frame).bind (fun d =>
      if handsOver codec interface s frame g then some (s.handleDataRx codec d).1 else none))).getD
      [] := by
  unfold RoutingState.receive handsOver
  cases codec.genericFrame frame with
  | none => rfl
  | some g =>
    cases codec.dataFrame frame with
    | none =>
      simp only [Option.bind_some,Option.bind_none,Option.getD_none]
      split_ifs <;> rfl
    | some d =>
      simp only [Option.bind_some]
      split_ifs <;> simp_all

/-- Only a pass that finds the station connected and no off channel operation hands over. -/
theorem receive_delivers (h : msdu ∈ (s.receive codec interface queueDepth frame).1) :
    s.connection.isSome = true ∧ s.offChannelOperationInterface = none ∧
      ∃ d, codec.dataFrame frame = some d ∧ msdu ∈ (s.handleDataRx codec d).1 := by
  rw [receive_fst] at h
  cases hg : codec.genericFrame frame with
  | none => simp [hg] at h
  | some g =>
    cases hd : codec.dataFrame frame with
    | none => simp [hg,hd] at h
    | some d =>
      cases hover : handsOver codec interface s frame g with
      | false => simp [hg,hd,hover] at h
      | true =>
        simp only [hg,hd,hover,Option.bind_some,if_true,Option.getD_some] at h
        simp only [handsOver,Bool.and_eq_true,Bool.not_eq_true'] at hover
        obtain ⟨⟨⟨_,hother⟩,⟨hconn,_⟩,_⟩,hown⟩ := hover
        refine ⟨hconn,?_,d,rfl,h⟩
        -- Neither an operation of another interface nor one of the own is recorded.
        cases hi : s.offChannelOperationInterface with
        | none => rfl
        | some i => simp [hown,RoutingState.offChannelOperationInProgress,hi] at hother

/-- Without a CCMP header the keys are not asked. -/
theorem handleDataRx_unprotected (hw : codec.WrapsProtected) {d : DataMpdu}
    (hclear : d.isProtected = false) (crypto : Option CryptoState) :
    ({ s with cryptoState := crypto }.handleDataRx codec d).1 = (s.handleDataRx codec d).1 := by
  unfold RoutingState.handleDataRx
  split
  · rename_i wrapped _ _ _ hwrapped
    cases wrapped with
    | unwrapped payload => rfl
    | cryptoWrapped pn payload =>
      have hp := (hw d _ hwrapped).mpr ⟨pn,payload,rfl⟩
      rw [hclear] at hp
      cases hp
  · rfl

/-- Whether an RSNA is active makes no difference for an unprotected frame. -/
theorem receive_unprotected (hw : codec.WrapsProtected) {d : DataMpdu}
    (hd : codec.dataFrame frame = some d) (hclear : d.isProtected = false)
    (crypto : Option CryptoState) :
    ({ s with cryptoState := crypto }.receive codec interface queueDepth frame).1 =
      (s.receive codec interface queueDepth frame).1 := by
  have hover : ∀ g, handsOver codec interface { s with cryptoState := crypto } frame g =
      handsOver codec interface s frame g := fun _ => rfl
  rw [receive_fst,receive_fst,hd]
  simp only [Option.bind_some,hover,handleDataRx_unprotected hw hclear crypto]

end Pass

namespace RoutingRunner
variable {codec : RoutingCodec F} {interface : Fin n} {queueDepth : ℕ} {s t : RoutingRunner n F}
  {op : RoutingOp n F}

theorem step_of_some (s : RoutingRunner n F) (op : RoutingOp n F) (t : RoutingRunner n F)
    (h : some (s.step codec interface queueDepth op) = some t) :
    Step codec interface queueDepth s op t :=
  (Option.some.inj h).symm

theorem step_authorised (hw : codec.WrapsProtected) (hs : ∀ e ∈ s.delivered, Authorised codec e)
    (he : Step codec interface queueDepth s op t) : ∀ e ∈ t.delivered, Authorised codec e := by
  intro e ht
  rw [he] at ht
  cases op with
  | environment state => exact hs e ht
  | receive frame =>
    rcases List.mem_append.mp ht with ht | ht
    · exact hs e ht
    · obtain ⟨msdu,hmsdu,rfl⟩ := List.mem_map.mp ht
      obtain ⟨hconn,hoff,d,hd,hrx⟩ := receive_delivers hmsdu
      exact ⟨hconn,hoff,d,hd,handleDataRx_protected hw hrx⟩

/-- Whatever is received and however connections, off channel operations and keys change:
an MSDU is only handed over while the station is connected and no off channel operation
is in progress. A protected frame needs an RSNA and a fresh packet number; an
unprotected one is handled alike with and without an RSNA. -/
theorem routing_authorised {state : RoutingState n F} {ops : List (RoutingOp n F)}
    (hw : codec.WrapsProtected) (hr : Runs (Step codec interface queueDepth) ⟨state,[]⟩ ops s) :
    (∀ e ∈ s.delivered, Authorised codec e) ∧
    ∀ frame d crypto, codec.dataFrame frame = some d → d.isProtected = false →
      ({ s.state with cryptoState := crypto }.receive codec interface queueDepth frame).1 =
        (s.state.receive codec interface queueDepth frame).1 := by
  constructor
  · apply Runs.invariant (I := fun s => ∀ e ∈ s.delivered, Authorised codec e)
      (fun _ _ _ hs he => step_authorised hw hs he) hr
    simp
  · intro frame d crypto hd hclear
    exact receive_unprotected hw hd hclear crypto

/-- Data frames as they are on the wire: the CCMP header and the LLC header have eight
bytes each. -/
def wireCodec : RoutingCodec DataMpdu where
  genericFrame d := some ⟨.data,d.address1,false⟩
  dataFrame := some
  potentiallyWrappedPayload d := d.payload.map (fun bytes =>
    if d.isProtected then .cryptoWrapped (beU64 ((bytes.take 2) ++ ((bytes.drop 4).take 4)).reverse)
      (.single (bytes.drop 8))
    else .unwrapped (.single bytes))
  snapLlcFrame bytes := if 8 ≤ bytes.length then
    some (beU64 ((bytes.drop 6).take 2),bytes.drop 8) else none

theorem wireCodec_wraps : wireCodec.WrapsProtected := by
  intro d w h
  obtain ⟨bytes,_,rfl⟩ := Option.map_eq_some_iff.mp h
  cases d.isProtected <;> simp

/-- A connected station with an active RSNA. -/
def securedState : RoutingState 1 DataMpdu where
  connection := some 0
  offChannelOperationInterface := none
  cryptoState := some ⟨⟨0,0,2⟩,.lowest,none,.established 0 0 (Fin.last 3)⟩
  router := .new
  rxBuffers := 2

/-- An IPv4 MSDU of one byte, with or without a CCMP header with packet number 1. -/
def ipv4Frame (isProtected : Bool) : DataMpdu where
  address1 := 0
  address2 := 1
  fromDs := true
  toDs := false
  isProtected := isProtected
  payload := some ((if isProtected then [1,0,0,0x20,0,0,0,0] else []) ++
    [0xaa,0xaa,3,0,0,0,8,0,0x45])
  destinationAddress := some 0
  sourceAddress := some 1

/-- An unprotected frame is delivered although an RSNA is active. -/
theorem routing_unprotected_delivered : ∃ s : RoutingRunner 1 DataMpdu,
    Runs (Step wireCodec 0 4) ⟨securedState,[]⟩ [.receive (ipv4Frame false)] s ∧
    ∃ e ∈ s.delivered, e.state.cryptoState.isSome = true ∧ e.frame.isProtected = false := by
  apply Runs.exists_of_execute step_of_some
    (fun s => s.delivered.any (fun e => e.state.cryptoState.isSome && !e.frame.isProtected) = true)
  · decide
  · intro s _ hs
    obtain ⟨e,he,hfields⟩ := List.any_eq_true.mp hs
    simp only [Bool.and_eq_true,Bool.not_eq_true'] at hfields
    exact ⟨e,he,hfields⟩

/-- A protected frame is delivered once; its repetition is not fresh. -/
theorem routing_protected_once : ∃ s : RoutingRunner 1 DataMpdu,
    Runs (Step wireCodec 0 4) ⟨securedState,[]⟩
      [.receive (ipv4Frame true),.receive (ipv4Frame true)] s ∧
    s.delivered.length = 1 ∧ ∀ e ∈ s.delivered, Authorised wireCodec e := by
  apply Runs.exists_of_execute step_of_some (fun s => s.delivered.length = 1)
  · decide
  · intro s hr hs
    exact ⟨hs,(routing_authorised wireCodec_wraps hr).1⟩

end RoutingRunner
end FerrisOnAir.Sta
