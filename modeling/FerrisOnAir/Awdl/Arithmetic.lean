import FerrisOnAir.Awdl.Session

/-! # Overflow in an AWDL session

A build with overflow checks panics where a sum or a product leaves its type. The functions
of a session are repeated here as such a build runs them, without a result where one of the
checks fails; where they have one it is that of the wrapping model. The session includes the
sequence number of the data frames, which counts the MSDUs.
-/
namespace FerrisOnAir.Awdl

/-- The result of a checked `u16` operation. -/
def checkedU16 (x : ℕ) : Option ℕ := Option.guard (fun x => decide (x < 2 ^ 16)) x

/-- The result of a checked `u32` operation. -/
def checkedU32 (x : ℕ) : Option ℕ := Option.guard (fun x => decide (x < 2 ^ 32)) x

/-- The result of a checked `i64` operation. -/
def checkedI64 (x : ℤ) : Option ℤ :=
  Option.guard (fun x => decide (-2 ^ 63 ≤ x ∧ x < 2 ^ 63)) x

theorem checkedU16_eq_some_iff {x y : ℕ} : checkedU16 x = some y ↔ x = y ∧ x < 2 ^ 16 := by
  rw [checkedU16,Option.guard_eq_some_iff,decide_eq_true_iff]

theorem checkedU32_eq_some_iff {x y : ℕ} : checkedU32 x = some y ↔ x = y ∧ x < 2 ^ 32 := by
  rw [checkedU32,Option.guard_eq_some_iff,decide_eq_true_iff]

theorem checkedI64_eq_some_iff {x y : ℤ} :
    checkedI64 x = some y ↔ x = y ∧ -2 ^ 63 ≤ x ∧ x < 2 ^ 63 := by
  rw [checkedI64,Option.guard_eq_some_iff,decide_eq_true_iff]

theorem asI64_of_range {x : ℤ} (h₀ : -2 ^ 63 ≤ x) (h : x < 2 ^ 63) : asI64 x = x :=
  Int.bmod_eq_of_le (by norm_num at h₀ ⊢; omega) (by norm_num at h ⊢; omega)

theorem asI64_range (x : ℤ) : -2 ^ 63 ≤ asI64 x ∧ asI64 x < 2 ^ 63 := by
  have h₀ : -((2 ^ 64 : ℕ) / 2 : ℤ) ≤ asI64 x := Int.le_bmod (by norm_num)
  have h : asI64 x < ((2 ^ 64 : ℕ) + 1) / 2 := Int.bmod_lt (by norm_num)
  norm_num at h₀ h ⊢
  omega

/-! ## The epoch of a peer -/

/-- The fields that the epoch is computed from, in 16 bits as the frame carries them. -/
structure SynchronizationParametersTLV.SixteenBit (tlv : SynchronizationParametersTLV) : Prop where
  awPeriod : tlv.awPeriod < 2 ^ 16
  awSeqNumber : tlv.awSeqNumber < 2 ^ 16
  remainingAwLength : tlv.remainingAwLength < 2 ^ 16

/-- The time since the epoch of the sender, and the epoch itself, are within 64 bits. -/
structure SynchronizationParametersTLV.EpochFits (tlv : SynchronizationParametersTLV)
    (txDelta rxTimestamp : ℕ) : Prop where
  elapsed : tu * (tlv.awPeriod * tlv.awSeqNumber + tlv.remainingAwLength) - asI64 txDelta < 2 ^ 63
  lower : -2 ^ 63 ≤ asI64 rxTimestamp -
    (tu * (tlv.awPeriod * tlv.awSeqNumber + tlv.remainingAwLength) - asI64 txDelta)
  upper : asI64 rxTimestamp -
    (tu * (tlv.awPeriod * tlv.awSeqNumber + tlv.remainingAwLength) - asI64 txDelta) < 2 ^ 63

namespace SynchronizationState

def recoverTsfEpochChecked (tlv : SynchronizationParametersTLV) (txDelta rxTimestamp : ℕ) :
    Option ℤ :=
  (checkedU32 (tlv.awPeriod * tlv.awSeqNumber)).bind (fun tuToAw =>
    (checkedU32 (tuToAw + tlv.remainingAwLength)).bind (fun tuSinceFirstAw =>
      (checkedI64 (tu * tuSinceFirstAw : ℕ)).bind (fun usSinceFirstAw =>
        (checkedI64 (usSinceFirstAw - asI64 txDelta)).bind (fun elapsedSinceTsfEpoch =>
          checkedI64 (asI64 rxTimestamp - elapsedSinceTsfEpoch)))))

theorem awPeriod_mul_awSeqNumber_le {tlv : SynchronizationParametersTLV} (h : tlv.SixteenBit) :
    tlv.awPeriod * tlv.awSeqNumber ≤ 65535 * 65535 :=
  Nat.mul_le_mul (Nat.le_of_lt_succ h.awPeriod) (Nat.le_of_lt_succ h.awSeqNumber)

/-- The product of two 16-bit numbers leaves room for a third one in 32 bits, so only the
subtractions can fail. -/
theorem recoverTsfEpochChecked_eq_some_iff {tlv : SynchronizationParametersTLV}
    {txDelta rxTimestamp : ℕ} {epoch : ℤ} (h : tlv.SixteenBit) :
    recoverTsfEpochChecked tlv txDelta rxTimestamp = some epoch ↔
      tlv.EpochFits txDelta rxTimestamp ∧ recoverTsfEpoch tlv txDelta rxTimestamp = epoch := by
  have hproduct := awPeriod_mul_awSeqNumber_le h
  have hremaining := h.remainingAwLength
  have hdelta := asI64_range txDelta
  have hsum : tlv.awPeriod * tlv.awSeqNumber + tlv.remainingAwLength < 2 ^ 32 := by omega
  have helapsed : -2 ^ 63 ≤ (tu : ℤ) * (tlv.awPeriod * tlv.awSeqNumber + tlv.remainingAwLength) -
      asI64 txDelta := by
    have hpos : 0 ≤ (tu : ℤ) * (tlv.awPeriod * tlv.awSeqNumber + tlv.remainingAwLength) := by
      positivity
    omega
  have hfits : tlv.EpochFits txDelta rxTimestamp →
      recoverTsfEpoch tlv txDelta rxTimestamp = asI64 rxTimestamp -
        (tu * (tlv.awPeriod * tlv.awSeqNumber + tlv.remainingAwLength) - asI64 txDelta) := by
    intro hfits
    unfold recoverTsfEpoch
    rw [Nat.mod_eq_of_lt hsum]
    push_cast
    rw [asI64_of_range helapsed hfits.elapsed,asI64_of_range hfits.lower hfits.upper]
  constructor
  · intro hcode
    obtain ⟨_,hu,hcode⟩ := Option.bind_eq_some_iff.mp hcode
    obtain ⟨rfl,-⟩ := checkedU32_eq_some_iff.mp hu
    obtain ⟨_,hu,hcode⟩ := Option.bind_eq_some_iff.mp hcode
    obtain ⟨rfl,-⟩ := checkedU32_eq_some_iff.mp hu
    obtain ⟨_,hu,hcode⟩ := Option.bind_eq_some_iff.mp hcode
    obtain ⟨rfl,-⟩ := checkedI64_eq_some_iff.mp hu
    obtain ⟨_,hu,hcode⟩ := Option.bind_eq_some_iff.mp hcode
    obtain ⟨rfl,-,hbelow⟩ := checkedI64_eq_some_iff.mp hu
    obtain ⟨rfl,hlower,hupper⟩ := checkedI64_eq_some_iff.mp hcode
    push_cast at hbelow hlower hupper ⊢
    have hf : tlv.EpochFits txDelta rxTimestamp := ⟨hbelow,hlower,hupper⟩
    exact ⟨hf,hfits hf⟩
  · rintro ⟨hf,rfl⟩
    rw [hfits hf]
    refine Option.bind_eq_some_iff.mpr ⟨_,checkedU32_eq_some_iff.mpr ⟨rfl,by omega⟩,?_⟩
    refine Option.bind_eq_some_iff.mpr ⟨_,checkedU32_eq_some_iff.mpr ⟨rfl,hsum⟩,?_⟩
    refine Option.bind_eq_some_iff.mpr ⟨_,checkedI64_eq_some_iff.mpr ⟨rfl,?_⟩,?_⟩
    · rw [tu]
      omega
    refine Option.bind_eq_some_iff.mpr ⟨_,checkedI64_eq_some_iff.mpr ⟨rfl,?_⟩,?_⟩
    · push_cast
      exact ⟨helapsed,hf.elapsed⟩
    · refine checkedI64_eq_some_iff.mpr ⟨?_,?_,?_⟩
      · push_cast
        rfl
      · push_cast
        exact hf.lower
      · push_cast
        exact hf.upper

def fromAfChecked (frame : ActionFrame) (rxTimestamp : ℕ) : Option (Option SynchronizationState) :=
  match frame.channelSequence,frame.synchronizationParameters with
  | some channelSequence,some tlv =>
    (recoverTsfEpochChecked tlv frame.txDelta rxTimestamp).map
      (fun epoch => some ⟨channelSequence.channels,epoch⟩)
  | _,_ => some none

end SynchronizationState

namespace ActionFrame
variable (frame : ActionFrame)

def SixteenBit : Prop := ∀ tlv, frame.synchronizationParameters = some tlv → tlv.SixteenBit

/-- The epoch is computed only from a frame that has the channel sequence as well. -/
def EpochFits (rxTimestamp : ℕ) : Prop := ∀ tlv, frame.channelSequence.isSome →
  frame.synchronizationParameters = some tlv → tlv.EpochFits frame.txDelta rxTimestamp

end ActionFrame

section Frames
variable {frame : ActionFrame} {rxTimestamp now : ℕ}

theorem fromAfChecked_eq_some_iff {r : Option SynchronizationState} (h : frame.SixteenBit) :
    SynchronizationState.fromAfChecked frame rxTimestamp = some r ↔
      frame.EpochFits rxTimestamp ∧ SynchronizationState.fromAf frame rxTimestamp = r := by
  unfold SynchronizationState.fromAfChecked SynchronizationState.fromAf ActionFrame.EpochFits
  cases hc : frame.channelSequence with
  | none =>
    constructor
    · rintro ⟨⟩
      exact ⟨fun _ hnone => absurd hnone Bool.false_ne_true,rfl⟩
    · rintro ⟨-,rfl⟩
      rfl
  | some channelSequence =>
    cases htlv : frame.synchronizationParameters with
    | none =>
      constructor
      · rintro ⟨⟩
        refine ⟨?_,rfl⟩
        rintro tlv - ⟨⟩
      · rintro ⟨-,rfl⟩
        rfl
    | some tlv =>
      rw [Option.map_eq_some_iff]
      constructor
      · rintro ⟨epoch,hepoch,rfl⟩
        obtain ⟨hf,rfl⟩ :=
          (SynchronizationState.recoverTsfEpochChecked_eq_some_iff (h tlv htlv)).mp hepoch
        refine ⟨?_,rfl⟩
        rintro _ - ⟨⟩
        exact hf
      · rintro ⟨hf,rfl⟩
        exact ⟨_,(SynchronizationState.recoverTsfEpochChecked_eq_some_iff (h tlv htlv)).mpr
          ⟨hf tlv rfl rfl,rfl⟩,rfl⟩

/-- What is made of the synchronization state of a frame. -/
theorem map_fromAfChecked_eq_some_iff {β : Type} {f : Option SynchronizationState → β} {b : β}
    (h : frame.SixteenBit) :
    (SynchronizationState.fromAfChecked frame rxTimestamp).map f = some b ↔
      frame.EpochFits rxTimestamp ∧ f (SynchronizationState.fromAf frame rxTimestamp) = b := by
  rw [Option.map_eq_some_iff]
  constructor
  · rintro ⟨sync,hsync,rfl⟩
    obtain ⟨hf,rfl⟩ := (fromAfChecked_eq_some_iff h).mp hsync
    exact ⟨hf,rfl⟩
  · rintro ⟨hf,rfl⟩
    exact ⟨_,(fromAfChecked_eq_some_iff h).mpr ⟨hf,rfl⟩,rfl⟩

/-- Clocks below 2 ^ 62 µs are far from the bounds. -/
theorem SynchronizationParametersTLV.SixteenBit.epochFits {tlv : SynchronizationParametersTLV}
    {txDelta : ℕ} (h : tlv.SixteenBit) (hdelta : txDelta < 2 ^ 62) (hrx : rxTimestamp < 2 ^ 62) :
    tlv.EpochFits txDelta rxTimestamp := by
  have hproduct := SynchronizationState.awPeriod_mul_awSeqNumber_le h
  have hremaining := h.remainingAwLength
  have htu : tu = 1024 := rfl
  have hd : asI64 txDelta = txDelta := asI64_of_range (by omega) (by omega)
  have hr : asI64 rxTimestamp = rxTimestamp := asI64_of_range (by omega) (by omega)
  constructor
  · rw [hd,htu]
    omega
  · rw [hd,hr,htu]
    omega
  · rw [hd,hr,htu]
    omega

namespace AwdlPeer

def newWithActionFrameChecked (frame : ActionFrame) (rxTimestamp now : ℕ) :
    Option (Option AwdlPeer) :=
  (SynchronizationState.fromAfChecked frame rxTimestamp).map (fun sync =>
    sync.bind (fun synchronizationState =>
      (ElectionState.fromAf frame).map (fun electionState =>
        ⟨synchronizationState,electionState,now,none,none⟩)))

def updateChecked (peer : AwdlPeer) (frame : ActionFrame) (rxTimestamp now : ℕ) :
    Option (AwdlPeer × Bool) :=
  (SynchronizationState.fromAfChecked frame rxTimestamp).map (fun sync =>
    frame.serviceResponses.foldl addService
      ({ peer with
          lastFrame := now
          synchronizationState := sync.getD peer.synchronizationState
          electionState := (ElectionState.fromAf frame).getD peer.electionState },false))

theorem newWithActionFrameChecked_eq_some_iff {r : Option AwdlPeer} (h : frame.SixteenBit) :
    newWithActionFrameChecked frame rxTimestamp now = some r ↔
      frame.EpochFits rxTimestamp ∧ newWithActionFrame frame rxTimestamp now = r :=
  map_fromAfChecked_eq_some_iff h

theorem updateChecked_eq_some_iff {peer : AwdlPeer} {r : AwdlPeer × Bool} (h : frame.SixteenBit) :
    peer.updateChecked frame rxTimestamp now = some r ↔
      frame.EpochFits rxTimestamp ∧ peer.update frame rxTimestamp now = r :=
  map_fromAfChecked_eq_some_iff h

end AwdlPeer

end Frames

/-! ## The distance to the master -/

def ElectionState.adoptMasterChecked (e : ElectionState) (masterAddress : Address)
    (master : ElectionState) : Option ElectionState :=
  (checkedU32 (master.distanceToMaster + 1)).map (fun distance =>
    { e with
      masterMetric := master.masterMetric
      masterCounter := some (master.masterCounter.getD 0)
      distanceToMaster := distance
      rootPeer := master.rootPeer
      syncPeer := some masterAddress })

theorem ElectionState.adoptMasterChecked_eq_some_iff {e master r : ElectionState}
    {address : Address} : e.adoptMasterChecked address master = some r ↔
      master.distanceToMaster + 1 < 2 ^ 32 ∧ e.adoptMaster address master = r := by
  rw [adoptMasterChecked,Option.map_eq_some_iff,adoptMaster]
  constructor
  · rintro ⟨distance,hd,rfl⟩
    obtain ⟨rfl,hlt⟩ := checkedU32_eq_some_iff.mp hd
    exact ⟨hlt,by rw [Nat.mod_eq_of_lt hlt]⟩
  · rintro ⟨hlt,rfl⟩
    exact ⟨_,checkedU32_eq_some_iff.mpr ⟨rfl,hlt⟩,by rw [Nat.mod_eq_of_lt hlt]⟩

/-- The frames that a step reads have 16-bit fields. -/
def SessionOp.SixteenBit : SessionOp → Prop
  | .processActionFrame _ frame _ _ => frame.SixteenBit
  | _ => True

namespace CommonResources
variable (config : SessionConfig) (s : CommonResources)

def adoptPeerAsMasterChecked (address : Address) (peer : AwdlPeer) : Option CommonResources :=
  (s.electionState.adoptMasterChecked address peer.electionState).map (fun electionState =>
    { s with
      syncState := s.syncState.adoptMaster peer.synchronizationState
      electionState := electionState })

def electMasterChecked : Option CommonResources :=
  match s.peerCache.findMaster s.electionState config.ourAddress with
  | some (masterAddress,masterElectionState,masterSyncState) =>
    (s.electionState.adoptMasterChecked masterAddress masterElectionState).map
      (fun electionState =>
        { s with
          syncState := s.syncState.adoptMaster masterSyncState
          electionState := electionState })
  | none =>
    if !s.electionState.isMaster config.ourAddress then
      some { s with electionState := .new config.ourAddress }
    else some s

def processActionFrameChecked (transmitter : Address) (frame : ActionFrame)
    (rxTimestamp now : ℕ) : Option CommonResources :=
  match s.peerCache.get transmitter with
  | some peer => (peer.updateChecked frame rxTimestamp now).bind (fun r =>
    let s₁ := { s with peerCache := s.peerCache.set transmitter r.1 }
    let s₂ := if r.2 then
        s₁.raiseUserEvent config
          (.discoveredServiceForPeer transmitter r.1.airdropPort r.1.airplayPort)
      else s₁
    if s₂.electionState.isMaster transmitter then s₂.adoptPeerAsMasterChecked transmitter r.1
    else some s₂)
  | none =>
    if s.peerCache.isFull config.implementation then some s
    else (AwdlPeer.newWithActionFrameChecked frame rxTimestamp now).bind (fun
      | none => some s
      | some peer =>
        let s₁ := s.raiseUserEvent config (.peerDiscovered transmitter)
        let s₂ := { s₁ with
          peerCache := s₁.peerCache.insert config.implementation transmitter peer }
        s₂.electMasterChecked config)

def stepChecked : SessionOp → Option CommonResources
  | .processActionFrame transmitter frame rxTimestamp now =>
    s.processActionFrameChecked config transmitter frame rxTimestamp now
  | .stalePeerTick timeout now => (s.purgeStalePeers config timeout now).electMasterChecked config
  | .electMaster => s.electMasterChecked config
  | .nextEvent => some { s with eventQueue := s.eventQueue.tail }

/-- The peer that an election ends with, if any, advertises less than the greatest
distance. -/
def ElectionFits : Prop := ∀ address election sync,
  s.peerCache.findMaster s.electionState config.ourAddress = some (address,election,sync) →
    election.distanceToMaster + 1 < 2 ^ 32

/-- The frame of a known peer. -/
def UpdateFits (transmitter : Address) (peer : AwdlPeer) (frame : ActionFrame)
    (rxTimestamp : ℕ) : Prop :=
  frame.EpochFits rxTimestamp ∧ (s.electionState.isMaster transmitter = true →
    ((ElectionState.fromAf frame).getD peer.electionState).distanceToMaster + 1 < 2 ^ 32)

/-- No operation of a step leaves its type: the epoch of a frame that is read is within its
bounds, and whoever is adopted advertises less than the greatest distance. -/
def Fits : SessionOp → Prop
  | .processActionFrame transmitter frame rxTimestamp now =>
    match s.peerCache.get transmitter with
    | some peer => s.UpdateFits transmitter peer frame rxTimestamp
    | none => s.peerCache.isFull config.implementation = false → frame.EpochFits rxTimestamp ∧
      ∀ peer, AwdlPeer.newWithActionFrame frame rxTimestamp now = some peer →
        ElectionFits config { s with
          peerCache := s.peerCache.insert config.implementation transmitter peer }
  | .stalePeerTick timeout now => ElectionFits config { s with
      peerCache := s.peerCache.retain (fun _ peer => now - peer.lastFrame < timeout) }
  | .electMaster => s.ElectionFits config
  | .nextEvent => True

variable {config s} {t : CommonResources}

theorem adoptPeerAsMasterChecked_eq_some_iff {address : Address} {peer : AwdlPeer} :
    s.adoptPeerAsMasterChecked address peer = some t ↔
      peer.electionState.distanceToMaster + 1 < 2 ^ 32 ∧ s.adoptPeerAsMaster address peer = t := by
  rw [adoptPeerAsMasterChecked,Option.map_eq_some_iff]
  constructor
  · rintro ⟨electionState,he,rfl⟩
    obtain ⟨hlt,rfl⟩ := ElectionState.adoptMasterChecked_eq_some_iff.mp he
    exact ⟨hlt,rfl⟩
  · rintro ⟨hlt,rfl⟩
    exact ⟨_,ElectionState.adoptMasterChecked_eq_some_iff.mpr ⟨hlt,rfl⟩,rfl⟩

theorem electMasterChecked_eq_some_iff :
    s.electMasterChecked config = some t ↔ s.ElectionFits config ∧ s.electMaster config = t := by
  unfold electMasterChecked electMaster ElectionFits
  cases h : s.peerCache.findMaster s.electionState config.ourAddress with
  | none =>
    have hnone : ∀ (address : Address) (election : ElectionState) (sync : SynchronizationState),
        none = some (address,election,sync) → election.distanceToMaster + 1 < 2 ^ 32 := by
      rintro _ _ _ ⟨⟩
    rw [and_iff_right hnone]
    cases s.electionState.isMaster config.ourAddress with
    | false => exact Option.some_inj
    | true => exact Option.some_inj
  | some master =>
    obtain ⟨address,election,sync⟩ := master
    simp only [Option.map_eq_some_iff]
    constructor
    · rintro ⟨electionState,he,rfl⟩
      obtain ⟨hlt,rfl⟩ := ElectionState.adoptMasterChecked_eq_some_iff.mp he
      refine ⟨?_,rfl⟩
      rintro _ _ _ ⟨⟩
      exact hlt
    · rintro ⟨hlt,rfl⟩
      exact ⟨_,ElectionState.adoptMasterChecked_eq_some_iff.mpr ⟨hlt _ _ _ rfl,rfl⟩,rfl⟩

/-- Services do not touch what a peer says about the election. -/
theorem update_electionState (peer : AwdlPeer) (frame : ActionFrame) (rxTimestamp now : ℕ) :
    (peer.update frame rxTimestamp now).1.electionState =
      (ElectionState.fromAf frame).getD peer.electionState := by
  have hfold : ∀ (responses : List ServiceResponse) (r : AwdlPeer × Bool),
      (responses.foldl AwdlPeer.addService r).1.electionState = r.1.electionState := by
    intro responses
    induction responses with
    | nil => exact fun _ => rfl
    | cons response responses ih =>
      intro r
      rw [List.foldl_cons,ih]
      unfold AwdlPeer.addService
      split
      · split <;> rfl
      · split <;> rfl
      · rfl
  exact hfold _ _

theorem updateFits_iff {transmitter : Address} {peer : AwdlPeer} {frame : ActionFrame}
    {rxTimestamp now : ℕ} (h : frame.SixteenBit)
    (hpeer : s.peerCache.get transmitter = some peer) :
    s.processActionFrameChecked config transmitter frame rxTimestamp now = some t ↔
      s.UpdateFits transmitter peer frame rxTimestamp ∧
        s.processActionFrame config transmitter frame rxTimestamp now = t := by
  obtain ⟨queue,hqueue⟩ := ite_raiseUserEvent_eq config
    { s with peerCache := s.peerCache.set transmitter (peer.update frame rxTimestamp now).1 }
    (.discoveredServiceForPeer transmitter (peer.update frame rxTimestamp now).1.airdropPort
      (peer.update frame rxTimestamp now).1.airplayPort) (peer.update frame rxTimestamp now).2
  have hcode : s.processActionFrameChecked config transmitter frame rxTimestamp now = some t ↔
      frame.EpochFits rxTimestamp ∧
        (if s.electionState.isMaster transmitter then
          CommonResources.adoptPeerAsMasterChecked { s with
            peerCache := s.peerCache.set transmitter (peer.update frame rxTimestamp now).1
            eventQueue := queue } transmitter (peer.update frame rxTimestamp now).1
        else some { s with
          peerCache := s.peerCache.set transmitter (peer.update frame rxTimestamp now).1
          eventQueue := queue }) = some t := by
    simp only [processActionFrameChecked,hpeer,Option.bind_eq_some_iff]
    constructor
    · rintro ⟨r,hr,hcode⟩
      obtain ⟨hf,rfl⟩ := (AwdlPeer.updateChecked_eq_some_iff h).mp hr
      simp only [hqueue] at hcode
      exact ⟨hf,hcode⟩
    · rintro ⟨hf,hcode⟩
      refine ⟨_,(AwdlPeer.updateChecked_eq_some_iff h).mpr ⟨hf,rfl⟩,?_⟩
      simp only [hqueue]
      exact hcode
  rw [hcode,UpdateFits]
  simp only [processActionFrame,hpeer,hqueue]
  cases hm : s.electionState.isMaster transmitter with
  | false =>
    simp only [Bool.false_eq_true,if_false,Option.some_inj]
    constructor
    · rintro ⟨hf,ht⟩
      exact ⟨⟨hf,False.elim⟩,ht⟩
    · rintro ⟨⟨hf,_⟩,ht⟩
      exact ⟨hf,ht⟩
  | true =>
    simp only [if_true,adoptPeerAsMasterChecked_eq_some_iff,update_electionState]
    constructor
    · rintro ⟨hf,hlt,ht⟩
      exact ⟨⟨hf,fun _ => hlt⟩,ht⟩
    · rintro ⟨⟨hf,hlt⟩,ht⟩
      exact ⟨hf,hlt trivial,ht⟩

theorem electionFits_congr (he : t.electionState = s.electionState)
    (hc : t.peerCache = s.peerCache) : t.ElectionFits config ↔ s.ElectionFits config := by
  rw [ElectionFits,ElectionFits,he,hc]

/-- The frame of a peer that is not cached. -/
theorem insertionFits_iff {transmitter : Address} {frame : ActionFrame} {rxTimestamp now : ℕ}
    (h : frame.SixteenBit) (hpeer : s.peerCache.get transmitter = none) :
    s.processActionFrameChecked config transmitter frame rxTimestamp now = some t ↔
      (s.peerCache.isFull config.implementation = false → frame.EpochFits rxTimestamp ∧
        ∀ peer, AwdlPeer.newWithActionFrame frame rxTimestamp now = some peer →
          ElectionFits config { s with
            peerCache := s.peerCache.insert config.implementation transmitter peer }) ∧
      s.processActionFrame config transmitter frame rxTimestamp now = t := by
  obtain ⟨queue,hqueue⟩ := raiseUserEvent_eq config s (.peerDiscovered transmitter)
  simp only [processActionFrameChecked,processActionFrame,hpeer,hqueue]
  cases s.peerCache.isFull config.implementation with
  | true =>
    simp only [if_true,Option.some_inj]
    exact ⟨fun ht => ⟨fun hfalse => absurd hfalse.symm Bool.false_ne_true,ht⟩,And.right⟩
  | false =>
    simp only [Bool.false_eq_true,if_false,Option.bind_eq_some_iff,forall_const]
    constructor
    · rintro ⟨r,hr,hcode⟩
      obtain ⟨hf,rfl⟩ := (AwdlPeer.newWithActionFrameChecked_eq_some_iff h).mp hr
      cases hnew : AwdlPeer.newWithActionFrame frame rxTimestamp now with
      | none =>
        rw [hnew] at hcode
        refine ⟨⟨hf,?_⟩,Option.some.inj hcode⟩
        rintro _ ⟨⟩
      | some peer =>
        rw [hnew] at hcode
        obtain ⟨he,ht⟩ := electMasterChecked_eq_some_iff.mp hcode
        refine ⟨⟨hf,?_⟩,ht⟩
        rintro _ ⟨⟩
        exact (electionFits_congr rfl rfl).mp he
    · rintro ⟨⟨hf,he⟩,ht⟩
      refine ⟨_,(AwdlPeer.newWithActionFrameChecked_eq_some_iff h).mpr ⟨hf,rfl⟩,?_⟩
      cases hnew : AwdlPeer.newWithActionFrame frame rxTimestamp now with
      | none =>
        rw [hnew] at ht
        exact congrArg some ht
      | some peer =>
        rw [hnew] at ht
        exact electMasterChecked_eq_some_iff.mpr
          ⟨(electionFits_congr rfl rfl).mp (he peer hnew),ht⟩

/-- A checked step has a result exactly if nothing leaves its type, and it is that of the
wrapping model. -/
theorem stepChecked_eq_some_iff {op : SessionOp} (h : op.SixteenBit) :
    s.stepChecked config op = some t ↔ s.Fits config op ∧ s.step config op = t := by
  cases op with
  | processActionFrame transmitter frame rxTimestamp now =>
    simp only [stepChecked,Fits,step]
    cases hpeer : s.peerCache.get transmitter with
    | some peer => exact updateFits_iff h hpeer
    | none => exact insertionFits_iff h hpeer
  | stalePeerTick timeout now =>
    obtain ⟨queue,heq⟩ := purgeStalePeers_eq config s timeout now
    simp only [stepChecked,Fits,step,heq]
    rw [electMasterChecked_eq_some_iff]
    exact and_congr_left' (electionFits_congr rfl rfl)
  | electMaster => exact electMasterChecked_eq_some_iff
  | nextEvent => exact ⟨fun ht => ⟨trivial,Option.some.inj ht⟩,fun h => congrArg some h.2⟩

end CommonResources

/-! ## Sessions -/

structure AwdlSession where
  resources : CommonResources
  dataFrameSequenceNumber : ℕ

/-- What happens in a session: a step on the common resources or the end of a pass of the
MSDU transmission. -/
inductive AwdlOp
  | resources (op : SessionOp)
  | msdu

namespace AwdlOp

def isMsdu : AwdlOp → Bool
  | .resources _ => false
  | .msdu => true

def SixteenBit : AwdlOp → Prop
  | .resources op => op.SixteenBit
  | .msdu => True

end AwdlOp

namespace AwdlSession
variable (config : SessionConfig)

def stepChecked (s : AwdlSession) : AwdlOp → Option AwdlSession
  | .resources op => (s.resources.stepChecked config op).map (fun r => { s with resources := r })
  | .msdu => (checkedU16 (s.dataFrameSequenceNumber + 1)).map
      (fun n => { s with dataFrameSequenceNumber := n })

/-- Every step of a session passes its overflow checks. -/
def NeverOverflows (s : AwdlSession) (ops : List AwdlOp) : Prop :=
  (Runs.execute (stepChecked config) s ops).isSome

/-- The resources after some operations of the wrapping model. -/
def resourcesAfter (r : CommonResources) : List AwdlOp → CommonResources
  | [] => r
  | .resources op :: ops => resourcesAfter (r.step config op) ops
  | .msdu :: ops => resourcesAfter r ops

/-- Each step fits the state in which it is taken. -/
def StepsFit (r : CommonResources) (ops : List AwdlOp) : Prop :=
  ∀ before op behind, ops = before ++ .resources op :: behind →
    (resourcesAfter config r before).Fits config op

variable {config} {r : CommonResources} {ops : List AwdlOp}

theorem stepsFit_nil : StepsFit config r [] := by
  rintro (_ | ⟨x,before⟩) op behind h <;> cases h

theorem stepsFit_resources {op : SessionOp} : StepsFit config r (.resources op :: ops) ↔
    r.Fits config op ∧ StepsFit config (r.step config op) ops := by
  constructor
  · intro h
    refine ⟨h [] op ops rfl,?_⟩
    intro before op' behind heq
    exact h (.resources op :: before) op' behind (by rw [heq]; rfl)
  · rintro ⟨hop,h⟩ (_ | ⟨x,before⟩) op' behind heq
    · cases heq
      exact hop
    · obtain ⟨rfl,rfl⟩ := List.cons.inj heq
      exact h before op' behind rfl

theorem stepsFit_msdu : StepsFit config r (.msdu :: ops) ↔ StepsFit config r ops := by
  constructor
  · intro h before op behind heq
    exact h (.msdu :: before) op behind (by rw [heq]; rfl)
  · rintro h (_ | ⟨x,before⟩) op behind heq
    · cases heq
    · obtain ⟨rfl,rfl⟩ := List.cons.inj heq
      exact h before op behind rfl

/-- By induction on the operations, from any sequence number. -/
theorem neverOverflows_from_iff {n : ℕ} (hn : n < 2 ^ 16) (h : ∀ op ∈ ops, op.SixteenBit) :
    NeverOverflows config ⟨r,n⟩ ops ↔
      n + ops.countP AwdlOp.isMsdu < 2 ^ 16 ∧ StepsFit config r ops := by
  induction ops generalizing r n with
  | nil =>
    refine iff_of_true rfl ⟨?_,stepsFit_nil⟩
    rwa [List.countP_nil,add_zero]
  | cons op ops ih =>
    have hops : ∀ op ∈ ops, op.SixteenBit := fun op hop => h op (List.mem_cons_of_mem _ hop)
    cases op with
    | resources op =>
      have hop : op.SixteenBit := h _ (List.mem_cons_self)
      rw [stepsFit_resources,List.countP_cons_of_neg Bool.false_ne_true,NeverOverflows,
        Runs.execute]
      cases hstep : r.stepChecked config op with
      | none =>
        have hfits : ¬ r.Fits config op := by
          intro hfits
          have hsome := (CommonResources.stepChecked_eq_some_iff hop).mpr ⟨hfits,rfl⟩
          cases hstep.symm.trans hsome
        refine iff_of_false ?_ (fun hf => hfits hf.2.1)
        simp [stepChecked,hstep]
      | some t =>
        obtain ⟨hfits,rfl⟩ := (CommonResources.stepChecked_eq_some_iff hop).mp hstep
        rw [and_iff_right hfits]
        simp only [stepChecked,hstep,Option.map_some,Option.bind_some]
        exact ih hn hops
    | msdu =>
      rw [stepsFit_msdu,List.countP_cons_of_pos rfl,NeverOverflows,Runs.execute]
      by_cases hlt : n + 1 < 2 ^ 16
      · have hstep : checkedU16 (n + 1) = some (n + 1) := checkedU16_eq_some_iff.mpr ⟨rfl,hlt⟩
        simp only [stepChecked,hstep,Option.map_some,Option.bind_some]
        rw [← add_assoc,add_right_comm]
        exact ih hlt hops
      · have hstep : checkedU16 (n + 1) = none := by
          cases hc : checkedU16 (n + 1) with
          | none => rfl
          | some m => exact absurd (checkedU16_eq_some_iff.mp hc).2 hlt
        refine iff_of_false ?_ (fun hf => hlt (by omega))
        simp [stepChecked,hstep]

/-- In every session, however its operations interleave. -/
theorem neverOverflows_iff (config : SessionConfig) (s : CommonResources) (channel : UInt8)
    (now : ℕ) (ops : List AwdlOp) (h : ∀ op ∈ ops, op.SixteenBit) :
    NeverOverflows config ⟨s.initializeSessionParameters config channel now,0⟩ ops ↔
      ops.countP AwdlOp.isMsdu < 2 ^ 16 ∧
        StepsFit config (s.initializeSessionParameters config channel now) ops := by
  rw [neverOverflows_from_iff (by norm_num) h,zero_add]

/-- A session with a frame of a peer of the first version and one MSDU. -/
theorem neverOverflows_firstVersionFrame :
    (∀ op ∈ [.resources CommonResources.firstVersionFrame,.msdu],AwdlOp.SixteenBit op) ∧
      [.resources CommonResources.firstVersionFrame,.msdu].countP AwdlOp.isMsdu < 2 ^ 16 ∧
      StepsFit ⟨fun _ => 1,⟨some 16,fun keys _ => keys.length⟩,4⟩
        (CommonResources.initializeSessionParameters
          ⟨fun _ => 1,⟨some 16,fun keys _ => keys.length⟩,4⟩
          ⟨⟨[],List.nodup_nil⟩,.new 1 0,.new (fun _ => 0),[]⟩ 6 0)
        [.resources CommonResources.firstVersionFrame,.msdu] := by
  have h : ∀ op ∈ [.resources CommonResources.firstVersionFrame,.msdu],AwdlOp.SixteenBit op := by
    intro op hop
    rcases List.mem_cons.mp hop with rfl | hop
    · rintro tlv ⟨⟩
      exact ⟨by decide,by decide,by decide⟩
    · obtain rfl := List.mem_singleton.mp hop
      exact trivial
  refine ⟨h,(neverOverflows_iff _ _ 6 0 _ h).mp ?_⟩
  unfold NeverOverflows
  decide

/-- A frame of a more eligible peer with the greatest distance. -/
def greatestDistanceFrame : SessionOp := .processActionFrame (fun _ => 3)
  { channelSequence := some (.simple (fun _ => 6))
    synchronizationParameters :=
      some (SynchronizationState.generateTlv ⟨fun _ => 6,0⟩ (fun _ => 3) 0 5000)
    txDelta := 0
    electionParametersV2 := some ⟨70,90,0,0,4294967295,fun _ => 4,fun _ => 5⟩
    electionParameters := none
    serviceResponses := [] } 5000 5000

/-- That frame, or the 65536th MSDU. -/
theorem not_neverOverflows :
    AwdlOp.SixteenBit (.resources greatestDistanceFrame) ∧
    (¬ NeverOverflows ⟨fun _ => 1,⟨some 16,fun keys _ => keys.length⟩,4⟩
      ⟨CommonResources.initializeSessionParameters
        ⟨fun _ => 1,⟨some 16,fun keys _ => keys.length⟩,4⟩
        ⟨⟨[],List.nodup_nil⟩,.new 1 0,.new (fun _ => 0),[]⟩ 6 0,0⟩
      [.resources greatestDistanceFrame]) ∧
    ¬ NeverOverflows ⟨fun _ => 1,⟨some 16,fun keys _ => keys.length⟩,4⟩
      ⟨CommonResources.initializeSessionParameters
        ⟨fun _ => 1,⟨some 16,fun keys _ => keys.length⟩,4⟩
        ⟨⟨[],List.nodup_nil⟩,.new 1 0,.new (fun _ => 0),[]⟩ 6 0,0⟩
      (List.replicate 65536 .msdu) := by
  refine ⟨?_,?_,?_⟩
  · rintro tlv ⟨⟩
    exact ⟨by decide,by decide,by decide⟩
  · unfold NeverOverflows
    decide
  · intro h
    have hops : ∀ op ∈ List.replicate 65536 AwdlOp.msdu,op.SixteenBit := by
      intro op hop
      rw [List.eq_of_mem_replicate hop]
      exact trivial
    have hcount := ((neverOverflows_from_iff (by norm_num) hops).mp h).1
    rw [List.countP_replicate] at hcount
    exact absurd hcount (by decide)

end AwdlSession

end FerrisOnAir.Awdl
