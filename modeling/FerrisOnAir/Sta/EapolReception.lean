import FerrisOnAir.Sta.EapolFraming
import FerrisOnAir.Rsn.GroupKeys

/-! # Received EAPOL frames, from the bytes on

`handle_eapol_retry` on a buffer: normalizing comes first, then the crypto closure. A frame
that gets no reply has at most moved the receive counter of the PTK. Where a malformed CCMP
header meets the parser is followed through one pass of `RoutingRunner::run` and through
`run_connection`; only `handle_data_rx` looks at the header before it unwraps.
-/
namespace FerrisOnAir.Sta
open Rsn

inductive EapolPanic
  | payload (e : PayloadPanic)
  | rsn (e : RsnPanic)
deriving DecidableEq

namespace FrameCodec
variable (codec : FrameCodec) (own bssid : Bytes 6) (scratch : ℕ)
  (deserialize : List UInt8 → Bytes 16 → Bytes 16 → Option EapolKeyFrame)

/-- The EAPOL decoders on the same parser. -/
def eapolCodec : EapolCodec (List UInt8) where
  dataFrame b := (codec.dataFrame b).map (fun w => w.toDataFrame)
  deserializeEapolDataFrame := deserialize

/-- `handle_eapol_retry` up to the reply, in a crypto state. -/
def handleEapolRetry (s : CryptoState) (buffer : List UInt8) :
    Except EapolPanic (CryptoState × List SetKey × Option Reply) :=
  match codec.normalize buffer own bssid with
  | .error e => .error (.payload e)
  | .ok (none,_) => .ok (s,[],none)
  | .ok (some (length,packetNumber),left) =>
    match s.handleEapolRetry ((codec.eapolCodec deserialize).decoder own bssid scratch) bssid
        (left.take length) packetNumber with
    | .error e => .error (.rsn e)
    | .ok r => .ok r

/-- `handle_data_rx` up to its call of `potentially_wrapped_payload`, with the key ID. -/
def handleDataRxPayload (w : WireFrame) :
    Except PayloadPanic (Option (ℕ × PotentiallyWrappedPayload)) :=
  match w.destinationAddress,w.sourceAddress,RoutingState.wireKeyId w.toDataMpdu with
  | some _,some _,some keyId =>
    (codec.potentiallyWrappedPayload w).map (fun wrapped => wrapped.map (fun p => (keyId,p)))
  | _,_,_ => .ok none

/-- What `run_connection` does with a frame from the background queue, as far as it looks
into a data frame. -/
def handleBackgroundFrame (buffer : List UInt8) :
    Except PayloadPanic (Option (ℕ × Option ℕ)) :=
  match codec.isKeyFrame buffer with
  | .error e => .error e
  | .ok false => .ok none
  | .ok true => (codec.normalize buffer own bssid).map Prod.fst

end FrameCodec

namespace RoutingState
variable {n : ℕ} (codec : FrameCodec) (interface : Fin n) (s : RoutingState n (List UInt8))

/-- A frame that one pass of `RoutingRunner::run` does not drop unread. -/
def Considers (buffer : List UInt8) : Prop := ∃ g, codec.genericFrame buffer = some g ∧
  s.addressRejected g.address1 = false ∧
  (!s.inOffChannelOperation interface && s.offChannelOperationInProgress) = false

/-- The pass, as far as it looks into a data frame: whether the frame goes on to the
router. -/
def receivePayload (buffer : List UInt8) : Except PayloadPanic Bool :=
  match codec.genericFrame buffer with
  | none => .ok false
  | some g =>
    if s.addressRejected g.address1 then .ok false
    else if !s.inOffChannelOperation interface && s.offChannelOperationInProgress then .ok false
    else if s.connection.isSome then
      match codec.isKeyFrame buffer with
      | .error e => .error e
      | .ok true => .ok true
      | .ok false =>
        if g.frameType == .data then
          match codec.dataFrame buffer with
          | none => .ok false
          | some w =>
            if s.inOffChannelOperation interface then .ok false
            else (codec.handleDataRxPayload w).map (fun _ => false)
        else .ok true
    else .ok true

/-- Neither the pass nor, for a frame that it hands on, the connection task panics. -/
def SurvivesFrame (own bssid : Bytes 6) (buffer : List UInt8) : Prop :=
  ∃ handedOn, s.receivePayload codec interface buffer = .ok handedOn ∧
    (handedOn = true → ∃ r, codec.handleBackgroundFrame own bssid buffer = .ok r)

end RoutingState

namespace FrameCodec
variable {codec : FrameCodec} {own bssid : Bytes 6} {buffer : List UInt8} {w : WireFrame}

/-! ## Where a malformed header panics -/

theorem isKeyFrame_panics_iff (hwire : codec.OnTheWire) (buffer : List UInt8) :
    (∃ e, codec.isKeyFrame buffer = .error e) ↔ codec.Malformed buffer := by
  unfold isKeyFrame Malformed
  cases hw : codec.dataFrame buffer with
  | none => simp
  | some w =>
    have hpanics := hwire.panics w
    simp only
    cases hp : codec.potentiallyWrappedPayload w with
    | error e =>
      rw [hp] at hpanics
      obtain ⟨hprotected,body,hbody,hk⟩ := hpanics.mp ⟨e,rfl⟩
      exact iff_of_true ⟨e,rfl⟩ ⟨w,body,rfl,hprotected,hbody,hk⟩
    | ok payload =>
      rw [hp] at hpanics
      refine iff_of_false ?_ ?_
      · rintro ⟨e,he⟩
        rcases payload with _ | _ | _ <;> cases he
      · rintro ⟨_,body,⟨⟩,hprotected,hbody,hk⟩
        obtain ⟨e,he⟩ := hpanics.mpr ⟨hprotected,body,hbody,hk⟩
        cases he

/-- `normalize` runs the same call twice. -/
theorem normalize_of_isKeyFrame (own bssid : Bytes 6) {b : Bool}
    (h : codec.isKeyFrame buffer = .ok b) :
    ∃ r, codec.normalize buffer own bssid = .ok r := by
  unfold normalize
  cases hw : codec.dataFrame buffer with
  | none => exact ⟨_,rfl⟩
  | some w =>
    simp only [h]
    split
    · exact ⟨_,rfl⟩
    · cases b with
      | false => exact ⟨_,rfl⟩
      | true =>
        simp only [isKeyFrame,hw] at h
        cases hp : codec.potentiallyWrappedPayload w with
        | error e =>
          simp only [hp] at h
          cases h
        | ok payload =>
          rcases payload with _ | ⟨_⟩ | ⟨_,_⟩
          · exact ⟨_,rfl⟩
          · exact ⟨_,rfl⟩
          · simp only
            split
            · split <;> exact ⟨_,rfl⟩
            · exact ⟨_,rfl⟩

theorem handleBackgroundFrame_of_isKeyFrame (own bssid : Bytes 6) {b : Bool}
    (h : codec.isKeyFrame buffer = .ok b) :
    ∃ r, codec.handleBackgroundFrame own bssid buffer = .ok r := by
  obtain ⟨r,hr⟩ := normalize_of_isKeyFrame own bssid h
  cases b with
  | false => exact ⟨none,by simp only [handleBackgroundFrame,h]⟩
  | true => exact ⟨r.1,by simp only [handleBackgroundFrame,h,hr]; rfl⟩

/-- The check of the header comes before the call. -/
theorem handleDataRxPayload_ok (hwire : codec.OnTheWire) (w : WireFrame) :
    ∃ r, codec.handleDataRxPayload w = .ok r := by
  unfold handleDataRxPayload
  split
  · rename_i keyId _ _ hkey
    cases hp : codec.potentiallyWrappedPayload w with
    | ok payload => exact ⟨_,rfl⟩
    | error e =>
      obtain ⟨hprotected,body,hbody,hk⟩ := (hwire.panics w).mp ⟨e,hp⟩
      simp [RoutingState.wireKeyId,hprotected,hbody,hk] at hkey
  · exact ⟨_,rfl⟩

end FrameCodec

namespace RoutingState
variable {n : ℕ} {codec : FrameCodec} {interface : Fin n} {s : RoutingState n (List UInt8)}
  {buffer : List UInt8}

/-- `is_key_frame` is the only call of the pass that can panic. -/
theorem receivePayload_of_isKeyFrame (hwire : codec.OnTheWire) (interface : Fin n)
    (s : RoutingState n (List UInt8)) {b : Bool} (hkey : codec.isKeyFrame buffer = .ok b) :
    ∃ handedOn, s.receivePayload codec interface buffer = .ok handedOn := by
  unfold receivePayload
  split
  · exact ⟨_,rfl⟩
  · rw [hkey]
    split
    · exact ⟨_,rfl⟩
    · split
      · exact ⟨_,rfl⟩
      · split
        · cases b with
          | true => exact ⟨_,rfl⟩
          | false =>
            dsimp only
            split
            · split
              · exact ⟨_,rfl⟩
              · split
                · exact ⟨_,rfl⟩
                · rename_i w _ _
                  obtain ⟨r,hr⟩ := FrameCodec.handleDataRxPayload_ok hwire w
                  rw [hr]
                  exact ⟨_,rfl⟩
            · exact ⟨_,rfl⟩
        · exact ⟨_,rfl⟩

theorem receivePayload_of_not_considers (hc : ¬ s.Considers codec interface buffer) :
    s.receivePayload codec interface buffer = .ok false := by
  unfold receivePayload
  cases hg : codec.genericFrame buffer with
  | none => rfl
  | some g =>
    cases haddress : s.addressRejected g.address1 with
    | true => simp [haddress]
    | false =>
      cases hoff : (!s.inOffChannelOperation interface && s.offChannelOperationInProgress) with
      | true => simp only [haddress,Bool.false_eq_true,if_false,if_true]
      | false => exact absurd ⟨g,hg,haddress,hoff⟩ hc

/-- While connected a frame is survived exactly if it is dropped unread or its CCMP header
is not malformed: `is_key_frame` unwraps every data frame unchecked. -/
theorem survivesFrame_iff (hwire : codec.OnTheWire) (hconnected : s.connection.isSome)
    (own bssid : Bytes 6) (buffer : List UInt8) :
    s.SurvivesFrame codec interface own bssid buffer ↔
      ¬ (s.Considers codec interface buffer ∧ codec.Malformed buffer) := by
  have hpanics := FrameCodec.isKeyFrame_panics_iff hwire buffer
  by_cases hc : s.Considers codec interface buffer
  · obtain ⟨g,hg,haddress,hoff⟩ := hc
    cases hkey : codec.isKeyFrame buffer with
    | error e =>
      refine iff_of_false ?_ (fun h => h ⟨⟨g,hg,haddress,hoff⟩,hpanics.mp ⟨e,hkey⟩⟩)
      rintro ⟨handedOn,hpass,_⟩
      simp [receivePayload,hg,haddress,hoff,hconnected,hkey] at hpass
    | ok b =>
      obtain ⟨handedOn,hpass⟩ := receivePayload_of_isKeyFrame hwire interface s hkey
      have hbackground := FrameCodec.handleBackgroundFrame_of_isKeyFrame own bssid hkey
      refine iff_of_true ⟨handedOn,hpass,fun _ => hbackground⟩ ?_
      rintro ⟨_,hmalformed⟩
      obtain ⟨e,he⟩ := hpanics.mpr hmalformed
      rw [hkey] at he
      cases he
  · exact iff_of_true ⟨false,receivePayload_of_not_considers hc,nofun⟩ (fun h => hc h.1)

/-- A station with address 1 that is connected and on channel. -/
def connectedState : RoutingState 1 (List UInt8) where
  connection := some (fun _ => 1)
  offChannelOperationInterface := none
  cryptoState := some ⟨⟨0,0,2⟩,.lowest,none,.established 0 0 (Fin.last 3)⟩
  router := .new
  rxBuffers := 2

/-- It survives a clear EAPOL key frame. -/
theorem survivesFrame_keyFrame :
    connectedState.SurvivesFrame Wire.codec (Fin.last 0) (fun _ => 1) (fun _ => 2) Wire.keyFrame := by
  refine (survivesFrame_iff Wire.codec_onTheWire rfl _ _ _).mpr (fun h => ?_)
  obtain ⟨w,body,hw,hprotected,_⟩ := h.2
  cases hw
  cases hprotected

/-- A data frame to it with the Protected flag and no body. -/
def truncatedFrame : List UInt8 :=
  [0x08,0x42,0,0] ++ List.replicate 6 1 ++ List.replicate 6 2 ++ List.replicate 6 3 ++ [0,0]

/-- The classification of the frame panics. -/
theorem not_survivesFrame_truncated : ¬ connectedState.SurvivesFrame Wire.codec (Fin.last 0)
    (fun _ => 1) (fun _ => 2) truncatedFrame := by
  rintro ⟨handedOn,hpass,_⟩
  cases hpass

end RoutingState

/-! ## Frames without a reply -/

namespace FrameCodec
variable {codec : FrameCodec} {own bssid : Bytes 6} {scratch : ℕ}
  {deserialize : List UInt8 → Bytes 16 → Bytes 16 → Option EapolKeyFrame}
  {buffer left : List UInt8} {s t : CryptoState} {commands : List SetKey}

/-- A protected frame under a pairwise key, with a well-formed header and a packet number
above the last one. -/
def FreshPairwise (codec : FrameCodec) (s : CryptoState) (buffer : List UInt8) : Prop :=
  ∃ w body, codec.dataFrame buffer = some w ∧ w.isProtected = true ∧ w.payload = some body ∧
    ccmpKeyId body = some 0 ∧
    s.securityAssociations.ptksa.replayCounter < ccmpPacketNumber body

/-- Two crypto states that differ at most in the receive counter of the PTK. -/
structure SameButReceiveCounter (s t : CryptoState) : Prop where
  groupKeys : t.securityAssociations.groupKeys = s.securityAssociations.groupKeys
  activeGroupId : t.securityAssociations.activeGroupId = s.securityAssociations.activeGroupId
  replayCounter : t.message3Replay.replayCounter = s.message3Replay.replayCounter
  nonces : s.message3Replay.SameNonces t.message3Replay
  lastGroupMessage : t.lastGroupMessage = s.lastGroupMessage
  ptk : t.securityAssociations.ptksa.key = s.securityAssociations.ptksa.key
  ptkId : t.securityAssociations.ptksa.keyId = s.securityAssociations.ptksa.keyId
  packetNumber : t.securityAssociations.ptksa.packetNumber =
    s.securityAssociations.ptksa.packetNumber
  slots : t.slots = s.slots

theorem SameButReceiveCounter.refl (s : CryptoState) : SameButReceiveCounter s s :=
  ⟨rfl,rfl,rfl,⟨rfl,rfl⟩,rfl,rfl,rfl,rfl,rfl⟩

theorem ccmpKeyId_of_take {body : List UInt8} {b₀ b₁ b₄ b₅ b₆ b₇ : UInt8}
    (h : body.take 8 = [b₀,b₁,0,0x20,b₄,b₅,b₆,b₇]) : ccmpKeyId body = some 0 := by
  rw [← List.take_append_drop 8 body,h]
  rfl

/-- A packet number comes from a protected frame whose CCMP header has passed both checks. -/
theorem normalize_some (hwire : codec.OnTheWire) {length : ℕ} {packetNumber : Option ℕ}
    (h : codec.normalize buffer own bssid = .ok (some (length,packetNumber),left)) :
    packetNumber = none ∨ ∃ w body, packetNumber = some (ccmpPacketNumber body) ∧
      codec.dataFrame buffer = some w ∧ w.isProtected = true ∧ w.payload = some body ∧
      ccmpKeyId body = some 0 := by
  unfold normalize at h
  cases hw : codec.dataFrame buffer with
  | none => simp [hw] at h
  | some w =>
    simp only [hw] at h
    split at h
    · cases h
    · split at h
      · cases h
      · cases h
      · split at h
        · cases h
        · cases h
        · cases h
          exact Or.inl rfl
        · rename_i pn payload hwrapped
          cases hp : w.payload with
          | none =>
            rw [hwire.absent w hp] at hwrapped
            cases hwrapped
          | some body =>
            have hbody := hwire.payload buffer w body hw hp
            cases hprotected : w.isProtected with
            | false =>
              rw [hwire.unwrapped w body hprotected hp] at hwrapped
              cases hwrapped
            | true =>
              split at h
              · rename_i b₀ b₁ b₂ b₃ b₄ b₅ b₆ b₇ hcrypto
                split at h
                · cases h
                · rename_i hreserved
                  obtain ⟨h₂,h₃⟩ := not_or.mp hreserved
                  rw [not_not] at h₂ h₃
                  subst h₂ h₃
                  rw [← hbody] at hcrypto
                  have hk := ccmpKeyId_of_take hcrypto
                  rw [hwire.wrapped w body hprotected hp (by rw [hk]; rfl)] at hwrapped
                  cases hwrapped
                  cases h
                  exact Or.inr ⟨w,body,rfl,rfl,hprotected,hp,hk⟩
              · cases h

/-- The outer check moves the receive counter to the packet number of a fresh frame. -/
theorem validateOuter_sameButReceiveCounter (s : CryptoState) (packetNumber : Option ℕ) :
    SameButReceiveCounter s (s.validateOuter packetNumber).2 ∧
      ((s.validateOuter packetNumber).2.securityAssociations.ptksa.replayCounter ≠
          s.securityAssociations.ptksa.replayCounter →
        ∃ pn, packetNumber = some pn ∧ s.securityAssociations.ptksa.replayCounter < pn) := by
  cases packetNumber with
  | none => exact ⟨.refl s,fun h => absurd rfl h⟩
  | some pn =>
    by_cases hlt : s.securityAssociations.ptksa.replayCounter < pn
    · simp only [CryptoState.validateOuter,
        TransientKeySecurityAssociation.updateAndValidate_of_lt hlt]
      exact ⟨⟨rfl,rfl,rfl,⟨rfl,rfl⟩,rfl,rfl,rfl,rfl,rfl⟩,fun _ => ⟨pn,rfl,hlt⟩⟩
    · simp only [CryptoState.validateOuter,
        TransientKeySecurityAssociation.updateAndValidate_of_le (not_lt.mp hlt)]
      exact ⟨.refl s,fun h => absurd rfl h⟩

end FrameCodec

end FerrisOnAir.Sta
