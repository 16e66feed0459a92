import FerrisOnAir.Foundation.Runs
import FerrisOnAir.Lmac.ChannelState
import FerrisOnAir.Lmac.Crypto
import FerrisOnAir.Rsn.SecurityAssociation

/-! # The station's connection life cycle

Three tasks share the station: `StaControl`, whose `connect` and `disconnect` borrow it
exclusively, the loop of `ConnectionRunner::run` and the routing task. Each operation
below is the stretch of one of them between two awaits. `deauthenticate` only waits for
a buffer, so the stretch after it starts the next attempt. Other interfaces lock and
unlock the channel at any time.
-/
namespace FerrisOnAir.Sta
open Lmac Rsn
variable {n : ℕ} {F : Type*}

/-- `SecurityConfig`, without the parameters of WPA2. -/
inductive SecurityConfig
  | openNetwork
  | wep
  | wpa
  | wpa2TransitionMode
  | wpa2
  | wpa3TransitionMode
  | wpa3
  | oweTransitionMode
  | owe
deriving DecidableEq

/-- The part of `BSS` that connection management reads. -/
structure Bss where
  bssid : Bytes 6
  channel : ℕ
  securityConfig : SecurityConfig
deriving DecidableEq

structure ConnectionInfo where
  bss : Bss
  ownAddress : Bytes 6
deriving DecidableEq

inductive DisconnectionReason
  | user
  | beaconTimeout
  | deauthenticated
deriving DecidableEq

inductive ConnectionState
  | disconnected (reason : DisconnectionReason)
  | connected (info : ConnectionInfo)
deriving DecidableEq

/-- What `do_4whs` returns. -/
structure Handshake where
  ptk : Bytes 48
  gtk : Bytes 16
  gtkId : Fin 4
  message3Replay : Message3Replay
deriving DecidableEq

/-- The arguments of a call of `StaControl::connect`. -/
structure Attempt where
  bss : Bss
  credentials : Bool
deriving DecidableEq

/-- Where `StaControl` awaits: a buffer for the deauthentication (before the attempt
given), the start of the router operation, or one of the frames of the bringup. -/
inductive ControlTask
  | idle
  | deauthenticating (next : Option Attempt)
  | starting (attempt : Attempt)
  | handshaking (attempt : Attempt) (keySlots : Option KeySlots)

inductive RunnerTask
  | waitingForConnection
  | running (info : ConnectionInfo)
deriving DecidableEq

/-- `handshake` is the one of the connection signalled last, and `processed` says that
the runner has handled a disconnection since. -/
structure StaSystem (n : ℕ) where
  channelState : ChannelState n
  bssidFilter : Option (Bytes 6)
  receiverAddressFilter : Option (Bytes 6)
  keySlots : KeySlotManager
  cryptoState : Option CryptoState
  connectionState : ConnectionState
  control : ControlTask
  runner : RunnerTask
  handshake : Option Handshake
  processed : Bool

inductive StaOp (n : ℕ) (F : Type*)
  | connect (attempt : Attempt)
  | deauthSent
  | startOperation (pskValid : Bool)
  | finishConnect (handshake : Handshake)
  | failConnect
  | disconnect
  | runnerConnect
  | runnerDisconnect (reason : DisconnectionReason)
  | transmit
  | keyFrame (frame : F) (packetNumber : Option ℕ)
  | dataFrame (isGroup : Bool) (keyId packetNumber : ℕ)
  | otherLock (interface : Fin n) (channel : ℕ)
  | otherUnlock (interface : Fin n)

/-- The operations that only go through `map_crypto_state`. -/
def StaOp.usesCryptoState : StaOp n F → Bool
  | .transmit => true
  | .keyFrame _ _ => true
  | .dataFrame _ _ _ => true
  | _ => false

/-- The station's interface, its address, the driver's channels and key slots, and the
decoder of EAPOL frames. -/
structure StaConfig (n : ℕ) (F : Type*) where
  interface : Fin n
  ownAddress : Bytes 6
  validChannel : ℕ → Bool
  keySlotCount : ℕ
  decoder : KeyFrameDecoder F

def keySlotsOf (a : KeySlotManager.Acquired 5) : KeySlots where
  keySlot
    | .group i => a.slots.get ⟨i,by have := a.length_eq; omega⟩
    | .pairwise => a.slots.get ⟨4,by have := a.length_eq; omega⟩
  keySlot_injective := by
    intro q r h
    cases q with
    | pairwise =>
      cases r with
      | pairwise => rfl
      | group j =>
        have hj : (4 : ℕ) = j := (List.Nodup.getElem_inj_iff a.nodup).mp h
        omega
    | group i =>
      cases r with
      | pairwise =>
        have hi : (i : ℕ) = 4 := (List.Nodup.getElem_inj_iff a.nodup).mp h
        omega
      | group j =>
        have hij : (i : ℕ) = j := (List.Nodup.getElem_inj_iff a.nodup).mp h
        rw [Fin.ext hij]

/-- The slots released when the owner of five `KeySlot`s is dropped. -/
def slotList (k : KeySlots) : List ℕ :=
  (List.finRange 4).map (fun i => k.keySlot (.group i)) ++ [k.keySlot .pairwise]

theorem slotList_keySlotsOf (a : KeySlotManager.Acquired 5) :
    slotList (keySlotsOf a) = a.slots := by
  obtain ⟨slots,manager,hnodup,hlen,hbusy⟩ := a
  match slots,hlen with
  | [_,_,_,_,_],_ => rfl

namespace StaSystem
variable (k : StaConfig n F) (s : StaSystem n)

def new (channel : ℕ) : StaSystem n where
  channelState := .new channel
  bssidFilter := none
  receiverAddressFilter := none
  keySlots := .new
  cryptoState := none
  connectionState := .disconnected .user
  control := .idle
  runner := .waitingForConnection
  handshake := none
  processed := false

/-- `ConnectionOperation::drop`. -/
def clearFilters : StaSystem n := { s with bssidFilter := none, receiverAddressFilter := none }

/-- An attempt ends after its bringup operation has begun: key slots, channel lock and
filters are given back. -/
def abort (slots : Option KeySlots) : StaSystem n :=
  { s.clearFilters with
    channelState := s.channelState.unlockChannel k.interface
    keySlots := s.keySlots.releaseAll (slots.elim [] slotList)
    control := .idle }

def beginBringup (attempt : Attempt) : StaSystem n :=
  let r := s.channelState.lockChannelInternal k.validChannel k.interface attempt.bss.channel
  match r.1 with
  | .error _ => { s.clearFilters with channelState := r.2, control := .idle }
  | .ok _ => { s with channelState := r.2, control := .starting attempt }

/-- `StaControl::connect` up to its first await. -/
def connect (attempt : Attempt) : StaSystem n :=
  if attempt.bss.securityConfig ≠ .openNetwork ∧ attempt.credentials = false then s
  else match s.connectionState with
    | .connected info =>
      if info.bss.bssid = attempt.bss.bssid then s
      else { s with
        connectionState := .disconnected .user
        control := .deauthenticating (some attempt) }
    | .disconnected _ => s.beginBringup k attempt

def configureRxFilters (attempt : Attempt) (slots : Option KeySlots) : StaSystem n :=
  { s with
    bssidFilter := some attempt.bss.bssid
    receiverAddressFilter := some k.ownAddress
    control := .handshaking attempt slots }

/-- The router operation has started: five key slots and the PMK for a secured
network, then the filters. -/
def startOperation (attempt : Attempt) (pskValid : Bool) : StaSystem n :=
  if attempt.bss.securityConfig ≠ .openNetwork ∧ attempt.credentials = true then
    match s.keySlots.acquireKeySlots k.keySlotCount 5 with
    | none => s.abort k none
    | some a =>
      if pskValid then
        { s with keySlots := a.manager }.configureRxFilters k attempt (some (keySlotsOf a))
      else s.abort k none
  else s.configureRxFilters k attempt none

def signalConnected (bss : Bss) : StaSystem n :=
  { s with
    connectionState := .connected ⟨bss,k.ownAddress⟩
    control := .idle
    processed := false }

/-- `insert` drops a previous crypto state with its slots. -/
def insertCryptoState (cryptoState : CryptoState) (handshake : Handshake) : StaSystem n :=
  { s with
    keySlots := s.keySlots.releaseAll (s.cryptoState.elim [] (fun c => slotList c.slots))
    cryptoState := some cryptoState
    handshake := some handshake }

/-- The last frame was exchanged. -/
def finishConnect (attempt : Attempt) (slots : Option KeySlots) (handshake : Handshake) :
    Except RsnPanic (StaSystem n) :=
  match slots with
  | none => .ok ({ s with handshake := none }.signalConnected k attempt.bss)
  | some slots =>
    match CryptoState.new slots attempt.bss.bssid
        (.established handshake.ptk handshake.gtk handshake.gtkId) handshake.message3Replay with
    | .error e => .error e
    | .ok (cryptoState,_) =>
      .ok ((s.insertCryptoState cryptoState handshake).signalConnected k attempt.bss)

/-- The end of the loop body of `ConnectionRunner::run`. -/
def processDisconnection (reason : DisconnectionReason) : StaSystem n :=
  { s with
    channelState := s.channelState.unlockChannel k.interface
    bssidFilter := none
    connectionState := .disconnected reason
    runner := .waitingForConnection
    processed := true }

/-- What the first ready branch of the runner's `select3` returns: a signalled
disconnection comes before the two ways in which `run_connection` ends. -/
def mayEnd (reason : DisconnectionReason) : Bool :=
  match s.connectionState with
  | .disconnected r => decide (reason = r)
  | .connected _ => decide (reason ≠ .user)

/-- `map_crypto_state`. -/
def mapCryptoState (f : CryptoState → Except RsnPanic CryptoState) :
    Except RsnPanic (StaSystem n) :=
  match s.cryptoState with
  | none => .ok s
  | some c =>
    match f c with
    | .error e => .error e
    | .ok c' => .ok { s with cryptoState := some c' }

def step : StaOp n F → Option (StaSystem n)
  | .connect attempt =>
    match s.control with
    | .idle => some (s.connect k attempt)
    | _ => none
  | .deauthSent =>
    match s.control with
    | .deauthenticating none => some { s with control := .idle }
    | .deauthenticating (some attempt) => some (s.beginBringup k attempt)
    | _ => none
  | .startOperation pskValid =>
    match s.control with
    | .starting attempt => some (s.startOperation k attempt pskValid)
    | _ => none
  | .finishConnect handshake =>
    match s.control with
    | .handshaking attempt slots => (s.finishConnect k attempt slots handshake).toOption
    | _ => none
  | .failConnect =>
    match s.control with
    | .idle => none
    | .deauthenticating _ => some { s with control := .idle }
    | .starting _ => some (s.abort k none)
    | .handshaking _ slots => some (s.abort k slots)
  | .disconnect =>
    match s.control,s.connectionState with
    | .idle,.connected _ => some { s with
        channelState := s.channelState.unlockChannel k.interface
        connectionState := .disconnected .user
        control := .deauthenticating none }
    | _,_ => none
  | .runnerConnect =>
    match s.runner,s.connectionState with
    | .waitingForConnection,.connected info => some { s with runner := .running info }
    | _,_ => none
  | .runnerDisconnect reason =>
    match s.runner with
    | .running _ => if s.mayEnd reason then some (s.processDisconnection k reason) else none
    | .waitingForConnection => none
  | .transmit =>
    match s.runner,s.connectionState with
    | .running _,.connected _ => (s.mapCryptoState (fun c =>
        .ok (c.setPtksa c.securityAssociations.ptksa.nextPacketNumber.2))).toOption
    | _,_ => none
  | .keyFrame frame packetNumber =>
    match s.runner,s.connectionState with
    | .running info,.connected _ => (s.mapCryptoState (fun c =>
        (c.handleEapolRetry k.decoder info.bss.bssid frame packetNumber).map Prod.fst)).toOption
    | _,_ => none
  | .dataFrame isGroup keyId packetNumber =>
    match s.connectionState with
    | .connected _ => (s.mapCryptoState (fun c =>
        .ok (c.validateData isGroup keyId packetNumber).2)).toOption
    | .disconnected _ => none
  | .otherLock j channel =>
    if j = k.interface then none
    else some { s with
      channelState := (s.channelState.lockChannelInternal k.validChannel j channel).2 }
  | .otherUnlock j =>
    if j = k.interface then none
    else some { s with channelState := s.channelState.unlockChannel j }

def Step (s : StaSystem n) (op : StaOp n F) (t : StaSystem n) : Prop := s.step k op = some t

/-- Everything a step can do. -/
inductive Transition (k : StaConfig n F) (s : StaSystem n) : StaOp n F → StaSystem n → Prop
  | connect (attempt : Attempt) (hctl : s.control = .idle) :
      Transition k s (.connect attempt) (s.connect k attempt)
  | deauthSent (hctl : s.control = .deauthenticating none) :
      Transition k s .deauthSent { s with control := .idle }
  | nextAttempt (attempt : Attempt) (hctl : s.control = .deauthenticating (some attempt)) :
      Transition k s .deauthSent (s.beginBringup k attempt)
  | startOperation (attempt : Attempt) (pskValid : Bool) (hctl : s.control = .starting attempt) :
      Transition k s (.startOperation pskValid) (s.startOperation k attempt pskValid)
  | finishOpen (attempt : Attempt) (handshake : Handshake)
      (hctl : s.control = .handshaking attempt none) :
      Transition k s (.finishConnect handshake)
        ({ s with handshake := none }.signalConnected k attempt.bss)
  | finishSecured (attempt : Attempt) (slots : KeySlots) (h : Handshake)
      (hctl : s.control = .handshaking attempt (some slots)) :
      Transition k s (.finishConnect h) ((s.insertCryptoState
        ⟨h.message3Replay,slots,none,.established h.ptk h.gtk h.gtkId⟩ h).signalConnected k
          attempt.bss)
  | cancelDeauth (next : Option Attempt) (hctl : s.control = .deauthenticating next) :
      Transition k s .failConnect { s with control := .idle }
  | failStarting (attempt : Attempt) (hctl : s.control = .starting attempt) :
      Transition k s .failConnect (s.abort k none)
  | failHandshaking (attempt : Attempt) (slots : Option KeySlots)
      (hctl : s.control = .handshaking attempt slots) :
      Transition k s .failConnect (s.abort k slots)
  | disconnect (info : ConnectionInfo) (hctl : s.control = .idle)
      (hconn : s.connectionState = .connected info) :
      Transition k s .disconnect { s with
        channelState := s.channelState.unlockChannel k.interface
        connectionState := .disconnected .user
        control := .deauthenticating none }
  | runnerConnect (info : ConnectionInfo) (hrun : s.runner = .waitingForConnection)
      (hconn : s.connectionState = .connected info) :
      Transition k s .runnerConnect { s with runner := .running info }
  | runnerDisconnect (reason : DisconnectionReason) (info : ConnectionInfo)
      (hrun : s.runner = .running info) (hend : s.mayEnd reason = true) :
      Transition k s (.runnerDisconnect reason) (s.processDisconnection k reason)
  | withCrypto (op : StaOp n F) (c c' : CryptoState) (hop : op.usesCryptoState = true)
      (hc : s.cryptoState = some c) (hsame : c.SameHandshake c') :
      Transition k s op { s with cryptoState := some c' }
  | withoutCrypto (op : StaOp n F) (hop : op.usesCryptoState = true) (hc : s.cryptoState = none) :
      Transition k s op s
  | otherLock (j : Fin n) (channel : ℕ) (hj : j ≠ k.interface) :
      Transition k s (.otherLock j channel) { s with
        channelState := (s.channelState.lockChannelInternal k.validChannel j channel).2 }
  | otherUnlock (j : Fin n) (hj : j ≠ k.interface) :
      Transition k s (.otherUnlock j) { s with channelState := s.channelState.unlockChannel j }

variable {k s} {t : StaSystem n} {op : StaOp n F}

theorem finishConnect_ok {attempt : Attempt} {slots : Option KeySlots} {handshake : Handshake}
    (hctl : s.control = .handshaking attempt slots)
    (h : s.finishConnect k attempt slots handshake = .ok t) :
    Transition k s (.finishConnect handshake) t := by
  cases slots with
  | none =>
    cases h
    exact .finishOpen attempt handshake hctl
  | some slots =>
    simp only [finishConnect,CryptoState.new_established] at h
    cases h
    exact .finishSecured attempt slots handshake hctl

theorem mapCryptoState_ok {f : CryptoState → Except RsnPanic CryptoState}
    (hop : op.usesCryptoState = true) (hf : ∀ c c', f c = .ok c' → c.SameHandshake c')
    (h : s.mapCryptoState f = .ok t) : Transition k s op t := by
  unfold mapCryptoState at h
  split at h
  · rename_i hc
    cases h
    exact .withoutCrypto op hop hc
  · rename_i c hc
    split at h
    · cases h
    · rename_i c' hc'
      cases h
      exact .withCrypto op c c' hop hc (hf c c' hc')

theorem Step.transition (he : Step k s op t) : Transition k s op t := by
  unfold Step at he
  cases op with
  | connect attempt =>
    simp only [step] at he
    split at he
    · rename_i hctl
      cases he
      exact .connect attempt hctl
    · cases he
  | deauthSent =>
    simp only [step] at he
    split at he
    · rename_i hctl
      cases he
      exact .deauthSent hctl
    · rename_i attempt hctl
      cases he
      exact .nextAttempt attempt hctl
    · cases he
  | startOperation pskValid =>
    simp only [step] at he
    split at he
    · rename_i attempt hctl
      cases he
      exact .startOperation attempt pskValid hctl
    · cases he
  | finishConnect handshake =>
    simp only [step] at he
    split at he
    · rename_i hctl
      exact finishConnect_ok hctl (ok_of_toOption he)
    · cases he
  | failConnect =>
    simp only [step] at he
    split at he
    · cases he
    · rename_i next hctl
      cases he
      exact .cancelDeauth next hctl
    · rename_i attempt hctl
      cases he
      exact .failStarting attempt hctl
    · rename_i attempt slots hctl
      cases he
      exact .failHandshaking attempt slots hctl
  | disconnect =>
    simp only [step] at he
    split at he
    · rename_i info hctl hconn
      cases he
      exact .disconnect info hctl hconn
    · cases he
  | runnerConnect =>
    simp only [step] at he
    split at he
    · rename_i info hrun hconn
      cases he
      exact .runnerConnect info hrun hconn
    · cases he
  | runnerDisconnect reason =>
    simp only [step] at he
    split at he
    · rename_i info hrun
      split at he
      · rename_i hend
        cases he
        exact .runnerDisconnect reason info hrun hend
      · cases he
    · cases he
  | transmit =>
    simp only [step] at he
    split at he
    · refine mapCryptoState_ok rfl ?_ (ok_of_toOption he)
      rintro c _ ⟨⟩
      exact ⟨rfl,rfl,rfl,rfl⟩
    · cases he
  | keyFrame frame packetNumber =>
    simp only [step] at he
    split at he
    · refine mapCryptoState_ok rfl ?_ (ok_of_toOption he)
      intro c c' hc
      cases hretry : c.handleEapolRetry k.decoder _ frame packetNumber with
      | error e =>
        rw [hretry] at hc
        cases hc
      | ok r =>
        rw [hretry] at hc
        cases hc
        exact CryptoState.handleEapolRetry_sameHandshake hretry
    · cases he
  | dataFrame isGroup keyId packetNumber =>
    simp only [step] at he
    split at he
    · refine mapCryptoState_ok rfl ?_ (ok_of_toOption he)
      rintro c _ ⟨⟩
      exact c.validateData_sameHandshake isGroup keyId packetNumber
    · cases he
  | otherLock j channel =>
    simp only [step] at he
    split at he
    · cases he
    · rename_i hj
      cases he
      exact .otherLock j channel hj
  | otherUnlock j =>
    simp only [step] at he
    split at he
    · cases he
    · rename_i hj
      cases he
      exact .otherUnlock j hj

end StaSystem
end FerrisOnAir.Sta
