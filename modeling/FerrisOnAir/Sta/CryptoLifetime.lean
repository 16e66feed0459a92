import FerrisOnAir.Sta.Connection

/-! # The lifetime of the crypto state

`connect` inserts the crypto state of a secured connection and nothing removes it: it
stays until the next secured connection replaces it. A processed disconnection therefore
leaves it behind with its five key slots, and an open network connected after that is
served with the PTK of the network before.
-/
namespace FerrisOnAir.Sta.StaSystem
open Lmac Rsn
variable {n : ℕ} {F : Type*} {k : StaConfig n F} {s t : StaSystem n} {op : StaOp n F}

/-- The key slots of an attempt under way. -/
def attemptSlots (s : StaSystem n) : List ℕ :=
  match s.control with
  | .handshaking _ slots => slots.elim [] slotList
  | _ => []

/-- The key slots of the crypto state. -/
def cryptoSlots (s : StaSystem n) : List ℕ := s.cryptoState.elim [] (fun c => slotList c.slots)

/-- The PTK and the nonces are those of a handshake. -/
def EstablishedBy (h : Handshake) (c : CryptoState) : Prop :=
  c.securityAssociations.ptksa.key = h.ptk ∧ h.message3Replay.SameNonces c.message3Replay

/-- While connected, there is a crypto state exactly if the network is secured, and it
stems from the handshake of this connection. -/
def CryptoOfConnection (s : StaSystem n) : Prop :=
  ∀ info, s.connectionState = .connected info →
    (s.cryptoState.isSome = true ↔ info.bss.securityConfig ≠ .openNetwork) ∧
      ∀ c, s.cryptoState = some c → ∃ h, s.handshake = some h ∧ EstablishedBy h c

/-- After a processed disconnection the crypto state is gone and no slot is busy, except
for those of an attempt that has begun since. -/
def CryptoReleased (s : StaSystem n) : Prop :=
  s.processed = true → s.cryptoState = none ∧
    ∀ i, i ∉ s.attemptSlots → s.keySlots.keySlotState i = true

def CryptoLifetime (s : StaSystem n) : Prop := s.CryptoOfConnection ∧ s.CryptoReleased

/-- Neither a disconnection is processed nor an open network connected while there is a
crypto state. -/
def EndsWithoutCrypto (s : StaSystem n) (op : StaOp n F) : Prop :=
  (∀ reason, op = .runnerDisconnect reason → s.cryptoState = none) ∧
    ∀ handshake attempt slots, op = .finishConnect handshake →
      s.control = .handshaking attempt slots → attempt.bss.securityConfig = .openNetwork →
        s.cryptoState = none

/-- `connect` refuses a secured network without credentials. -/
def Attempt.Credible (attempt : Attempt) : Prop :=
  attempt.bss.securityConfig ≠ .openNetwork → attempt.credentials = true

/-- Only attempts that passed the check are under way, and they hold key slots exactly
for secured networks. -/
def AttemptCredible (s : StaSystem n) : Prop :=
  match s.control with
  | .idle => True
  | .deauthenticating next => ∀ attempt, next = some attempt → Attempt.Credible attempt
  | .starting attempt => Attempt.Credible attempt
  | .handshaking attempt slots =>
    slots.isSome = true ↔ attempt.bss.securityConfig ≠ .openNetwork

/-- Every busy slot has an owner. -/
def SlotsOwned (s : StaSystem n) : Prop :=
  ∀ i, s.keySlots.keySlotState i = false → i ∈ s.attemptSlots ∨ i ∈ s.cryptoSlots

section Attempts

theorem beginBringup_credible {attempt : Attempt} (ha : Attempt.Credible attempt) :
    (s.beginBringup k attempt).AttemptCredible := by
  unfold beginBringup
  simp only
  split
  · exact trivial
  · exact ha

theorem connect_credible (hs : s.AttemptCredible) (attempt : Attempt) :
    (s.connect k attempt).AttemptCredible := by
  unfold connect
  split
  · exact hs
  · rename_i hcred
    have ha : Attempt.Credible attempt := by
      intro hsec
      cases hc : attempt.credentials with
      | true => rfl
      | false => exact absurd ⟨hsec,hc⟩ hcred
    split
    · split
      · exact hs
      · rintro _ ⟨⟩
        exact ha
    · exact beginBringup_credible ha

theorem startOperation_credible {attempt : Attempt} {pskValid : Bool}
    (ha : Attempt.Credible attempt) : (s.startOperation k attempt pskValid).AttemptCredible := by
  unfold startOperation
  split
  · rename_i hsec
    split
    · exact trivial
    · split
      · exact iff_of_true rfl hsec.1
      · exact trivial
  · rename_i hsec
    exact iff_of_false (by simp) (fun h => hsec ⟨h,ha h⟩)

theorem step_credible (hs : s.AttemptCredible) (he : Step k s op t) : t.AttemptCredible := by
  cases he.transition with
  | connect attempt hctl => exact connect_credible hs attempt
  | deauthSent hctl => exact trivial
  | nextAttempt attempt hctl =>
    simp only [AttemptCredible,hctl] at hs
    exact beginBringup_credible (hs attempt rfl)
  | startOperation attempt pskValid hctl =>
    simp only [AttemptCredible,hctl] at hs
    exact startOperation_credible hs
  | finishOpen attempt handshake hctl => exact trivial
  | finishSecured attempt slots handshake hctl => exact trivial
  | cancelDeauth next hctl => exact trivial
  | failStarting attempt hctl => exact trivial
  | failHandshaking attempt slots hctl => exact trivial
  | disconnect info hctl hconn => exact nofun
  | runnerConnect info hrun hconn => exact hs
  | runnerDisconnect reason info hrun hend => exact hs
  | withCrypto _ c c' hop hc hsame => exact hs
  | withoutCrypto _ hop hc => exact hs
  | otherLock j channel hj => exact hs
  | otherUnlock j hj => exact hs

end Attempts

section Slots

theorem SlotsOwned.frame (hs : s.SlotsOwned) (hk : t.keySlots = s.keySlots)
    (ha : s.attemptSlots ⊆ t.attemptSlots) (hc : t.cryptoSlots = s.cryptoSlots) :
    t.SlotsOwned := by
  intro i hi
  rw [hk] at hi
  rw [hc]
  exact (hs i hi).imp (fun h => ha h) id

theorem attemptSlots_handshaking {attempt : Attempt} {slots : Option KeySlots}
    (hctl : s.control = .handshaking attempt slots) :
    s.attemptSlots = slots.elim [] slotList := by
  simp only [attemptSlots,hctl]

/-- An attempt that fails leaves only the slots of the crypto state busy. -/
theorem abort_owned {slots : Option KeySlots} (hs : s.SlotsOwned)
    (ha : s.attemptSlots = slots.elim [] slotList) : (s.abort k slots).SlotsOwned := by
  intro i hi
  obtain ⟨hbusy,hfree⟩ := KeySlotManager.releaseAll_busy.mp hi
  right
  rcases hs i hbusy with h | h
  · rw [ha] at h
    exact absurd h hfree
  · exact h

theorem beginBringup_keySlots (s : StaSystem n) (attempt : Attempt) :
    (s.beginBringup k attempt).keySlots = s.keySlots ∧
      (s.beginBringup k attempt).cryptoState = s.cryptoState := by
  unfold beginBringup
  simp only
  split <;> exact ⟨rfl,rfl⟩

theorem connect_keySlots (s : StaSystem n) (attempt : Attempt) :
    (s.connect k attempt).keySlots = s.keySlots ∧
      (s.connect k attempt).cryptoState = s.cryptoState := by
  unfold connect
  split
  · exact ⟨rfl,rfl⟩
  · split
    · split <;> exact ⟨rfl,rfl⟩
    · exact s.beginBringup_keySlots attempt

theorem startOperation_owned {attempt : Attempt} {pskValid : Bool} (hs : s.SlotsOwned)
    (ha : s.attemptSlots = []) : (s.startOperation k attempt pskValid).SlotsOwned := by
  unfold startOperation
  split
  · split
    · exact abort_owned hs ha
    · rename_i a hacq
      split
      · intro i hi
        rcases KeySlotManager.acquireKeySlots_busy hacq hi with h | h
        · left
          rw [attemptSlots_handshaking rfl]
          change i ∈ slotList (keySlotsOf a)
          rw [slotList_keySlotsOf]
          exact h
        · have hown := hs i h
          rw [ha] at hown
          exact Or.inr (hown.resolve_left (List.not_mem_nil))
      · exact abort_owned hs ha
  · refine hs.frame rfl ?_ rfl
    rw [ha]
    exact List.nil_subset _

/-- The new crypto state takes over the slots of the attempt, and the one it replaces
gives its own back. -/
theorem insertCryptoState_owned {c : CryptoState} {handshake : Handshake} {bss : Bss}
    (hs : s.SlotsOwned) (ha : s.attemptSlots = slotList c.slots) :
    ((s.insertCryptoState c handshake).signalConnected k bss).SlotsOwned := by
  intro i hi
  obtain ⟨hbusy,hfree⟩ := KeySlotManager.releaseAll_busy.mp hi
  right
  rcases hs i hbusy with h | h
  · rw [ha] at h
    exact h
  · exact absurd h hfree

theorem step_owned (hs : s.SlotsOwned) (he : Step k s op t) : t.SlotsOwned := by
  have hsub : s.attemptSlots = [] → s.attemptSlots ⊆ t.attemptSlots := by
    intro h
    rw [h]
    exact List.nil_subset _
  cases he.transition with
  | connect attempt hctl =>
    obtain ⟨hk,hc⟩ := s.connect_keySlots (k := k) attempt
    exact hs.frame hk (hsub (by simp only [attemptSlots,hctl])) (by rw [cryptoSlots,hc]; rfl)
  | deauthSent hctl => exact hs.frame rfl (hsub (by simp only [attemptSlots,hctl])) rfl
  | nextAttempt attempt hctl =>
    obtain ⟨hk,hc⟩ := s.beginBringup_keySlots (k := k) attempt
    exact hs.frame hk (hsub (by simp only [attemptSlots,hctl])) (by rw [cryptoSlots,hc]; rfl)
  | startOperation attempt pskValid hctl =>
    exact startOperation_owned hs (by simp only [attemptSlots,hctl])
  | finishOpen attempt handshake hctl =>
    exact hs.frame rfl (hsub (attemptSlots_handshaking hctl)) rfl
  | finishSecured attempt slots handshake hctl =>
    exact insertCryptoState_owned hs (attemptSlots_handshaking hctl)
  | cancelDeauth next hctl => exact hs.frame rfl (hsub (by simp only [attemptSlots,hctl])) rfl
  | failStarting attempt hctl => exact abort_owned hs (by simp only [attemptSlots,hctl]; rfl)
  | failHandshaking attempt slots hctl => exact abort_owned hs (attemptSlots_handshaking hctl)
  | disconnect info hctl hconn => exact hs.frame rfl (hsub (by simp only [attemptSlots,hctl])) rfl
  | runnerConnect info hrun hconn => exact hs
  | runnerDisconnect reason info hrun hend => exact hs
  | withCrypto _ c c' hop hc hsame =>
    refine hs.frame rfl (List.Subset.refl _) ?_
    simp only [cryptoSlots,hc,Option.elim_some,hsame.1]
  | withoutCrypto _ hop hc => exact hs
  | otherLock j channel hj => exact hs
  | otherUnlock j hj => exact hs

end Slots

section Lifetime

/-- What every run maintains, whatever becomes of the crypto state. -/
def Owned (s : StaSystem n) : Prop := s.AttemptCredible ∧ s.SlotsOwned

theorem Owned.step (hs : s.Owned) (he : Step k s op t) : t.Owned :=
  ⟨step_credible hs.1 he,step_owned hs.2 he⟩

theorem new_owned (channel : ℕ) : (new channel : StaSystem n).Owned := by
  refine ⟨trivial,?_⟩
  intro i hi
  cases hi

/-- Without a crypto state its slots are free. -/
theorem SlotsOwned.released (hs : s.SlotsOwned) (hc : s.processed = true → s.cryptoState = none) :
    s.CryptoReleased := by
  intro hp
  have hnone := hc hp
  refine ⟨hnone,?_⟩
  intro i hi
  cases hbusy : s.keySlots.keySlotState i with
  | true => rfl
  | false =>
    have hslots : s.cryptoSlots = [] := by rw [cryptoSlots,hnone]; rfl
    rcases hs i hbusy with h | h
    · exact absurd h hi
    · rw [hslots] at h
      cases h

/-- The step touches neither the crypto state nor the record of the last connection, and
connects to nothing. -/
def KeepsCrypto (s t : StaSystem n) : Prop :=
  t.cryptoState = s.cryptoState ∧ t.handshake = s.handshake ∧ t.processed = s.processed ∧
    ∀ info, t.connectionState = .connected info → s.connectionState = .connected info

theorem CryptoLifetime.kept (hs : s.CryptoLifetime) (ht : t.SlotsOwned) (h : s.KeepsCrypto t) :
    t.CryptoLifetime := by
  obtain ⟨hc,hh,hp,hconn⟩ := h
  constructor
  · intro info hinfo
    rw [hc,hh]
    exact hs.1 info (hconn info hinfo)
  · refine ht.released ?_
    intro hproc
    rw [hp] at hproc
    rw [hc]
    exact (hs.2 hproc).1

theorem beginBringup_keepsCrypto (s : StaSystem n) (attempt : Attempt) :
    s.KeepsCrypto (s.beginBringup k attempt) := by
  unfold beginBringup
  simp only
  split <;> exact ⟨rfl,rfl,rfl,fun _ h => h⟩

theorem connect_keepsCrypto (s : StaSystem n) (attempt : Attempt) :
    s.KeepsCrypto (s.connect k attempt) := by
  unfold connect
  split
  · exact ⟨rfl,rfl,rfl,fun _ h => h⟩
  · split
    · split
      · exact ⟨rfl,rfl,rfl,fun _ h => h⟩
      · exact ⟨rfl,rfl,rfl,nofun⟩
    · exact s.beginBringup_keepsCrypto attempt

theorem startOperation_keepsCrypto (s : StaSystem n) (attempt : Attempt) (pskValid : Bool) :
    s.KeepsCrypto (s.startOperation k attempt pskValid) := by
  unfold startOperation
  split
  · split
    · exact ⟨rfl,rfl,rfl,fun _ h => h⟩
    · split <;> exact ⟨rfl,rfl,rfl,fun _ h => h⟩
  · exact ⟨rfl,rfl,rfl,fun _ h => h⟩

theorem EstablishedBy.same {h : Handshake} {c c' : CryptoState} (hc : EstablishedBy h c)
    (hsame : c.SameHandshake c') : EstablishedBy h c' := by
  obtain ⟨_,hkey,hauth,hsupp⟩ := hsame
  exact ⟨hkey.trans hc.1,hauth.trans hc.2.1,hsupp.trans hc.2.2⟩

theorem withCrypto_lifetime {c c' : CryptoState} (hs : s.CryptoLifetime)
    (hc : s.cryptoState = some c) (hsame : c.SameHandshake c') :
    ({ s with cryptoState := some c' } : StaSystem n).CryptoLifetime := by
  constructor
  · intro info hinfo
    obtain ⟨hiff,hest⟩ := hs.1 info hinfo
    rw [hc] at hiff
    refine ⟨hiff,?_⟩
    rintro _ ⟨⟩
    obtain ⟨h,hh,he⟩ := hest c hc
    exact ⟨h,hh,he.same hsame⟩
  · intro hp
    have hnone := (hs.2 hp).1
    rw [hc] at hnone
    cases hnone

theorem finishOpen_lifetime_iff {attempt : Attempt}
    (ha : attempt.bss.securityConfig = .openNetwork) :
    ({ s with handshake := none }.signalConnected k attempt.bss).CryptoLifetime ↔
      s.cryptoState = none := by
  constructor
  · intro ht
    obtain ⟨hiff,_⟩ := ht.1 _ rfl
    cases hc : s.cryptoState with
    | none => rfl
    | some c => exact absurd ha (hiff.mp (congrArg Option.isSome hc))
  · intro hnone
    refine ⟨?_,nofun⟩
    rintro _ ⟨⟩
    refine ⟨iff_of_false ?_ (fun h => h ha),?_⟩
    · change s.cryptoState.isSome ≠ true
      simp [hnone]
    · intro c hc
      change s.cryptoState = some c at hc
      rw [hnone] at hc
      cases hc

theorem finishSecured_lifetime {attempt : Attempt} {slots : KeySlots} {h : Handshake}
    (ha : attempt.bss.securityConfig ≠ .openNetwork) :
    ((s.insertCryptoState ⟨h.message3Replay,slots,none,.established h.ptk h.gtk h.gtkId⟩
      h).signalConnected k attempt.bss).CryptoLifetime := by
  refine ⟨?_,nofun⟩
  rintro _ ⟨⟩
  refine ⟨iff_of_true rfl ha,?_⟩
  rintro _ ⟨⟩
  exact ⟨h,rfl,rfl,rfl,rfl⟩

theorem processDisconnection_lifetime_iff {reason : DisconnectionReason} (hs : s.SlotsOwned) :
    (s.processDisconnection k reason).CryptoLifetime ↔ s.cryptoState = none := by
  constructor
  · intro ht
    exact (ht.2 rfl).1
  · intro hnone
    have ht : (s.processDisconnection k reason).SlotsOwned := hs
    exact ⟨nofun,ht.released (fun _ => hnone)⟩

/-- The operations after which a crypto state may be left behind. -/
def endsOrConnects : StaOp n F → Bool
  | .runnerDisconnect _ => true
  | .finishConnect _ => true
  | _ => false

theorem EndsWithoutCrypto.of_other (hop : endsOrConnects op = false) : s.EndsWithoutCrypto op := by
  constructor
  · rintro reason rfl
    cases hop
  · rintro handshake attempt slots rfl
    cases hop

theorem usesCryptoState_other (hop : op.usesCryptoState = true) : endsOrConnects op = false := by
  cases op with
  | transmit => rfl
  | keyFrame frame packetNumber => rfl
  | dataFrame isGroup keyId packetNumber => rfl
  | _ => cases hop

theorem endsWithoutCrypto_runnerDisconnect {reason : DisconnectionReason} :
    s.EndsWithoutCrypto (.runnerDisconnect reason : StaOp n F) ↔ s.cryptoState = none := by
  constructor
  · intro h
    exact h.1 reason rfl
  · intro hnone
    refine ⟨fun _ _ => hnone,?_⟩
    intro handshake attempt slots h
    cases h

theorem endsWithoutCrypto_finishConnect {handshake : Handshake} {attempt : Attempt}
    {slots : Option KeySlots} (hctl : s.control = .handshaking attempt slots) :
    s.EndsWithoutCrypto (.finishConnect handshake : StaOp n F) ↔
      (attempt.bss.securityConfig = .openNetwork → s.cryptoState = none) := by
  constructor
  · intro h
    exact h.2 handshake attempt slots rfl hctl
  · intro h
    constructor
    · intro reason hop
      cases hop
    · intro _ attempt' slots' _ hctl'
      rw [hctl] at hctl'
      cases hctl'
      exact h

/-- A step keeps the crypto state tied to its connection exactly if it does not leave one
behind. -/
theorem step_lifetime_iff (hi : s.Owned) (hs : s.CryptoLifetime) (he : Step k s op t) :
    t.CryptoLifetime ↔ s.EndsWithoutCrypto op := by
  have ht := step_owned hi.2 he
  cases he.transition with
  | connect attempt hctl =>
    exact iff_of_true (hs.kept ht (s.connect_keepsCrypto attempt)) (.of_other rfl)
  | deauthSent hctl =>
    exact iff_of_true (hs.kept ht ⟨rfl,rfl,rfl,fun _ h => h⟩) (.of_other rfl)
  | nextAttempt attempt hctl =>
    exact iff_of_true (hs.kept ht (s.beginBringup_keepsCrypto attempt)) (.of_other rfl)
  | startOperation attempt pskValid hctl =>
    exact iff_of_true (hs.kept ht (s.startOperation_keepsCrypto attempt pskValid))
      (.of_other rfl)
  | finishOpen attempt handshake hctl =>
    have hcred := hi.1
    simp only [AttemptCredible,hctl] at hcred
    have ha : attempt.bss.securityConfig = .openNetwork := by simpa using hcred
    rw [finishOpen_lifetime_iff ha,endsWithoutCrypto_finishConnect hctl]
    exact ⟨fun hnone _ => hnone,fun h => h ha⟩
  | finishSecured attempt slots handshake hctl =>
    have hcred := hi.1
    simp only [AttemptCredible,hctl] at hcred
    have ha : attempt.bss.securityConfig ≠ .openNetwork := hcred.mp rfl
    refine iff_of_true (finishSecured_lifetime ha) ((endsWithoutCrypto_finishConnect hctl).mpr ?_)
    exact fun hopen => absurd hopen ha
  | cancelDeauth next hctl =>
    exact iff_of_true (hs.kept ht ⟨rfl,rfl,rfl,fun _ h => h⟩) (.of_other rfl)
  | failStarting attempt hctl =>
    exact iff_of_true (hs.kept ht ⟨rfl,rfl,rfl,fun _ h => h⟩) (.of_other rfl)
  | failHandshaking attempt slots hctl =>
    exact iff_of_true (hs.kept ht ⟨rfl,rfl,rfl,fun _ h => h⟩) (.of_other rfl)
  | disconnect info hctl hconn =>
    exact iff_of_true (hs.kept ht ⟨rfl,rfl,rfl,nofun⟩) (.of_other rfl)
  | runnerConnect info hrun hconn =>
    exact iff_of_true (hs.kept ht ⟨rfl,rfl,rfl,fun _ h => h⟩) (.of_other rfl)
  | runnerDisconnect reason info hrun hend =>
    rw [processDisconnection_lifetime_iff hi.2,endsWithoutCrypto_runnerDisconnect]
  | withCrypto _ c c' hop hc hsame =>
    exact iff_of_true (withCrypto_lifetime hs hc hsame) (.of_other (usesCryptoState_other hop))
  | withoutCrypto _ hop hc => exact iff_of_true hs (.of_other (usesCryptoState_other hop))
  | otherLock j channel hj =>
    exact iff_of_true (hs.kept ht ⟨rfl,rfl,rfl,fun _ h => h⟩) (.of_other rfl)
  | otherUnlock j hj =>
    exact iff_of_true (hs.kept ht ⟨rfl,rfl,rfl,fun _ h => h⟩) (.of_other rfl)

/-- The crypto state lives exactly as long as its connection in those runs in which the
runner processes no disconnection and no open network gets connected while there is a
crypto state. -/
theorem crypto_state_lifetime_iff {channel : ℕ} {ops : List (StaOp n F)} :
    Runs (Within CryptoLifetime (Step k)) (new channel) ops s ↔
      Runs (Guarded EndsWithoutCrypto (Step k)) (new channel) ops s :=
  Runs.within_iff_guarded (fun _ _ _ hi he => hi.step he)
    (fun _ _ _ hi hs he => step_lifetime_iff hi hs he) (new_owned channel) ⟨nofun,nofun⟩

/-- A secured connection, its disconnection and an open network: the PTK of the first is
still there, with its five slots. -/
theorem crypto_state_outlives_connection :
    let k : StaConfig 2 Unit :=
      ⟨0,0,fun _ => true,10,⟨fun _ => false,fun _ _ _ => none,fun _ _ _ => none⟩⟩
    ∃ s, Runs (Step k) (new 1)
      [.connect ⟨⟨0,1,.wpa2⟩,true⟩,.startOperation true,.finishConnect ⟨1,0,1,⟨0,0,0⟩⟩,
        .runnerConnect,.disconnect,.deauthSent,.runnerDisconnect .user,
        .connect ⟨⟨1,1,.openNetwork⟩,false⟩,.startOperation true,
        .finishConnect ⟨0,0,0,⟨0,0,0⟩⟩] s ∧
    s.connectionState = .connected ⟨⟨1,1,.openNetwork⟩,0⟩ ∧ s.cryptoState.isSome = true ∧
    (∀ i < 5, s.keySlots.keySlotState i = false) ∧ ¬ s.CryptoLifetime := by
  intro k
  apply Runs.exists_of_execute (fun _ _ _ h => h) (fun s =>
    s.connectionState = .connected ⟨⟨1,1,.openNetwork⟩,0⟩ ∧ s.cryptoState.isSome = true ∧
      ∀ i < 5, s.keySlots.keySlotState i = false)
  · decide
  · rintro s _ ⟨hconn,hsome,hslots⟩
    refine ⟨hconn,hsome,hslots,?_⟩
    rintro ⟨hmatch,_⟩
    exact (hmatch _ hconn).1.mp hsome rfl

end Lifetime
end FerrisOnAir.Sta.StaSystem
