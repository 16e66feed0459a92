import FerrisOnAir.Sta.Connection

/-! # Resources of a connection over whole runs

The runner cleans up after a disconnection at whatever poll follows it, and nothing
ties that cleanup to the connection it belongs to: it releases the lock and the filter
that the interface holds at that moment.
-/
namespace FerrisOnAir.Sta.StaSystem
open Lmac
variable {n : ℕ} {F : Type*} {k : StaConfig n F} {s t : StaSystem n} {op : StaOp n F}

/-- An attempt has begun its bringup operation. -/
def bringingUp (s : StaSystem n) : Bool :=
  match s.control with
  | .starting _ => true
  | .handshaking _ _ => true
  | _ => false

/-- The runner's cleanup does not run while an attempt is under way. -/
def CleanupOutsideBringup (s : StaSystem n) (op : StaOp n F) : Prop :=
  ∀ reason, op = .runnerDisconnect reason → s.bringingUp = false

/-- The interface holds the lock on the channel of a network and filters for it. -/
def Tuned (k : StaConfig n F) (bss : Bss) (s : StaSystem n) : Prop :=
  s.channelState.Holds k.interface bss.channel ∧ s.bssidFilter = some bss.bssid

/-- What the tasks rely on at each await of `StaControl`. -/
def ControlHolds (k : StaConfig n F) (s : StaSystem n) : Prop :=
  match s.control with
  | .idle => ∀ info, s.connectionState = .connected info → Tuned k info.bss s
  | .deauthenticating _ => ∃ reason, s.connectionState = .disconnected reason
  | .starting attempt => (∃ reason, s.connectionState = .disconnected reason) ∧
      s.channelState.Holds k.interface attempt.bss.channel
  | .handshaking attempt _ => (∃ reason, s.connectionState = .disconnected reason) ∧
      Tuned k attempt.bss s

theorem ControlHolds.of_disconnected (hc : t.control = .idle)
    {reason : DisconnectionReason} (ht : t.connectionState = .disconnected reason) :
    t.ControlHolds k := by
  unfold ControlHolds
  rw [hc]
  intro info h
  rw [ht] at h
  cases h

theorem beginBringup_holds {attempt : Attempt} {reason : DisconnectionReason}
    (hd : s.connectionState = .disconnected reason) :
    (s.beginBringup k attempt).ControlHolds k := by
  unfold beginBringup
  simp only
  split
  · exact .of_disconnected rfl hd
  · rename_i he
    exact ⟨⟨reason,hd⟩,ChannelState.lockChannelInternal_holds _ he⟩

theorem abort_holds {slots : Option Rsn.KeySlots} {reason : DisconnectionReason}
    (hd : s.connectionState = .disconnected reason) : (s.abort k slots).ControlHolds k :=
  .of_disconnected rfl hd

theorem connect_holds (hs : s.ControlHolds k) (attempt : Attempt) :
    (s.connect k attempt).ControlHolds k := by
  unfold connect
  split
  · exact hs
  · split
    · split
      · exact hs
      · exact ⟨_,rfl⟩
    · rename_i hd
      exact beginBringup_holds hd

theorem startOperation_holds {attempt : Attempt} {pskValid : Bool}
    (hs : s.ControlHolds k) (hc : s.control = .starting attempt) :
    (s.startOperation k attempt pskValid).ControlHolds k := by
  unfold ControlHolds at hs
  rw [hc] at hs
  obtain ⟨⟨reason,hd⟩,hheld⟩ := hs
  unfold startOperation
  split
  · split
    · exact abort_holds hd
    · split
      · exact ⟨⟨reason,hd⟩,hheld,rfl⟩
      · exact abort_holds hd
  · exact ⟨⟨reason,hd⟩,hheld,rfl⟩

/-- Another interface leaves the lock of this one in place. -/
theorem channel_frame (hs : s.ControlHolds k) {c : ChannelState n}
    (hc : ∀ channel, s.channelState.Holds k.interface channel → c.Holds k.interface channel) :
    ({ s with channelState := c } : StaSystem n).ControlHolds k := by
  unfold ControlHolds at hs ⊢
  cases hctl : s.control with
  | idle =>
    rw [hctl] at hs
    exact fun info h => ⟨hc _ (hs info h).1,(hs info h).2⟩
  | deauthenticating next =>
    rw [hctl] at hs
    exact hs
  | starting attempt =>
    rw [hctl] at hs
    exact ⟨hs.1,hc _ hs.2⟩
  | handshaking attempt slots =>
    rw [hctl] at hs
    exact ⟨hs.1,hc _ hs.2.1,hs.2.2⟩

theorem processDisconnection_holds {reason : DisconnectionReason} (hb : s.bringingUp = false) :
    (s.processDisconnection k reason).ControlHolds k := by
  unfold bringingUp at hb
  cases hctl : s.control with
  | idle => exact .of_disconnected hctl rfl
  | deauthenticating next =>
    unfold ControlHolds processDisconnection
    simp only [hctl]
    exact ⟨reason,rfl⟩
  | starting attempt => simp only [hctl] at hb; cases hb
  | handshaking attempt slots => simp only [hctl] at hb; cases hb

theorem signalConnected_holds {attempt : Attempt} (hs : Tuned k attempt.bss s) :
    (s.signalConnected k attempt.bss).ControlHolds k := by
  intro info h
  cases h
  exact hs

theorem step_holds (hs : s.ControlHolds k) (hok : s.CleanupOutsideBringup op)
    (he : Step k s op t) : t.ControlHolds k := by
  cases he.transition with
  | connect attempt hctl => exact connect_holds hs attempt
  | deauthSent hctl =>
    simp only [ControlHolds,hctl] at hs
    obtain ⟨reason,hd⟩ := hs
    exact .of_disconnected rfl hd
  | nextAttempt attempt hctl =>
    simp only [ControlHolds,hctl] at hs
    obtain ⟨reason,hd⟩ := hs
    exact beginBringup_holds hd
  | startOperation attempt pskValid hctl => exact startOperation_holds hs hctl
  | finishOpen attempt handshake hctl =>
    simp only [ControlHolds,hctl] at hs
    exact signalConnected_holds hs.2
  | finishSecured attempt slots handshake hctl =>
    simp only [ControlHolds,hctl] at hs
    exact signalConnected_holds hs.2
  | cancelDeauth next hctl =>
    simp only [ControlHolds,hctl] at hs
    obtain ⟨reason,hd⟩ := hs
    exact .of_disconnected rfl hd
  | failStarting attempt hctl =>
    simp only [ControlHolds,hctl] at hs
    obtain ⟨⟨reason,hd⟩,_⟩ := hs
    exact abort_holds hd
  | failHandshaking attempt slots hctl =>
    simp only [ControlHolds,hctl] at hs
    obtain ⟨⟨reason,hd⟩,_⟩ := hs
    exact abort_holds hd
  | disconnect info hctl hconn => exact ⟨_,rfl⟩
  | runnerConnect info hrun hconn => exact hs
  | runnerDisconnect reason info hrun hend =>
    exact processDisconnection_holds (hok reason rfl)
  | withCrypto _ c c' hop hc hsame => exact hs
  | withoutCrypto _ hop hc => exact hs
  | otherLock j channel hj =>
    exact channel_frame hs (fun _ => ChannelState.lockChannelInternal_frame _ hj)
  | otherUnlock j hj => exact channel_frame hs (fun _ => ChannelState.unlockChannel_frame hj)

theorem ControlHolds.connected (hs : s.ControlHolds k) {info : ConnectionInfo}
    (hinfo : s.connectionState = .connected info) : Tuned k info.bss s := by
  have hne : ¬ ∃ reason, s.connectionState = .disconnected reason := by
    rintro ⟨reason,hd⟩
    rw [hinfo] at hd
    cases hd
  unfold ControlHolds at hs
  cases hctl : s.control with
  | idle =>
    rw [hctl] at hs
    exact hs info hinfo
  | deauthenticating next =>
    rw [hctl] at hs
    exact absurd hs hne
  | starting attempt =>
    rw [hctl] at hs
    exact absurd hs.1 hne
  | handshaking attempt slots =>
    rw [hctl] at hs
    exact absurd hs.1 hne

/-- If the runner never cleans up during a bringup, a connected station holds the lock
on the channel of its network and filters for its BSSID. -/
theorem connected_holds_resources {channel : ℕ} {ops : List (StaOp n F)}
    (hr : Runs (Guarded CleanupOutsideBringup (Step k)) (new channel) ops s) :
    ∀ info, s.connectionState = .connected info →
      s.channelState.Holds k.interface info.bss.channel ∧ s.bssidFilter = some info.bss.bssid := by
  have hs : s.ControlHolds k :=
    hr.invariant (fun _ _ _ h he => step_holds h he.1 he.2) (.of_disconnected rfl rfl)
  intro info hinfo
  exact hs.connected hinfo

instance (s : StaSystem n) (op : StaOp n F) : Decidable (s.CleanupOutsideBringup op) :=
  match op with
  | .runnerDisconnect reason => decidable_of_iff (s.bringingUp = false)
      ⟨fun h _ _ => h,fun h => h reason rfl⟩
  | .connect _ => .isTrue nofun
  | .deauthSent => .isTrue nofun
  | .startOperation _ => .isTrue nofun
  | .finishConnect _ => .isTrue nofun
  | .failConnect => .isTrue nofun
  | .disconnect => .isTrue nofun
  | .runnerConnect => .isTrue nofun
  | .transmit => .isTrue nofun
  | .keyFrame _ _ => .isTrue nofun
  | .dataFrame _ _ _ => .isTrue nofun
  | .otherLock _ _ => .isTrue nofun
  | .otherUnlock _ => .isTrue nofun

/-- A reconnect whose cleanup comes before the new attempt locks the channel. -/
theorem connected_holds_resources_reconnect :
    let k : StaConfig 2 Unit :=
      ⟨0,0,fun _ => true,10,⟨fun _ => false,fun _ _ _ => none,fun _ _ _ => none⟩⟩
    ∃ s, Runs (Guarded CleanupOutsideBringup (Step k)) (new 1)
      [.connect ⟨⟨0,1,.openNetwork⟩,false⟩,.startOperation true,.finishConnect ⟨0,0,0,⟨0,0,0⟩⟩,
        .runnerConnect,.connect ⟨⟨1,6,.openNetwork⟩,false⟩,.runnerDisconnect .user,.deauthSent,
        .startOperation true,.finishConnect ⟨0,0,0,⟨0,0,0⟩⟩] s ∧
    s.channelState.Holds 0 6 ∧ s.bssidFilter = some 1 := by
  intro k
  apply Runs.exists_of_execute (Runs.guarded_of_nextGuarded (fun _ _ _ h => h))
    (fun s => s.connectionState = .connected ⟨⟨1,6,.openNetwork⟩,0⟩)
  · decide
  · intro s hr hconn
    exact connected_holds_resources hr _ hconn

/-- Connecting to a second network while connected to the first: the runner sees the
disconnection only after the new attempt has locked the channel and set its filters, and
takes both away. -/
theorem connected_without_resources :
    let k : StaConfig 2 Unit :=
      ⟨0,0,fun _ => true,10,⟨fun _ => false,fun _ _ _ => none,fun _ _ _ => none⟩⟩
    ∃ s, Runs (Step k) (new 1)
      [.connect ⟨⟨0,1,.openNetwork⟩,false⟩,.startOperation true,.finishConnect ⟨0,0,0,⟨0,0,0⟩⟩,
        .runnerConnect,.connect ⟨⟨1,6,.openNetwork⟩,false⟩,.deauthSent,.startOperation true,
        .runnerDisconnect .user,.finishConnect ⟨0,0,0,⟨0,0,0⟩⟩] s ∧
    s.connectionState = .connected ⟨⟨1,6,.openNetwork⟩,0⟩ ∧
    ¬ s.channelState.Holds 0 6 ∧ s.bssidFilter = none := by
  intro k
  apply Runs.exists_of_execute (fun _ _ _ h => h) (fun s =>
    s.connectionState = .connected ⟨⟨1,6,.openNetwork⟩,0⟩ ∧ s.channelState.locks.isNone = true ∧
      s.bssidFilter = none)
  · decide
  · rintro s _ ⟨hconn,hlocks,hfilter⟩
    refine ⟨hconn,?_,hfilter⟩
    rintro ⟨held,hl,_⟩
    rw [hl] at hlocks
    cases hlocks

end FerrisOnAir.Sta.StaSystem
