import FerrisOnAir.Sta.ConnectionPolls

/-! # Attempts that fail leave nothing behind

The guards of a suspended attempt cover what it has taken: the channel lock, the filters,
the router operation, every key slot it has acquired and every transmit buffer in its
hands. This is an invariant of all interleavings, whatever the others do between two
awaits. The crypto state is written only behind the last await.
-/
namespace FerrisOnAir.Sta
open Lmac Rsn Util Tx
variable {n N : ℕ} {F C P E : Type*}

namespace StaSystem
variable {k : StaConfig n F} {s t : StaSystem n} {op : StaOp n F}

theorem beginBringup_busyDisconnected {attempt : Attempt} {reason : DisconnectionReason}
    (hd : s.connectionState = .disconnected reason) :
    (s.beginBringup k attempt).BusyDisconnected := by
  unfold beginBringup
  simp only
  split
  · exact nofun
  · exact fun _ => ⟨reason,hd⟩

theorem step_busyDisconnected (hs : s.BusyDisconnected) (he : Step k s op t) :
    t.BusyDisconnected := by
  cases he.transition with
  | connect attempt hctl =>
    unfold connect
    split
    · exact hs
    · split
      · split
        · exact hs
        · exact fun _ => ⟨_,rfl⟩
      · rename_i hd
        exact beginBringup_busyDisconnected hd
  | deauthSent hctl => exact nofun
  | nextAttempt attempt hctl =>
    obtain ⟨reason,hd⟩ := hs (by rw [hctl]; rfl)
    exact beginBringup_busyDisconnected hd
  | startOperation attempt pskValid hctl =>
    obtain ⟨reason,hd⟩ := hs (by rw [hctl]; rfl)
    unfold startOperation
    split
    · split
      · exact nofun
      · split
        · exact fun _ => ⟨reason,hd⟩
        · exact nofun
    · exact fun _ => ⟨reason,hd⟩
  | finishOpen attempt handshake hctl => exact nofun
  | finishSecured attempt slots handshake hctl => exact nofun
  | cancelDeauth next hctl => exact nofun
  | failStarting attempt hctl => exact nofun
  | failHandshaking attempt slots hctl => exact nofun
  | disconnect info hctl hconn => exact fun _ => ⟨_,rfl⟩
  | runnerConnect info hrun hconn => exact hs
  | runnerDisconnect reason info hrun hend => exact fun _ => ⟨_,rfl⟩
  | withCrypto _ c c' hop hc hsame => exact hs
  | withoutCrypto _ hop hc => exact hs
  | otherLock j channel hj => exact hs
  | otherUnlock j hj => exact hs

/-- Nothing goes through the crypto state of a station that is not connected. -/
theorem cryptoState_unused {reason : DisconnectionReason}
    (hd : s.connectionState = .disconnected reason) (hop : op.usesCryptoState = true) :
    s.step k op = none := by
  cases op with
  | transmit =>
    simp only [step,hd]
    split
    · rename_i h
      cases h
    · rfl
  | keyFrame frame packetNumber =>
    simp only [step,hd]
    split
    · rename_i h
      cases h
    · rfl
  | dataFrame isGroup keyId packetNumber => simp only [step,hd]
  | _ => cases hop

/-- What the others leave alone while an attempt is under way. -/
theorem bringup_frame (hup : s.bringingUp = true) (hs : s.BusyDisconnected)
    (hfail : op ≠ .failConnect) (hstart : ∀ b, op ≠ .startOperation b)
    (hfinish : ∀ h, op ≠ .finishConnect h) (he : Step k s op t) :
    t.control = s.control ∧ t.cryptoState = s.cryptoState := by
  have hbusy : s.control.isIdle = false := by
    cases hc : s.control with
    | idle =>
      rw [bringingUp,hc] at hup
      cases hup
    | _ => rfl
  obtain ⟨reason,hd⟩ := hs hbusy
  cases he.transition with
  | connect attempt hctl =>
    rw [hctl] at hbusy
    cases hbusy
  | deauthSent hctl =>
    rw [bringingUp,hctl] at hup
    cases hup
  | nextAttempt attempt hctl =>
    rw [bringingUp,hctl] at hup
    cases hup
  | startOperation attempt pskValid hctl => exact absurd rfl (hstart pskValid)
  | finishOpen attempt handshake hctl => exact absurd rfl (hfinish handshake)
  | finishSecured attempt slots handshake hctl => exact absurd rfl (hfinish handshake)
  | cancelDeauth next hctl => exact absurd rfl hfail
  | failStarting attempt hctl => exact absurd rfl hfail
  | failHandshaking attempt slots hctl => exact absurd rfl hfail
  | disconnect info hctl hconn =>
    rw [hctl] at hbusy
    cases hbusy
  | runnerConnect info hrun hconn => exact ⟨rfl,rfl⟩
  | runnerDisconnect reason info hrun hend => exact ⟨rfl,rfl⟩
  | withCrypto _ c c' hop hc hsame =>
    rw [Step,cryptoState_unused hd hop] at he
    cases he
  | withoutCrypto _ hop hc => exact ⟨rfl,rfl⟩
  | otherLock j channel hj => exact ⟨rfl,rfl⟩
  | otherUnlock j hj => exact ⟨rfl,rfl⟩

/-- Outside of an attempt nothing but its beginning is reached. -/
theorem step_not_handshaking (hup : s.bringingUp = false) (he : Step k s op t) {attempt : Attempt}
    {slots : Option KeySlots} : t.control ≠ .handshaking attempt slots := by
  have hs : s.control ≠ .handshaking attempt slots := by
    intro hc
    rw [bringingUp,hc] at hup
    cases hup
  have hbegin : ∀ next, (s.beginBringup k next).control ≠ .handshaking attempt slots := by
    intro next
    unfold beginBringup
    simp only
    split <;> simp
  cases he.transition with
  | connect next hctl =>
    unfold connect
    split
    · exact hs
    · split
      · split
        · exact hs
        · simp
      · exact hbegin next
  | deauthSent hctl => simp
  | nextAttempt next hctl => exact hbegin next
  | startOperation next pskValid hctl =>
    rw [bringingUp,hctl] at hup
    cases hup
  | finishOpen next handshake hctl => simp [signalConnected]
  | finishSecured next slots handshake hctl => simp [signalConnected]
  | cancelDeauth next hctl => simp
  | failStarting next hctl => simp [abort]
  | failHandshaking next slots hctl => simp [abort]
  | disconnect info hctl hconn => simp
  | runnerConnect info hrun hconn => exact hs
  | runnerDisconnect reason info hrun hend => exact hs
  | withCrypto _ c c' hop hc hsame => exact hs
  | withoutCrypto _ hop hc => exact hs
  | otherLock j channel hj => exact hs
  | otherUnlock j hj => exact hs

end StaSystem

namespace ConnectSystem
variable {k : ConnectConfig n F} {s t : ConnectSystem n N F C P E}

section Suspended
variable [Zero C] [NeZero N]

/-- In the `join`. -/
structure Joining (s : ConnectSystem n N F C P E) (started : Bool) : Prop where
  base : s.Base 0
  starting : ∃ attempt, s.sta.control = .starting attempt
  slots : s.acquired = []
  crypto : s.sta.cryptoState = s.cryptoBefore
  started_iff : started = true ↔ s.router.endpoints .foreground = .scoped

/-- Behind the `join`, with some buffers in the hands of the functions called. -/
structure Inside (s : ConnectSystem n N F C P E) (own : Multiset (Fin N)) : Prop where
  base : s.Base own
  handshaking : ∃ attempt slots, s.sta.control = .handshaking attempt slots
  slots : s.acquired = s.sta.attemptSlots
  crypto : s.sta.cryptoState = s.cryptoBefore
  operating : s.router.endpoints .foreground = .scoped

/-- Where the task is suspended it has taken what its guards stand for. -/
def Sound (s : ConnectSystem n N F C P E) : Prop :=
  match s.task with
  | none => s.Outside
  | some (.join started _) => s.Joining started
  | some a => s.Inside (guardBuffers a.guards)

/-- A poll goes on to another await, or to the end of the attempt. -/
def Concluded (k : ConnectConfig n F) (t : ConnectSystem n N F C P E) : Prop :=
  t.Sound ∧ (t.task = none → t.result ≠ some .connected → t.Cleaned k)

variable {own : Multiset (Fin N)}

theorem Inside.await (h : s.Inside own) (a : ConnectAwait N) : (s.await a).Inside own :=
  { h with }

theorem await_concluded {a : ConnectAwait N} (ha : a.isJoin = false)
    (h : s.Inside (guardBuffers a.guards)) : (s.await a).Concluded k := by
  refine ⟨?_,nofun⟩
  cases a with
  | join started completed => cases ha
  | _ => exact h.await _

/-- With the guards of `run` an attempt behind the `join` is covered. -/
theorem Inside.covers (h : s.Inside own) (inner : List (ScopeGuard N))
    (hinner : inner.all ofTx = true) : s.Covers (s.runGuards ++ inner) where
  connection := by simp [runGuards]
  bringup := by simp [runGuards]
  operation := Or.inl (by simp [runGuards])
  start hg := by
    have hno : ScopeGuard.startOperation ∉ inner := fun hmem =>
      Bool.false_ne_true (List.all_eq_true.mp hinner _ hmem)
    simp [runGuards,hno] at hg
  slots i hi := by
    rw [h.slots] at hi
    simp [runGuards,hi]
  crypto := h.crypto

omit [Zero C] [NeZero N] in
theorem guardBuffers_runGuards (s : ConnectSystem n N F C P E) : guardBuffers s.runGuards = 0 := by
  rw [runGuards,guardBuffers_append,guardBuffers_keySlots]
  rfl

theorem leave_concluded {guards : List (ScopeGuard N)} {result : AttemptResult}
    (hs : s.Base (guardBuffers guards)) (hc : s.Covers guards) :
    (s.leave k result guards).Concluded k :=
  ⟨leave_outside hs hc,fun _ _ => leave_cleaned hs hc⟩

theorem Inside.leaves {inner : List (ScopeGuard N)} {result : AttemptResult}
    (h : s.Inside (guardBuffers inner)) (hinner : inner.all ofTx = true) :
    (s.leave k result (s.runGuards ++ inner)).Concluded k := by
  refine leave_concluded ?_ (h.covers inner hinner)
  rw [guardBuffers_append,guardBuffers_runGuards,zero_add]
  exact h.base

section Actions

/-- A step of the router that leaves its endpoints as they are. -/
theorem Inside.router {op : RouterOp F StaRxRouterOperation}
    {router : RouterSystem F StaRxRouterOperation} (h : s.Inside own)
    (hr : s.router.step k.router op = some router)
    (hsame : router.endpoints = s.router.endpoints) : { s with router := router }.Inside own := by
  obtain ⟨hends,howned,hdisc⟩ := h.base
  exact { h with
    base := ⟨RouterSystem.step_endpoints hends hr,howned,hdisc⟩
    operating := (congrFun hsame _).trans h.operating }

theorem Inside.receive (h : s.Inside own) (he : s.receive k = some t) : t.Inside own := by
  obtain ⟨router,hr,rfl⟩ := Option.map_eq_some_iff.mp he
  refine h.router hr ?_
  simp only [RouterSystem.step] at hr
  split at hr
  · cases hr
  · cases hr
    rfl

theorem Inside.transition {operation : StaRxRouterOperation} (h : s.Inside own)
    (he : s.transition k operation = some t) : t.Inside own := by
  unfold ConnectSystem.transition at he
  split at he
  · obtain ⟨router,hr,rfl⟩ := Option.map_eq_some_iff.mp he
    refine h.router hr ?_
    simp only [RouterSystem.step] at hr
    split at hr
    · obtain ⟨r,_,rfl⟩ := Option.map_eq_some_iff.mp hr
      rfl
    · cases hr
  · cases he

/-- A step of the transmit queues by the attempt. -/
theorem Inside.txStep {own' : Multiset (Fin N)} {op : TxOp N C P E} (h : s.Inside own)
    (he : s.txStep op = some t)
    (hheld : ∀ tx, TxSystem.Step s.tx op tx → bufferIds tx.held = own' + s.others) :
    t.Inside own' := by
  obtain ⟨tx,htx,rfl⟩ := Option.map_eq_some_iff.mp he
  have hstep := ok_of_toOption htx
  obtain ⟨hends,⟨hvalid,_⟩,hdisc⟩ := h.base
  exact { h with base := ⟨hends,⟨TxSystem.step_valid hvalid hstep,hheld tx hstep⟩,hdisc⟩ }

theorem Inside.held (h : s.Inside own) : bufferIds s.tx.held = own + s.others := h.base.2.1.2

theorem Inside.allocTxBuf {i : Fin N} (h : s.Inside own) (he : s.allocTxBuf = some (i,t)) :
    t.Inside ({i} + own) := by
  unfold ConnectSystem.allocTxBuf at he
  split at he
  · cases he
  · rename_i b manager hb
    obtain ⟨u,hu,hiu⟩ := Option.map_eq_some_iff.mp he
    cases hiu
    refine h.txStep hu ?_
    intro tx htx
    rw [TxSystem.tryAlloc_held hb htx,h.held,add_assoc]

theorem Inside.transmitEdca {i : Fin N} {length g : ℕ} {p : P} (h : s.Inside ({i} + own))
    (he : s.transmitEdca k i length p = some (g,t)) : t.Inside own := by
  obtain ⟨u,hu,hiu⟩ := Option.map_eq_some_iff.mp he
  cases hiu
  refine h.txStep hu ?_
  intro tx htx
  have hheld := TxSystem.transmitEdca_held htx
  rw [h.held,add_assoc] at hheld
  exact add_left_cancel hheld

theorem Inside.sendFrame {frame : C × ℕ} {p : P} {g : ℕ} (h : s.Inside own)
    (he : s.sendFrame k frame p = some (g,t)) : t.Inside own := by
  obtain ⟨r,hr,he⟩ := Option.bind_eq_some_iff.mp he
  obtain ⟨u,hu,he⟩ := Option.bind_eq_some_iff.mp he
  have hbuffer := h.allocTxBuf hr
  have hwritten : u.Inside ({r.1} + own) := by
    refine hbuffer.txStep hu ?_
    intro tx htx
    rw [TxSystem.write_held htx,hbuffer.held]
  exact hwritten.transmitEdca he

theorem Inside.dropHandle {g : ℕ} (h : s.Inside own) :
    (s.drop k (.pendingTransmission g)).Inside own := by
  obtain ⟨hends,howned,hdisc⟩ := h.base
  have hdropped : TxOwned (s.drop k (.pendingTransmission g)).tx own s.others :=
    dropHandle_owned howned
  rw [drop,txDrop_frame] at hdropped ⊢
  exact { h with base := ⟨hends,hdropped,hdisc⟩ }

theorem Inside.dropBuffer {i : Fin N} (h : s.Inside ({i} + own)) :
    (s.drop k (.txBuffer i)).Inside own := by
  obtain ⟨hends,howned,hdisc⟩ := h.base
  have hdropped : TxOwned (s.drop k (.txBuffer i)).tx own s.others := dropBuffer_owned howned
  rw [drop,txDrop_frame] at hdropped ⊢
  exact { h with base := ⟨hends,hdropped,hdisc⟩ }

/-- A completed transmission gives its buffer back. -/
theorem Inside.pollCompletion {g : ℕ} {w : Waker} {poll : Poll (Option (TxReturnData N C E))}
    (h : s.Inside own) (he : s.pollCompletion k g w = some (poll,t)) :
    t.Inside (poll.returned + own) := by
  obtain ⟨u,hu,hiu⟩ := Option.map_eq_some_iff.mp he
  have hpolled : u.Inside
      (((s.tx.queues k.accessCategory).queue.waitForCompletion g w).1.returned + own) := by
    refine h.txStep hu ?_
    intro tx htx
    rw [TxSystem.waitForCompletion_held htx,h.held,add_assoc]
  split at hiu
  · rename_i hp
    cases hiu
    rw [hp] at hpolled
    exact hpolled
  · rename_i r hp
    cases hiu
    rw [hp] at hpolled
    exact hpolled.dropHandle

end Actions

section Polls

theorem finishConnect_idle {attempt : Attempt} {slots : Option KeySlots} {handshake : Handshake}
    {sta u : StaSystem n} (h : sta.finishConnect k.toStaConfig attempt slots handshake = .ok u) :
    u.control = .idle := by
  cases slots with
  | none =>
    cases h
    rfl
  | some slots =>
    simp only [StaSystem.finishConnect,CryptoState.new_established] at h
    cases h
    rfl

/-- The end of a successful attempt. -/
theorem Inside.finish {handshake : Handshake} (h : s.Inside 0)
    (he : s.finish k handshake = some t) : t.Concluded k := by
  unfold ConnectSystem.finish at he
  split at he
  · split at he
    · cases he
    · rename_i sta hsta
      cases he
      have hidle := finishConnect_idle hsta
      obtain ⟨hends,howned,_⟩ := h.base
      refine ⟨⟨⟨hends.of_drop rfl rfl,howned,?_⟩,?_⟩,fun _ hne => absurd rfl hne⟩
      · intro hbusy
        change sta.control.isIdle = false at hbusy
        rw [hidle] at hbusy
        cases hbusy
      · change sta.bringingUp = false
        rw [StaSystem.bringingUp,hidle]
  · cases he

/-- Behind the `join`, what a poll calls keeps the attempt covered by its guards. -/
theorem inside_pollRule :
    PollRule k (fun own (s : ConnectSystem n N F C P E) => s.Inside own) (Concluded k) where
  receive := Inside.receive
  transition := Inside.transition
  allocTxBuf := Inside.allocTxBuf
  sendFrame := Inside.sendFrame
  transmitEdca := Inside.transmitEdca
  pollCompletion := Inside.pollCompletion
  dropBuffer := Inside.dropBuffer
  await := await_concluded
  fail := Inside.leaves
  finish := Inside.finish

/-- The key slots an attempt has acquired before it fails are guarded. -/
theorem Joining.failStart (h : s.Joining true) (manager : KeySlotManager) (slots : List ℕ)
    (error : StaError) : ({ s with
      sta := { s.sta with keySlots := manager }
      acquired := slots }.fail k error (slots.map .keySlot)).Concluded k := by
  obtain ⟨attempt,hstarting⟩ := h.starting
  refine leave_concluded ?_ ?_
  · rw [guardBuffers_append,guardBuffers_runGuards,guardBuffers_keySlots]
    exact h.base
  · refine ⟨by simp [runGuards],by simp [runGuards],Or.inl (by simp [runGuards]),?_,?_,h.crypto⟩
    · intro hg
      simp [runGuards] at hg
    · intro i hi
      exact List.mem_append_right _ (List.mem_map_of_mem hi)

theorem Joining.configure (h : s.Joining true) {attempt : Attempt} {slots : Option KeySlots}
    {manager : KeySlotManager} {acquired : List ℕ} (ha : acquired = slots.elim [] slotList) :
    ({ s with
      sta := { s.sta with keySlots := manager }
      acquired := acquired }.configureRxFilters k attempt slots).Concluded k := by
  obtain ⟨hends,howned,hdisc⟩ := h.base
  obtain ⟨attempt',hstarting⟩ := h.starting
  obtain ⟨reason,hd⟩ := hdisc (by rw [hstarting]; rfl)
  refine await_concluded rfl ?_
  exact {
    base := ⟨hends,howned,fun _ => ⟨reason,hd⟩⟩
    handshaking := ⟨attempt,slots,rfl⟩
    slots := ha
    crypto := h.crypto
    operating := h.started_iff.mp rfl }

theorem Joining.startOperation {pskValid : Bool} (h : s.Joining true)
    (he : s.startOperation k pskValid = some t) : t.Concluded k := by
  unfold ConnectSystem.startOperation at he
  split at he
  · split at he
    · split at he
      · split at he
        · cases he
          exact h.failStart _ _ _
        · rename_i a ha
          cases he
          refine h.configure ?_
          rw [KeySlotManager.acquireEach_of_acquired ha]
          exact (slotList_keySlotsOf a).symm
      · cases he
        exact h.failStart _ _ _
    · cases he
      exact h.configure h.slots
  · cases he

theorem Joining.poll {started completed offChannelCompleted pskValid : Bool}
    (h : s.Joining started)
    (he : s.pollJoin k started completed offChannelCompleted pskValid = some t) :
    t.Concluded k := by
  obtain ⟨router,hr,he⟩ := Option.bind_eq_some_iff.mp he
  obtain ⟨hends,howned,hdisc⟩ := h.base
  have hends' : router.Endpoints := by
    split at hr
    · cases hr
      exact hends
    · exact RouterSystem.step_endpoints hends hr
  have hjoined : ({ s with router := router }.await (.join
      (decide (router.endpoints .foreground = EndpointState.scoped))
        (completed || offChannelCompleted))).Joining
          (decide (router.endpoints .foreground = EndpointState.scoped)) := { h with
    base := ⟨hends',howned,hdisc⟩
    started_iff := decide_eq_true_iff }
  dsimp only at he
  split at he
  · rename_i hboth
    rw [(Bool.and_eq_true_iff.mp hboth).1] at hjoined he
    exact hjoined.startOperation he
  · cases he
    exact ⟨hjoined,nofun⟩

/-- Every poll of a suspended attempt. -/
theorem resume_concluded {a : ConnectAwait N} {event : ConnectEvent C P} (hs : s.Sound)
    (htask : s.task = some a) (he : s.resume k a event = some t) : t.Concluded k := by
  unfold Sound at hs
  rw [htask] at hs
  cases a with
  | join started completed =>
    cases event with
    | join offChannelCompleted pskValid => exact hs.poll he
    | _ => cases he
  | _ => exact inside_pollRule.resume rfl hs htask he

/-- The future is dropped. -/
theorem cancel_concluded {a : ConnectAwait N} (hs : s.Sound) (htask : s.task = some a) :
    (s.leave k .cancelled (s.guards a)).Concluded k := by
  unfold Sound at hs
  rw [htask] at hs
  cases a with
  | join started completed =>
    refine leave_concluded ?_ ?_
    · cases started <;> exact hs.base
    · refine ⟨by simp [guards],by simp [guards],?_,?_,?_,hs.crypto⟩
      · cases hst : started with
        | true => exact Or.inl (by simp [guards])
        | false =>
          refine Or.inr (fun hscoped => ?_)
          rw [hs.started_iff.mpr hscoped] at hst
          cases hst
      · intro hg hscoped
        rw [hs.started_iff.mpr hscoped] at hg
        simp [guards] at hg
      · intro i hi
        rw [hs.slots] at hi
        cases hi
  | _ => exact hs.leaves (guards_ofTx rfl)

end Polls

section Others

/-- A step of somebody else. -/
theorem Sound.frame (hs : s.Sound) (htask : t.task = s.task) (hacquired : t.acquired = s.acquired)
    (hbefore : t.cryptoBefore = s.cryptoBefore) (hbase : ∀ own, s.Base own → t.Base own)
    (hcontrol : t.sta.control = s.sta.control) (hcrypto : t.sta.cryptoState = s.sta.cryptoState)
    (hends : s.task ≠ none → t.router.endpoints .foreground = s.router.endpoints .foreground) :
    t.Sound := by
  have hslots : t.sta.attemptSlots = s.sta.attemptSlots := by
    simp only [StaSystem.attemptSlots,hcontrol]
  unfold Sound at hs ⊢
  rw [htask]
  cases ha : s.task with
  | none =>
    rw [ha] at hs
    refine ⟨hbase _ hs.base,?_⟩
    rw [StaSystem.bringingUp,hcontrol]
    exact hs.control
  | some a =>
    rw [ha] at hs hends
    have hends' := hends (by simp)
    cases a with
    | join started completed => exact {
        base := hbase _ hs.base
        starting := hcontrol ▸ hs.starting
        slots := hacquired.trans hs.slots
        crypto := hcrypto.trans (hs.crypto.trans hbefore.symm)
        started_iff := hends' ▸ hs.started_iff }
    | _ => exact {
        base := hbase _ hs.base
        handshaking := hcontrol ▸ hs.handshaking
        slots := hacquired.trans (hs.slots.trans hslots.symm)
        crypto := hcrypto.trans (hs.crypto.trans hbefore.symm)
        operating := hends'.trans hs.operating }

/-- While the task is suspended `StaControl` is bringing the interface up. -/
theorem Sound.bringingUp (hs : s.Sound) (htask : s.task ≠ none) : s.sta.bringingUp = true := by
  unfold Sound at hs
  cases ha : s.task with
  | none => exact absurd ha htask
  | some a =>
    rw [ha] at hs
    cases a with
    | join started completed =>
      obtain ⟨attempt,hc⟩ := hs.starting
      rw [StaSystem.bringingUp,hc]
    | _ =>
      obtain ⟨attempt,slots,hc⟩ := hs.handshaking
      rw [StaSystem.bringingUp,hc]

theorem Sound.busyDisconnected (hs : s.Sound) : s.sta.BusyDisconnected := by
  unfold Sound at hs
  cases ha : s.task with
  | none =>
    rw [ha] at hs
    exact hs.base.2.2
  | some a =>
    rw [ha] at hs
    cases a with
    | join started completed => exact hs.base.2.2
    | _ => exact hs.base.2.2

/-- While an attempt is under way the foreground endpoint of the router is its own. -/
theorem Sound.router {op : RouterOp F StaRxRouterOperation}
    {router : RouterSystem F StaRxRouterOperation} (hs : s.Sound)
    (hop : ¬ (op.endpoint = some .foreground && !s.sta.control.isIdle) = true)
    (hr : s.router.step k.router op = some router) : { s with router := router }.Sound := by
  refine hs.frame rfl rfl rfl ?_ rfl rfl ?_
  · exact fun own hb => ⟨RouterSystem.step_endpoints hb.1 hr,hb.2⟩
  · intro htask
    refine RouterSystem.endpoints_frame hr ?_
    intro hfg
    have hup := hs.bringingUp htask
    cases hc : s.sta.control with
    | idle =>
      rw [StaSystem.bringingUp,hc] at hup
      cases hup
    | _ => simp [hfg,hc,ControlTask.isIdle] at hop

/-- Other callers change the buffers of other callers. -/
theorem others_owned {own : Multiset (Fin N)} {op : TxOp N C P E} {tx : TxSystem N C P E}
    (hmay : s.othersMay k op = true) (hstep : TxSystem.Step s.tx op tx)
    (h : TxOwned s.tx own s.others) :
    TxOwned tx own (s.others + bufferIds tx.held - bufferIds s.tx.held) := by
  obtain ⟨hvalid,hheld⟩ := h
  refine ⟨TxSystem.step_valid hvalid hstep,?_⟩
  have hgiven : op.given ≤ s.others := by
    have hall := (Bool.and_eq_true_iff.mp hmay).1
    cases op with
    | dropBuffer i => exact Multiset.singleton_le.mpr (of_decide_eq_true hall)
    | transmitEdca q i length p interface r =>
      exact Multiset.singleton_le.mpr (of_decide_eq_true hall)
    | _ => exact Multiset.zero_le _
  obtain ⟨rest,hrest⟩ := Multiset.le_iff_exists_add.mp hgiven
  obtain ⟨gained,hgained⟩ := TxSystem.step_held hstep
  have htx : bufferIds tx.held = own + (rest + gained) := by
    rw [hheld,hrest] at hgained
    apply add_left_cancel (a := op.given)
    rw [hgained]
    abel
  have hothers : s.others + bufferIds tx.held = bufferIds s.tx.held + (rest + gained) := by
    rw [htx,hheld,hrest]
    abel
  rw [hothers,add_tsub_cancel_left]
  exact htx

/-- A step of the station outside of an attempt may begin one. -/
theorem staStep_outside {op : StaOp n F} (hs : s.Sound) (htask : s.task = none)
    (he : s.staStep k op = some t) : t.Sound := by
  obtain ⟨sta,hsta,he⟩ := Option.bind_eq_some_iff.mp he
  unfold Sound at hs
  rw [htask] at hs
  obtain ⟨hends,howned,hdisc⟩ := hs.base
  have hdisc' : sta.BusyDisconnected := StaSystem.step_busyDisconnected hdisc hsta
  have hnot : ∀ attempt slots, sta.control ≠ .handshaking attempt slots :=
    fun _ _ => StaSystem.step_not_handshaking hs.control hsta
  unfold ConnectSystem.begin at he
  split at he
  · rename_i attempt _ hstarting
    obtain ⟨router,hr,rfl⟩ := Option.map_eq_some_iff.mp he
    exact {
      base := ⟨RouterSystem.step_endpoints hends hr,howned,hdisc'⟩
      starting := ⟨attempt,hstarting⟩
      slots := rfl
      crypto := rfl
      started_iff := decide_eq_true_iff }
  · rename_i hno
    cases he
    have hup : sta.bringingUp = false := by
      cases hc : sta.control with
      | starting attempt => exact absurd hc (hno attempt htask)
      | handshaking attempt slots => exact absurd hc (hnot attempt slots)
      | _ => rw [StaSystem.bringingUp,hc]
    unfold Sound
    dsimp only
    rw [htask]
    exact ⟨⟨hends,howned,hdisc'⟩,hup⟩

/-- A step of the station by somebody else while an attempt is under way. -/
theorem staStep_inside {op : StaOp n F} (hs : s.Sound) (htask : s.task ≠ none)
    (hop : s.outsideAttempt op = true) (he : s.staStep k op = some t) :
    t.Sound ∧ t.task = s.task := by
  obtain ⟨sta,hsta,he⟩ := Option.bind_eq_some_iff.mp he
  have hsome : s.task.isNone = false := by
    cases ha : s.task with
    | none => exact absurd ha htask
    | some a => rfl
  have hfail : op ≠ .failConnect := by
    rintro rfl
    rw [outsideAttempt,hsome] at hop
    cases hop
  have hstart : ∀ b, op ≠ .startOperation b := by
    rintro b rfl
    cases hop
  have hfinish : ∀ h, op ≠ .finishConnect h := by
    rintro h rfl
    cases hop
  obtain ⟨hcontrol,hcrypto⟩ := StaSystem.bringup_frame (hs.bringingUp htask) hs.busyDisconnected
    hfail hstart hfinish hsta
  have hdisc : sta.BusyDisconnected := StaSystem.step_busyDisconnected hs.busyDisconnected hsta
  unfold ConnectSystem.begin at he
  split at he
  · rename_i hnone _
    exact absurd hnone htask
  · cases he
    refine ⟨hs.frame rfl rfl rfl ?_ hcontrol hcrypto (fun _ => rfl),rfl⟩
    exact fun own hb => ⟨hb.1,hb.2.1,hdisc⟩

end Others

section Runs
variable {op : ConnectOp n N F C P E} {ops : List (ConnectOp n N F C P E)} {channel : ℕ}

theorem new_sound : (new channel : ConnectSystem n N F C P E).Sound :=
  ⟨⟨RouterSystem.new_endpoints,⟨TxSystem.new_valid,rfl⟩,nofun⟩,rfl⟩

/-- Steps of others do not end an attempt. -/
theorem others_concluded (ht : t.Sound) (htask : t.task = s.task) :
    t.Sound ∧ (s.task ≠ none → t.task = none → t.result ≠ some .connected → t.Cleaned k) :=
  ⟨ht,fun hup hend _ => absurd (htask.symm.trans hend) hup⟩

theorem connect_disabled {attempt : Attempt} {r : ℕ} (hs : s.Sound) (htask : s.task ≠ none)
    (he : { s with handshakeRetries := r }.staStep k (.connect attempt) = some t) : False := by
  obtain ⟨sta,hsta,_⟩ := Option.bind_eq_some_iff.mp he
  have hup := hs.bringingUp htask
  simp only [StaSystem.step] at hsta
  split at hsta
  · rename_i hidle
    rw [StaSystem.bringingUp,hidle] at hup
    cases hup
  · cases hsta

/-- Every step keeps an attempt covered by its guards, and one that ends it without success
leaves nothing. -/
theorem step_concluded (hs : s.Sound) (he : Step k s op t) :
    t.Sound ∧ (s.task ≠ none → t.task = none → t.result ≠ some .connected → t.Cleaned k) := by
  unfold Step at he
  cases op with
  | connect attempt r =>
    simp only [step] at he
    split at he
    · have hs' : ({ s with handshakeRetries := r } : ConnectSystem n N F C P E).Sound :=
        hs.frame rfl rfl rfl (fun _ hb => hb) rfl rfl (fun _ => rfl)
      by_cases htask : s.task = none
      · exact ⟨staStep_outside hs' htask he,fun hup => absurd htask hup⟩
      · exact (connect_disabled hs htask he).elim
    · cases he
  | poll event =>
    obtain ⟨a,ha,he⟩ := Option.bind_eq_some_iff.mp he
    obtain ⟨hsound,hclean⟩ := resume_concluded hs ha he
    exact ⟨hsound,fun _ => hclean⟩
  | cancel =>
    obtain ⟨a,ha,rfl⟩ := Option.map_eq_some_iff.mp he
    obtain ⟨hsound,hclean⟩ := cancel_concluded (k := k) hs ha
    exact ⟨hsound,fun _ => hclean⟩
  | sta op =>
    simp only [step] at he
    split at he
    · rename_i hop
      by_cases htask : s.task = none
      · exact ⟨staStep_outside hs htask he,fun hup => absurd htask hup⟩
      · obtain ⟨ht,hsame⟩ := staStep_inside hs htask hop he
        exact others_concluded ht hsame
    · cases he
  | router op =>
    simp only [step] at he
    split at he
    · cases he
    · rename_i hop
      obtain ⟨router,hr,rfl⟩ := Option.map_eq_some_iff.mp he
      exact others_concluded (hs.router hop hr) rfl
  | tx op =>
    simp only [step] at he
    split at he
    · rename_i hmay
      obtain ⟨tx,htx,rfl⟩ := Option.map_eq_some_iff.mp he
      refine others_concluded (hs.frame rfl rfl rfl ?_ rfl rfl (fun _ => rfl)) rfl
      exact fun own hb => ⟨hb.1,others_owned hmay (ok_of_toOption htx) hb.2.1,hb.2.2⟩
    · cases he
  | otherAcquire =>
    obtain ⟨r,_,rfl⟩ := Option.map_eq_some_iff.mp he
    exact others_concluded (hs.frame rfl rfl rfl (fun _ hb => hb) rfl rfl (fun _ => rfl)) rfl
  | otherSetKey i =>
    simp only [step] at he
    split at he
    · cases he
      exact others_concluded (hs.frame rfl rfl rfl (fun _ hb => hb) rfl rfl (fun _ => rfl)) rfl
    · cases he
  | otherRelease i =>
    simp only [step] at he
    split at he
    · cases he
      exact others_concluded (hs.frame rfl rfl rfl (fun _ hb => hb) rfl rfl (fun _ => rfl)) rfl
    · cases he

/-- An attempt that ends without success, by any error or because its future is dropped at
any await, has given back the lock, the filters, the router operation, its key slots and
their keys; all transmit buffers are free, in the queues or with other tasks, and the
crypto state is the one the attempt found. -/
theorem failed_connect_leaves_nothing (hr : Runs (Step k) (new channel) ops s)
    (he : Step k s op t) (hup : s.task ≠ none) (hend : t.task = none)
    (hfail : t.result ≠ some .connected) :
    (∀ c, ¬ t.sta.channelState.Holds k.interface c) ∧
    t.sta.receiverAddressFilter = none ∧ t.sta.bssidFilter = none ∧
    t.router.router.operationState .foreground = none ∧
    (∀ i ∈ t.acquired, t.sta.keySlots.keySlotState i = true ∧ t.hardwareKeys i = false) ∧
    (t.tx.owned = Finset.univ.val ∧ bufferIds t.tx.held = t.others) ∧
    t.sta.cryptoState = t.cryptoBefore := by
  have hs : s.Sound :=
    hr.invariant (fun _ _ _ h he => (step_concluded (k := k) h he).1) new_sound
  have ht : t.Cleaned k := (step_concluded hs he).2 hup hend hfail
  exact ⟨ht.unlocked,ht.filters.1,ht.filters.2,ht.operation,ht.keySlots,ht.buffers,ht.cryptoState⟩

/-- An attempt for a secured network that is dropped while its authentication frame is in
the queue. -/
theorem failed_connect_leaves_nothing_cancelled :
    let k : ConnectConfig 2 Unit := ⟨⟨0,0,fun _ => true,10,
      ⟨fun _ => false,fun _ _ _ => none,fun _ _ _ => none⟩⟩,fun _ => none,1,0⟩
    ∃ s : ConnectSystem 2 1 Unit Unit Unit Unit, Runs (Step k) (new 1)
      [.connect ⟨⟨0,1,.wpa2⟩,true⟩ 3,.poll (.join true true),.poll (.buffer (some ((),0)) ())] s ∧
    s.sta.channelState.Holds 0 1 ∧ (∀ i < 5, s.sta.keySlots.keySlotState i = false) ∧
    ∃ t, Step k s .cancel t ∧ ¬ t.sta.channelState.Holds 0 1 ∧
      (∀ i < 5, t.sta.keySlots.keySlotState i = true) ∧ bufferIds t.tx.held = t.others := by
  intro k
  apply Runs.exists_of_execute (fun _ _ _ h => h) (fun s =>
    s.task = some (.requestCompletion .authentication 3 0 0) ∧ s.acquired = [0,1,2,3,4] ∧
      (s.sta.channelState.locks.any (fun l => decide (l.2 = 1) && l.1 0) = true) ∧
      ∀ i < 5, s.sta.keySlots.keySlotState i = false)
  · decide
  · rintro s hr ⟨htask,hacquired,hlock,hslots⟩
    obtain ⟨⟨held,c⟩,hl,hheld⟩ := (Option.any_eq_true _ _).mp hlock
    obtain ⟨hc,hmine⟩ := Bool.and_eq_true_iff.mp hheld
    obtain rfl : c = 1 := of_decide_eq_true hc
    have hcancel : Step k s .cancel (s.leave k .cancelled
        (s.guards (.requestCompletion .authentication 3 0 0))) := by
      simp only [Step,step,htask,Option.map_some]
    obtain ⟨hunlocked,_,_,_,hfree,⟨_,hothers⟩,_⟩ := failed_connect_leaves_nothing hr hcancel
      (by rw [htask]; simp) rfl (by simp [leave])
    have hkept : (s.leave k .cancelled
        (s.guards (.requestCompletion .authentication 3 0 0))).acquired = [0,1,2,3,4] :=
      Eq.trans unwind_sameRecord.2.1 hacquired
    refine ⟨⟨held,hl,hmine⟩,hslots,_,hcancel,hunlocked 1,?_,hothers⟩
    intro i hi
    refine (hfree i ?_).1
    rw [hkept]
    simp only [List.mem_cons,List.not_mem_nil,or_false]
    omega

end Runs

end Suspended
end ConnectSystem
end FerrisOnAir.Sta
