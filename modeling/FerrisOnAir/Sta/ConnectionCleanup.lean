import FerrisOnAir.Sta.ConnectionAttempt
import FerrisOnAir.Sta.ConnectionRuns
import FerrisOnAir.Util.RxRouterRuns

/-! # What the guards of an attempt give back

Dropping a guard releases what it stands for, and no other guard takes that again. If the
guards of a scope cover what an attempt has taken, nothing of it is left behind the scope.
-/
namespace FerrisOnAir.Sta
open Lmac Rsn Util Tx
variable {n N : ℕ} {F C P E : Type*}

@[simp] theorem guardBuffers_append (gs hs : List (ScopeGuard N)) :
    guardBuffers (gs ++ hs) = guardBuffers gs + guardBuffers hs := by
  induction gs with
  | nil => exact (zero_add _).symm
  | cons g gs ih =>
    cases g with
    | txBuffer i => simp only [List.cons_append,guardBuffers,ih,add_assoc]
    | _ => exact ih

/-- The one await before the router operation is held. -/
def ConnectAwait.isJoin : ConnectAwait N → Bool
  | .join _ _ => true
  | _ => false

theorem guardBuffers_keySlots (slots : List ℕ) :
    guardBuffers (slots.map ScopeGuard.keySlot : List (ScopeGuard N)) = 0 := by
  induction slots with
  | nil => rfl
  | cons i slots ih => exact ih

theorem guardBuffers_eapolCompletion (m : EapolMessage N) (g : ℕ) :
    guardBuffers (ConnectAwait.eapolCompletion m g).guards = guardBuffers m.guards := by
  rw [ConnectAwait.guards,guardBuffers_append]
  exact add_zero _

/-- `StaControl` awaits something only after it has left the old network. -/
def StaSystem.BusyDisconnected (s : StaSystem n) : Prop :=
  s.control.isIdle = false → ∃ reason, s.connectionState = .disconnected reason

namespace ConnectSystem
variable {k : ConnectConfig n F} {s t : ConnectSystem n N F C P E}

section Unwinding
variable [Zero C] [NeZero N]

theorem txDrop_frame (op : TxOp N C P E) : (s.txDrop op) = { s with tx := (s.txDrop op).tx } := by
  unfold txDrop
  split <;> rfl

/-- What the drop of a guard gives back. -/
def Released (k : ConnectConfig n F) (s : ConnectSystem n N F C P E) : ScopeGuard N → Prop
  | .connectionOperation => s.sta.receiverAddressFilter = none ∧ s.sta.bssidFilter = none
  | .bringupOperation => ∀ channel, ¬ s.sta.channelState.Holds k.interface channel
  | .routerOperation => s.router.router.operationState .foreground = none
  | .keySlot i => s.sta.keySlots.keySlotState i = true ∧ s.hardwareKeys i = false
  | _ => True

theorem drop_releases (s : ConnectSystem n N F C P E) (g : ScopeGuard N) :
    (s.drop k g).Released k g := by
  cases g with
  | connectionOperation => exact ⟨rfl,rfl⟩
  | bringupOperation => exact fun channel => ChannelState.unlockChannel_releases
  | startOperation => exact trivial
  | routerOperation => exact rfl
  | keySlot i => exact ⟨Function.update_self ..,Function.update_self ..⟩
  | txBuffer i => exact trivial
  | pendingTransmission g => exact trivial

/-- No guard takes again what another gave back. -/
theorem drop_keeps_released (s : ConnectSystem n N F C P E) (g h : ScopeGuard N)
    (hs : s.Released k g) : (s.drop k h).Released k g := by
  cases h with
  | connectionOperation =>
    cases g with
    | connectionOperation => exact ⟨rfl,rfl⟩
    | _ => exact hs
  | bringupOperation =>
    cases g with
    | bringupOperation => exact fun channel => ChannelState.unlockChannel_releases
    | _ => exact hs
  | startOperation => exact hs
  | routerOperation =>
    cases g with
    | routerOperation => exact rfl
    | _ => exact hs
  | keySlot i =>
    cases g with
    | keySlot j =>
      by_cases hj : j = i
      · subst hj
        exact ⟨Function.update_self ..,Function.update_self ..⟩
      · exact ⟨(Function.update_of_ne hj ..).trans hs.1,(Function.update_of_ne hj ..).trans hs.2⟩
    | _ => exact hs
  | txBuffer i =>
    rw [drop,txDrop_frame]
    exact hs
  | pendingTransmission _ =>
    rw [drop,txDrop_frame]
    exact hs

/-- What no guard touches. -/
def SameRecord (s t : ConnectSystem n N F C P E) : Prop :=
  t.others = s.others ∧ t.acquired = s.acquired ∧ t.cryptoBefore = s.cryptoBefore ∧
    t.sta.cryptoState = s.sta.cryptoState

theorem drop_sameRecord (t : ConnectSystem n N F C P E) (g : ScopeGuard N)
    (ht : s.SameRecord t) : s.SameRecord (t.drop k g) := by
  cases g with
  | txBuffer i =>
    rw [drop,txDrop_frame]
    exact ht
  | pendingTransmission g =>
    rw [drop,txDrop_frame]
    exact ht
  | _ => exact ht

/-- Apart from the buffers of some guards, callers hold what other tasks hold. -/
def TxOwned (tx : TxSystem N C P E) (own others : Multiset (Fin N)) : Prop :=
  tx.Valid ∧ bufferIds tx.held = own + others

theorem dropBuffer_owned {i : Fin N} {own : Multiset (Fin N)}
    (h : TxOwned s.tx ({i} + own) s.others) :
    TxOwned (s.drop k (.txBuffer i)).tx own s.others := by
  obtain ⟨hvalid,hheld⟩ := h
  have hi : i ∈ bufferIds s.tx.held := by
    rw [hheld]
    simp
  obtain ⟨u,hu⟩ := TxSystem.dropBuffer_enabled hi
  have htx : (s.drop k (.txBuffer i)).tx = u := by
    have hu' : s.tx.step (.dropBuffer i) = .ok u := hu
    simp only [drop,txDrop,hu']
  rw [htx]
  refine ⟨TxSystem.step_valid hvalid hu,?_⟩
  have h := TxSystem.dropBuffer_held hu
  rw [hheld,add_assoc] at h
  exact add_left_cancel h

theorem dropHandle_owned {g : ℕ} {own others : Multiset (Fin N)} (h : TxOwned s.tx own others) :
    TxOwned (s.drop k (.pendingTransmission g)).tx own others := by
  obtain ⟨hvalid,hheld⟩ := h
  change TxOwned (s.txDrop (.queue k.accessCategory (.dropHandle g))).tx own others
  unfold txDrop
  split
  · rename_i u hu
    refine ⟨TxSystem.step_valid hvalid hu,?_⟩
    rw [← hheld]
    exact congrArg bufferIds (TxSystem.dropHandle_held hu)
  · exact ⟨hvalid,hheld⟩

theorem drop_others (t : ConnectSystem n N F C P E) (g : ScopeGuard N) :
    (t.drop k g).others = t.others := (drop_sameRecord (s := t) t g ⟨rfl,rfl,rfl,rfl⟩).1

/-- The buffers of the guards still alive stay in their hands. -/
theorem drop_owned (gs : List (ScopeGuard N)) (g : ScopeGuard N) (s : ConnectSystem n N F C P E)
    (h : TxOwned s.tx (guardBuffers (gs ++ [g])) s.others) :
    TxOwned (s.drop k g).tx (guardBuffers gs) (s.drop k g).others := by
  rw [drop_others]
  rw [guardBuffers_append,add_comm] at h
  cases g with
  | txBuffer i => exact dropBuffer_owned h
  | pendingTransmission g =>
    rw [guardBuffers,guardBuffers,zero_add] at h
    · exact dropHandle_owned h
    · nofun
  | _ => exact (zero_add (guardBuffers gs)) ▸ h

/-- Only a start that waits is dropped as one. -/
def StartWaits (s : ConnectSystem n N F C P E) (gs : List (ScopeGuard N)) : Prop :=
  s.router.Endpoints ∧
    (.startOperation ∈ gs → s.router.endpoints .foreground ≠ .scoped)

theorem drop_startWaits (gs : List (ScopeGuard N)) (g : ScopeGuard N)
    (s : ConnectSystem n N F C P E) (h : s.StartWaits (gs ++ [g])) : (s.drop k g).StartWaits gs := by
  obtain ⟨hends,hstart⟩ := h
  have hstart' : .startOperation ∈ gs → s.router.endpoints .foreground ≠ .scoped :=
    fun hg => hstart (List.mem_append_left _ hg)
  cases g with
  | startOperation =>
    have hidle : (.idle : EndpointState StaRxRouterOperation) ≠ .scoped := by simp
    refine ⟨hends.of_free hidle (hstart (by simp)) (by simp) rfl rfl,?_⟩
    intro _
    simp [drop]
  | routerOperation =>
    refine ⟨hends.of_drop rfl rfl,?_⟩
    intro _
    simp [drop]
  | txBuffer i =>
    rw [drop,txDrop_frame]
    exact ⟨hends,hstart'⟩
  | pendingTransmission g =>
    rw [drop,txDrop_frame]
    exact ⟨hends,hstart'⟩
  | _ => exact ⟨hends,hstart'⟩

end Unwinding

section Leaving
variable [Zero C] [NeZero N]

/-- Nothing of an attempt is left. -/
structure Cleaned (k : ConnectConfig n F) (t : ConnectSystem n N F C P E) : Prop where
  unlocked : ∀ channel, ¬ t.sta.channelState.Holds k.interface channel
  filters : t.sta.receiverAddressFilter = none ∧ t.sta.bssidFilter = none
  operation : t.router.router.operationState .foreground = none
  keySlots : ∀ i ∈ t.acquired,
    t.sta.keySlots.keySlotState i = true ∧ t.hardwareKeys i = false
  buffers : t.tx.owned = Finset.univ.val ∧ bufferIds t.tx.held = t.others
  cryptoState : t.sta.cryptoState = t.cryptoBefore

/-- What holds whether or not an attempt is under way; it holds the buffers `own`. -/
def Base (s : ConnectSystem n N F C P E) (own : Multiset (Fin N)) : Prop :=
  s.router.Endpoints ∧ TxOwned s.tx own s.others ∧ s.sta.BusyDisconnected

/-- The guards stand for everything an attempt has taken. -/
structure Covers (s : ConnectSystem n N F C P E) (guards : List (ScopeGuard N)) : Prop where
  connection : .connectionOperation ∈ guards
  bringup : .bringupOperation ∈ guards
  operation : .routerOperation ∈ guards ∨ s.router.endpoints .foreground ≠ .scoped
  start : .startOperation ∈ guards → s.router.endpoints .foreground ≠ .scoped
  slots : ∀ i ∈ s.acquired, .keySlot i ∈ guards
  crypto : s.sta.cryptoState = s.cryptoBefore

variable {guards : List (ScopeGuard N)} {result : AttemptResult}

theorem unwind_released {g : ScopeGuard N} (hg : g ∈ guards) :
    (unwind (drop k) s guards).Released k g :=
  unwind_establishes (Q := fun g (s : ConnectSystem n N F C P E) => s.Released k g) drop_releases
    drop_keeps_released hg

theorem unwind_sameRecord : s.SameRecord (unwind (drop k) s guards) :=
  unwind_keeps drop_sameRecord ⟨rfl,rfl,rfl,rfl⟩

theorem unwind_owned (h : TxOwned s.tx (guardBuffers guards) s.others) :
    TxOwned (unwind (drop k) s guards).tx 0 (unwind (drop k) s guards).others :=
  unwind_invariant (I := fun gs (s : ConnectSystem n N F C P E) =>
    TxOwned s.tx (guardBuffers gs) s.others) drop_owned h

theorem unwind_endpoints (h : s.StartWaits guards) :
    (unwind (drop k) s guards).router.Endpoints :=
  (unwind_invariant (I := fun gs (s : ConnectSystem n N F C P E) => s.StartWaits gs)
    drop_startWaits h).1

/-- The foreground operation is dropped, or had not started. -/
theorem unwind_operation (hs : s.router.Endpoints) (hc : s.Covers guards) :
    (unwind (drop k) s guards).router.router.operationState .foreground = none := by
  rcases hc.operation with hg | hfree
  · exact unwind_released hg
  · exact unwind_keeps (P := fun s : ConnectSystem n N F C P E => s.Released k .routerOperation)
      (fun s g h => drop_keeps_released s .routerOperation g h) (hs.operation_eq_none hfree)

theorem leave_cleaned (hs : s.Base (guardBuffers guards)) (hc : s.Covers guards) :
    (s.leave k result guards).Cleaned k := by
  obtain ⟨hends,howned,_⟩ := hs
  obtain ⟨_,hacquired,hbefore,hcrypto⟩ : s.SameRecord (unwind (drop k) s guards) :=
    unwind_sameRecord
  obtain ⟨hvalid,hheld⟩ := unwind_owned (k := k) howned
  refine ⟨unwind_released hc.bringup,unwind_released hc.connection,unwind_operation hends hc,?_,
    ⟨hvalid.partition,hheld.trans (zero_add _)⟩,?_⟩
  · intro i hi
    exact unwind_released (hc.slots i (hacquired ▸ hi))
  · exact hcrypto.trans (hc.crypto.trans hbefore.symm)

/-- No attempt is under way. -/
structure Outside (s : ConnectSystem n N F C P E) : Prop where
  base : s.Base 0
  control : s.sta.bringingUp = false

theorem leave_outside (hs : s.Base (guardBuffers guards)) (hc : s.Covers guards) :
    (s.leave k result guards).Outside := by
  obtain ⟨hends,howned,_⟩ := hs
  exact ⟨⟨unwind_endpoints ⟨hends,hc.start⟩,unwind_owned howned,nofun⟩,rfl⟩

end Leaving

end ConnectSystem
end FerrisOnAir.Sta
