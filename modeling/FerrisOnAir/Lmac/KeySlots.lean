import FerrisOnAir.Foundation.Runs
import FerrisOnAir.Lmac.Crypto

/-! # Live key slots

`foa/src/lmac/crypto.rs` with the mask as the 32 bits it is and the keys behind the driver.
The macros `bit!` and `check_bit!` of the crate `macro-bits` and the crypto controller of the
driver are parameters. A `KeySlot` is owned by whoever acquired it: it may be used and
dropped in any order with the others, but dropped only once.
-/
namespace FerrisOnAir.Lmac
variable {H P E K : Type*}

/-- `bit!` and `check_bit!` on 32 bits. -/
structure BitMacros where
  bit : ℕ → BitVec 32
  checkBit : BitVec 32 → BitVec 32 → Bool

/-- A mask with one bit set, and whether a masked bit is set. -/
structure BitMacros.Documented (bits : BitMacros) : Prop where
  bit : ∀ i < 32, bits.bit i = BitVec.twoPow 32 i
  checkBit : ∀ x mask, bits.checkBit x mask = decide (x &&& mask ≠ 0)

/-- What a key slot calls, on the state of the hardware. `P` is what only the driver reads
of the arguments of `set_key`. -/
structure CryptoController (H P E : Type*) where
  setKey : H → ℕ → ℕ → P → Except E Unit × H
  deleteKey : H → ℕ → Except E Unit × H

/-- The hardware has one key per slot. -/
structure CryptoController.Documented (crypto : CryptoController H P E) (key : H → ℕ → Option K)
    (keySlotCount : ℕ) : Prop where
  setKey_other : ∀ h slot interface p i, i ≠ slot →
    key (crypto.setKey h slot interface p).2 i = key h i
  deleteKey_self : ∀ h, ∀ slot < keySlotCount, key (crypto.deleteKey h slot).2 slot = none
  deleteKey_other : ∀ h slot i, i ≠ slot → key (crypto.deleteKey h slot).2 i = key h i

structure KeySlot where
  keySlot : UInt8
  interface : UInt8
deriving DecidableEq

/-- `KeySlot::key_slot`. -/
def KeySlot.index (slot : KeySlot) : ℕ := slot.keySlot.toNat

/-- `KeySlotManager` as it is. Bit `i` of the state says that slot `i` is free. -/
structure MaskedKeySlotManager (H : Type*) where
  keySlotState : BitVec 32
  cryptoController : H

/-- The slots that the mask says are free. -/
def MaskedKeySlotManager.free (m : MaskedKeySlotManager H) : KeySlotManager :=
  ⟨fun i => decide (32 ≤ i) || m.keySlotState.getLsbD i⟩

/-- The manager and the key slots that were acquired and not dropped. -/
structure KeySlotSystem (H : Type*) where
  manager : MaskedKeySlotManager H
  live : List KeySlot

/-- The last two on a live key slot. -/
inductive KeySlotOp (P : Type*)
  | acquire (interface : ℕ)
  | setKey (n : ℕ) (p : P)
  | drop (n : ℕ)

structure KeySlots (H P E : Type*) where
  bits : BitMacros
  crypto : CryptoController H P E
  keySlotCount : ℕ

namespace KeySlots
variable (k : KeySlots H P E) (m : MaskedKeySlotManager H) (s : KeySlotSystem H)

/-- The complement is taken before the cast, in 32 bits as well. -/
def acquireKeySlot : Option (ℕ × MaskedKeySlotManager H) :=
  match (List.range k.keySlotCount).find?
      (fun i => k.bits.checkBit m.keySlotState (k.bits.bit i)) with
  | none => none
  | some i => some (i,{ m with keySlotState := m.keySlotState &&& ~~~k.bits.bit i })

def releaseKeySlot (keySlot : ℕ) : MaskedKeySlotManager H where
  keySlotState := m.keySlotState ||| k.bits.bit keySlot
  cryptoController := (k.crypto.deleteKey m.cryptoController keySlot).2

/-- `KeySlot::set_key`. -/
def setKey (slot : KeySlot) (p : P) : Except E Unit × MaskedKeySlotManager H :=
  let (result,cryptoController) := k.crypto.setKey m.cryptoController slot.index
    slot.interface.toNat p
  (result,{ m with cryptoController := cryptoController })

/-- `Drop` deletes the key, and releasing the slot deletes it again. -/
def dropKeySlot (slot : KeySlot) : MaskedKeySlotManager H :=
  k.releaseKeySlot
    { m with cryptoController := (k.crypto.deleteKey m.cryptoController slot.index).2 } slot.index

/-- `LMacInterfaceControl::acquire_key_slot`. -/
def acquire (interface : ℕ) : Option KeySlot × KeySlotSystem H :=
  match k.acquireKeySlot s.manager with
  | none => (none,s)
  | some (i,manager) =>
    let slot : KeySlot := ⟨UInt8.ofNat i,UInt8.ofNat interface⟩
    (some slot,⟨manager,s.live ++ [slot]⟩)

def perform : KeySlotOp P → Option (KeySlotSystem H)
  | .acquire interface => some (k.acquire s interface).2
  | .setKey n p => s.live[n]?.map (fun slot => { s with manager := (k.setKey s.manager slot p).2 })
  | .drop n => s.live[n]?.map (fun slot => ⟨k.dropKeySlot s.manager slot,s.live.eraseIdx n⟩)

def Step (s : KeySlotSystem H) (op : KeySlotOp P) (t : KeySlotSystem H) : Prop :=
  k.perform s op = some t

/-- `KeySlotManager::new`, with any keys in the hardware. -/
def new (cryptoController : H) : KeySlotSystem H :=
  ⟨⟨BitVec.allOnes 32,cryptoController⟩,[]⟩

/-- The operation uses a key slot of this index. -/
def Through (s : KeySlotSystem H) (i : ℕ) : KeySlotOp P → Prop
  | .acquire _ => False
  | .setKey n _ => ∃ slot, s.live[n]? = some slot ∧ slot.index = i
  | .drop n => ∃ slot, s.live[n]? = some slot ∧ slot.index = i

/-- The mask and the live key slots agree. -/
structure Exclusive (s : KeySlotSystem H) : Prop where
  nodup : (s.live.map KeySlot.index).Nodup
  index_lt : ∀ slot ∈ s.live, slot.index < k.keySlotCount
  free_iff : ∀ i < k.keySlotCount,
    s.manager.keySlotState.getLsbD i = true ↔ ∀ slot ∈ s.live, slot.index ≠ i

/-- What every caller may rely on. -/
structure Correct (key : H → ℕ → Option K) (s : KeySlotSystem H) : Prop where
  exclusive : k.Exclusive s
  acquire_none : ∀ interface, (k.acquire s interface).1 = none ↔
    ∀ i < k.keySlotCount, ∃ slot ∈ s.live, slot.index = i
  /-- The lowest free slot. -/
  acquire_some : ∀ interface slot, (k.acquire s interface).1 = some slot →
    slot.index < k.keySlotCount ∧ (∀ other ∈ s.live, other.index ≠ slot.index) ∧
    (∀ j < slot.index, ∃ other ∈ s.live, other.index = j) ∧
    (k.acquire s interface).2.live = s.live ++ [slot] ∧ slot.interface = UInt8.ofNat interface
  /-- A drop frees its slot and deletes the key of it, and nothing else. -/
  drop : ∀ n slot, s.live[n]? = some slot → ∃ t, k.Step s (.drop n) t ∧
    t.live = s.live.eraseIdx n ∧
    (∀ i < k.keySlotCount, t.manager.keySlotState.getLsbD i = true ↔
      s.manager.keySlotState.getLsbD i = true ∨ i = slot.index) ∧
    key t.manager.cryptoController slot.index = none ∧
    ∀ i, i ≠ slot.index → key t.manager.cryptoController i = key s.manager.cryptoController i
  /-- As long as nobody uses a live key slot, it stays live with its key. -/
  spared : ∀ slot ∈ s.live, ∀ ops t,
    Runs (Guarded (fun s op => ¬ Through s slot.index op) k.Step) s ops t →
    slot ∈ t.live ∧ key t.manager.cryptoController slot.index =
      key s.manager.cryptoController slot.index

section Mask
variable {k m}

/-- Below 32 a slot is free as its bit says. -/
theorem free_keySlotState {i : ℕ} (hi : i < 32) :
    m.free.keySlotState i = m.keySlotState.getLsbD i := by
  simp [MaskedKeySlotManager.free,hi]

theorem checkBit_bit (hbits : k.bits.Documented) (x : BitVec 32) {i : ℕ} (hi : i < 32) :
    k.bits.checkBit x (k.bits.bit i) = x.getLsbD i := by
  rw [hbits.checkBit,hbits.bit i hi,BitVec.and_twoPow]
  cases hx : x.getLsbD i with
  | false => simp
  | true =>
    have hne : BitVec.twoPow 32 i ≠ 0 := by
      intro h
      have hbit := congrArg (fun y : BitVec 32 => y.getLsbD i) h
      simp [hi] at hbit
    simpa using hne

/-- Clearing the bit of a slot makes it busy. -/
theorem free_clear (hbits : k.bits.Documented) {i : ℕ} (hi : i < 32) :
    MaskedKeySlotManager.free { m with keySlotState := m.keySlotState &&& ~~~k.bits.bit i } =
      ⟨Function.update m.free.keySlotState i false⟩ := by
  unfold MaskedKeySlotManager.free
  congr 1
  funext j
  rw [hbits.bit i hi]
  by_cases hj : j = i
  · subst hj
    simp [hi]
  · rw [Function.update_of_ne hj]
    by_cases hlt : j < 32
    · simp [hlt,hj]
    · simp [not_lt.mp hlt]

/-- Acquiring from the mask is acquiring from the free slots. -/
theorem free_acquireKeySlot (hbits : k.bits.Documented) (hcount : k.keySlotCount ≤ 32) :
    (k.acquireKeySlot m).map (Prod.map id MaskedKeySlotManager.free) =
      m.free.acquireKeySlot k.keySlotCount := by
  have hfind : (List.range k.keySlotCount).find?
      (fun i => k.bits.checkBit m.keySlotState (k.bits.bit i)) =
      (List.range k.keySlotCount).find? m.free.keySlotState := by
    refine List.find?_congr ?_
    intro i hi
    have hlt : i < 32 := (List.mem_range.mp hi).trans_le hcount
    rw [checkBit_bit hbits _ hlt,free_keySlotState hlt]
  unfold acquireKeySlot KeySlotManager.acquireKeySlot
  rw [hfind]
  cases hi : (List.range k.keySlotCount).find? m.free.keySlotState with
  | none => rfl
  | some i =>
    have hlt : i < 32 := (List.mem_range.mp (List.mem_of_find?_eq_some hi)).trans_le hcount
    exact congrArg (fun m' => some (i,m')) (free_clear hbits hlt)

theorem free_releaseKeySlot (hbits : k.bits.Documented) {i : ℕ} (hi : i < 32) :
    (k.releaseKeySlot m i).free = m.free.releaseKeySlot i := by
  unfold MaskedKeySlotManager.free releaseKeySlot KeySlotManager.releaseKeySlot
  congr 1
  funext j
  dsimp only
  rw [hbits.bit i hi]
  by_cases hj : j = i
  · subst hj
    simp [hi]
  · rw [Function.update_of_ne hj]
    simp [Ne.symm hj]

end Mask

section Runs
variable {k s} {t : KeySlotSystem H} {key : H → ℕ → Option K} {i n interface : ℕ} {slot : KeySlot}

theorem index_of_lt (hi : i < 32) : KeySlot.index ⟨UInt8.ofNat i,UInt8.ofNat interface⟩ = i := by
  change (UInt8.ofNat i).toNat = i
  rw [UInt8.toNat_ofNat']
  exact Nat.mod_eq_of_lt (by omega)

/-- With the mask and the live key slots in agreement a slot is busy if one of them has it. -/
theorem Exclusive.busy_iff (hs : k.Exclusive s) (hcount : k.keySlotCount ≤ 32)
    (hi : i < k.keySlotCount) :
    s.manager.free.keySlotState i = false ↔ ∃ slot ∈ s.live, slot.index = i := by
  rw [free_keySlotState (hi.trans_le hcount),← Bool.not_eq_true,hs.free_iff i hi]
  simp only [not_forall,not_not,exists_prop]

/-- What an acquisition does, in terms of the key slots that are live. -/
theorem acquire_cases (hbits : k.bits.Documented) (hcount : k.keySlotCount ≤ 32)
    (hs : k.Exclusive s) (interface : ℕ) :
    (k.acquire s interface = (none,s) ∧
      ∀ i < k.keySlotCount, ∃ slot ∈ s.live, slot.index = i) ∨
    ∃ i < k.keySlotCount, ∃ manager : MaskedKeySlotManager H,
      k.acquire s interface = (some ⟨UInt8.ofNat i,UInt8.ofNat interface⟩,
        ⟨manager,s.live ++ [⟨UInt8.ofNat i,UInt8.ofNat interface⟩]⟩) ∧
      (∀ slot ∈ s.live, slot.index ≠ i) ∧ (∀ j < i, ∃ slot ∈ s.live, slot.index = j) ∧
      manager.free = ⟨Function.update s.manager.free.keySlotState i false⟩ ∧
      manager.cryptoController = s.manager.cryptoController := by
  have hfree := free_acquireKeySlot (m := s.manager) hbits hcount
  unfold acquire
  cases hacq : k.acquireKeySlot s.manager with
  | none =>
    rw [hacq] at hfree
    have hbusy := KeySlotManager.acquireKeySlot_eq_none_iff.mp hfree.symm
    refine .inl ⟨rfl,?_⟩
    intro i hi
    exact (hs.busy_iff hcount hi).mp (hbusy i hi)
  | some r =>
    obtain ⟨i,manager⟩ := r
    rw [hacq] at hfree
    obtain ⟨hi,hfreei,hlow,hm⟩ := KeySlotManager.acquireKeySlot_eq_some_iff.mp hfree.symm
    refine .inr ⟨i,hi,manager,rfl,?_,?_,hm,?_⟩
    · rw [free_keySlotState (hi.trans_le hcount)] at hfreei
      exact (hs.free_iff i hi).mp hfreei
    · intro j hj
      exact (hs.busy_iff hcount (hj.trans hi)).mp (hlow j hj)
    · unfold acquireKeySlot at hacq
      split at hacq <;> cases hacq
      rfl

/-- The bits after a drop. -/
theorem dropKeySlot_free (hbits : k.bits.Documented) (hslot : slot.index < 32) :
    (k.dropKeySlot s.manager slot).free = s.manager.free.releaseKeySlot slot.index :=
  free_releaseKeySlot hbits hslot

theorem exclusive_acquire (hbits : k.bits.Documented) (hcount : k.keySlotCount ≤ 32)
    (hs : k.Exclusive s) (interface : ℕ) : k.Exclusive (k.acquire s interface).2 := by
  rcases acquire_cases hbits hcount hs interface with
    ⟨heq,-⟩ | ⟨i,hi,manager,heq,hnew,-,hm,-⟩
  · rw [heq]
    exact hs
  · rw [heq]
    have hindex : KeySlot.index ⟨UInt8.ofNat i,UInt8.ofNat interface⟩ = i :=
      index_of_lt (hi.trans_le hcount)
    refine ⟨?_,?_,?_⟩
    · rw [List.map_append,List.map_singleton,hindex]
      refine List.nodup_append.mpr ⟨hs.nodup,List.nodup_singleton i,?_⟩
      intro j hj j' hj' heq
      obtain ⟨slot,hslot,rfl⟩ := List.mem_map.mp hj
      exact hnew slot hslot (heq.trans (List.mem_singleton.mp hj'))
    · intro slot hslot
      rcases List.mem_append.mp hslot with hslot | hslot
      · exact hs.index_lt slot hslot
      · rw [List.mem_singleton.mp hslot,hindex]
        exact hi
    · intro j hj
      dsimp only
      rw [← free_keySlotState (hj.trans_le hcount),hm]
      simp only [List.mem_append,List.mem_singleton,or_imp,forall_and,forall_eq,hindex]
      by_cases hji : j = i
      · subst hji
        simp
      · rw [Function.update_of_ne hji,free_keySlotState (hj.trans_le hcount),hs.free_iff j hj]
        exact (and_iff_left (Ne.symm hji)).symm

/-- A slot that is dropped is that of no other live key slot. -/
theorem index_ne_of_dropped (hs : k.Exclusive s) (hn : s.live[n]? = some slot) {other : KeySlot}
    (hother : other ∈ s.live.eraseIdx n) : other.index ≠ slot.index := by
  obtain ⟨j,hj,hget⟩ := List.mem_eraseIdx_iff_getElem?.mp hother
  intro heq
  have hindices : (s.live.map KeySlot.index)[j]? = (s.live.map KeySlot.index)[n]? := by
    rw [List.getElem?_map,List.getElem?_map,hget,hn]
    exact congrArg some heq
  have hlt : j < (s.live.map KeySlot.index).length := by
    rw [List.length_map]
    exact (List.getElem?_eq_some_iff.mp hget).1
  exact hj ((List.getElem?_inj hlt hs.nodup).mp hindices)

theorem perform_drop (hn : s.live[n]? = some slot) :
    k.Step s (.drop n) ⟨k.dropKeySlot s.manager slot,s.live.eraseIdx n⟩ := by
  rw [Step,perform,hn,Option.map_some]

theorem drop_bit (hbits : k.bits.Documented) (hslot : slot.index < 32) (hi : i < 32) :
    (k.dropKeySlot s.manager slot).keySlotState.getLsbD i = true ↔
      s.manager.keySlotState.getLsbD i = true ∨ i = slot.index := by
  rw [← free_keySlotState hi,dropKeySlot_free hbits hslot,← free_keySlotState hi,
    KeySlotManager.releaseKeySlot]
  by_cases hne : i = slot.index
  · simp [hne]
  · simp [hne]

theorem exclusive_drop (hbits : k.bits.Documented) (hcount : k.keySlotCount ≤ 32)
    (hs : k.Exclusive s) (hn : s.live[n]? = some slot) :
    k.Exclusive ⟨k.dropKeySlot s.manager slot,s.live.eraseIdx n⟩ := by
  have hslot : slot ∈ s.live := List.mem_of_getElem? hn
  have hindex : slot.index < 32 := (hs.index_lt slot hslot).trans_le hcount
  refine ⟨?_,?_,?_⟩
  · change ((s.live.eraseIdx n).map KeySlot.index).Nodup
    rw [← List.eraseIdx_map]
    exact hs.nodup.eraseIdx n
  · intro other hother
    exact hs.index_lt other (List.mem_of_mem_eraseIdx hother)
  · intro i hi
    dsimp only
    rw [drop_bit hbits hindex (hi.trans_le hcount),hs.free_iff i hi]
    constructor
    · rintro (hfree | rfl) other hother
      · exact hfree other (List.mem_of_mem_eraseIdx hother)
      · exact index_ne_of_dropped hs hn hother
    · intro hfree
      by_cases hne : i = slot.index
      · exact .inr hne
      · refine .inl fun other hother => ?_
        obtain ⟨j,hj⟩ := List.mem_iff_getElem?.mp hother
        by_cases hjn : j = n
        · obtain rfl : slot = other := Option.some.inj (hn.symm.trans (hjn ▸ hj))
          exact Ne.symm hne
        · exact hfree other (List.mem_eraseIdx_iff_getElem?.mpr ⟨j,hjn,hj⟩)

theorem exclusive_step {op : KeySlotOp P} (hbits : k.bits.Documented)
    (hcount : k.keySlotCount ≤ 32) (hs : k.Exclusive s) (he : k.Step s op t) : k.Exclusive t := by
  cases op with
  | acquire interface =>
    cases he
    exact exclusive_acquire hbits hcount hs interface
  | setKey n p =>
    obtain ⟨slot,-,rfl⟩ := Option.map_eq_some_iff.mp he
    exact ⟨hs.nodup,hs.index_lt,hs.free_iff⟩
  | drop n =>
    obtain ⟨slot,hn,rfl⟩ := Option.map_eq_some_iff.mp he
    exact exclusive_drop hbits hcount hs hn

theorem exclusive_new (hcount : k.keySlotCount ≤ 32) (controller : H) :
    k.Exclusive (new controller) := by
  refine ⟨List.nodup_nil,nofun,?_⟩
  intro i hi
  refine iff_of_true ?_ nofun
  change (BitVec.allOnes 32).getLsbD i = true
  rw [BitVec.getLsbD_allOnes,decide_eq_true (hi.trans_le hcount)]

/-- A step through another key slot leaves this one live, with its key. -/
theorem spared_step {op : KeySlotOp P} (hbits : k.bits.Documented)
    (hcrypto : k.crypto.Documented key k.keySlotCount) (hcount : k.keySlotCount ≤ 32)
    (hs : k.Exclusive s) (hslot : slot ∈ s.live) (hop : ¬ Through s slot.index op)
    (he : k.Step s op t) : slot ∈ t.live ∧ key t.manager.cryptoController slot.index =
      key s.manager.cryptoController slot.index := by
  cases op with
  | acquire interface =>
    cases he
    rcases acquire_cases hbits hcount hs interface with
      ⟨heq,-⟩ | ⟨i,-,manager,heq,-,-,-,hcontroller⟩
    · rw [heq]
      exact ⟨hslot,rfl⟩
    · rw [heq]
      exact ⟨List.mem_append_left _ hslot,congrArg (fun h => key h slot.index) hcontroller⟩
  | setKey n p =>
    obtain ⟨other,hn,rfl⟩ := Option.map_eq_some_iff.mp he
    have hne : slot.index ≠ other.index := fun heq => hop ⟨other,hn,heq.symm⟩
    exact ⟨hslot,hcrypto.setKey_other _ _ _ _ _ hne⟩
  | drop n =>
    obtain ⟨other,hn,rfl⟩ := Option.map_eq_some_iff.mp he
    have hne : slot.index ≠ other.index := fun heq => hop ⟨other,hn,heq.symm⟩
    obtain ⟨j,hj⟩ := List.mem_iff_getElem?.mp hslot
    refine ⟨List.mem_eraseIdx_iff_getElem?.mpr ⟨j,?_,hj⟩,?_⟩
    · rintro rfl
      exact hop ⟨slot,hj,rfl⟩
    · exact (hcrypto.deleteKey_other _ _ _ hne).trans (hcrypto.deleteKey_other _ _ _ hne)

/-- In every run with at most 32 slots the mask, the live key slots and the keys in the
hardware agree, whoever acquires and drops them. -/
theorem keySlots_correct (k : KeySlots H P E) (key : H → ℕ → Option K)
    (hbits : k.bits.Documented) (hcrypto : k.crypto.Documented key k.keySlotCount)
    (hcount : k.keySlotCount ≤ 32) (controller : H) (ops : List (KeySlotOp P))
    (s : KeySlotSystem H) (hr : Runs k.Step (new controller) ops s) : k.Correct key s := by
  have hs : k.Exclusive s := hr.invariant (fun _ _ _ => exclusive_step hbits hcount)
    (exclusive_new hcount controller)
  refine ⟨hs,?_,?_,?_,?_⟩
  · intro interface
    rcases acquire_cases hbits hcount hs interface with ⟨heq,hall⟩ | ⟨i,hi,manager,heq,hnew,-⟩
    · rw [heq]
      exact iff_of_true rfl hall
    · rw [heq]
      refine iff_of_false nofun ?_
      intro hall
      obtain ⟨slot,hslot,hindex⟩ := hall i hi
      exact hnew slot hslot hindex
  · intro interface slot hsome
    rcases acquire_cases hbits hcount hs interface with ⟨heq,-⟩ | ⟨i,hi,manager,heq,hnew,hlow,-⟩
    · rw [heq] at hsome
      cases hsome
    · rw [heq] at hsome ⊢
      cases hsome
      rw [index_of_lt (hi.trans_le hcount)]
      exact ⟨hi,hnew,hlow,rfl,rfl⟩
  · intro n slot hn
    have hlt := hs.index_lt slot (List.mem_of_getElem? hn)
    refine ⟨_,perform_drop hn,rfl,?_,?_,?_⟩
    · intro i hi
      exact drop_bit hbits (hlt.trans_le hcount) (hi.trans_le hcount)
    · exact hcrypto.deleteKey_self _ _ hlt
    · intro i hne
      exact (hcrypto.deleteKey_other _ _ _ hne).trans (hcrypto.deleteKey_other _ _ _ hne)
  · intro slot hslot ops t hrun
    have hspared : k.Exclusive t ∧ slot ∈ t.live ∧ key t.manager.cryptoController slot.index =
        key s.manager.cryptoController slot.index := by
      refine hrun.invariant (I := fun u => k.Exclusive u ∧ slot ∈ u.live ∧
        key u.manager.cryptoController slot.index = key s.manager.cryptoController slot.index)
        ?_ ⟨hs,hslot,rfl⟩
      rintro u op v ⟨hu,hlive,hkey⟩ ⟨hop,he⟩
      obtain ⟨hlive',hkey'⟩ := spared_step hbits hcrypto hcount hu hlive hop he
      exact ⟨exclusive_step hbits hcount hu he,hlive',hkey'.trans hkey⟩
    exact hspared.2

end Runs

section TwoSlots

/-- Two slots in hardware that keeps the keys it is told. -/
def twoSlots : KeySlots (ℕ → Option ℕ) ℕ Unit where
  bits := ⟨BitVec.twoPow 32,fun x mask => decide (x &&& mask ≠ 0)⟩
  crypto :=
    { setKey := fun h slot _ p => (.ok (),Function.update h slot (some p))
      deleteKey := fun h slot => (.ok (),Function.update h slot none) }
  keySlotCount := 2

/-- Interface 0 drops the first of two slots and interface 1 gets it, while the other one
keeps its key. -/
theorem keySlots_correct_twoSlots : ∃ s : KeySlotSystem (ℕ → Option ℕ),
    Runs twoSlots.Step (new fun _ => none)
      [.acquire 0,.acquire 1,.setKey 1 7,.acquire 1,.drop 0,.acquire 1] s ∧
    s.live = [⟨1,1⟩,⟨0,1⟩] ∧ s.manager.cryptoController 1 = some 7 ∧
    twoSlots.Correct (fun h => h) s := by
  have hr : Runs twoSlots.Step (new fun _ => none)
      [.acquire 0,.acquire 1,.setKey 1 7,.acquire 1,.drop 0,.acquire 1] _ :=
    .step rfl (.step rfl (.step rfl (.step rfl (.step rfl (.step rfl (.refl _))))))
  refine ⟨_,hr,rfl,rfl,keySlots_correct twoSlots _ ?_ ?_ (by decide) _ _ _ hr⟩
  · exact ⟨fun _ _ => rfl,fun _ _ => rfl⟩
  · refine ⟨?_,?_,?_⟩
    · intro h slot interface p i hi
      exact Function.update_of_ne hi _ _
    · intro h slot _
      exact Function.update_self _ _ _
    · intro h slot i hi
      exact Function.update_of_ne hi _ _

end TwoSlots

end KeySlots
end FerrisOnAir.Lmac
