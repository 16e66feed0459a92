import FerrisOnAir.Tx.System

/-! # Ring representation and buffer conservation over whole runs

Every run starts from fresh resources and interleaves all callers with the four
queue runners. A frame occupies a slot only while its buffer is neither free nor
with a caller, which bounds the occupancy of each ring by the size of the pool.
-/
namespace FerrisOnAir.Tx
open TxQueueState RingWindow
variable {N : ℕ} {C P E : Type*} [NeZero N]

namespace QueueSystem
variable {s : QueueSystem N C P E}

namespace Valid

theorem card_occupied (hs : s.Valid) : N - s.queue.capacity =
    (Finset.univ.filter (fun i => (s.queue.queueItems i).slot.occupied = true)).card := by
  have hfl := hs.front_add_len
  rw [hs.occupied_slots,Finset.card_image_of_injOn hs.slotOf_injOn,Nat.card_Ico]
  change s.queue.len = _
  omega

theorem occupied_iff_offset (hs : s.Valid) (i : Fin N) :
    (s.queue.queueItems i).slot.occupied = true ↔
      ∃ k < s.queue.len, (i : ℕ) = (s.queue.counter - s.queue.len + k) % N := by
  have hfl := hs.front_add_len
  have hmem := Finset.ext_iff.mp hs.occupied_slots i
  simp only [Finset.mem_filter,Finset.mem_univ,true_and,Finset.mem_image,Finset.mem_Ico] at hmem
  rw [hmem]
  constructor
  · rintro ⟨g,⟨h₁,h₂⟩,rfl⟩
    refine ⟨g - s.front,by omega,?_⟩
    rw [show s.queue.counter - s.queue.len + (g - s.front) = g by unfold front at *; omega]
    rfl
  · rintro ⟨k,hk,hi⟩
    exact ⟨s.front + k,⟨by omega,by omega⟩,Fin.ext hi.symm⟩

theorem slot_at_offset (hs : s.Valid) {k : ℕ} (hk : k < s.queue.len) :
    if k = 0 ∧ s.active.isSome then (s.item (s.front + k)).slot = .inProgress
    else ∃ f, (s.item (s.front + k)).slot = .pending f := by
  have hfl := hs.front_add_len
  cases ha : s.active with
  | none =>
    rw [if_neg (by simp)]
    obtain ⟨f,_,hf⟩ := hs.queued_slot (g := s.front + k) (by simp [handedCount,ha]) (by omega)
    exact ⟨f,hf⟩
  | some a =>
    by_cases hz : k = 0
    · subst hz
      rw [if_pos (by simp)]
      exact hs.active_slot ha
    · rw [if_neg (by simp [hz])]
      obtain ⟨f,_,hf⟩ := hs.queued_slot (g := s.front + k)
        (by simp [handedCount,ha]; omega) (by omega)
      exact ⟨f,hf⟩

theorem inProgress_iff_active (hs : s.Valid) :
    (∃ i, (s.queue.queueItems i).slot = .inProgress) ↔ s.active.isSome = true := by
  constructor
  · rintro ⟨i,hi⟩
    obtain ⟨k,hk,hik⟩ := (hs.occupied_iff_offset i).mp (by rw [hi]; rfl)
    obtain rfl : i = slotOf (s.front + k) := Fin.ext hik
    have h := hs.slot_at_offset hk
    by_contra hn
    rw [if_neg (by tauto)] at h
    obtain ⟨f,hf⟩ := h
    unfold item at hf
    rw [hi] at hf
    cases hf
  · intro h
    obtain ⟨a,ha⟩ := Option.isSome_iff_exists.mp h
    exact ⟨_,hs.active_slot ha⟩

omit [NeZero N] in
theorem unoccupied_cases {slot : TxQueueSlot N C P E}
    (h : slot.occupied ≠ true) : slot = .empty ∨ ∃ d, slot = .returnDataAvailable d := by
  cases slot with
  | empty => exact Or.inl rfl
  | returnDataAvailable d => exact Or.inr ⟨d,rfl⟩
  | pending f => exact absurd rfl h
  | inProgress => exact absurd rfl h

/-- With room in the ring the only panics left are the exhausted counter and a
frame that claims to be longer than its buffer. -/
theorem step_panic (hs : s.Valid) {op : QueueOp N C P E} {p : TxPanic}
    (hcap : ∀ f, op = .enqueueFrame f → 0 < s.queue.capacity)
    (he : s.step op = .error (.panic p)) :
    p = .frameLengthOutOfBounds ∨ (p = .counterExhausted ∧ 2 ^ 64 ≤ s.queue.counter + 1) := by
  cases op with
  | enqueueFrame f =>
    simp only [step,QueueSystem.enqueueFrame] at he
    cases hq : s.queue.enqueueFrame f with
    | error p' =>
      simp only [hq] at he
      cases he
      exact Or.inr (enqueueFrame_error hq (hcap f rfl))
    | ok r => simp only [hq] at he; cases he
  | tryReceive =>
    cases ha : s.active with
    | some a => simp only [step,QueueSystem.tryReceive,ha] at he; cases he
    | none =>
      simp only [step,QueueSystem.tryReceive,ha] at he
      cases hempty : s.queue.isEmpty with
      | true =>
        rw [tryReceive_empty hempty] at he
        cases he
      | false =>
        have hlen : 0 < s.queue.len := by
          have := hs.len_add_capacity
          have := isEmpty_eq_false hempty
          omega
        obtain ⟨f,hf⟩ := (if_neg (by simp [ha])).mp (hs.slot_at_offset hlen)
        rw [tryReceive_pending hempty hs.frontIndex_eq.symm hf] at he
        simp only at he
        split at he
        · cases he
        · cases he
          exact Or.inl rfl
  | waitQueueNotEmpty w =>
    cases ha : s.active <;> (simp only [step,ha] at he; cases he)
  | transmitted result contents =>
    cases ha : s.active <;> (simp only [step,ha] at he; cases he)
  | abort =>
    cases ha : s.active <;> (simp only [step,ha] at he; cases he)
  | waitForCompletion g w =>
    simp only [step,QueueSystem.waitForCompletion] at he
    split at he
    · split at he <;> cases he
    · cases he
  | status g =>
    simp only [step] at he
    split at he <;> cases he
  | dropHandle g =>
    simp only [step,QueueSystem.dropHandle] at he
    split at he <;> cases he

end Valid
end QueueSystem

namespace TxSystem
variable [Zero C] {s t : TxSystem N C P E} {ops : List (TxOp N C P E)}

namespace Valid

theorem lengths (hs : s.Valid) : s.manager.bufferQueue.length + s.held.length +
    (Ownership.total QueueSystem.owned s.queues).card = N := by
  have h := card_owned hs.partition
  simpa only [owned,Multiset.card_add,card_bufferIds] using h

/-- A caller's buffer is in no slot, so it leaves room in every ring. -/
theorem capacity_pos (hs : s.Valid) (hheld : s.held ≠ []) (q : Fin 4) :
    0 < (s.queues q).queue.capacity := by
  have hq := hs.queues_valid q
  have hlen := hq.len_le_owned
  have hle := Multiset.card_le_card (Ownership.held_le_total QueueSystem.owned s.queues q)
  have hsum := hs.lengths
  have hpos := List.length_pos_of_ne_nil hheld
  have hcap := hq.len_add_capacity
  omega

theorem queueStep_panic (hs : s.Valid) {q : Fin 4} {held : List (TxBuffer N C)}
    {op : QueueOp N C P E} {p : TxPanic}
    (hcap : ∀ f, op = .enqueueFrame f → 0 < (s.queues q).queue.capacity)
    (he : s.queueStep q held op = .error (.panic p)) :
    p = .frameLengthOutOfBounds ∨
      (p = .counterExhausted ∧ 2 ^ 64 ≤ (s.queues q).queue.counter + 1) := by
  unfold queueStep at he
  split at he
  · rename_i e hq
    cases he
    exact (hs.queues_valid q).step_panic hcap hq
  · cases he

theorem systemStep_panic (hs : s.Valid) {op : TxOp N C P E} {p : TxPanic}
    (he : s.step op = .error (.panic p)) : p = .frameLengthOutOfBounds ∨
      (p = .counterExhausted ∧ ∃ q, 2 ^ 64 ≤ (s.queues q).queue.counter + 1) := by
  cases op with
  | tryAlloc =>
    simp only [step] at he
    split at he <;> cases he
  | write i contents =>
    simp only [step] at he
    split at he <;> cases he
  | dropBuffer i =>
    simp only [step] at he
    split at he <;> cases he
  | transmitEdca q i len p iface r =>
    simp only [step] at he
    cases hb : takeBuffer s.held i with
    | none => simp only [hb] at he; cases he
    | some r =>
      simp only [hb] at he
      have hne : s.held ≠ [] := by
        rintro hnil
        rw [hnil] at hb
        cases hb
      exact (hs.queueStep_panic (fun _ _ => hs.capacity_pos hne q) he).imp id
        (fun h => ⟨h.1,q,h.2⟩)
  | queue q op =>
    cases op with
    | enqueueFrame f => cases he
    | _ =>
      refine (hs.queueStep_panic ?_ he).imp id (fun h => ⟨h.1,q,h.2⟩)
      intro f hf
      cases hf

theorem returnDataAvailable_handle (hs : s.Valid) {q : Fin 4} {i : Fin N}
    {d : TxReturnData N C E} (hd : ((s.queues q).queue.queueItems i).slot = .returnDataAvailable d) :
    ∃ g ∈ (s.queues q).handles, slotOf g = i ∧ InWindow N (s.queues q).queue.counter g ∧
      (g,some d) ∈ (s.queues q).history.finished := by
  have hq := hs.queues_valid q
  rcases hq.slot_cases i with ⟨g,hw,rfl⟩ | he
  · obtain ⟨hg,_,hf⟩ := (hq.returnDataAvailable_iff hw).mp hd
    exact ⟨g,hg,rfl,hw,hf⟩
  · rw [he] at hd
    cases hd

/-- A drained queue without handles owns nothing. -/
theorem owned_eq_zero (hs : s.Valid) {q : Fin 4} (hempty : (s.queues q).queue.isEmpty = true)
    (hh : (s.queues q).handles = ∅) : (s.queues q).owned = 0 := by
  have hq := hs.queues_valid q
  have hlen : (s.queues q).queue.len = 0 := by
    have : (s.queues q).queue.capacity = N := by simpa [TxQueueState.isEmpty] using hempty
    unfold TxQueueState.len
    omega
  have hactive : (s.queues q).active = none := by
    cases ha : (s.queues q).active with
    | none => rfl
    | some a =>
      have := (hq.active_front a.1 a.2 ha).1
      omega
  have hslot : ∀ i, ((s.queues q).queue.queueItems i).slot.buffers = [] := by
    intro i
    have hnot : ((s.queues q).queue.queueItems i).slot.occupied ≠ true := by
      intro ho
      obtain ⟨k,hk,_⟩ := (hq.occupied_iff_offset i).mp ho
      omega
    rcases QueueSystem.Valid.unoccupied_cases hnot with he | ⟨d,hd⟩
    · rw [he,TxQueueSlot.buffers_empty]
    · obtain ⟨g,hg,_⟩ := hs.returnDataAvailable_handle hd
      rw [hh] at hg
      cases hg
  simp [QueueSystem.owned,Ownership.total,hactive,hslot]

end Valid

theorem tryAlloc_runs (hs : s.Valid) : ∃ t, Runs Step s
    (List.replicate s.manager.bufferQueue.length .tryAlloc) t ∧
      t.manager.bufferQueue = [] ∧ t.queues = s.queues := by
  generalize hn : s.manager.bufferQueue.length = n
  induction n generalizing s with
  | zero => exact ⟨s,.refl s,List.eq_nil_of_length_eq_zero hn,rfl⟩
  | succ n ih =>
    obtain ⟨b,rest,hb⟩ := List.exists_cons_of_length_eq_add_one hn
    set s' : TxSystem N C P E :=
      { s with manager := { s.manager with bufferQueue := rest }, held := b :: s.held } with hs'
    have hstep : Step s .tryAlloc s' := by
      simp only [Step,step,TxBufferManager.tryAlloc,hb,hs']
    have hlen : s'.manager.bufferQueue.length = n := by
      rw [hb,List.length_cons] at hn
      exact Nat.succ.inj hn
    obtain ⟨t,ht,hnil,hq⟩ := ih (step_valid hs hstep) hlen
    exact ⟨t,.step hstep ht,hnil,hq⟩

/-- The representation invariant of every ring in every reachable state. -/
theorem ring_representation (hr : Runs Step new ops s) (q : Fin 4) :
    let r := (s.queues q).queue
    N - r.capacity = (Finset.univ.filter (fun i => (r.queueItems i).slot.occupied = true)).card ∧
    (∀ i : Fin N, (r.queueItems i).slot.occupied = true ↔
      ∃ k < r.len, (i : ℕ) = (r.counter - r.len + k) % N) ∧
    ((∃ i, (r.queueItems i).slot = .inProgress) ↔ (s.queues q).active.isSome = true) ∧
    (∀ k < r.len, if k = 0 ∧ (s.queues q).active.isSome then
        (r.queueItems (slotOf (r.counter - r.len + k))).slot = .inProgress
      else ∃ f, (r.queueItems (slotOf (r.counter - r.len + k))).slot = .pending f) ∧
    (∀ i, (r.queueItems i).slot.occupied ≠ true →
      (r.queueItems i).slot = .empty ∨ ∃ d, (r.queueItems i).slot = .returnDataAvailable d) ∧
    r.frontIndex = (r.counter - r.len) % N ∧
    r.capacity ≤ N ∧ r.len ≤ r.counter ∧
    ((s.queues q).active.isSome = true → r.capacity < N) ∧ (s.held ≠ [] → 0 < r.capacity) ∧
    ∀ op p, s.step op = .error (.panic p) → p = .frameLengthOutOfBounds ∨
      (p = .counterExhausted ∧ ∃ q, 2 ^ 64 ≤ (s.queues q).queue.counter + 1) := by
  have hs := runs_valid hr new_valid
  have hq := hs.queues_valid q
  refine ⟨hq.card_occupied,hq.occupied_iff_offset,hq.inProgress_iff_active,
    fun k hk => hq.slot_at_offset hk,fun i hi => QueueSystem.Valid.unoccupied_cases hi,
    hq.frontIndex_eq,hq.capacity_le,hq.len_le,?_,fun h => hs.capacity_pos h q,
    fun op p he => hs.systemStep_panic he⟩
  intro ha
  obtain ⟨a,ha⟩ := Option.isSome_iff_exists.mp ha
  have hlen := (hq.active_front a.1 a.2 ha).1
  have hcap := hq.len_add_capacity
  omega

/-- Two frames in a ring of three, the older one with the runner. -/
theorem ring_representation_three : ∃ s : TxSystem 3 ℕ Unit Unit,
    Runs Step new [.tryAlloc,.transmitEdca 1 0 0 () 0 .drop,.queue 1 .tryReceive,.queue 1 .abort,
      .tryAlloc,.transmitEdca 1 1 0 () 0 .drop,.tryAlloc,.transmitEdca 1 2 0 () 0 .drop,
      .queue 1 .tryReceive] s ∧
    (s.queues 1).queue.frontIndex = 1 ∧
    ∃ i, ((s.queues 1).queue.queueItems i).slot = .inProgress := by
  apply Runs.exists_of_execute (fun _ _ _ => ok_of_toOption) (fun s =>
    (s.queues 1).active.isSome = true ∧
      ((s.queues 1).queue.counter - (s.queues 1).queue.len) % 3 = 1)
  · decide
  · rintro s hr ⟨ha,hf⟩
    obtain ⟨_,_,hact,_,_,hfront,_⟩ := ring_representation hr 1
    exact ⟨hfront.trans hf,hact.mpr ha⟩

/-- No buffer is lost or duplicated, no drop fails, free buffers are zero, and a
drained system can hand out the whole pool again. -/
theorem buffer_conservation (hr : Runs Step new ops s) :
    s.owned = Finset.univ.val ∧
    (∀ q i d, ((s.queues q).queue.queueItems i).slot = .returnDataAvailable d →
      ∃ g ∈ (s.queues q).handles, slotOf g = i ∧ InWindow N (s.queues q).queue.counter g ∧
        (g,some d) ∈ (s.queues q).history.finished) ∧
    s.manager.failedSends = 0 ∧
    (∀ b ∈ s.manager.bufferQueue, b.contents = 0) ∧
    ((∀ q, (s.queues q).queue.isEmpty = true ∧ (s.queues q).handles = ∅) →
      ∃ t, Runs Step s (List.replicate (N - s.held.length) .tryAlloc) t ∧
        bufferIds t.held = Finset.univ.val) := by
  have hs := runs_valid hr new_valid
  refine ⟨hs.partition,fun q i d hd => hs.returnDataAvailable_handle hd,hs.sent,hs.zeroed,?_⟩
  intro hidle
  have hzero : Ownership.total QueueSystem.owned s.queues = 0 :=
    Finset.sum_eq_zero (fun q _ => hs.owned_eq_zero (hidle q).1 (hidle q).2)
  have hlen := hs.lengths
  rw [hzero,Multiset.card_zero,add_zero] at hlen
  obtain ⟨t,ht,hnil,hq⟩ := tryAlloc_runs hs
  rw [show N - s.held.length = s.manager.bufferQueue.length by omega]
  refine ⟨t,ht,?_⟩
  rw [← (runs_valid ht hs).partition,owned,hnil,hq,hzero]
  simp

/-- A completion whose handle is dropped during the radio wait returns its buffer. -/
theorem buffer_conservation_dropped_handle : ∃ s : TxSystem 2 ℕ Unit Unit,
    Runs Step new [.tryAlloc,.write 0 5,.transmitEdca 2 0 0 () 0 .drop,.queue 2 .tryReceive,
      .queue 2 (.dropHandle 0),.queue 2 (.transmitted (.ok 1) 5)] s ∧
    ∃ t, Runs Step s [.tryAlloc,.tryAlloc] t ∧ bufferIds t.held = Finset.univ.val := by
  apply Runs.exists_of_execute (fun _ _ _ => ok_of_toOption) (fun s => s.held.length = 0 ∧
    ∀ q, (s.queues q).queue.isEmpty = true ∧ (s.queues q).handles = ∅)
  · decide
  · rintro s hr ⟨hheld,hidle⟩
    obtain ⟨t,ht,hall⟩ := (buffer_conservation hr).2.2.2.2 hidle
    rw [hheld] at ht
    exact ⟨t,ht,hall⟩

end TxSystem
end FerrisOnAir.Tx
