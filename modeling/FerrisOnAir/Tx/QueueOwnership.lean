import FerrisOnAir.Tx.QueueRuns
import FerrisOnAir.Foundation.Ownership

/-! # Buffers moving through one queue

A slot owns the buffer of its frame or of its return data, the runner owns the
frame it is transmitting. For every operation the buffers before it and those it
brings in are exactly the buffers after it, those dropped and those handed back.
-/
namespace FerrisOnAir.Tx
open TxQueueState RingWindow
variable {N : ℕ} {C P E : Type*}

/-- The pool memory owned by a queue and its runner. -/
def QueueSystem.owned (s : QueueSystem N C P E) : Multiset (Fin N) :=
  Ownership.total (fun item => bufferIds item.slot.buffers) s.queue.queueItems +
    bufferIds (s.active.toList.map (fun a => a.2.frame))

namespace QueueSystem
variable {s : QueueSystem N C P E} {o : Outcome N C P E}

theorem total_setItem (q : TxQueueState N C P E) (i : Fin N) (item : TxQueueItem N C P E) :
    Ownership.total (fun item => bufferIds item.slot.buffers) (q.setItem i item).queueItems +
        bufferIds (q.queueItems i).slot.buffers =
      Ownership.total (fun item => bufferIds item.slot.buffers) q.queueItems +
        bufferIds item.slot.buffers :=
  Ownership.total_update ..

theorem finish_owned {t : InProgressTransmission N} {f : PendingFrame N C P}
    (ha : s.active = some (t,f)) {out : Option (TxReturnData N C E)} {dropped : List (TxBuffer N C)}
    (hout : bufferIds (TxQueueSlot.ofOutcome out : TxQueueSlot N C P E).buffers + bufferIds dropped =
      {f.frame.buffer}) :
    (s.finish t out dropped).system.owned + bufferIds (s.finish t out dropped).dropped +
      bufferIds (s.finish t out dropped).returned = s.owned := by
  have hset := total_setItem { s.queue with capacity := s.queue.capacity + 1 } t.index
    { s.queue.queueItems t.index with
      slot := if (s.queue.queueItems t.index).returnDataExpected then .ofOutcome out else .empty }
  simp only [owned,finish,finish_state,finish_dropped,ha,Option.toList_none,Option.toList_some,
    List.map_nil,List.map_cons,bufferIds_nil,bufferIds_cons,bufferIds_append,add_zero,
    List.flatMap_cons,← hout]
  cases hflag : (s.queue.queueItems t.index).returnDataExpected with
  | true =>
    simp only [hflag,if_true] at hset
    simp only [if_true,List.flatMap_nil,bufferIds_nil,add_zero]
    simp only [← add_assoc]
    rw [← hset]
    abel
  | false =>
    simp only [hflag,Bool.false_eq_true,if_false,TxQueueSlot.buffers_empty,bufferIds_nil,
      add_zero] at hset
    simp only [Bool.false_eq_true,if_false,List.flatMap_cons,List.flatMap_nil,List.append_nil]
    simp only [← add_assoc]
    rw [← hset]
    abel

variable [NeZero N]

theorem enqueueFrame_owned {f : PendingFrame N C P} (he : s.enqueueFrame f = .ok o) :
    o.system.owned + bufferIds o.dropped + bufferIds o.returned =
      s.owned + {f.frame.buffer} := by
  unfold QueueSystem.enqueueFrame at he
  split at he
  · cases he
  · rename_i q c old w hq
    cases he
    obtain ⟨_,_,rfl,rfl,rfl⟩ := enqueueFrame_ok hq
    have hset := total_setItem
      { s.queue with counter := s.queue.counter + 1, capacity := s.queue.capacity - 1 }
      (slotOf s.queue.counter) { s.queue.queueItems (slotOf s.queue.counter) with
        slot := .pending f, returnDataExpected := true }
    simp only [TxQueueSlot.buffers_pending,bufferIds_cons,bufferIds_nil,add_zero] at hset
    simp only [owned,bufferIds_nil,add_zero]
    rw [add_right_comm,hset,add_right_comm]

omit [NeZero N] in
theorem tryReceive_owned (he : s.tryReceive = .ok o) :
    o.system.owned + bufferIds o.dropped + bufferIds o.returned = s.owned := by
  unfold QueueSystem.tryReceive at he
  cases ha : s.active with
  | some a => simp only [ha] at he; cases he
  | none =>
    simp only [ha] at he
    split at he
    · cases he
    · cases he
      simp
    · rename_i t f q hq
      split at he
      · cases he
        obtain ⟨_,_,_,hpend,rfl⟩ := tryReceive_some hq
        have hset := total_setItem s.queue t.index
          { s.queue.queueItems t.index with slot := .inProgress }
        simp only [hpend,TxQueueSlot.buffers_pending,TxQueueSlot.buffers_inProgress,bufferIds_cons,
          bufferIds_nil,add_zero] at hset
        simp only [owned,ha,Option.toList_some,Option.toList_none,List.map_cons,List.map_nil,
          bufferIds_cons,bufferIds_nil,add_zero]
        exact hset
      · cases he

theorem waitForCompletion_owned {g : ℕ} {w : Waker} (he : s.waitForCompletion g w = .ok o) :
    o.system.owned + bufferIds o.dropped + bufferIds o.returned = s.owned := by
  unfold QueueSystem.waitForCompletion at he
  split at he
  · rcases waitForCompletion_cases s.queue g w with ⟨_,hp⟩ | ⟨hb,⟨d,hslot,hp⟩ | ⟨_,hp⟩ | ⟨_,hp⟩⟩
    · simp only [hp] at he
      cases he
      simp
    · simp only [hp] at he
      cases he
      have hset := total_setItem s.queue (slotOf g)
        { s.queue.queueItems (slotOf g) with slot := .empty }
      simp only [hslot,TxQueueSlot.buffers_returnDataAvailable,TxQueueSlot.buffers_empty,
        bufferIds_cons,bufferIds_nil,add_zero] at hset
      simp only [owned,bufferIds_cons,bufferIds_nil,add_zero]
      rw [add_right_comm,hset]
    · simp only [hp] at he
      cases he
      simp
    · simp only [hp] at he
      cases he
      have hset := total_setItem s.queue (slotOf g)
        { s.queue.queueItems (slotOf g) with waker := some w }
      simp only [owned,bufferIds_nil,add_zero]
      rw [add_right_cancel hset]
  · cases he

theorem dropHandle_owned {g : ℕ} (he : s.dropHandle g = .ok o) :
    o.system.owned + bufferIds o.dropped + bufferIds o.returned = s.owned := by
  unfold QueueSystem.dropHandle at he
  split at he
  · cases he
    rcases dropPending_cases s.queue g with ⟨_,hp⟩ | ⟨_,⟨d,hslot,hp⟩ | ⟨_,hp⟩⟩
    · simp [hp,owned]
    · have hset := total_setItem s.queue (slotOf g)
        { s.queue.queueItems (slotOf g) with slot := .empty, returnDataExpected := false }
      simp only [hslot,TxQueueSlot.buffers_returnDataAvailable,TxQueueSlot.buffers_empty,
        bufferIds_cons,bufferIds_nil,add_zero] at hset
      simp only [hp,owned,Option.toList_some,List.flatMap_cons,List.flatMap_nil,List.append_nil,
        TxQueueSlot.buffers_returnDataAvailable,bufferIds_cons,bufferIds_nil,add_zero]
      rw [add_right_comm,hset]
    · have hset := total_setItem s.queue (slotOf g)
        { s.queue.queueItems (slotOf g) with returnDataExpected := false }
      simp only [hp,owned,Option.toList_none,List.flatMap_nil,bufferIds_nil,add_zero]
      rw [add_right_cancel hset]
  · cases he

/-- What an operation brings into the queue. -/
def input : QueueOp N C P E → List (TxBuffer N C)
  | .enqueueFrame f => [f.frame]
  | _ => []

/-- No operation of a queue creates, duplicates or forgets a buffer. -/
theorem step_owned {op : QueueOp N C P E} (he : s.step op = .ok o) :
    o.system.owned + bufferIds o.dropped + bufferIds o.returned =
      s.owned + bufferIds (input op) := by
  cases op with
  | enqueueFrame f => exact enqueueFrame_owned he
  | waitQueueNotEmpty w =>
    cases ha : s.active with
    | some a => simp only [step,ha] at he; cases he
    | none =>
      simp only [step,ha] at he
      cases he
      unfold TxQueueState.waitQueueNotEmpty
      split <;> simp [owned,input,ha]
  | tryReceive => simpa [input] using tryReceive_owned he
  | transmitted result contents =>
    cases ha : s.active with
    | none => simp only [step,ha] at he; cases he
    | some a =>
      simp only [step,ha] at he
      cases he
      simpa [input] using finish_owned ha (by simp [TxQueueSlot.ofOutcome])
  | abort =>
    cases ha : s.active with
    | none => simp only [step,ha] at he; cases he
    | some a =>
      simp only [step,ha] at he
      cases he
      simpa [input] using finish_owned ha (by simp [TxQueueSlot.ofOutcome])
  | waitForCompletion g w => simpa [input] using waitForCompletion_owned he
  | status g =>
    simp only [step] at he
    split at he
    · cases he
      simp [input]
    · cases he
  | dropHandle g => simpa [input] using dropHandle_owned he

/-- A queue owns at least one buffer per occupied slot. -/
theorem Valid.len_le_owned (hs : s.Valid) : s.queue.len ≤ s.owned.card := by
  have hsub : (Finset.Ico s.handedCount s.queue.counter) ⊆ Finset.Ico s.front s.queue.counter :=
    Finset.Ico_subset_Ico_left (Nat.le_add_right ..)
  have hinj := hs.slotOf_injOn.mono (Finset.coe_subset.mpr hsub)
  have hone : ∀ i ∈ (Finset.Ico s.handedCount s.queue.counter).image (slotOf : ℕ → Fin N),
      1 ≤ (s.queue.queueItems i).slot.buffers.length := by
    intro i hi
    obtain ⟨g,hg,rfl⟩ := Finset.mem_image.mp hi
    obtain ⟨hg₁,hg₂⟩ := Finset.mem_Ico.mp hg
    obtain ⟨f,_,hslot⟩ := hs.queued_slot hg₁ hg₂
    rw [show (s.queue.queueItems (slotOf g)).slot = _ from hslot]
    simp
  have hsum : s.queue.counter - s.handedCount ≤
      ∑ i, (s.queue.queueItems i).slot.buffers.length := by
    calc s.queue.counter - s.handedCount
        = ((Finset.Ico s.handedCount s.queue.counter).image (slotOf : ℕ → Fin N)).card := by
          rw [Finset.card_image_of_injOn hinj,Nat.card_Ico]
      _ ≤ ∑ i ∈ (Finset.Ico s.handedCount s.queue.counter).image slotOf,
            (s.queue.queueItems i).slot.buffers.length := by
          simpa using Finset.card_nsmul_le_sum _ _ 1 hone
      _ ≤ _ := Finset.sum_le_sum_of_subset (Finset.subset_univ _)
  have hcard : s.owned.card = (∑ i, (s.queue.queueItems i).slot.buffers.length) +
      s.active.toList.length := by
    simp [owned,Ownership.total]
  have hfl := hs.front_add_len
  have hle := hs.handedCount_le
  unfold handedCount at hsum hle
  omega

end QueueSystem
end FerrisOnAir.Tx
