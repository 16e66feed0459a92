import Mathlib

/-! # TX buffers and the pool they return to

`foa/src/tx_buffer_management.rs`. A `TxBuffer` is the only owner of the memory
its pointer names, so the bytes travel with the buffer value. The free channel
holds the unowned pointers; dropping a `TxBuffer` zeroes the bytes and sends the
pointer back, ignoring the result of `try_send`. Rejected sends are counted, as
each of them loses a buffer for good.
-/
namespace FerrisOnAir.Tx

/-- `TX_BUFFER_SIZE`, fixed so that interfaces can rely on it. -/
def txBufferSize : ℕ := 1600

/-- An owned buffer of a pool of `N`. The contents are a type of their own, so that
upper layers may describe what they serialized instead of its bytes. -/
structure TxBuffer (N : ℕ) (C : Type*) where
  buffer : Fin N
  contents : C
deriving DecidableEq

variable {N : ℕ} {C : Type*}

/-- The pool memory named by a list of owned buffers. -/
def bufferIds (bs : List (TxBuffer N C)) : Multiset (Fin N) := bs.map TxBuffer.buffer

@[simp] theorem bufferIds_nil : bufferIds ([] : List (TxBuffer N C)) = 0 := rfl
@[simp] theorem bufferIds_cons (b : TxBuffer N C) (bs : List (TxBuffer N C)) :
    bufferIds (b :: bs) = {b.buffer} + bufferIds bs := rfl
@[simp] theorem bufferIds_append (bs cs : List (TxBuffer N C)) :
    bufferIds (bs ++ cs) = bufferIds bs + bufferIds cs := by
  simp [bufferIds]
@[simp] theorem card_bufferIds (bs : List (TxBuffer N C)) : (bufferIds bs).card = bs.length := by
  simp [bufferIds]

/-- `embassy_sync::channel::Channel::try_send` on a channel of depth `depth`. -/
def trySend {α : Type*} (depth : ℕ) (queue : List α) (a : α) : Except α (List α) :=
  if queue.length < depth then .ok (queue ++ [a]) else .error a

/-- `TxBufferManager`: the free channel, of depth `N`. -/
structure TxBufferManager (N : ℕ) (C : Type*) where
  bufferQueue : List (TxBuffer N C)
  failedSends : ℕ

namespace TxBufferManager

/-- `try_send` with its result ignored. -/
def send (m : TxBufferManager N C) (b : TxBuffer N C) : TxBufferManager N C :=
  match trySend N m.bufferQueue b with
  | .ok queue => { m with bufferQueue := queue }
  | .error _ => { m with failedSends := m.failedSends + 1 }

/-- `TxBufferManager::new` sends a pointer to each of the given buffers. -/
def new (buffers : Fin N → C) : TxBufferManager N C :=
  (List.finRange N).foldl (fun m i => m.send ⟨i,buffers i⟩) ⟨[],0⟩

/-- `TxBufferManager::try_alloc`; `alloc` is the same once its future is ready. -/
def tryAlloc (m : TxBufferManager N C) : Option (TxBuffer N C × TxBufferManager N C) :=
  match m.bufferQueue with
  | [] => none
  | b :: rest => some (b,{ m with bufferQueue := rest })

/-- `TxBuffer::drop`. -/
def drop [Zero C] (m : TxBufferManager N C) (b : TxBuffer N C) : TxBufferManager N C :=
  m.send { b with contents := 0 }

/-- Drops in program order. -/
def dropAll [Zero C] (m : TxBufferManager N C) (bs : List (TxBuffer N C)) : TxBufferManager N C :=
  bs.foldl drop m

theorem send_of_lt {m : TxBufferManager N C} (b : TxBuffer N C) (h : m.bufferQueue.length < N) :
    m.send b = { m with bufferQueue := m.bufferQueue ++ [b] } := by
  simp only [send,trySend,if_pos h]

theorem foldl_send (buffers : Fin N → C) (m : TxBufferManager N C) (is : List (Fin N))
    (h : m.bufferQueue.length + is.length ≤ N) :
    is.foldl (fun m i => m.send ⟨i,buffers i⟩) m =
      { m with bufferQueue := m.bufferQueue ++ is.map (fun i => ⟨i,buffers i⟩) } := by
  induction is generalizing m with
  | nil => simp
  | cons i is ih =>
    simp only [List.length_cons] at h
    rw [List.foldl_cons,send_of_lt _ (by omega),ih _ (by simp; omega)]
    simp

/-- Every initial buffer fits the channel. -/
theorem new_eq (buffers : Fin N → C) :
    new buffers = ⟨(List.finRange N).map (fun i => ⟨i,buffers i⟩),0⟩ := by
  unfold new
  rw [foldl_send _ _ _ (by simp)]
  simp

/-- As long as there is room, dropped buffers are all back in the channel, zeroed. -/
theorem dropAll_of_le [Zero C] (m : TxBufferManager N C) (bs : List (TxBuffer N C))
    (h : m.bufferQueue.length + bs.length ≤ N) :
    m.dropAll bs =
      { m with bufferQueue := m.bufferQueue ++ bs.map (fun b => { b with contents := 0 }) } := by
  induction bs generalizing m with
  | nil => simp [dropAll]
  | cons b bs ih =>
    simp only [List.length_cons] at h
    have hb : m.drop b = { m with bufferQueue := m.bufferQueue ++ [{ b with contents := 0 }] } :=
      send_of_lt _ (by omega)
    have hs := ih (m.drop b) (by rw [hb]; simp; omega)
    unfold dropAll at hs ⊢
    rw [List.foldl_cons,hs,hb]
    simp

end TxBufferManager
end FerrisOnAir.Tx
