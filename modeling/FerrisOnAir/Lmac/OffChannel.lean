import FerrisOnAir.Foundation.Runs
import FerrisOnAir.Lmac.ChannelState

/-! # Off channel operations

`foa/src/lmac/off_channel.rs` and `try_begin_interface_off_channel_operation`. The
first poll of that future checks for an operation in progress and asks every interface
that holds the lock; later polls only collect the answers. The requester keeps its
status when the future is dropped, and `wait_for_request` does not consume it.
`begin_interface_off_channel_operation` waits and then does the same, so its first
poll is that of `tryBegin` at a later time.
-/
namespace FerrisOnAir.Lmac
variable {n : ℕ}

inductive OffChannelRequestState
  | notRequested
  | requested
  | granted
  | rejected
deriving DecidableEq

/-- A suspended `try_begin_interface_off_channel_operation`: the answers so far. -/
structure PendingOperation (n : ℕ) where
  interface : Fin n
  results : Fin n → Option (Except LMacError Unit)

structure OffChannelOperation (n : ℕ) where
  interface : Fin n
  previouslyLockedChannel : Option ℕ
deriving DecidableEq

structure OffChannelSystem (n : ℕ) where
  channelState : ChannelState n
  requesters : Fin n → OffChannelRequestState
  requests : List (Fin n)
  pending : List (PendingOperation n)
  live : List (OffChannelOperation n)

/-- Futures, requests and operations are named by their position. -/
inductive OffChannelOp (n : ℕ)
  | lockChannel (interface : Fin n) (channel : ℕ)
  | unlockChannel (interface : Fin n)
  | tryBegin (interface : Fin n)
  | poll (k : ℕ)
  | cancel (k : ℕ)
  | waitForRequest (interface : Fin n)
  | grant (k : ℕ)
  | reject (k : ℕ)
  | setChannel (k channel : ℕ)
  | dropOperation (k : ℕ)

namespace PendingOperation
variable (p : PendingOperation n) (requesters : Fin n → OffChannelRequestState)

/-- One poll of the request futures that are not ready. -/
def poll : PendingOperation n :=
  { p with results := fun i =>
    match p.results i with
    | some r => some r
    | none =>
      match requesters i with
      | .granted => some (.ok ())
      | .rejected => some (.error .offChannelRequestRejected)
      | _ => none }

/-- A granted answer is taken out of the requester. -/
def consume (i : Fin n) : OffChannelRequestState :=
  if (p.results i).isNone ∧ requesters i = .granted then .notRequested else requesters i

def ready : Bool := decide (∀ i, (p.results i).isSome = true)

def granted : Bool := decide (∀ i, p.results i = some (.ok ()))

end PendingOperation

namespace OffChannelSystem
variable (valid : ℕ → Bool) (s : OffChannelSystem n)

def new (channel : ℕ) : OffChannelSystem n := ⟨.new channel,fun _ => .notRequested,[],[],[]⟩

/-- The end of `try_begin_interface_off_channel_operation`. -/
def beginOperation (interface : Fin n) : OffChannelSystem n :=
  { s with
    channelState := { s.channelState with offChannelOperationInterface := some interface }
    live := s.live ++ [⟨interface,s.channelState.homeChannel⟩] }

/-- The first poll: requests go to all interfaces that hold the lock. -/
def tryBegin (interface : Fin n) : OffChannelSystem n :=
  if s.channelState.offChannelOperationInProgress then s
  else match s.channelState.locks with
    | none => s.beginOperation interface
    | some (locks,_) =>
      if ∀ i, locks i = false then s.beginOperation interface
      else { s with
        requesters := fun i => if locks i then .requested else s.requesters i
        pending := s.pending ++ [⟨interface,fun i => if locks i then none else some (.ok ())⟩] }

/-- A later poll of a suspended future. -/
def poll (k : ℕ) : Option (OffChannelSystem n) :=
  match s.pending[k]? with
  | none => none
  | some p =>
    let p' := p.poll s.requesters
    let s' := { s with requesters := p.consume s.requesters }
    if p'.ready then
      let s'' := { s' with pending := s.pending.eraseIdx k }
      some (if p'.granted then s''.beginOperation p.interface else s'')
    else some { s' with pending := s.pending.set k p' }

/-- `OffChannelRequest::grant` and its drop. -/
def respond (k : ℕ) (state : OffChannelRequestState) : Option (OffChannelSystem n) :=
  match s.requests[k]? with
  | none => none
  | some i => some { s with
      requesters := Function.update s.requesters i state
      requests := s.requests.eraseIdx k }

/-- `OffChannelOperation::drop`. -/
def dropOperation (k : ℕ) : Option (OffChannelSystem n) :=
  match s.live[k]? with
  | none => none
  | some o =>
    let channelState :=
      match s.channelState.homeChannel.or o.previouslyLockedChannel with
      | some channel => (s.channelState.setChannel valid channel).2
      | none => s.channelState
    some { s with
      channelState := { channelState with offChannelOperationInterface := none }
      live := s.live.eraseIdx k }

def step : OffChannelOp n → Option (OffChannelSystem n)
  | .lockChannel i channel =>
    some { s with channelState := (s.channelState.lockChannelInternal valid i channel).2 }
  | .unlockChannel i => some { s with channelState := s.channelState.unlockChannel i }
  | .tryBegin i => some (s.tryBegin i)
  | .poll k => s.poll k
  | .cancel k =>
    if k < s.pending.length then some { s with pending := s.pending.eraseIdx k } else none
  | .waitForRequest i =>
    if s.requesters i = .requested then some { s with requests := s.requests ++ [i] } else none
  | .grant k => s.respond k .granted
  | .reject k => s.respond k .rejected
  | .setChannel k channel =>
    if k < s.live.length then
      some { s with channelState := (s.channelState.setChannel valid channel).2 }
    else none
  | .dropOperation k => s.dropOperation valid k

def Step (s : OffChannelSystem n) (op : OffChannelOp n) (t : OffChannelSystem n) : Prop :=
  s.step valid op = some t

/-- At most one operation is alive, and the channel state names its interface. -/
def Exclusive (s : OffChannelSystem n) : Prop :=
  s.live.length ≤ 1 ∧ ∀ i, s.channelState.offChannelOperationInterface = some i ↔
    ∃ o ∈ s.live, o.interface = i

/-- The poll hands out an operation. -/
def completes (s : OffChannelSystem n) (k : ℕ) : Prop :=
  ∃ p, s.pending[k]? = some p ∧ (p.poll s.requesters).granted = true

/-- A future that awaited grants resumes only while no operation is in progress. -/
def ResumesIdle (s : OffChannelSystem n) (op : OffChannelOp n) : Prop :=
  ∀ k, op = .poll k → s.completes k → s.channelState.offChannelOperationInterface = none

section Exclusion
variable {valid} {s t : OffChannelSystem n} {op : OffChannelOp n}

theorem exclusive_iff : s.Exclusive ↔
    (s.live = [] ∧ s.channelState.offChannelOperationInterface = none) ∨
    ∃ o, s.live = [o] ∧ s.channelState.offChannelOperationInterface = some o.interface := by
  constructor
  · rintro ⟨hlen,hiff⟩
    match hl : s.live with
    | [] =>
      refine Or.inl ⟨rfl,?_⟩
      cases hi : s.channelState.offChannelOperationInterface with
      | none => rfl
      | some i =>
        obtain ⟨o,ho,_⟩ := (hiff i).mp hi
        rw [hl] at ho
        cases ho
    | [o] =>
      have ho : o ∈ s.live := by rw [hl]; exact List.mem_singleton_self o
      exact Or.inr ⟨o,rfl,(hiff o.interface).mpr ⟨o,ho,rfl⟩⟩
    | _ :: _ :: _ => rw [hl] at hlen; simp at hlen
  · rintro (⟨hl,hi⟩ | ⟨o,hl,hi⟩)
    · simp [Exclusive,hl,hi]
    · simp [Exclusive,hl,hi]

theorem Exclusive.of_eq (hs : s.Exclusive) (hl : t.live = s.live)
    (hi : t.channelState.offChannelOperationInterface =
      s.channelState.offChannelOperationInterface) : t.Exclusive := by
  unfold Exclusive
  rw [hl,hi]
  exact hs

theorem Exclusive.live_eq_nil (hs : s.Exclusive)
    (hi : s.channelState.offChannelOperationInterface = none) : s.live = [] := by
  rcases exclusive_iff.mp hs with ⟨hl,_⟩ | ⟨o,_,ho⟩
  · exact hl
  · rw [hi] at ho
    cases ho

/-- Starting an operation is safe exactly while none is in progress. -/
theorem beginOperation_exclusive (hs : s.Exclusive) (i : Fin n) :
    (s.beginOperation i).Exclusive ↔ s.channelState.offChannelOperationInterface = none := by
  constructor
  · intro h
    rcases exclusive_iff.mp hs with ⟨_,hi⟩ | ⟨o,hl,_⟩
    · exact hi
    · have hlen := h.1
      simp [beginOperation,hl] at hlen
  · intro hi
    refine exclusive_iff.mpr (Or.inr ⟨⟨i,s.channelState.homeChannel⟩,?_,rfl⟩)
    simp [beginOperation,hs.live_eq_nil hi]

theorem tryBegin_exclusive (hs : s.Exclusive) (i : Fin n) : (s.tryBegin i).Exclusive := by
  unfold tryBegin
  cases hp : s.channelState.offChannelOperationInProgress with
  | true => simpa using hs
  | false =>
    have hi : s.channelState.offChannelOperationInterface = none := by
      simpa [ChannelState.offChannelOperationInProgress] using hp
    simp only [Bool.false_eq_true,if_false]
    split
    · exact (beginOperation_exclusive hs i).mpr hi
    · split
      · exact (beginOperation_exclusive hs i).mpr hi
      · exact hs.of_eq rfl rfl

theorem ready_of_granted {p : PendingOperation n} (h : p.granted = true) : p.ready = true := by
  have h' := of_decide_eq_true h
  refine decide_eq_true ?_
  intro i
  rw [h' i]
  rfl

theorem poll_exclusive (hs : s.Exclusive) {k : ℕ} (he : s.poll k = some t) :
    t.Exclusive ↔ (s.completes k → s.channelState.offChannelOperationInterface = none) := by
  unfold poll at he
  cases hp : s.pending[k]? with
  | none => simp only [hp] at he; cases he
  | some p =>
    simp only [hp] at he
    cases hg : (p.poll s.requesters).granted with
    | true =>
      simp only [ready_of_granted hg,hg,if_true] at he
      cases he
      have hc : s.completes k := ⟨p,hp,hg⟩
      refine (beginOperation_exclusive (hs.of_eq rfl rfl) _).trans ?_
      exact ⟨fun h _ => h,fun h => h hc⟩
    | false =>
      have hc : ¬ s.completes k := by
        rintro ⟨p',hp',hg'⟩
        rw [hp] at hp'
        cases hp'
        rw [hg] at hg'
        cases hg'
      have ht : t.Exclusive := by
        simp only [hg,Bool.false_eq_true,if_false] at he
        split at he <;> cases he <;> exact hs.of_eq rfl rfl
      exact ⟨fun _ h => absurd h hc,fun _ => ht⟩

theorem dropOperation_exclusive (hs : s.Exclusive) {k : ℕ}
    (he : s.dropOperation valid k = some t) : t.Exclusive := by
  unfold dropOperation at he
  cases ho : s.live[k]? with
  | none => simp only [ho] at he; cases he
  | some o =>
    simp only [ho] at he
    cases he
    refine exclusive_iff.mpr (Or.inl ⟨?_,rfl⟩)
    have hk := (List.getElem?_eq_some_iff.mp ho).1
    have hlen := hs.1
    exact List.eq_nil_of_length_eq_zero (by rw [List.length_eraseIdx_of_lt hk]; omega)

theorem respond_exclusive (hs : s.Exclusive) {k : ℕ} {state : OffChannelRequestState}
    (he : s.respond k state = some t) : t.Exclusive := by
  unfold respond at he
  split at he <;> cases he
  exact hs.of_eq rfl rfl

/-- A step keeps exclusion exactly if it does not resume a granted future into an
operation of another. -/
theorem step_exclusive_iff (hs : s.Exclusive) (he : Step valid s op t) :
    t.Exclusive ↔ s.ResumesIdle op := by
  unfold Step at he
  cases op with
  | poll k =>
    refine (poll_exclusive hs he).trans ⟨?_,fun h => h k rfl⟩
    rintro h _ ⟨⟩
    exact h
  | lockChannel i c =>
    cases he
    exact iff_of_true (hs.of_eq rfl (ChannelState.lockChannelInternal_offChannel valid i c)) nofun
  | unlockChannel i =>
    cases he
    exact iff_of_true (hs.of_eq rfl (ChannelState.unlockChannel_offChannel i)) nofun
  | tryBegin i =>
    cases he
    exact iff_of_true (tryBegin_exclusive hs i) nofun
  | cancel k =>
    simp only [step] at he
    split at he <;> cases he
    exact iff_of_true (hs.of_eq rfl rfl) nofun
  | waitForRequest i =>
    simp only [step] at he
    split at he <;> cases he
    exact iff_of_true (hs.of_eq rfl rfl) nofun
  | grant k => exact iff_of_true (respond_exclusive hs he) nofun
  | reject k => exact iff_of_true (respond_exclusive hs he) nofun
  | setChannel k c =>
    simp only [step] at he
    split at he <;> cases he
    exact iff_of_true (hs.of_eq rfl (ChannelState.setChannel_offChannel valid c)) nofun
  | dropOperation k => exact iff_of_true (dropOperation_exclusive hs he) nofun

theorem new_exclusive (channel : ℕ) : (new channel : OffChannelSystem n).Exclusive :=
  exclusive_iff.mpr (Or.inl ⟨rfl,rfl⟩)

/-- A run has at most one operation alive in every state, namely that of the recorded
interface, exactly if each future that awaited grants resumes while none is in
progress. -/
theorem off_channel_exclusive_iff {channel : ℕ} {ops : List (OffChannelOp n)} :
    Runs (Within Exclusive (Step valid)) (new channel) ops s ↔
      Runs (Guarded ResumesIdle (Step valid)) (new channel) ops s :=
  Runs.within_iff_guarded (I := fun _ => True) (fun _ _ _ _ _ => trivial)
    (fun _ _ _ _ hs he => step_exclusive_iff hs he) trivial (new_exclusive channel)

/-- Interface 1 asks interface 0 for a grant. Interface 0 unlocks the channel and starts
an operation of its own, then finds the request and grants it: both are alive. -/
theorem off_channel_two_alive : ∃ s : OffChannelSystem 2,
    Runs (Step (fun _ => true)) (new 1)
      [.lockChannel 0 6,.tryBegin 1,.unlockChannel 0,.tryBegin 0,.waitForRequest 0,.grant 0,
        .poll 0] s ∧
    s.live.map OffChannelOperation.interface = [0,1] ∧
    s.channelState.offChannelOperationInterface = some 1 ∧ ¬ s.Exclusive := by
  apply Runs.exists_of_execute (fun _ _ _ h => h)
    (fun s => s.live.map OffChannelOperation.interface = [0,1] ∧
      s.channelState.offChannelOperationInterface = some 1)
  · decide
  · rintro s _ ⟨hl,hi⟩
    refine ⟨hl,hi,?_⟩
    rintro ⟨hlen,_⟩
    rw [← List.length_map (f := OffChannelOperation.interface),hl] at hlen
    simp at hlen

end Exclusion
end OffChannelSystem
end FerrisOnAir.Lmac
