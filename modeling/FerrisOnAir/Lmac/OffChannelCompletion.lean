import FerrisOnAir.Lmac.OffChannel

/-! # Waiting for off channel completion

`wait_for_off_channel_completion` returns at once while no operation is recorded, and
otherwise awaits `get` on the completion `Watch` behind the mutex of its interface.
The watch keeps the value the first finished operation sent, so `get` resolves from
then on. `begin_interface_off_channel_operation` is this wait and the first poll of
`tryBegin`, with no suspension in between; the connection runner grants a request and
calls the wait in one poll as well. Futures, operations and waits carry the time of the
step that made them, which is all the returns are judged by.
-/
namespace FerrisOnAir.Lmac
variable {n : ℕ}

/-- When an operation was asked for and when it began. -/
structure OperationTimes where
  requestedAt : ℕ
  begunAt : ℕ
deriving DecidableEq

inductive WaitPurpose
  | complete
  | beginOperation
deriving DecidableEq

/-- A call of `wait_for_off_channel_completion`. The requests named by `granted` were
answered by the caller just before. -/
structure CompletionWait (n : ℕ) where
  interface : Fin n
  purpose : WaitPurpose
  calledAt : ℕ
  granted : List ℕ
  holdsListener : Bool
deriving DecidableEq

/-- What is alive when a wait returns; `alreadyInProgress` is the error of the
`tryBegin` that follows in `begin_interface_off_channel_operation`. -/
structure CompletionReturn (n : ℕ) where
  wait : CompletionWait n
  live : List OperationTimes
  requested : List ℕ
  alreadyInProgress : Bool
deriving DecidableEq

structure CompletionSystem (n : ℕ) where
  offChannel : OffChannelSystem n
  sent : Bool
  now : ℕ
  requested : List ℕ
  live : List OperationTimes
  waits : List (CompletionWait n)
  returns : List (CompletionReturn n)

inductive CompletionOp (n : ℕ)
  | offChannel (op : OffChannelOp n)
  | waitForCompletion (interface : Fin n)
  | beginOperation (interface : Fin n)
  | grantAndWait (k : ℕ)
  | pollWait (k : ℕ)
  | cancelWait (k : ℕ)

/-- No operation alive at the call is alive at the return, the granted requests are
neither open nor alive, and only an operation begun since the call is in the way. -/
def CompletionReturn.Completed (r : CompletionReturn n) : Prop :=
  (∀ o ∈ r.live, r.wait.calledAt ≤ o.begunAt) ∧
  (∀ g ∈ r.wait.granted, g ∉ r.requested ∧ ∀ o ∈ r.live, o.requestedAt ≠ g) ∧
  (r.alreadyInProgress = true → ∃ o ∈ r.live, r.wait.calledAt ≤ o.begunAt)

instance (r : CompletionReturn n) : Decidable r.Completed :=
  inferInstanceAs (Decidable (_ ∧ _ ∧ _))

namespace CompletionSystem
variable (valid : ℕ → Bool) (s : CompletionSystem n)

def new (channel : ℕ) : CompletionSystem n := ⟨.new channel,false,0,[],[],[],[]⟩

def inProgress : Bool := s.offChannel.channelState.offChannelOperationInProgress

/-- The times of the futures and operations after a step of the off channel system.
Dropping an operation sends on the watch. -/
def track (op : OffChannelOp n) (t : OffChannelSystem n) : CompletionSystem n :=
  match op with
  | .tryBegin _ => { s with
      offChannel := t
      requested := if s.offChannel.pending.length < t.pending.length then s.requested ++ [s.now]
        else s.requested
      live := if s.offChannel.live.length < t.live.length then s.live ++ [⟨s.now,s.now⟩]
        else s.live }
  | .poll k => { s with
      offChannel := t
      requested := if t.pending.length < s.offChannel.pending.length then s.requested.eraseIdx k
        else s.requested
      live := if s.offChannel.live.length < t.live.length
        then s.live ++ [⟨s.requested.getD k s.now,s.now⟩] else s.live }
  | .cancel k => { s with offChannel := t, requested := s.requested.eraseIdx k }
  | .dropOperation k => { s with offChannel := t, live := s.live.eraseIdx k, sent := true }
  | _ => { s with offChannel := t }

/-- `off_channel_completion_listener` of the interface is locked. -/
def listenerLocked (interface : Fin n) : Bool :=
  s.waits.any (fun w => decide (w.interface = interface) && w.holdsListener)

/-- A poll of `lock().await.get().await`: the wait that stays suspended, if it does. -/
def listen (w : CompletionWait n) : Option (CompletionWait n) :=
  if w.holdsListener = false ∧ s.listenerLocked w.interface = true then some w
  else if s.sent then none
  else some { w with holdsListener := true }

def returned (w : CompletionWait n) : CompletionReturn n :=
  ⟨w,s.live,s.requested,decide (w.purpose = .beginOperation) && s.inProgress⟩

/-- The wait returns, and its caller goes on in the same poll. -/
def finish (w : CompletionWait n) : CompletionSystem n :=
  let s' := { s with returns := s.returns ++ [s.returned w] }
  match w.purpose with
  | .complete => s'
  | .beginOperation => s'.track (.tryBegin w.interface) (s.offChannel.tryBegin w.interface)

/-- The first poll of `wait_for_off_channel_completion`. -/
def waitForCompletion (interface : Fin n) (purpose : WaitPurpose) (granted : List ℕ) :
    CompletionSystem n :=
  let w : CompletionWait n := ⟨interface,purpose,s.now,granted,false⟩
  if s.inProgress then
    match s.listen w with
    | none => s.finish w
    | some w' => { s with waits := s.waits ++ [w'] }
  else s.finish w

def pollWait (k : ℕ) : Option (CompletionSystem n) :=
  match s.waits[k]? with
  | none => none
  | some w => some (match s.listen w with
      | none => { s with waits := s.waits.eraseIdx k }.finish w
      | some w' => { s with waits := s.waits.set k w' })

/-- The requests that await the answer of an interface. -/
def awaiting (interface : Fin n) : List ℕ :=
  (s.offChannel.pending.zip s.requested).filterMap
    (fun p => if (p.1.results interface).isNone then some p.2 else none)

/-- `run_connection` on an off channel request. -/
def grantAndWait (k : ℕ) : Option (CompletionSystem n) :=
  (s.offChannel.requests[k]?).bind (fun i => (s.offChannel.respond k .granted).map
    (fun t => { s with offChannel := t }.waitForCompletion i .complete (s.awaiting i)))

def perform : CompletionOp n → Option (CompletionSystem n)
  | .offChannel op => (s.offChannel.step valid op).map (s.track op)
  | .waitForCompletion i => some (s.waitForCompletion i .complete [])
  | .beginOperation i => some (s.waitForCompletion i .beginOperation [])
  | .grantAndWait k => s.grantAndWait k
  | .pollWait k => s.pollWait k
  | .cancelWait k =>
    if k < s.waits.length then some { s with waits := s.waits.eraseIdx k } else none

def step (op : CompletionOp n) : Option (CompletionSystem n) :=
  (s.perform valid op).map (fun t => { t with now := t.now + 1 })

def Step (s : CompletionSystem n) (op : CompletionOp n) (t : CompletionSystem n) : Prop :=
  s.step valid op = some t

/-- No future that awaited grants begins an operation next to another. -/
def ResumesIdle (s : CompletionSystem n) (op : CompletionOp n) : Prop :=
  ∀ op', op = .offChannel op' → s.offChannel.ResumesIdle op'

/-- The completions have been waited for at every return so far. -/
def Completed (s : CompletionSystem n) : Prop := ∀ r ∈ s.returns, r.Completed

/-- The watch still is empty when the wait has something to wait for. -/
def WatchEmpty (s : CompletionSystem n) : Prop := s.inProgress = true → s.sent = false

/-- No future begins an operation next to another, no wait is called during an operation
after an earlier one has finished, and a wait that follows a grant follows one that
nobody awaits any more. -/
def Awaitable (s : CompletionSystem n) : CompletionOp n → Prop
  | .offChannel op => s.offChannel.ResumesIdle op
  | .waitForCompletion _ => s.WatchEmpty
  | .beginOperation _ => s.WatchEmpty
  | .grantAndWait k => s.WatchEmpty ∧ ∀ i, s.offChannel.requests[k]? = some i →
      ∀ p ∈ s.offChannel.pending, (p.results i).isSome = true
  | .pollWait _ => True
  | .cancelWait _ => True

theorem resumesIdle_iff (u : OffChannelSystem n) (op : OffChannelOp n) :
    (match op with
      | .poll k => (u.pending[k]?).any (fun p => (p.poll u.requesters).granted) = true →
          u.channelState.offChannelOperationInterface = none
      | _ => True) ↔ u.ResumesIdle op := by
  cases op with
  | poll k =>
    have hc : (u.pending[k]?).any (fun p => (p.poll u.requesters).granted) = true ↔
        u.completes k := by
      rw [Option.any_eq_true]
      rfl
    dsimp only
    rw [hc]
    refine ⟨?_,fun h => h k rfl⟩
    rintro h _ ⟨⟩
    exact h
  | _ => exact iff_of_true trivial (by intro k hk; cases hk)

instance (u : OffChannelSystem n) (op : OffChannelOp n) : Decidable (u.ResumesIdle op) :=
  @decidable_of_iff _ _ (resumesIdle_iff u op) (match op with
    | .poll _ => inferInstanceAs (Decidable (_ → _))
    | .lockChannel _ _ | .unlockChannel _ | .tryBegin _ | .cancel _ | .waitForRequest _
    | .grant _ | .reject _ | .setChannel _ _ | .dropOperation _ => inferInstanceAs (Decidable True))

instance (s : CompletionSystem n) (op : CompletionOp n) : Decidable (s.ResumesIdle op) :=
  match op with
  | .offChannel op => decidable_of_iff (s.offChannel.ResumesIdle op)
      ⟨fun h _ he => CompletionOp.offChannel.inj he ▸ h,fun h => h op rfl⟩
  | .waitForCompletion _ | .beginOperation _ | .grantAndWait _ | .pollWait _ | .cancelWait _ =>
    isTrue (by intro _ he; cases he)

instance (s : CompletionSystem n) : Decidable s.WatchEmpty := inferInstanceAs (Decidable (_ → _))

instance (s : CompletionSystem n) (op : CompletionOp n) : Decidable (s.Awaitable op) :=
  match op with
  | .offChannel _ => inferInstanceAs (Decidable (OffChannelSystem.ResumesIdle _ _))
  | .waitForCompletion _ | .beginOperation _ => inferInstanceAs (Decidable s.WatchEmpty)
  | .grantAndWait _ => inferInstanceAs (Decidable (_ ∧ ∀ _, _))
  | .pollWait _ | .cancelWait _ => inferInstanceAs (Decidable True)

/-- The times belong to the operations alive, of which there is at most one. -/
structure Tracked (s : CompletionSystem n) : Prop where
  exclusive : s.offChannel.Exclusive
  length_live : s.live.length = s.offChannel.live.length

/-- A suspended wait sees the watch change with the operation it was called during. -/
structure Sound (s : CompletionSystem n) : Prop extends s.Tracked where
  waits : ∀ w ∈ s.waits, w.calledAt ≤ s.now ∧ w.granted = [] ∧
    (s.sent = false ∨ ∀ o ∈ s.live, w.calledAt ≤ o.begunAt)
  completed : s.Completed

section Invariant
variable {valid} {s : CompletionSystem n} {t : OffChannelSystem n} {op : OffChannelOp n}
variable {w : CompletionWait n}

theorem tryBegin_live (u : OffChannelSystem n) (i : Fin n) :
    (u.tryBegin i).live = u.live ∨ ∃ o, (u.tryBegin i).live = u.live ++ [o] := by
  unfold OffChannelSystem.tryBegin
  split
  · exact Or.inl rfl
  · split
    · exact Or.inr ⟨_,rfl⟩
    · split
      · exact Or.inr ⟨_,rfl⟩
      · exact Or.inl rfl

theorem tryBegin_step (u : OffChannelSystem n) (i : Fin n) :
    OffChannelSystem.Step (fun _ => true) u (.tryBegin i) (u.tryBegin i) := rfl

theorem tryBegin_resumesIdle (u : OffChannelSystem n) (i : Fin n) :
    u.ResumesIdle (.tryBegin i) := by
  intro k hk
  cases hk

theorem poll_live {u : OffChannelSystem n} {k : ℕ} (he : u.poll k = some t) :
    t.live = u.live ∨ ∃ o, t.live = u.live ++ [o] := by
  unfold OffChannelSystem.poll at he
  split at he
  · cases he
  · rename_i p _
    dsimp only at he
    split at he
    · cases he
      split
      · exact Or.inr ⟨_,rfl⟩
      · exact Or.inl rfl
    · cases he
      exact Or.inl rfl

theorem dropOperation_live {u : OffChannelSystem n} {k : ℕ}
    (he : u.dropOperation valid k = some t) :
    k < u.live.length ∧ t.live = u.live.eraseIdx k := by
  unfold OffChannelSystem.dropOperation at he
  cases ho : u.live[k]? with
  | none => simp only [ho] at he; cases he
  | some o =>
    simp only [ho] at he
    cases he
    exact ⟨(List.getElem?_eq_some_iff.mp ho).1,rfl⟩

theorem respond_live {u : OffChannelSystem n} {k : ℕ} {state : OffChannelRequestState}
    (he : u.respond k state = some t) : t.live = u.live := by
  unfold OffChannelSystem.respond at he
  split at he <;> cases he
  rfl

theorem respond_channelState {u : OffChannelSystem n} {k : ℕ} {state : OffChannelRequestState}
    (he : u.respond k state = some t) : t.channelState = u.channelState := by
  unfold OffChannelSystem.respond at he
  split at he <;> cases he
  rfl

/-- What a step of the off channel system does to the operations alive. -/
def LiveChange (s t : CompletionSystem n) : Prop :=
  (t.live = s.live ∧ t.sent = s.sent) ∨
  (∃ r, t.live = s.live ++ [⟨r,s.now⟩] ∧ t.sent = s.sent) ∨
  (∃ k < s.live.length, t.live = s.live.eraseIdx k ∧ t.sent = true)

theorem track_frame (s : CompletionSystem n) (op : OffChannelOp n) (t : OffChannelSystem n) :
    (s.track op t).offChannel = t ∧ (s.track op t).now = s.now ∧
    (s.track op t).waits = s.waits ∧ (s.track op t).returns = s.returns := by
  cases op <;> exact ⟨rfl,rfl,rfl,rfl⟩

theorem liveChange_of_begun {u : CompletionSystem n} {r : ℕ}
    (hlen : s.live.length = s.offChannel.live.length)
    (hb : t.live = s.offChannel.live ∨ ∃ o, t.live = s.offChannel.live ++ [o])
    (hu : u.live = if s.offChannel.live.length < t.live.length then s.live ++ [⟨r,s.now⟩]
      else s.live) (hsent : u.sent = s.sent) :
    LiveChange s u ∧ u.live.length = t.live.length := by
  rcases hb with hb | ⟨o,hb⟩
  · have hu' : u.live = s.live := by simpa [hb] using hu
    refine ⟨Or.inl ⟨hu',hsent⟩,?_⟩
    rw [hu',hb,hlen]
  · have hu' : u.live = s.live ++ [⟨r,s.now⟩] := by simpa [hb] using hu
    refine ⟨Or.inr (Or.inl ⟨r,hu',hsent⟩),?_⟩
    rw [hu',hb]
    simp [hlen]

theorem liveChange_of_kept {u : CompletionSystem n}
    (hlen : s.live.length = s.offChannel.live.length) (ht : t.live = s.offChannel.live)
    (hu : u.live = s.live) (hsent : u.sent = s.sent) :
    LiveChange s u ∧ u.live.length = t.live.length := by
  refine ⟨Or.inl ⟨hu,hsent⟩,?_⟩
  rw [hu,ht,hlen]

theorem track_change (hlen : s.live.length = s.offChannel.live.length)
    (he : OffChannelSystem.Step valid s.offChannel op t) :
    LiveChange s (s.track op t) ∧ (s.track op t).live.length = t.live.length := by
  unfold OffChannelSystem.Step at he
  cases op with
  | tryBegin i =>
    cases he
    exact liveChange_of_begun hlen (tryBegin_live _ i) rfl rfl
  | poll k => exact liveChange_of_begun hlen (poll_live he) rfl rfl
  | dropOperation k =>
    obtain ⟨hk,ht⟩ := dropOperation_live he
    have hk' : k < s.live.length := by omega
    refine ⟨Or.inr (Or.inr ⟨k,hk',rfl,rfl⟩),?_⟩
    change (s.live.eraseIdx k).length = _
    rw [ht,List.length_eraseIdx_of_lt hk',List.length_eraseIdx_of_lt hk,hlen]
  | lockChannel i channel =>
    cases he
    exact liveChange_of_kept hlen rfl rfl rfl
  | unlockChannel i =>
    cases he
    exact liveChange_of_kept hlen rfl rfl rfl
  | cancel k =>
    simp only [OffChannelSystem.step] at he
    split at he <;> cases he
    exact liveChange_of_kept hlen rfl rfl rfl
  | waitForRequest i =>
    simp only [OffChannelSystem.step] at he
    split at he <;> cases he
    exact liveChange_of_kept hlen rfl rfl rfl
  | grant k => exact liveChange_of_kept hlen (respond_live he) rfl rfl
  | reject k => exact liveChange_of_kept hlen (respond_live he) rfl rfl
  | setChannel k channel =>
    simp only [OffChannelSystem.step] at he
    split at he <;> cases he
    exact liveChange_of_kept hlen rfl rfl rfl

theorem track_tracked (hs : s.Tracked) (he : OffChannelSystem.Step valid s.offChannel op t)
    (hidle : s.offChannel.ResumesIdle op) :
    (s.track op t).Tracked ∧ LiveChange s (s.track op t) := by
  obtain ⟨hoff,_⟩ := track_frame s op t
  obtain ⟨hchange,hlen⟩ := track_change hs.length_live he
  have hex : t.Exclusive := (OffChannelSystem.step_exclusive_iff hs.exclusive he).mpr hidle
  refine ⟨⟨?_,?_⟩,hchange⟩
  · rw [hoff]
    exact hex
  · rw [hoff]
    exact hlen

theorem live_erased (hs : s.Tracked) {u : CompletionSystem n} {k : ℕ} (hk : k < s.live.length)
    (hu : u.live = s.live.eraseIdx k) : u.live = [] := by
  have hone : s.live.length ≤ 1 := by rw [hs.length_live]; exact hs.exclusive.1
  apply List.eq_nil_of_length_eq_zero
  rw [hu,List.length_eraseIdx_of_lt hk]
  omega

theorem track_sound (hs : s.Sound) (he : OffChannelSystem.Step valid s.offChannel op t)
    (hidle : s.offChannel.ResumesIdle op) : (s.track op t).Sound := by
  obtain ⟨_,hnow,hwaits,hreturns⟩ := track_frame s op t
  obtain ⟨htracked,hchange⟩ := track_tracked hs.toTracked he hidle
  refine ⟨htracked,?_,?_⟩
  · intro w hw
    rw [hwaits] at hw
    obtain ⟨hcalled,hgranted,hseen⟩ := hs.waits w hw
    refine ⟨by rw [hnow]; exact hcalled,hgranted,?_⟩
    rcases hchange with ⟨hl,hsent⟩ | ⟨r,hl,hsent⟩ | ⟨k,hk,hl,_⟩
    · rw [hl,hsent]
      exact hseen
    · rw [hl,hsent]
      refine hseen.imp_right (fun h => List.forall_mem_append.mpr ⟨h,?_⟩)
      exact List.forall_mem_singleton.mpr hcalled
    · -- the only operation alive has finished
      right
      rw [live_erased hs.toTracked hk hl]
      intro o ho
      cases ho
  · intro r hr
    rw [hreturns] at hr
    exact hs.completed r hr

theorem respond_tracked {k : ℕ} {state : OffChannelRequestState} (hs : s.Tracked)
    (he : s.offChannel.respond k state = some t) : Tracked { s with offChannel := t } := by
  refine ⟨OffChannelSystem.respond_exclusive hs.exclusive he,?_⟩
  rw [respond_live he]
  exact hs.length_live

theorem live_eq_nil_of_idle (hs : s.Tracked) (hi : s.inProgress = false) : s.live = [] := by
  have hnone : s.offChannel.channelState.offChannelOperationInterface = none := by
    simpa [inProgress,ChannelState.offChannelOperationInProgress] using hi
  apply List.eq_nil_of_length_eq_zero
  rw [hs.length_live,hs.exclusive.live_eq_nil hnone]
  rfl

theorem live_ne_nil_of_inProgress (hs : s.Tracked) (hi : s.inProgress = true) : s.live ≠ [] := by
  intro hnil
  rcases OffChannelSystem.exclusive_iff.mp hs.exclusive with ⟨_,hnone⟩ | ⟨o,hl,_⟩
  · simp [inProgress,ChannelState.offChannelOperationInProgress,hnone] at hi
  · have hlen := hs.length_live
    simp [hnil,hl] at hlen

theorem finish_returns (s : CompletionSystem n) (w : CompletionWait n) :
    (s.finish w).returns = s.returns ++ [s.returned w] := by
  unfold finish
  cases w.purpose with
  | complete => rfl
  | beginOperation => exact (track_frame _ _ _).2.2.2

theorem finish_completed_iff :
    (s.finish w).Completed ↔ s.Completed ∧ (s.returned w).Completed := by
  unfold Completed
  rw [finish_returns]
  simp [or_imp,forall_and]

theorem returned_completed (hs : s.Tracked) (hgranted : w.granted = [])
    (hover : ∀ o ∈ s.live, w.calledAt ≤ o.begunAt) : (s.returned w).Completed := by
  refine ⟨hover,?_,?_⟩
  · intro g hg
    change g ∈ w.granted at hg
    rw [hgranted] at hg
    cases hg
  · intro hfail
    have hi : s.inProgress = true := (Bool.and_eq_true_iff.mp hfail).2
    obtain ⟨o,ho⟩ := List.exists_mem_of_ne_nil _ (live_ne_nil_of_inProgress hs hi)
    exact ⟨o,ho,hover o ho⟩

/-- A wait may return once the operations of before its call are over. -/
theorem finish_sound (hs : s.Sound) (hgranted : w.granted = [])
    (hover : ∀ o ∈ s.live, w.calledAt ≤ o.begunAt) : (s.finish w).Sound := by
  have hreturned := returned_completed hs.toTracked hgranted hover
  have hcompleted := finish_completed_iff.mpr ⟨hs.completed,hreturned⟩
  have hlogged : Sound { s with returns := s.returns ++ [s.returned w] } := by
    refine ⟨⟨hs.exclusive,hs.length_live⟩,hs.waits,?_⟩
    unfold Completed at hcompleted
    rw [finish_returns] at hcompleted
    exact hcompleted
  unfold finish
  cases w.purpose with
  | complete => exact hlogged
  | beginOperation =>
    exact track_sound hlogged (tryBegin_step s.offChannel w.interface)
      (tryBegin_resumesIdle s.offChannel w.interface)

theorem listen_some {w' : CompletionWait n} (h : s.listen w = some w') :
    w'.calledAt = w.calledAt ∧ w'.granted = w.granted := by
  unfold listen at h
  split at h
  · cases h
    exact ⟨rfl,rfl⟩
  · split at h <;> cases h
    exact ⟨rfl,rfl⟩

theorem sent_of_listen (h : s.listen w = none) : s.sent = true := by
  unfold listen at h
  split at h
  · cases h
  · split at h
    · assumption
    · cases h

theorem waitForCompletion_sound (hs : s.Sound) (hempty : s.WatchEmpty) (i : Fin n)
    (purpose : WaitPurpose) : (s.waitForCompletion i purpose []).Sound := by
  unfold waitForCompletion
  dsimp only
  cases hi : s.inProgress with
  | false =>
    refine finish_sound hs rfl ?_
    intro o ho
    rw [live_eq_nil_of_idle hs.toTracked hi] at ho
    cases ho
  | true =>
    have hunsent : s.sent = false := hempty hi
    simp only [if_true]
    cases hl : s.listen ⟨i,purpose,s.now,[],false⟩ with
    | none =>
      rw [sent_of_listen hl] at hunsent
      cases hunsent
    | some w' =>
      obtain ⟨hcalled,hgranted⟩ := listen_some hl
      refine ⟨⟨hs.exclusive,hs.length_live⟩,List.forall_mem_append.mpr ⟨hs.waits,?_⟩,hs.completed⟩
      exact List.forall_mem_singleton.mpr ⟨hcalled.le,hgranted,Or.inl hunsent⟩

theorem Sound.eraseWait (hs : s.Sound) (k : ℕ) :
    Sound { s with waits := s.waits.eraseIdx k } := by
  refine ⟨⟨hs.exclusive,hs.length_live⟩,?_,hs.completed⟩
  intro w hw
  exact hs.waits w (List.mem_of_mem_eraseIdx hw)

theorem pollWait_sound (hs : s.Sound) {k : ℕ} {u : CompletionSystem n}
    (he : s.pollWait k = some u) : u.Sound := by
  unfold pollWait at he
  cases hw : s.waits[k]? with
  | none => simp only [hw] at he; cases he
  | some w =>
    simp only [hw] at he
    cases he
    obtain ⟨hcalled,hgranted,hseen⟩ := hs.waits w (List.mem_of_getElem? hw)
    cases hl : s.listen w with
    | none =>
      have hover : ∀ o ∈ s.live, w.calledAt ≤ o.begunAt := by
        rcases hseen with hunsent | hover
        · rw [sent_of_listen hl] at hunsent
          cases hunsent
        · exact hover
      exact finish_sound (hs.eraseWait k) hgranted hover
    | some w' =>
      obtain ⟨hcalled',hgranted'⟩ := listen_some hl
      refine ⟨⟨hs.exclusive,hs.length_live⟩,?_,hs.completed⟩
      intro v hv
      rcases List.mem_or_eq_of_mem_set hv with hv | hv
      · exact hs.waits v hv
      · rw [hv,hcalled',hgranted']
        exact ⟨hcalled,hgranted,hseen⟩

theorem awaiting_eq_nil {i : Fin n}
    (h : ∀ p ∈ s.offChannel.pending, (p.results i).isSome = true) : s.awaiting i = [] := by
  unfold awaiting
  refine List.filterMap_eq_nil_iff.mpr ?_
  rintro ⟨p,r⟩ hp
  have hsome := h p (List.of_mem_zip hp).1
  simp [Option.isSome_iff_ne_none.mp hsome]

theorem grantAndWait_sound (hs : s.Sound) {k : ℕ} {u : CompletionSystem n}
    (hok : s.Awaitable (.grantAndWait k)) (he : s.grantAndWait k = some u) : u.Sound := by
  obtain ⟨i,hi,he⟩ := Option.bind_eq_some_iff.mp he
  obtain ⟨t,ht,rfl⟩ := Option.map_eq_some_iff.mp he
  rw [awaiting_eq_nil (hok.2 i hi)]
  have hgranted : Sound { s with offChannel := t } :=
    ⟨respond_tracked hs.toTracked ht,hs.waits,hs.completed⟩
  refine waitForCompletion_sound hgranted ?_ i .complete
  intro hp
  refine hok.1 ?_
  simpa only [inProgress,respond_channelState ht] using hp

theorem perform_sound {u : CompletionSystem n} {op : CompletionOp n} (hs : s.Sound)
    (hok : s.Awaitable op) (he : s.perform valid op = some u) : u.Sound := by
  cases op with
  | offChannel op =>
    obtain ⟨t,ht,rfl⟩ := Option.map_eq_some_iff.mp he
    exact track_sound hs ht hok
  | waitForCompletion i =>
    cases he
    exact waitForCompletion_sound hs hok i .complete
  | beginOperation i =>
    cases he
    exact waitForCompletion_sound hs hok i .beginOperation
  | grantAndWait k => exact grantAndWait_sound hs hok he
  | pollWait k => exact pollWait_sound hs he
  | cancelWait k =>
    simp only [perform] at he
    split at he <;> cases he
    exact hs.eraseWait k

theorem step_sound {u : CompletionSystem n} {op : CompletionOp n} (hs : s.Sound)
    (hok : s.Awaitable op) (he : Step valid s op u) : u.Sound := by
  obtain ⟨v,hv,rfl⟩ := Option.map_eq_some_iff.mp he
  have hsound := perform_sound hs hok hv
  refine ⟨⟨hsound.exclusive,hsound.length_live⟩,?_,hsound.completed⟩
  intro w hw
  obtain ⟨hcalled,hrest⟩ := hsound.waits w hw
  exact ⟨hcalled.trans (Nat.le_succ v.now),hrest⟩

theorem new_tracked (channel : ℕ) : (new channel : CompletionSystem n).Tracked :=
  ⟨OffChannelSystem.new_exclusive channel,rfl⟩

theorem new_sound (channel : ℕ) : (new channel : CompletionSystem n).Sound := by
  refine ⟨new_tracked channel,?_,?_⟩
  · intro w hw
    cases hw
  · intro r hr
    cases hr

/-- In a run in which no future begins an operation next to another, no wait is called
during an operation after an earlier one has finished and no wait follows a grant that
somebody awaits, a wait returns only after the operations of before its call and those
it granted, and no begin fails because of an operation of before its call. -/
theorem off_channel_completion_awaited {channel : ℕ} {ops : List (CompletionOp n)}
    (hr : Runs (Guarded Awaitable (Step valid)) (new channel) ops s) : s.Completed := by
  have hsound : s.Sound := by
    refine hr.invariant ?_ (new_sound channel)
    intro s op t hs he
    exact step_sound hs he.1 he.2
  exact hsound.completed

/-- A wait called during the first operation returns after it, and so does a begin. -/
theorem off_channel_completion_first : ∃ s : CompletionSystem 2,
    Runs (Guarded Awaitable (Step (fun _ => true))) (new 1)
      [.offChannel (.tryBegin 0),.waitForCompletion 1,.beginOperation 1,.pollWait 0,
        .offChannel (.dropOperation 0),.pollWait 0,.pollWait 0] s ∧
    s.returns.length = 2 ∧ s.waits = [] ∧ s.Completed := by
  apply Runs.exists_of_execute (Runs.guarded_of_nextGuarded (fun _ _ _ h => h))
    (fun s => s.returns.length = 2 ∧ s.waits = [])
  · decide
  · rintro s hr ⟨hlen,hwaits⟩
    exact ⟨hlen,hwaits,off_channel_completion_awaited hr⟩

/-- What any step does to the operations alive, as long as no future begins one next to
another. -/
structure Changed (s t : CompletionSystem n) : Prop where
  tracked : t.Tracked
  live : LiveChange s t
  now : t.now = s.now

theorem finish_changed (hs : s.Tracked) (w : CompletionWait n) : Changed s (s.finish w) := by
  unfold finish
  cases w.purpose with
  | complete => exact ⟨⟨hs.exclusive,hs.length_live⟩,Or.inl ⟨rfl,rfl⟩,rfl⟩
  | beginOperation =>
    have hlogged : Tracked { s with returns := s.returns ++ [s.returned w] } :=
      ⟨hs.exclusive,hs.length_live⟩
    obtain ⟨htracked,hlive⟩ := track_tracked hlogged (tryBegin_step s.offChannel w.interface)
      (tryBegin_resumesIdle s.offChannel w.interface)
    exact ⟨htracked,hlive,rfl⟩

theorem waitForCompletion_changed (hs : s.Tracked) (i : Fin n) (purpose : WaitPurpose)
    (granted : List ℕ) : Changed s (s.waitForCompletion i purpose granted) := by
  unfold waitForCompletion
  dsimp only
  split
  · split
    · exact finish_changed hs _
    · exact ⟨⟨hs.exclusive,hs.length_live⟩,Or.inl ⟨rfl,rfl⟩,rfl⟩
  · exact finish_changed hs _

theorem perform_changed {u : CompletionSystem n} {op : CompletionOp n} (hs : s.Tracked)
    (hidle : s.ResumesIdle op) (he : s.perform valid op = some u) : Changed s u := by
  cases op with
  | offChannel op =>
    obtain ⟨t,ht,rfl⟩ := Option.map_eq_some_iff.mp he
    obtain ⟨htracked,hlive⟩ := track_tracked hs ht (hidle op rfl)
    exact ⟨htracked,hlive,(track_frame s op t).2.1⟩
  | waitForCompletion i =>
    cases he
    exact waitForCompletion_changed hs i .complete []
  | beginOperation i =>
    cases he
    exact waitForCompletion_changed hs i .beginOperation []
  | grantAndWait k =>
    obtain ⟨i,_,he⟩ := Option.bind_eq_some_iff.mp he
    obtain ⟨t,ht,rfl⟩ := Option.map_eq_some_iff.mp he
    have hc := waitForCompletion_changed (respond_tracked hs ht) i .complete (s.awaiting i)
    exact ⟨hc.tracked,hc.live,hc.now⟩
  | pollWait k =>
    simp only [perform,pollWait] at he
    split at he
    · cases he
    · cases he
      split
      · have hrest : Tracked { s with waits := s.waits.eraseIdx k } :=
          ⟨hs.exclusive,hs.length_live⟩
        have hc := finish_changed hrest
        exact ⟨(hc _).tracked,(hc _).live,(hc _).now⟩
      · exact ⟨⟨hs.exclusive,hs.length_live⟩,Or.inl ⟨rfl,rfl⟩,rfl⟩
  | cancelWait k =>
    simp only [perform] at he
    split at he <;> cases he
    exact ⟨⟨hs.exclusive,hs.length_live⟩,Or.inl ⟨rfl,rfl⟩,rfl⟩

theorem step_changed {u : CompletionSystem n} {op : CompletionOp n} (hs : s.Tracked)
    (hidle : s.ResumesIdle op) (he : Step valid s op u) :
    u.Tracked ∧ LiveChange s u ∧ u.now = s.now + 1 := by
  obtain ⟨v,hv,rfl⟩ := Option.map_eq_some_iff.mp he
  have hc := perform_changed hs hidle hv
  exact ⟨⟨hc.tracked.exclusive,hc.tracked.length_live⟩,hc.live,congrArg (· + 1) hc.now⟩

/-- A wait returns at its call or finds a value in the watch. -/
def ReturnChange (s t : CompletionSystem n) : Prop :=
  t.returns = s.returns ∨
    ∃ r, t.returns = s.returns ++ [r] ∧ (r.wait.calledAt = s.now ∨ s.sent = true)

theorem waitForCompletion_returns (s : CompletionSystem n) (i : Fin n) (purpose : WaitPurpose)
    (granted : List ℕ) : ReturnChange s (s.waitForCompletion i purpose granted) := by
  unfold waitForCompletion
  dsimp only
  split
  · split
    · exact Or.inr ⟨_,finish_returns s _,Or.inl rfl⟩
    · exact Or.inl rfl
  · exact Or.inr ⟨_,finish_returns s _,Or.inl rfl⟩

theorem step_returns {u : CompletionSystem n} {op : CompletionOp n} (he : Step valid s op u) :
    ReturnChange s u := by
  obtain ⟨v,hv,rfl⟩ := Option.map_eq_some_iff.mp he
  change ReturnChange s v
  cases op with
  | offChannel op =>
    obtain ⟨t,_,rfl⟩ := Option.map_eq_some_iff.mp hv
    exact Or.inl (track_frame s op t).2.2.2
  | waitForCompletion i =>
    cases hv
    exact waitForCompletion_returns s i .complete []
  | beginOperation i =>
    cases hv
    exact waitForCompletion_returns s i .beginOperation []
  | grantAndWait k =>
    obtain ⟨i,_,hv⟩ := Option.bind_eq_some_iff.mp hv
    obtain ⟨t,_,rfl⟩ := Option.map_eq_some_iff.mp hv
    exact waitForCompletion_returns { s with offChannel := t } i .complete (s.awaiting i)
  | pollWait k =>
    simp only [perform,pollWait] at hv
    split at hv
    · cases hv
    · cases hv
      split
      · rename_i hl
        exact Or.inr ⟨_,finish_returns _ _,Or.inr (sent_of_listen hl)⟩
      · exact Or.inl rfl
  | cancelWait k =>
    simp only [perform] at hv
    split at hv <;> cases hv
    exact Or.inl rfl

/-- An operation alive at a call began before it. -/
theorem begunAt_lt {channel : ℕ} {ops : List (CompletionOp n)}
    (hr : Runs (Guarded ResumesIdle (Step valid)) (new channel) ops s) :
    s.Tracked ∧ ∀ o ∈ s.live, o.begunAt < s.now := by
  have hnew : ∀ o ∈ (new channel : CompletionSystem n).live, o.begunAt < 0 := by
    intro o ho
    cases ho
  refine Runs.invariant (I := fun s => s.Tracked ∧ ∀ o ∈ s.live, o.begunAt < s.now) ?_ hr
    ⟨new_tracked channel,hnew⟩
  rintro s op t ⟨hs,hbegun⟩ ⟨hidle,he⟩
  obtain ⟨ht,hchange,hnow⟩ := step_changed hs hidle he
  refine ⟨ht,?_⟩
  rw [hnow]
  have hold : ∀ o ∈ s.live, o.begunAt < s.now + 1 :=
    fun o ho => (hbegun o ho).trans (Nat.lt_succ_self _)
  rcases hchange with ⟨hl,_⟩ | ⟨r,hl,_⟩ | ⟨k,hk,hl,_⟩
  · rw [hl]
    exact hold
  · rw [hl]
    exact List.forall_mem_append.mpr ⟨hold,List.forall_mem_singleton.mpr (Nat.lt_succ_self _)⟩
  · rw [live_erased hs hk hl]
    intro o ho
    cases ho

/-- Where no earlier wait of the interface is in front, a call keeps the promise exactly
if the watch is empty during an operation and, with none in progress, none of the
requests just granted is still open. -/
theorem waitForCompletion_completed_iff (hs : s.Tracked) (hbegun : ∀ o ∈ s.live, o.begunAt < s.now)
    (hdone : s.Completed) {i : Fin n} (hfree : s.listenerLocked i = false) (purpose : WaitPurpose)
    (granted : List ℕ) :
    (s.waitForCompletion i purpose granted).Completed ↔
      s.WatchEmpty ∧ (s.inProgress = false → ∀ g ∈ granted, g ∉ s.requested) := by
  unfold waitForCompletion WatchEmpty
  dsimp only
  cases hi : s.inProgress with
  | false =>
    simp only [Bool.false_eq_true,if_false,false_implies,true_and,true_implies]
    rw [finish_completed_iff]
    simp [hdone,CompletionReturn.Completed,returned,live_eq_nil_of_idle hs hi,hi]
  | true =>
    simp only [if_true,true_implies,Bool.true_eq_false,false_implies,and_true]
    cases hsent : s.sent with
    | true =>
      have hlisten : s.listen ⟨i,purpose,s.now,granted,false⟩ = none := by
        simp [listen,hfree,hsent]
      rw [hlisten]
      simp only [finish_completed_iff,Bool.true_eq_false,iff_false]
      rintro ⟨_,hnever,_⟩
      obtain ⟨o,ho⟩ := List.exists_mem_of_ne_nil _ (live_ne_nil_of_inProgress hs hi)
      exact absurd (hnever o ho) (Nat.not_le.mpr (hbegun o ho))
    | false =>
      have hlisten : s.listen ⟨i,purpose,s.now,granted,false⟩ =
          some ⟨i,purpose,s.now,granted,true⟩ := by
        simp [listen,hfree,hsent]
      rw [hlisten]
      exact iff_of_true hdone rfl

/-- After the first operation has finished, waits no longer wait. Interface 1 begins an
operation with the grant of interface 0, whose runner calls the wait before it has begun;
it finishes. During a second operation of interface 1 the wait of interface 0 returns at
once, and its begin fails although nothing else has begun. -/
theorem off_channel_completion_not_awaited : ∃ s : CompletionSystem 2,
    Runs (Step (fun _ => true)) (new 1)
      [.offChannel (.lockChannel 0 6),.beginOperation 1,.offChannel (.waitForRequest 0),
        .grantAndWait 0,.offChannel (.poll 0),.offChannel (.dropOperation 0),
        .offChannel (.unlockChannel 0),.beginOperation 1,.waitForCompletion 0,
        .beginOperation 0] s ∧
    s.returns.map (fun r => (r.wait.interface,r.wait.calledAt,r.live)) =
      [(1,1,[]),(0,3,[]),(1,7,[]),(0,8,[⟨7,7⟩]),(0,9,[⟨7,7⟩])] ∧
    s.returns.map (fun r => (r.wait.granted,r.requested)) =
      [([],[]),([1],[1]),([],[]),([],[]),([],[])] ∧
    s.returns.map CompletionReturn.alreadyInProgress = [false,false,false,false,true] ∧
    s.returns.map (fun r => decide r.Completed) = [true,false,true,false,false] ∧
    ¬ s.Completed := by
  apply Runs.exists_of_execute (fun _ _ _ h => h) (fun s =>
    s.returns.map (fun r => (r.wait.interface,r.wait.calledAt,r.live)) =
      [(1,1,[]),(0,3,[]),(1,7,[]),(0,8,[⟨7,7⟩]),(0,9,[⟨7,7⟩])] ∧
    s.returns.map (fun r => (r.wait.granted,r.requested)) =
      [([],[]),([1],[1]),([],[]),([],[]),([],[])] ∧
    s.returns.map CompletionReturn.alreadyInProgress = [false,false,false,false,true] ∧
    s.returns.map (fun r => decide r.Completed) = [true,false,true,false,false])
  · decide
  · rintro s _ ⟨htimes,hgranted,hfails,hdone⟩
    refine ⟨htimes,hgranted,hfails,hdone,?_⟩
    intro hall
    have hfalse : false ∈ s.returns.map (fun r => decide r.Completed) := by rw [hdone]; decide
    obtain ⟨r,hr,hnot⟩ := List.mem_map.mp hfalse
    exact of_decide_eq_false hnot (hall r hr)

end Invariant
end CompletionSystem
end FerrisOnAir.Lmac
