import FerrisOnAir.Lmac.OffChannelCompletion

/-! # Transmission of MSDUs

`run_msdu_tx` of every station interface over the off channel system. It takes an MSDU,
waits for completion if the operation in progress is one of its own interface, awaits a
transmit buffer and enqueues the frame. An MSDU that does not parse or does not fit is
left, as is one whose connection ends.
-/
namespace FerrisOnAir.Sta
open Lmac
variable {n : ℕ}

/-- Where `run_msdu_tx` is suspended. -/
inductive MsduPhase
  | taking
  | waiting (calledAt : ℕ)
  | allocating
deriving DecidableEq

/-- What was alive when `transmit_edca` took a data frame. -/
structure MsduTransmission (n : ℕ) where
  interface : Fin n
  live : List OperationTimes
  inProgress : Bool
deriving DecidableEq

def MsduTransmission.OnChannel (m : MsduTransmission n) : Prop :=
  m.live = [] ∧ m.inProgress = false

instance (m : MsduTransmission n) : Decidable m.OnChannel := inferInstanceAs (Decidable (_ ∧ _))

structure MsduSystem (n : ℕ) where
  lmac : CompletionSystem n
  phases : Fin n → MsduPhase
  transmissions : List (MsduTransmission n)

inductive MsduOp (n : ℕ)
  | lmac (op : CompletionOp n)
  | txBuf (interface : Fin n)
  | transmit (interface : Fin n)
  | leave (interface : Fin n)

/-- The task goes on in the poll in which its wait returns, and is gone with a wait that
is cancelled. -/
def MsduPhase.resume (s t : CompletionSystem n) : MsduPhase → MsduPhase
  | .waiting c =>
    if (t.returns.drop s.returns.length).any (fun r => decide (r.wait.calledAt = c)) then
      .allocating
    else if t.waits.any (fun w => decide (w.calledAt = c)) then .waiting c
    else .taking
  | .taking => .taking
  | .allocating => .allocating

namespace MsduSystem
variable (valid : ℕ → Bool) (s : MsduSystem n)

def new (channel : ℕ) : MsduSystem n := ⟨.new channel,fun _ => .taking,[]⟩

/-- `StaTxRx::in_off_channel_operation`. -/
def inOffChannelOperation (interface : Fin n) : Bool :=
  decide (s.lmac.offChannel.channelState.offChannelOperationInterface = some interface)

def lmacStep (op : CompletionOp n) : Option (MsduSystem n) :=
  (s.lmac.step valid op).map
    (fun t => { s with lmac := t, phases := fun i => (s.phases i).resume s.lmac t })

/-- From `tx_buf` to the next suspension. -/
def txBuf (i : Fin n) : Option (MsduSystem n) :=
  if s.inOffChannelOperation i then
    { s with phases := Function.update s.phases i (.waiting s.lmac.now) }.lmacStep valid
      (.waitForCompletion i)
  else some { s with phases := Function.update s.phases i .allocating }

def step : MsduOp n → Option (MsduSystem n)
  | .lmac op => s.lmacStep valid op
  | .txBuf i => if s.phases i = .taking then s.txBuf valid i else none
  | .transmit i =>
    if s.phases i = .allocating then
      some { s with
        phases := Function.update s.phases i .taking
        transmissions := s.transmissions ++ [⟨i,s.lmac.live,s.lmac.inProgress⟩] }
    else none
  | .leave i =>
    if s.phases i = .allocating then
      some { s with phases := Function.update s.phases i .taking }
    else none

def Step (s : MsduSystem n) (op : MsduOp n) (t : MsduSystem n) : Prop := s.step valid op = some t

/-- Every MSDU was enqueued on channel. -/
def OnChannel (s : MsduSystem n) : Prop := ∀ m ∈ s.transmissions, m.OnChannel

def Begins (s : CompletionSystem n) (op : CompletionOp n) : Prop :=
  ∃ t, s.step valid op = some t ∧ s.live.length < t.live.length

/-- No operation begins next to another or while an MSDU is on its way, and an MSDU is
taken only with no operation in progress or during the first one, if it is of the own
interface. -/
def Quiet (s : MsduSystem n) : MsduOp n → Prop
  | .lmac op => s.lmac.ResumesIdle op ∧ ((∃ i, s.phases i ≠ .taking) → ¬ Begins valid s.lmac op)
  | .txBuf i => ∀ j, s.lmac.offChannel.channelState.offChannelOperationInterface = some j →
      j = i ∧ s.lmac.sent = false
  | .transmit _ => True
  | .leave _ => True

instance (s : CompletionSystem n) (op : CompletionOp n) : Decidable (Begins valid s op) :=
  decidable_of_iff
    ((s.step valid op).any (fun t => decide (s.live.length < t.live.length)) = true) (by
      rw [Option.any_eq_true]
      simp only [decide_eq_true_eq]
      rfl)

instance (s : MsduSystem n) (op : MsduOp n) : Decidable (s.Quiet valid op) :=
  match op with
  | .lmac _ => inferInstanceAs (Decidable (_ ∧ (_ → ¬ Begins _ _ _)))
  | .txBuf _ => inferInstanceAs (Decidable (∀ _, _))
  | .transmit _ | .leave _ => inferInstanceAs (Decidable True)

/-- What a suspended task knows about the operations alive. -/
def Phased (s : CompletionSystem n) : MsduPhase → Prop
  | .taking => True
  | .waiting c => c < s.now ∧ (s.sent = false ∨ s.live = [])
  | .allocating => s.live = []

structure Sound (s : MsduSystem n) : Prop where
  tracked : s.lmac.Tracked
  phased : ∀ i, Phased s.lmac (s.phases i)
  onChannel : s.OnChannel

section Invariant
variable {valid} {s t : MsduSystem n} {op : MsduOp n}

/-- A wait that was called before this step has found a value in the watch. -/
theorem sent_of_returned {u v : CompletionSystem n} {lop : CompletionOp n} {c : ℕ}
    (he : CompletionSystem.Step valid u lop v) (hc : c < u.now)
    (hr : (v.returns.drop u.returns.length).any (fun r => decide (r.wait.calledAt = c)) = true) :
    u.sent = true := by
  obtain ⟨r,hr,hrc⟩ := List.any_eq_true.mp hr
  have hrc' : r.wait.calledAt = c := of_decide_eq_true hrc
  rcases CompletionSystem.step_returns he with hsame | ⟨r',happ,hwhen⟩
  · rw [hsame,List.drop_length] at hr
    cases hr
  · rw [happ,List.drop_left] at hr
    rw [List.mem_singleton.mp hr] at hrc'
    rcases hwhen with hnow | hsent
    · omega
    · exact hsent

/-- A step during which nothing begins keeps what a task knows. -/
theorem phased_resume {u v : CompletionSystem n} {lop : CompletionOp n} {p : MsduPhase}
    (hu : u.Tracked) (hidle : u.ResumesIdle lop) (he : CompletionSystem.Step valid u lop v)
    (hbegin : p ≠ .taking → ¬ Begins valid u lop) (hp : Phased u p) :
    Phased v (p.resume u v) := by
  obtain ⟨_,hchange,hnow⟩ := CompletionSystem.step_changed hu hidle he
  have hkept : p ≠ .taking → (v.live = u.live ∧ v.sent = u.sent) ∨ v.live = [] := by
    intro hne
    rcases hchange with hsame | ⟨r,hl,_⟩ | ⟨k,hk,hl,_⟩
    · exact Or.inl hsame
    · refine absurd ⟨v,he,?_⟩ (hbegin hne)
      rw [hl]
      simp
    · exact Or.inr (CompletionSystem.live_erased hu hk hl)
  cases p with
  | taking => exact trivial
  | allocating =>
    change u.live = [] at hp
    change v.live = []
    rcases hkept (by simp) with ⟨hl,_⟩ | hl
    · rw [hl,hp]
    · exact hl
  | waiting c =>
    obtain ⟨hc,hseen⟩ := hp
    have hseen' : v.sent = false ∨ v.live = [] := by
      rcases hkept (by simp) with ⟨hl,hsent⟩ | hl
      · rw [hl,hsent]
        exact hseen
      · exact Or.inr hl
    unfold MsduPhase.resume
    dsimp only
    split
    · rename_i hreturned
      have hsent := sent_of_returned he hc hreturned
      have hlive : u.live = [] := by
        rcases hseen with hunsent | hlive
        · rw [hsent] at hunsent
          cases hunsent
        · exact hlive
      change v.live = []
      rcases hkept (by simp) with ⟨hl,_⟩ | hl
      · rw [hl,hlive]
      · exact hl
    · split
      · exact ⟨by omega,hseen'⟩
      · exact trivial

theorem lmacStep_sound {lop : CompletionOp n} (hs : s.Sound) (hidle : s.lmac.ResumesIdle lop)
    (hbegin : (∃ i, s.phases i ≠ .taking) → ¬ Begins valid s.lmac lop)
    (he : s.lmacStep valid lop = some t) : t.Sound := by
  obtain ⟨v,hv,rfl⟩ := Option.map_eq_some_iff.mp he
  obtain ⟨htracked,_⟩ := CompletionSystem.step_changed hs.tracked hidle hv
  refine ⟨htracked,?_,hs.onChannel⟩
  intro i
  exact phased_resume hs.tracked hidle hv (fun h => hbegin ⟨i,h⟩) (hs.phased i)

theorem phased_update {phases : Fin n → MsduPhase} {u : CompletionSystem n}
    (hu : ∀ i, Phased u (phases i)) (i : Fin n) {p : MsduPhase} (hp : Phased u p) (j : Fin n) :
    Phased u (Function.update phases i p j) := by
  by_cases hj : j = i
  · subst hj
    rw [Function.update_self]
    exact hp
  · rw [Function.update_of_ne hj]
    exact hu j

theorem inProgress_of_interface {u : CompletionSystem n} {i : Fin n}
    (hi : u.offChannel.channelState.offChannelOperationInterface = some i) :
    u.inProgress = true := by
  simp [CompletionSystem.inProgress,ChannelState.offChannelOperationInProgress,hi]

/-- The wait of a task suspends while the watch is empty. -/
theorem waitForCompletion_suspends {u v : CompletionSystem n} {i : Fin n}
    (hi : u.inProgress = true) (hsent : u.sent = false)
    (he : CompletionSystem.Step valid u (.waitForCompletion i) v) :
    v.live = u.live ∧ v.sent = false ∧ v.returns = u.returns ∧ v.now = u.now + 1 := by
  obtain ⟨w,hw,rfl⟩ := Option.map_eq_some_iff.mp he
  cases hw
  unfold CompletionSystem.waitForCompletion
  simp only [hi,if_true]
  split
  · rename_i hl
    rw [CompletionSystem.sent_of_listen hl] at hsent
    cases hsent
  · exact ⟨rfl,hsent,rfl,rfl⟩

theorem txBuf_sound {i : Fin n} (hs : s.Sound) (hok : s.Quiet valid (.txBuf i))
    (he : s.txBuf valid i = some t) : t.Sound := by
  unfold txBuf at he
  cases hown : s.inOffChannelOperation i with
  | false =>
    have hnone : s.lmac.offChannel.channelState.offChannelOperationInterface = none := by
      cases hi : s.lmac.offChannel.channelState.offChannelOperationInterface with
      | none => rfl
      | some j =>
        obtain ⟨rfl,_⟩ := hok j hi
        simp [inOffChannelOperation,hi] at hown
    have hidle : s.lmac.inProgress = false := by
      simp [CompletionSystem.inProgress,ChannelState.offChannelOperationInProgress,hnone]
    rw [hown] at he
    cases he
    exact ⟨hs.tracked,phased_update hs.phased i (CompletionSystem.live_eq_nil_of_idle hs.tracked
      hidle),hs.onChannel⟩
  | true =>
    have hi : s.lmac.offChannel.channelState.offChannelOperationInterface = some i :=
      of_decide_eq_true hown
    have hsent : s.lmac.sent = false := (hok i hi).2
    rw [hown,if_pos rfl] at he
    obtain ⟨v,hv,rfl⟩ := Option.map_eq_some_iff.mp he
    have hidle : s.lmac.ResumesIdle (.waitForCompletion i) := by
      intro op hop
      cases hop
    obtain ⟨htracked,_⟩ := CompletionSystem.step_changed hs.tracked hidle hv
    obtain ⟨hlive,hsent',hreturns,hnow⟩ :=
      waitForCompletion_suspends (inProgress_of_interface hi) hsent hv
    refine ⟨htracked,?_,hs.onChannel⟩
    intro j
    dsimp only
    by_cases hj : j = i
    · subst hj
      rw [Function.update_self]
      unfold MsduPhase.resume
      simp only [hreturns,List.drop_length,List.any_nil,Bool.false_eq_true,if_false]
      split
      · exact ⟨by omega,Or.inl hsent'⟩
      · exact trivial
    · rw [Function.update_of_ne hj]
      refine phased_resume hs.tracked hidle hv ?_ (hs.phased j)
      rintro _ ⟨w,hw,hlt⟩
      cases hv.symm.trans hw
      rw [hlive] at hlt
      exact lt_irrefl _ hlt

theorem step_sound (hs : s.Sound) (hok : s.Quiet valid op) (he : Step valid s op t) :
    t.Sound := by
  unfold Step at he
  cases op with
  | lmac lop => exact lmacStep_sound hs hok.1 hok.2 he
  | txBuf i =>
    simp only [step] at he
    split at he
    · exact txBuf_sound hs hok he
    · cases he
  | transmit i =>
    simp only [step] at he
    split at he <;> cases he
    rename_i hphase
    have hlive : s.lmac.live = [] := by
      have h := hs.phased i
      rw [hphase] at h
      exact h
    have hidle : s.lmac.inProgress = false := by
      by_contra hi
      exact CompletionSystem.live_ne_nil_of_inProgress hs.tracked (by simpa using hi) hlive
    refine ⟨hs.tracked,phased_update hs.phased i trivial,?_⟩
    exact List.forall_mem_append.mpr ⟨hs.onChannel,List.forall_mem_singleton.mpr ⟨hlive,hidle⟩⟩
  | leave i =>
    simp only [step] at he
    split at he <;> cases he
    exact ⟨hs.tracked,phased_update hs.phased i trivial,hs.onChannel⟩

theorem new_sound (channel : ℕ) : (new channel : MsduSystem n).Sound := by
  refine ⟨CompletionSystem.new_tracked channel,fun _ => trivial,?_⟩
  intro m hm
  cases hm

/-- In a run in which no operation begins next to another or while an MSDU is on its way,
and every MSDU is taken with no operation in progress or during the first one, of its own
interface, all MSDUs are enqueued with no operation in progress. -/
theorem msdu_on_channel {channel : ℕ} {ops : List (MsduOp n)}
    (hr : Runs (Guarded (Quiet valid) (Step valid)) (new channel) ops s) : s.OnChannel := by
  have hsound : s.Sound := by
    refine hr.invariant ?_ (new_sound channel)
    intro s op t hs he
    exact step_sound hs he.1 he.2
  exact hsound.onChannel

/-- An MSDU taken during the first operation of its own interface is enqueued after it. -/
theorem msdu_after_operation : ∃ s : MsduSystem 2,
    Runs (Guarded (Quiet (fun _ => true)) (Step (fun _ => true))) (new 1)
      [.lmac (.beginOperation 0),.txBuf 0,.lmac (.pollWait 0),
        .lmac (.offChannel (.dropOperation 0)),.lmac (.pollWait 0),.transmit 0] s ∧
    s.transmissions.length = 1 ∧ s.OnChannel := by
  apply Runs.exists_of_execute (Runs.guarded_of_nextGuarded (fun _ _ _ h => h))
    (fun s => s.transmissions.length = 1)
  · decide
  · intro s hr hlen
    exact ⟨hlen,msdu_on_channel hr⟩

/-- Three ways off channel. Interface 0 has granted interface 1 an operation, and an MSDU
is enqueued during it; the next MSDU is taken after it and awaits its buffer while
another is granted; and during an operation of interface 0 itself the wait returns at
once because of the earlier ones. -/
theorem msdu_off_channel : ∃ s : MsduSystem 2,
    Runs (Step (fun _ => true)) (new 1)
      [.lmac (.offChannel (.lockChannel 0 6)),
        .lmac (.beginOperation 1),.lmac (.offChannel (.waitForRequest 0)),.lmac (.grantAndWait 0),
        .lmac (.offChannel (.poll 0)),.txBuf 0,.transmit 0,
        .lmac (.offChannel (.dropOperation 0)),.txBuf 0,
        .lmac (.beginOperation 1),.lmac (.offChannel (.waitForRequest 0)),.lmac (.grantAndWait 0),
        .lmac (.offChannel (.poll 0)),.transmit 0,
        .lmac (.offChannel (.dropOperation 0)),
        .lmac (.beginOperation 0),.lmac (.offChannel (.waitForRequest 0)),
        .lmac (.offChannel (.grant 0)),.lmac (.offChannel (.poll 0)),.txBuf 0,.transmit 0] s ∧
    s.transmissions.map MsduTransmission.interface = [0,0,0] ∧
    s.transmissions.map MsduTransmission.inProgress = [true,true,true] ∧ ¬ s.OnChannel := by
  apply Runs.exists_of_execute (fun _ _ _ h => h) (fun s =>
    s.transmissions.map MsduTransmission.interface = [0,0,0] ∧
    s.transmissions.map MsduTransmission.inProgress = [true,true,true])
  · decide
  · rintro s _ ⟨hinterface,hprogress⟩
    refine ⟨hinterface,hprogress,?_⟩
    intro hall
    have htrue : true ∈ s.transmissions.map MsduTransmission.inProgress := by rw [hprogress]; decide
    obtain ⟨m,hm,hin⟩ := List.mem_map.mp htrue
    rw [(hall m hm).2] at hin
    cases hin

end Invariant
end MsduSystem
end FerrisOnAir.Sta
