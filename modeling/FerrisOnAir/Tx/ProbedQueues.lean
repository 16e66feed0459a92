import FerrisOnAir.Tx.ProbeState
import FerrisOnAir.Tx.QueueRuns

/-! # The probe beside the transmit queues

The build with the feature `tx-probe`. A frame may carry a tag, which `enqueue_frame`,
`try_receive` and `transmit` report to the recorder under the queue's own critical section. A tag
comes from `accept_msdu`, stays with `run_msdu_tx` and goes into at most one queue, or nowhere if
the MSDU is left. The clock does not run backwards.
-/
namespace FerrisOnAir.Tx.Probe
open Rsn QueueSystem
variable {Q : Type*} {N M : ℕ} {C P E : Type*}

/-- The queue of the build with probes: the tag of a frame stands beside its parameters. -/
abbrev ProbedQueue (N : ℕ) (C P E : Type*) := QueueSystem N C (P × Option Tag) E

abbrev ProbedOp (N : ℕ) (C P E : Type*) := QueueOp N C (P × Option Tag) E

/-- The tag an operation puts into a queue. -/
def carried : ProbedOp N C P E → Option Tag
  | .enqueueFrame frame => frame.parameters.2
  | _ => none

namespace ProbedQueue

/-- What a successful operation reports. -/
def event (s : ProbedQueue N C P E) (time : ℕ) : ProbedOp N C P E → Option (Event E)
  | .enqueueFrame frame => frame.parameters.2.map (.queued · time)
  | .tryReceive =>
    match s.queue.tryReceive with
    | .ok (some (_,frame,_)) => frame.parameters.2.map (.picked · time)
    | _ => none
  | .transmitted result _ => s.active.bind fun a => a.2.parameters.2.map (.finished · time result)
  | _ => none

/-- The tag of the frame that was enqueued as a generation. -/
def tagAt (s : ProbedQueue N C P E) (g : ℕ) : Option Tag :=
  s.history.enqueued[g]?.bind fun frame => frame.parameters.2

/-- The result with which the transmission of a generation came to its end. -/
def completionAt (s : ProbedQueue N C P E) (g : ℕ) : Option (Except E UInt8) :=
  (s.history.finished[g]?.bind Prod.snd).map TxReturnData.result

/-- How far a generation is. One whose transmission was aborted stays picked. -/
def phaseAt (s : ProbedQueue N C P E) (g : ℕ) : Phase :=
  if (completionAt s g).isSome then .finished
  else if g < s.handedCount then .picked
  else .queued

end ProbedQueue

/-- The state of the probe, the tags of the tasks that have not enqueued their frame, and the
queues. -/
structure ProbedQueues (Q : Type*) (N M : ℕ) (C P E : Type*) where
  probe : State M E
  held : List Tag
  queues : Q → ProbedQueue N C P E
  clock : ℕ

inductive ProbedQueuesOp (Q : Type*) (N : ℕ) (C P E : Type*)
  | arm (cycle : ℕ) (gateway : Bytes 4)
  | disarm
  | accept (scope : Scope) (sequence : ℕ)
  | leave (tag : Tag)
  | queue (q : Q) (op : ProbedOp N C P E)

namespace ProbedQueues

def new : ProbedQueues Q N M C P E := ⟨.new,[],fun _ => .new,0⟩

/-- Reports an event, if there is one. -/
def report (probe : State M E) : Option (Event E) → State M E
  | some event => { probe with recorder := probe.recorder.record event }
  | none => probe

variable [DecidableEq Q] [NeZero N]

/-- One operation, for which the clock shows a time. -/
def perform (s : ProbedQueues Q N M C P E) (time : ℕ) :
    ProbedQueuesOp Q N C P E → Except Fault (ProbedQueues Q N M C P E)
  | .arm cycle gateway => .ok { s with probe := (s.probe.arm cycle gateway).2, clock := time }
  | .disarm => .ok { s with probe := s.probe.disarm, clock := time }
  | .accept scope sequence =>
    let r := s.probe.acceptInspected scope sequence time
    .ok { s with probe := r.2, held := r.1.toList ++ s.held, clock := time }
  | .leave tag =>
    if tag ∈ s.held then .ok { s with held := s.held.erase tag, clock := time }
    else .error .disabled
  | .queue q op =>
    if ∀ tag ∈ carried op, tag ∈ s.held then
      match (s.queues q).step op with
      | .error e => .error e
      | .ok o => .ok
        { probe := report s.probe ((s.queues q).event time op)
          held := (carried op).elim s.held s.held.erase
          queues := Function.update s.queues q o.system
          clock := time }
    else .error .disabled

def Step (s : ProbedQueues Q N M C P E) (op : ProbedQueuesOp Q N C P E × ℕ)
    (t : ProbedQueues Q N M C P E) : Prop :=
  s.clock ≤ op.2 ∧ s.perform op.2 op.1 = .ok t

end ProbedQueues

/-! ## What an operation does to the generations -/
namespace ProbedQueue
variable [NeZero N] {s : ProbedQueue N C P E} {g : ℕ} {time : ℕ}
  {op : ProbedOp N C P E} {o : Outcome N C (P × Option Tag) E}

/-- The frames and how far each of them is, after an operation. -/
inductive Progress (s : ProbedQueue N C P E) (time : ℕ) (op : ProbedOp N C P E)
    (t : ProbedQueue N C P E) : Prop
  | enqueued (frame : PendingFrame N C (P × Option Tag))
      (hcarried : carried op = frame.parameters.2)
      (hevent : event s time op = frame.parameters.2.map (.queued · time))
      (hframes : t.history.enqueued = s.history.enqueued ++ [frame])
      (hcount : t.handedCount = s.handedCount)
      (hfinished : t.history.finished = s.history.finished)
  | picked (hcarried : carried op = none)
      (hevent : event s time op = (tagAt s s.handedCount).map (.picked · time))
      (hlt : s.handedCount < s.history.enqueued.length)
      (hframes : t.history.enqueued = s.history.enqueued)
      (hcount : t.handedCount = s.handedCount + 1)
      (hfinished : t.history.finished = s.history.finished)
  | finished (data : TxReturnData N C E) (hcarried : carried op = none)
      (hevent : event s time op = (tagAt s s.front).map (.finished · time data.result))
      (hlt : s.front < s.handedCount)
      (hframes : t.history.enqueued = s.history.enqueued)
      (hcount : t.handedCount = s.handedCount)
      (hfinished : t.history.finished = s.history.finished ++ [(s.front,some data)])
  | aborted (hcarried : carried op = none) (hevent : event s time op = none)
      (hframes : t.history.enqueued = s.history.enqueued)
      (hcount : t.handedCount = s.handedCount)
      (hfinished : t.history.finished = s.history.finished ++ [(s.front,none)])
  | unchanged (hcarried : carried op = none) (hevent : event s time op = none)
      (hframes : t.history.enqueued = s.history.enqueued)
      (hcount : t.handedCount = s.handedCount)
      (hfinished : t.history.finished = s.history.finished)

theorem progress_enqueueFrame (hs : s.Valid) {frame : PendingFrame N C (P × Option Tag)}
    (he : s.step (.enqueueFrame frame) = .ok o) :
    Progress s time (.enqueueFrame frame) o.system := by
  obtain ⟨hcap,woken,ho⟩ := enqueueFrame_pushed he
  rw [ho]
  exact .enqueued frame rfl rfl rfl (pushed_handedCount hs hcap) rfl

/-- The runner takes the generation behind those that were handed over. -/
theorem progress_tryReceive (hs : s.Valid) (he : s.step .tryReceive = .ok o) :
    Progress s time .tryReceive o.system := by
  change s.tryReceive = .ok o at he
  unfold QueueSystem.tryReceive at he
  cases ha : s.active with
  | some a =>
    rw [ha] at he
    cases he
  | none =>
    rw [ha] at he
    dsimp only at he
    cases hq : s.queue.tryReceive with
    | error p =>
      rw [hq] at he
      cases he
    | ok r =>
      rw [hq] at he
      cases r with
      | none =>
        cases he
        exact .unchanged rfl (by simp only [event,hq]) rfl rfl rfl
      | some r =>
        obtain ⟨t,frame,queue⟩ := r
        dsimp only at he
        split at he
        · cases he
          obtain ⟨hne,hidx,hgen,hpend,rfl⟩ := TxQueueState.tryReceive_some hq
          have hcap := isEmpty_eq_false hne
          have hlen := hs.len_add_capacity
          have hfl := hs.front_add_len
          have hcount : s.handedCount = s.front := by simp [handedCount,ha]
          have hi : t.index = TxQueueState.slotOf s.front :=
            Fin.ext (hidx.trans hs.frontIndex_eq)
          obtain ⟨frame',hf',hslot⟩ := hs.queued_slot hcount.le (by omega)
          have hframe : frame = frame' := by
            rw [hi] at hpend
            exact TxQueueSlot.pending.inj (hpend.symm.trans hslot)
          subst hframe
          refine .picked rfl ?_ ?_ rfl ?_ rfl
          · simp only [event,hq,tagAt,hcount,hf',Option.bind_some]
          · rw [hcount]
            exact (List.getElem?_eq_some_iff.mp hf').1
          · rw [hcount]
            rfl
        · cases he

theorem progress_transmitted (hs : s.Valid) {result : Except E UInt8} {contents : C}
    (he : s.step (.transmitted result contents) = .ok o) :
    Progress s time (.transmitted result contents) o.system := by
  cases ha : s.active with
  | none =>
    simp only [step,ha] at he
    cases he
  | some a =>
    obtain ⟨t,frame⟩ := a
    simp only [step,ha] at he
    cases he
    obtain ⟨-,-,hgen,hframe⟩ := hs.active_front t frame ha
    refine .finished ⟨result,{ frame.frame with contents := contents },frame.frameLength⟩
      rfl ?_ ?_ rfl (finish_handedCount hs ha) ?_
    · simp only [event,ha,tagAt,hframe,Option.bind_some]
    · rw [handedCount_active ha]
      exact Nat.lt_succ_self _
    · rw [← hgen]
      rfl

theorem progress_abort (hs : s.Valid) (he : s.step .abort = .ok o) :
    Progress s time .abort o.system := by
  cases ha : s.active with
  | none =>
    simp only [step,ha] at he
    cases he
  | some a =>
    obtain ⟨t,frame⟩ := a
    simp only [step,ha] at he
    cases he
    obtain ⟨-,-,hgen,-⟩ := hs.active_front t frame ha
    refine .aborted rfl rfl rfl (finish_handedCount hs ha) ?_
    rw [← hgen]
    rfl

omit [NeZero N] in
/-- Polling and dropping a handle moves no frame. -/
theorem progress_handle {t : ProbedQueue N C P E} (hcarried : carried op = none)
    (hevent : event s time op = none) (hcounter : t.queue.counter = s.queue.counter)
    (hlen : t.queue.len = s.queue.len) (hactive : t.active = s.active)
    (hframes : t.history.enqueued = s.history.enqueued)
    (hfinished : t.history.finished = s.history.finished) : Progress s time op t := by
  refine .unchanged hcarried hevent hframes ?_ hfinished
  rw [handedCount,handedCount,front,front,hcounter,hlen,hactive]

theorem progress_waitForCompletion {w : Waker} (he : s.step (.waitForCompletion g w) = .ok o) :
    Progress s time (.waitForCompletion g w) o.system := by
  simp only [step,QueueSystem.waitForCompletion] at he
  split at he
  · rcases TxQueueState.waitForCompletion_cases s.queue g w with
      ⟨-,hp⟩ | ⟨-,⟨d,-,hp⟩ | ⟨-,hp⟩ | ⟨-,hp⟩⟩
    all_goals
      rw [hp] at he
      cases he
      exact progress_handle rfl rfl rfl rfl rfl rfl rfl
  · cases he

theorem progress_dropHandle (he : s.step (.dropHandle g) = .ok o) :
    Progress s time (.dropHandle g) o.system := by
  simp only [step,QueueSystem.dropHandle] at he
  split at he
  · cases he
    rcases TxQueueState.dropPending_cases s.queue g with ⟨-,hp⟩ | ⟨-,⟨d,-,hp⟩ | ⟨-,hp⟩⟩
    all_goals
      rw [hp]
      exact progress_handle rfl rfl rfl rfl rfl rfl rfl
  · cases he

theorem step_progress (hs : s.Valid) (time : ℕ) (he : s.step op = .ok o) :
    Progress s time op o.system := by
  cases op with
  | enqueueFrame frame => exact progress_enqueueFrame hs he
  | waitQueueNotEmpty w =>
    cases ha : s.active with
    | some a =>
      simp only [step,ha] at he
      cases he
    | none =>
      simp only [step,ha] at he
      cases he
      unfold TxQueueState.waitQueueNotEmpty
      split
      · exact progress_handle rfl rfl rfl rfl ha.symm rfl rfl
      · exact progress_handle rfl rfl rfl rfl ha.symm rfl rfl
  | tryReceive => exact progress_tryReceive hs he
  | transmitted result contents => exact progress_transmitted hs he
  | abort => exact progress_abort hs he
  | waitForCompletion g w => exact progress_waitForCompletion he
  | status g =>
    simp only [step] at he
    split at he
    · cases he
      exact .unchanged rfl rfl rfl rfl rfl
    · cases he
  | dropHandle g => exact progress_dropHandle he

/-! ## How far a generation is after an operation -/

omit [NeZero N] in
theorem tagAt_lt {tag : Tag} (h : tagAt s g = some tag) : g < s.history.enqueued.length := by
  obtain ⟨frame,hframe,-⟩ := Option.bind_eq_some_iff.mp h
  exact (List.getElem?_eq_some_iff.mp hframe).1

theorem completionAt_eq_none (hs : s.Valid) (h : s.front ≤ g) : completionAt s g = none := by
  rw [completionAt,List.getElem?_eq_none (hs.finished_length.trans_le h)]
  rfl

/-- A record behind those of the other generations. -/
theorem completionAt_finished (hs : s.Valid) {t : ProbedQueue N C P E}
    {out : Option (TxReturnData N C E)}
    (h : t.history.finished = s.history.finished ++ [(s.front,out)]) :
    completionAt t g = if g = s.front then out.map TxReturnData.result else completionAt s g := by
  have hlength := hs.finished_length
  unfold completionAt
  rw [h]
  rcases lt_trichotomy g s.front with hlt | heq | hgt
  · rw [if_neg hlt.ne,List.getElem?_append_left (hlt.trans_eq hlength.symm)]
  · rw [if_pos heq,heq,← hlength,List.getElem?_concat_length]
    rfl
  · rw [if_neg hgt.ne',List.getElem?_eq_none (hlength.trans_le hgt.le),List.getElem?_eq_none]
    rw [List.length_append,hlength]
    exact hgt

omit [NeZero N] in
theorem phaseAt_of_lt (h : g < s.handedCount) :
    phaseAt s g = if (completionAt s g).isSome then .finished else .picked := by
  rw [phaseAt,if_pos h]

theorem completionAt_handedCount (hs : s.Valid) : completionAt s s.handedCount = none :=
  completionAt_eq_none hs (Nat.le_add_right _ _)

theorem phaseAt_handedCount (hs : s.Valid) : phaseAt s s.handedCount = .queued := by
  rw [phaseAt,completionAt_handedCount hs,if_neg (by simp),if_neg (lt_irrefl _)]

theorem phaseAt_front (hs : s.Valid) (h : s.front < s.handedCount) :
    phaseAt s s.front = .picked := by
  rw [phaseAt_of_lt h,completionAt_eq_none hs le_rfl]
  rfl

omit [NeZero N] in
theorem tagAt_congr {t : ProbedQueue N C P E} (h : t.history.enqueued = s.history.enqueued) :
    tagAt t g = tagAt s g := by
  rw [tagAt,tagAt,h]

omit [NeZero N] in
theorem completionAt_congr {t : ProbedQueue N C P E} (h : t.history.finished = s.history.finished) :
    completionAt t g = completionAt s g := by
  rw [completionAt,completionAt,h]

omit [NeZero N] in
theorem phaseAt_congr {t : ProbedQueue N C P E} (hcompletion : completionAt t g = completionAt s g)
    (hcount : g < t.handedCount ↔ g < s.handedCount) : phaseAt t g = phaseAt s g := by
  simp only [phaseAt,hcompletion,hcount]

end ProbedQueue

/-! ## A recorder that follows its frames -/
namespace Recorder
variable {r : Recorder M E} {event : Event E} {tag : Tag} {phase : Phase}
  {completion : Option (Except E UInt8)}

/-- The entry of a tag, by its phase and its completion. -/
def Shows (r : Recorder M E) (tag : Tag) (phase : Phase)
    (completion : Option (Except E UInt8)) : Prop :=
  ∃ i : Fin M, i.val < r.used ∧ (r.entries i).tag = tag ∧ (r.entries i).phase = phase ∧
    (r.entries i).completion = completion

/-- No time of an entry is behind the clock. -/
def Past (r : Recorder M E) (clock : ℕ) : Prop :=
  ∀ i : Fin M, i.val < r.used → ∀ φ time, (r.entries i).us φ = some time → time ≤ clock

/-- The next phase of a tag that is not earlier than any recorded time is recorded. -/
theorem record_due (hr : r.Consistent) (hpast : r.Past event.time)
    (htag : event.tag = some tag) (hshows : r.Shows tag phase completion)
    (hrank : phase.rank + 1 = event.phase.rank) :
    ∃ i e, i.val < r.used ∧ (r.entries i).tag = tag ∧ (r.entries i).Follows event e ∧
      r.record event = { r with entries := Function.update r.entries i e } := by
  obtain ⟨i,hi,hitag,hiphase,-⟩ := hshows
  have hdue : r.Due event := by
    cases event with
    | accept cycle sequence time => cases htag
    | queued _ time | picked _ time | finished _ time _ =>
      cases htag
      exact ⟨i,hi,congrArg some hitag.symm,by rw [hiphase]; exact hrank,hpast i hi⟩
  cases record_change hr event with
  | appended cycle sequence time hlt hevent _ _ =>
    rw [hevent] at htag
    cases htag
  | advanced j e hj hjtag hfollows _ hr' =>
    have hjtag : (r.entries j).tag = tag := Option.some.inj (hjtag.symm.trans htag)
    exact ⟨j,e,hj,hjtag,hfollows,hr'⟩
  | counted limitation hnot _ => exact absurd hdue hnot

section Advance
variable {i : Fin M} {e : Entry E}

theorem shows_advance_self (hi : i.val < r.used) (hitag : (r.entries i).tag = tag)
    (hfollows : (r.entries i).Follows event e) :
    ({ r with entries := Function.update r.entries i e } : Recorder M E).Shows tag
      event.phase event.result := by
  refine ⟨i,hi,?_⟩
  simp only [Function.update_self]
  exact ⟨hfollows.tag_eq.trans hitag,hfollows.phase_eq,hfollows.completion_eq⟩

theorem shows_advance_of_ne (hitag : (r.entries i).tag ≠ tag) (hshows : r.Shows tag phase completion) :
    ({ r with entries := Function.update r.entries i e } : Recorder M E).Shows tag phase
      completion := by
  obtain ⟨j,hj,hjtag,hrest⟩ := hshows
  have hne : j ≠ i := by
    rintro rfl
    exact hitag hjtag
  refine ⟨j,hj,?_⟩
  simp only [Function.update_of_ne hne]
  exact ⟨hjtag,hrest⟩

theorem past_advance (hpast : r.Past event.time) (hfollows : (r.entries i).Follows event e) :
    ({ r with entries := Function.update r.entries i e } : Recorder M E).Past event.time := by
  intro j hj φ time htime
  by_cases hji : j = i
  · subst hji
    simp only [Function.update_self] at htime
    rw [hfollows.us_eq] at htime
    split at htime
    · exact (Option.some.inj htime).ge
    · exact hfollows.us_le φ time htime
  · simp only [Function.update_of_ne hji] at htime
    exact hpast j hj φ time htime

end Advance

/-- A new entry behind the others. -/
theorem Shows.append (h : r.Shows tag phase completion) (hlt : r.used < M) (e : Entry E)
    (lastTag : ℕ) (counters : Counters) :
    (⟨Function.update r.entries ⟨r.used,hlt⟩ e,r.used + 1,hlt,lastTag,counters⟩ :
      Recorder M E).Shows tag phase completion := by
  obtain ⟨i,hi,hrest⟩ := h
  have hne : i ≠ ⟨r.used,hlt⟩ := by
    rintro rfl
    exact hi.ne rfl
  refine ⟨i,Nat.lt_succ_of_lt hi,?_⟩
  simp only [Function.update_of_ne hne]
  exact hrest

/-- A submission is refused, which is counted, or gets an entry and a tag of its own. -/
theorem accept_cases (r : Recorder M E) (cycle sequence time : ℕ) :
    (∃ counters, r.accept cycle sequence time = (none,{ r with counters })) ∨
    ∃ hlt : r.used < M, r.accept cycle sequence time = (some ⟨r.lastTag + 1,r.used⟩,
      { entries := Function.update r.entries ⟨r.used,hlt⟩
          ⟨⟨r.lastTag + 1,r.used⟩,cycle,sequence,.accepted,none,time,none,none,none⟩
        used := r.used + 1
        used_le := hlt
        lastTag := r.lastTag + 1
        counters := r.counters }) := by
  unfold accept
  split
  · exact .inl ⟨_,rfl⟩
  · split
    · exact .inl ⟨_,rfl⟩
    · rename_i hfull
      have hlt : r.used < M := lt_of_le_of_ne r.used_le hfull
      unfold checkedSucc
      by_cases hnext : r.lastTag + 1 < u32Size
      · rw [if_pos hnext]
        exact .inr ⟨hlt,rfl⟩
      · rw [if_neg hnext]
        exact .inl ⟨_,rfl⟩

end Recorder

namespace ProbedQueues
open ProbedQueue
variable [DecidableEq Q] [NeZero N] {s t : ProbedQueues Q N M C P E} {q : Q} {tag : Tag}
  {time : ℕ}

/-- Every tag has one place, a task or a generation of a queue, and its entry says how far its
frame is. -/
structure Traced (s : ProbedQueues Q N M C P E) : Prop where
  consistent : s.probe.recorder.Consistent
  past : s.probe.recorder.Past s.clock
  queues_valid : ∀ q, (s.queues q).Valid
  held_nodup : s.held.Nodup
  held_apart : ∀ q g tag, tagAt (s.queues q) g = some tag → tag ∉ s.held
  tagged_once : ∀ q g q' g' tag, tagAt (s.queues q) g = some tag →
    tagAt (s.queues q') g' = some tag → q = q' ∧ g = g'
  held_shown : ∀ tag ∈ s.held, s.probe.recorder.Shows tag .accepted none
  shown : ∀ q g tag, tagAt (s.queues q) g = some tag →
    s.probe.recorder.Shows tag (phaseAt (s.queues q) g) (completionAt (s.queues q) g)

omit [DecidableEq Q] in
theorem traced_new : (new : ProbedQueues Q N M C P E).Traced where
  consistent := Recorder.consistent_new
  past := nofun
  queues_valid _ := QueueSystem.new_valid
  held_nodup := List.nodup_nil
  held_apart := nofun
  tagged_once := nofun
  held_shown := nofun
  shown := nofun

omit [DecidableEq Q] in
/-- Counters and the scope are no part of it, and the clock may advance. -/
theorem Traced.congr (hs : s.Traced) {probe : State M E} (counters : Counters)
    (hrecorder : probe.recorder = { s.probe.recorder with counters }) (htime : s.clock ≤ time) :
    ({ s with probe, clock := time } : ProbedQueues Q N M C P E).Traced := by
  obtain ⟨recorder,scope,generation⟩ := probe
  subst hrecorder
  exact
    { hs with
      consistent := hs.consistent.of_counters counters
      past := fun i hi φ time' h => (hs.past i hi φ time' h).trans htime }

/-- A queue whose frames are as far as before. -/
theorem Traced.of_unchanged (hs : s.Traced) {σ : ProbedQueue N C P E} (hσ : σ.Valid)
    (htags : ∀ g, tagAt σ g = tagAt (s.queues q) g)
    (hphases : ∀ g, phaseAt σ g = phaseAt (s.queues q) g)
    (hcompletions : ∀ g, completionAt σ g = completionAt (s.queues q) g) (htime : s.clock ≤ time) :
    ({ s with queues := Function.update s.queues q σ, clock := time } :
      ProbedQueues Q N M C P E).Traced := by
  have hqueue : ∀ q' g, tagAt (Function.update s.queues q σ q') g = tagAt (s.queues q') g ∧
      phaseAt (Function.update s.queues q σ q') g = phaseAt (s.queues q') g ∧
      completionAt (Function.update s.queues q σ q') g = completionAt (s.queues q') g := by
    intro q' g
    by_cases hq : q' = q
    · subst hq
      rw [Function.update_self]
      exact ⟨htags g,hphases g,hcompletions g⟩
    · rw [Function.update_of_ne hq]
      exact ⟨rfl,rfl,rfl⟩
  refine
    { consistent := hs.consistent
      past := fun i hi φ time' h => (hs.past i hi φ time' h).trans htime
      queues_valid := ?_
      held_nodup := hs.held_nodup
      held_apart := ?_
      tagged_once := ?_
      held_shown := hs.held_shown
      shown := ?_ }
  · intro q'
    dsimp only
    by_cases hq : q' = q
    · subst hq
      rw [Function.update_self]
      exact hσ
    · rw [Function.update_of_ne hq]
      exact hs.queues_valid q'
  · intro q' g tag htag
    rw [(hqueue q' g).1] at htag
    exact hs.held_apart q' g tag htag
  · intro q' g q'' g' tag htag htag'
    rw [(hqueue q' g).1] at htag
    rw [(hqueue q'' g').1] at htag'
    exact hs.tagged_once q' g q'' g' tag htag htag'
  · intro q' g tag htag
    rw [(hqueue q' g).1] at htag
    dsimp only
    rw [(hqueue q' g).2.1,(hqueue q' g).2.2]
    exact hs.shown q' g tag htag

omit [NeZero N] [DecidableEq Q] in
/-- The report about a tag moves the entry of that tag and no other. -/
theorem report_shows {probe : State M E} (hr : probe.recorder.Consistent)
    (hpast : probe.recorder.Past time) {phase : Phase} {event : Event E}
    (htime : event.time = time) (htag : event.tag = some tag)
    (hshows : probe.recorder.Shows tag phase none) (hrank : phase.rank + 1 = event.phase.rank) :
    (report probe (some event)).recorder.Consistent ∧
    (report probe (some event)).recorder.Past time ∧
    (report probe (some event)).recorder.counters = probe.recorder.counters ∧
    (report probe (some event)).recorder.Shows tag event.phase event.result ∧
    ∀ tag', tag' ≠ tag → ∀ phase completion, probe.recorder.Shows tag' phase completion →
      (report probe (some event)).recorder.Shows tag' phase completion := by
  subst htime
  obtain ⟨i,e,hi,hitag,hfollows,hrecord⟩ := Recorder.record_due hr hpast htag hshows hrank
  have hconsistent := Recorder.consistent_change hr (Recorder.record_change hr event)
  dsimp only [report]
  rw [hrecord] at hconsistent ⊢
  refine ⟨hconsistent,Recorder.past_advance hpast hfollows,rfl,
    Recorder.shows_advance_self hi hitag hfollows,?_⟩
  intro tag' hne phase' completion hshows'
  refine Recorder.shows_advance_of_ne ?_ hshows'
  rw [hitag]
  exact hne.symm

omit [DecidableEq Q] in
/-- What the report about the frame of a generation, if it has a tag, does to the recorder. -/
theorem Traced.report_shows (hs : s.Traced) {place : Option Tag} {phase after : Phase}
    {completion : Option (Except E UInt8)} {f : Tag → Event E}
    (hshows : ∀ tag, place = some tag → s.probe.recorder.Shows tag phase none)
    (hf : ∀ tag, (f tag).tag = some tag ∧ (f tag).time = time ∧ (f tag).phase = after ∧
      (f tag).result = completion)
    (hrank : phase.rank + 1 = after.rank) (htime : s.clock ≤ time) :
    (report s.probe (place.map f)).recorder.Consistent ∧
    (report s.probe (place.map f)).recorder.Past time ∧
    (report s.probe (place.map f)).recorder.counters = s.probe.recorder.counters ∧
    (∀ tag, place = some tag →
      (report s.probe (place.map f)).recorder.Shows tag after completion) ∧
    ∀ tag, place ≠ some tag → ∀ phase completion, s.probe.recorder.Shows tag phase completion →
      (report s.probe (place.map f)).recorder.Shows tag phase completion := by
  have hpast : s.probe.recorder.Past time :=
    fun i hi φ time' h => (hs.past i hi φ time' h).trans htime
  cases place with
  | none => exact ⟨hs.consistent,hpast,rfl,nofun,fun _ _ _ _ h => h⟩
  | some tag =>
    obtain ⟨htag,htime',hphase,hresult⟩ := hf tag
    have hrank' : phase.rank + 1 = (f tag).phase.rank := by rw [hphase,hrank]
    obtain ⟨hconsistent,hpast',hcounters,hself,hother⟩ :=
      ProbedQueues.report_shows hs.consistent hpast htime' htag (hshows tag rfl) hrank'
    rw [hphase,hresult] at hself
    refine ⟨hconsistent,hpast',hcounters,?_,?_⟩
    · intro tag' htag'
      cases htag'
      exact hself
    · intro tag' hne
      exact hother tag' fun h => hne (congrArg some h.symm)

/-- One generation of a queue is a phase farther, and its entry with it. -/
theorem Traced.of_moved (hs : s.Traced) {σ : ProbedQueue N C P E} (hσ : σ.Valid) {g₀ : ℕ}
    (phase : Phase) {f : Tag → Event E} {held : List Tag}
    (hother : ∀ g, g ≠ g₀ → tagAt σ g = tagAt (s.queues q) g ∧
      phaseAt σ g = phaseAt (s.queues q) g ∧ completionAt σ g = completionAt (s.queues q) g)
    (hheld : held.Sublist s.held)
    (hplace : ∀ tag, tagAt σ g₀ = some tag → tag ∉ held ∧
      s.probe.recorder.Shows tag phase none ∧
      ∀ q' g, tagAt (s.queues q') g = some tag → q' = q ∧ g = g₀)
    (hf : ∀ tag, (f tag).tag = some tag ∧ (f tag).time = time ∧ (f tag).phase = phaseAt σ g₀ ∧
      (f tag).result = completionAt σ g₀)
    (hrank : phase.rank + 1 = (phaseAt σ g₀).rank) (htime : s.clock ≤ time) :
    (⟨report s.probe ((tagAt σ g₀).map f),held,Function.update s.queues q σ,time⟩ :
      ProbedQueues Q N M C P E).Traced := by
  obtain ⟨hconsistent,hpast,-,hself,hrest⟩ :=
    hs.report_shows (fun tag h => (hplace tag h).2.1) hf hrank htime
  -- A tag of a frame is that of the frame before, unless it is the one that moved.
  have hqueue : ∀ q' g tag, tagAt (Function.update s.queues q σ q') g = some tag →
      (q' = q ∧ g = g₀ ∧ tagAt σ g₀ = some tag) ∨
      (tagAt σ g₀ ≠ some tag ∧ tagAt (s.queues q') g = some tag ∧
        phaseAt (Function.update s.queues q σ q') g = phaseAt (s.queues q') g ∧
        completionAt (Function.update s.queues q σ q') g = completionAt (s.queues q') g) := by
    intro q' g tag htag
    by_cases hq : q' = q
    · subst hq
      rw [Function.update_self] at htag ⊢
      by_cases hg : g = g₀
      · subst hg
        exact .inl ⟨rfl,rfl,htag⟩
      · obtain ⟨hsame,hphase,hcompletion⟩ := hother g hg
        rw [hsame] at htag
        exact .inr ⟨fun h => hg ((hplace tag h).2.2 q' g htag).2,htag,hphase,hcompletion⟩
    · rw [Function.update_of_ne hq] at htag ⊢
      exact .inr ⟨fun h => hq ((hplace tag h).2.2 q' g htag).1,htag,rfl,rfl⟩
  refine
    { consistent := hconsistent
      past := hpast
      queues_valid := ?_
      held_nodup := hs.held_nodup.sublist hheld
      held_apart := ?_
      tagged_once := ?_
      held_shown := ?_
      shown := ?_ }
  · intro q'
    dsimp only
    by_cases hq : q' = q
    · subst hq
      rw [Function.update_self]
      exact hσ
    · rw [Function.update_of_ne hq]
      exact hs.queues_valid q'
  · intro q' g tag htag
    rcases hqueue q' g tag htag with ⟨-,-,hmoved⟩ | ⟨-,hold,-⟩
    · exact (hplace tag hmoved).1
    · exact fun h => hs.held_apart q' g tag hold (hheld.subset h)
  · intro q' g q'' g' tag htag htag'
    rcases hqueue q' g tag htag with ⟨rfl,rfl,hmoved⟩ | ⟨hne,hold,-⟩
    · rcases hqueue q'' g' tag htag' with ⟨rfl,rfl,-⟩ | ⟨hne,-⟩
      · exact ⟨rfl,rfl⟩
      · exact absurd hmoved hne
    · rcases hqueue q'' g' tag htag' with ⟨-,-,hmoved⟩ | ⟨-,hold',-⟩
      · exact absurd hmoved hne
      · exact hs.tagged_once q' g q'' g' tag hold hold'
  · intro tag htag
    refine hrest tag ?_ _ _ (hs.held_shown tag (hheld.subset htag))
    exact fun h => (hplace tag h).1 htag
  · intro q' g tag htag
    rcases hqueue q' g tag htag with ⟨rfl,rfl,hmoved⟩ | ⟨hne,hold,hphase,hcompletion⟩
    · dsimp only
      rw [Function.update_self]
      exact hself tag hmoved
    · dsimp only
      rw [hphase,hcompletion]
      exact hrest tag hne _ _ (hs.shown q' g tag hold)

/-- The new generation stands behind all others. -/
theorem Traced.enqueued (hs : s.Traced) {σ : ProbedQueue N C P E} (hσ : σ.Valid)
    {frame : PendingFrame N C (P × Option Tag)}
    (hheld : ∀ tag, frame.parameters.2 = some tag → tag ∈ s.held)
    (hframes : σ.history.enqueued = (s.queues q).history.enqueued ++ [frame])
    (hcount : σ.handedCount = (s.queues q).handedCount)
    (hfinished : σ.history.finished = (s.queues q).history.finished) (htime : s.clock ≤ time) :
    (⟨report s.probe (frame.parameters.2.map (.queued · time)),
      frame.parameters.2.elim s.held s.held.erase,Function.update s.queues q σ,time⟩ :
      ProbedQueues Q N M C P E).Traced := by
  have hold := hs.queues_valid q
  have hcounter := hold.counter_eq
  have hnew : tagAt σ (s.queues q).history.enqueued.length = frame.parameters.2 := by
    rw [tagAt,hframes,List.getElem?_concat_length]
    rfl
  have hcompletion : completionAt σ (s.queues q).history.enqueued.length = none := by
    have hfront := hold.front_add_len
    rw [completionAt_congr hfinished]
    exact completionAt_eq_none hold (by omega)
  have hphase : phaseAt σ (s.queues q).history.enqueued.length = .queued := by
    have hle := hold.handedCount_le
    rw [phaseAt,hcompletion,hcount,if_neg (by simp),if_neg (by omega)]
  rw [← hnew]
  refine hs.of_moved hσ .accepted ?_ ?_ ?_ ?_ (by rw [hphase]; rfl) htime
  · intro g hg
    have hsame := completionAt_congr (g := g) hfinished
    refine ⟨?_,phaseAt_congr hsame (by rw [hcount]),hsame⟩
    rw [tagAt,tagAt,hframes]
    rcases lt_or_gt_of_ne hg with hlt | hgt
    · rw [List.getElem?_append_left hlt]
    · rw [List.getElem?_eq_none hgt.le,List.getElem?_eq_none]
      rw [List.length_append]
      exact hgt
  · rw [hnew]
    cases frame.parameters.2 with
    | none => exact .refl _
    | some tag => exact List.erase_sublist
  · intro tag htag
    rw [hnew] at htag ⊢
    rw [htag]
    have hmem := hheld tag htag
    refine ⟨hs.held_nodup.not_mem_erase,hs.held_shown tag hmem,?_⟩
    intro q' g hg
    exact absurd hmem (hs.held_apart q' g tag hg)
  · intro tag
    exact ⟨rfl,rfl,hphase.symm,hcompletion.symm⟩

theorem Traced.picked (hs : s.Traced) {σ : ProbedQueue N C P E} (hσ : σ.Valid)
    (hframes : σ.history.enqueued = (s.queues q).history.enqueued)
    (hcount : σ.handedCount = (s.queues q).handedCount + 1)
    (hfinished : σ.history.finished = (s.queues q).history.finished) (htime : s.clock ≤ time) :
    (⟨report s.probe ((tagAt (s.queues q) (s.queues q).handedCount).map (.picked · time)),
      s.held,Function.update s.queues q σ,time⟩ : ProbedQueues Q N M C P E).Traced := by
  have hold := hs.queues_valid q
  have hcompletion := completionAt_handedCount hold
  have hsame : ∀ g, completionAt σ g = completionAt (s.queues q) g :=
    fun g => completionAt_congr hfinished
  have hphase : phaseAt σ (s.queues q).handedCount = .picked := by
    rw [phaseAt,hsame,hcompletion,hcount,if_neg (by simp),if_pos (Nat.lt_succ_self _)]
  rw [← tagAt_congr hframes]
  refine hs.of_moved hσ .queued ?_ (.refl _) ?_ ?_ (by rw [hphase]; rfl) htime
  · intro g hg
    refine ⟨tagAt_congr hframes,phaseAt_congr (hsame g) ?_,hsame g⟩
    rw [hcount]
    omega
  · intro tag htag
    rw [tagAt_congr hframes] at htag
    have hshown := hs.shown q _ tag htag
    rw [phaseAt_handedCount hold,hcompletion] at hshown
    refine ⟨hs.held_apart q _ tag htag,hshown,?_⟩
    intro q' g hg
    exact hs.tagged_once q' g q _ tag hg htag
  · intro tag
    exact ⟨rfl,rfl,hphase.symm,((hsame _).trans hcompletion).symm⟩

theorem Traced.finished (hs : s.Traced) {σ : ProbedQueue N C P E} (hσ : σ.Valid)
    {data : TxReturnData N C E} (hlt : (s.queues q).front < (s.queues q).handedCount)
    (hframes : σ.history.enqueued = (s.queues q).history.enqueued)
    (hcount : σ.handedCount = (s.queues q).handedCount)
    (hfinished : σ.history.finished = (s.queues q).history.finished ++
      [((s.queues q).front,some data)]) (htime : s.clock ≤ time) :
    (⟨report s.probe ((tagAt (s.queues q) (s.queues q).front).map (.finished · time data.result)),
      s.held,Function.update s.queues q σ,time⟩ : ProbedQueues Q N M C P E).Traced := by
  have hold := hs.queues_valid q
  have hcompletion : completionAt σ (s.queues q).front = some data.result := by
    rw [completionAt_finished hold hfinished,if_pos rfl]
    rfl
  have hphase : phaseAt σ (s.queues q).front = .finished := by
    rw [phaseAt,hcompletion]
    rfl
  rw [← tagAt_congr hframes]
  refine hs.of_moved hσ .picked ?_ (.refl _) ?_ ?_ (by rw [hphase]; rfl) htime
  · intro g hg
    have hsame : completionAt σ g = completionAt (s.queues q) g := by
      rw [completionAt_finished hold hfinished,if_neg hg]
    exact ⟨tagAt_congr hframes,phaseAt_congr hsame (by rw [hcount]),hsame⟩
  · intro tag htag
    rw [tagAt_congr hframes] at htag
    have hshown := hs.shown q _ tag htag
    rw [phaseAt_front hold hlt,completionAt_eq_none hold le_rfl] at hshown
    refine ⟨hs.held_apart q _ tag htag,hshown,?_⟩
    intro q' g hg
    exact hs.tagged_once q' g q _ tag hg htag
  · intro tag
    exact ⟨rfl,rfl,hphase.symm,hcompletion.symm⟩

theorem Traced.queue (hs : s.Traced) {op : ProbedOp N C P E} {o : Outcome N C (P × Option Tag) E}
    (hheld : ∀ tag ∈ carried op, tag ∈ s.held) (he : (s.queues q).step op = .ok o)
    (htime : s.clock ≤ time) :
    (⟨report s.probe ((s.queues q).event time op),(carried op).elim s.held s.held.erase,
      Function.update s.queues q o.system,time⟩ : ProbedQueues Q N M C P E).Traced := by
  have hold := hs.queues_valid q
  have hnew := QueueSystem.step_valid hold he
  rcases step_progress hold time he with
    ⟨frame,hcarried,hevent,hframes,hcount,hfinished⟩ |
    ⟨hcarried,hevent,-,hframes,hcount,hfinished⟩ |
    ⟨data,hcarried,hevent,hlt,hframes,hcount,hfinished⟩ |
    ⟨hcarried,hevent,hframes,hcount,hfinished⟩ |
    ⟨hcarried,hevent,hframes,hcount,hfinished⟩
  · rw [hevent,hcarried]
    rw [hcarried] at hheld
    exact hs.enqueued hnew hheld hframes hcount hfinished htime
  · rw [hevent,hcarried]
    exact hs.picked hnew hframes hcount hfinished htime
  · rw [hevent,hcarried]
    exact hs.finished hnew hlt hframes hcount hfinished htime
  · rw [hevent,hcarried]
    have hsame : ∀ g, completionAt o.system g = completionAt (s.queues q) g := by
      intro g
      rw [completionAt_finished hold hfinished]
      split
      · rename_i hg
        rw [hg,completionAt_eq_none hold le_rfl]
        rfl
      · rfl
    exact hs.of_unchanged hnew (fun g => tagAt_congr hframes)
      (fun g => phaseAt_congr (hsame g) (by rw [hcount])) hsame htime
  · rw [hevent,hcarried]
    exact hs.of_unchanged hnew (fun g => tagAt_congr hframes)
      (fun g => phaseAt_congr (completionAt_congr hfinished) (by rw [hcount]))
      (fun g => completionAt_congr hfinished) htime

omit [DecidableEq Q] in
/-- A tag that was just given out has no place yet. -/
theorem Traced.not_shown_new (hs : s.Traced) {phase : Phase}
    {completion : Option (Except E UInt8)} :
    ¬ s.probe.recorder.Shows ⟨s.probe.recorder.lastTag + 1,s.probe.recorder.used⟩ phase
      completion := by
  rintro ⟨i,hi,htag,-⟩
  have hslot := hs.consistent.slot_eq i hi
  rw [htag] at hslot
  exact hi.ne hslot.symm

omit [DecidableEq Q] in
/-- The task that submitted a frame gets the tag of the new entry, if there is one. -/
theorem Traced.accepted (hs : s.Traced) {cycle sequence : ℕ} (scope : Option Scope)
    (generation : ℕ) (htime : s.clock ≤ time) :
    ({ s with
      probe := ⟨(s.probe.recorder.accept cycle sequence time).2,scope,generation⟩
      held := (s.probe.recorder.accept cycle sequence time).1.toList ++ s.held
      clock := time } : ProbedQueues Q N M C P E).Traced := by
  have hchange : (s.probe.recorder.accept cycle sequence time).2.Consistent :=
    Recorder.consistent_change hs.consistent
      (Recorder.record_change hs.consistent (.accept cycle sequence time))
  rcases Recorder.accept_cases s.probe.recorder cycle sequence time with
    ⟨counters,heq⟩ | ⟨hlt,heq⟩
  · rw [heq]
    exact hs.congr _ rfl htime
  · rw [heq] at hchange ⊢
    refine
      { consistent := hchange
        past := ?_
        queues_valid := hs.queues_valid
        held_nodup := List.nodup_cons.mpr ⟨?_,hs.held_nodup⟩
        held_apart := ?_
        tagged_once := hs.tagged_once
        held_shown := ?_
        shown := fun q g tag htag => (hs.shown q g tag htag).append hlt _ _ _ }
    · intro i hi φ time' h
      by_cases hnew : i = ⟨s.probe.recorder.used,hlt⟩
      · simp only [hnew,Function.update_self] at h
        cases φ with
        | accepted => exact (Option.some.inj h).ge
        | queued | picked | finished => cases h
      · have hold : i.val < s.probe.recorder.used := by
          have hval : i.val ≠ s.probe.recorder.used := fun h => hnew (Fin.ext h)
          have hle : i.val < s.probe.recorder.used + 1 := hi
          omega
        simp only [Function.update_of_ne hnew] at h
        exact (hs.past i hold φ time' h).trans htime
    · exact fun h => hs.not_shown_new (hs.held_shown _ h)
    · intro q g tag htag hmem
      rcases List.mem_cons.mp hmem with rfl | hmem
      · exact hs.not_shown_new (hs.shown q g _ htag)
      · exact hs.held_apart q g tag htag hmem
    · intro tag hmem
      rcases List.mem_cons.mp hmem with rfl | hmem
      · refine ⟨⟨s.probe.recorder.used,hlt⟩,Nat.lt_succ_self _,?_⟩
        simp only [Function.update_self]
        exact ⟨trivial,trivial,trivial⟩
      · exact (hs.held_shown tag hmem).append hlt _ _ _

theorem traced_step {op : ProbedQueuesOp Q N C P E × ℕ} (hs : s.Traced) (h : Step s op t) :
    t.Traced := by
  obtain ⟨op,time⟩ := op
  obtain ⟨htime,h⟩ := h
  cases op with
  | arm cycle gateway =>
    cases h
    rcases State.arm_cases s.probe cycle gateway with heq | heq
    · exact hs.congr _ (by rw [heq]; rfl) htime
    · exact hs.congr s.probe.recorder.counters (by rw [heq]) htime
  | disarm =>
    cases h
    exact hs.congr s.probe.recorder.counters rfl htime
  | accept scope sequence =>
    obtain rfl := Except.ok.inj h
    dsimp only
    unfold State.acceptInspected
    by_cases hscope : s.probe.scope ≠ some scope
    · rw [if_pos hscope]
      exact hs.congr _ rfl htime
    · rw [if_neg hscope]
      exact hs.accepted _ _ htime
  | leave tag =>
    dsimp only [perform] at h
    split at h
    · cases h
      exact
        { hs with
          past := fun i hi φ time' h => (hs.past i hi φ time' h).trans htime
          held_nodup := hs.held_nodup.erase tag
          held_apart := fun q g tag' htag' h => hs.held_apart q g tag' htag' (List.mem_of_mem_erase h)
          held_shown := fun tag' h => hs.held_shown tag' (List.mem_of_mem_erase h) }
    · cases h
  | queue q op =>
    dsimp only [perform] at h
    split at h
    · rename_i hheld
      cases he : (s.queues q).step op with
      | error e =>
        rw [he] at h
        cases h
      | ok o =>
        rw [he] at h
        cases h
        exact hs.queue hheld he htime
    · cases h

def next (s : ProbedQueues Q N M C P E) (op : ProbedQueuesOp Q N C P E × ℕ) :
    Option (ProbedQueues Q N M C P E) :=
  if s.clock ≤ op.2 then (s.perform op.2 op.1).toOption else none

theorem step_of_next {op : ProbedQueuesOp Q N C P E × ℕ} (h : s.next op = some t) :
    Step s op t := by
  unfold next at h
  split at h
  · rename_i htime
    exact ⟨htime,ok_of_toOption h⟩
  · cases h

theorem traced_of_runs {ops : List (ProbedQueuesOp Q N C P E × ℕ)} (hr : Runs Step new ops s) :
    s.Traced :=
  hr.invariant (fun _ _ _ => traced_step) traced_new

/-! ## No report is lost -/

omit [DecidableEq Q] in
/-- A report of a queue names a tag whose entry is one phase behind. -/
theorem Traced.event_due (hs : s.Traced) {op : ProbedOp N C P E}
    {o : Outcome N C (P × Option Tag) E} {event : Event E}
    (hheld : ∀ tag ∈ carried op, tag ∈ s.held) (he : (s.queues q).step op = .ok o)
    (hevent : (s.queues q).event time op = some event) :
    ∃ tag phase, event.tag = some tag ∧ event.time = time ∧
      s.probe.recorder.Shows tag phase none ∧ phase.rank + 1 = event.phase.rank := by
  have hold := hs.queues_valid q
  rcases step_progress hold time he with
    ⟨frame,hcarried,hreport,-,-,-⟩ | ⟨-,hreport,-,-,-,-⟩ | ⟨data,-,hreport,hlt,-,-,-⟩ |
    ⟨-,hreport,-,-,-⟩ | ⟨-,hreport,-,-,-⟩
  · rw [hreport] at hevent
    obtain ⟨tag,htag,rfl⟩ := Option.map_eq_some_iff.mp hevent
    rw [htag] at hcarried
    exact ⟨tag,.accepted,rfl,rfl,hs.held_shown tag (hheld tag hcarried),rfl⟩
  · rw [hreport] at hevent
    obtain ⟨tag,htag,rfl⟩ := Option.map_eq_some_iff.mp hevent
    have hshown := hs.shown q _ tag htag
    rw [phaseAt_handedCount hold,completionAt_handedCount hold] at hshown
    exact ⟨tag,.queued,rfl,rfl,hshown,rfl⟩
  · rw [hreport] at hevent
    obtain ⟨tag,htag,rfl⟩ := Option.map_eq_some_iff.mp hevent
    have hshown := hs.shown q _ tag htag
    rw [phaseAt_front hold hlt,completionAt_eq_none hold le_rfl] at hshown
    exact ⟨tag,.picked,rfl,rfl,hshown,rfl⟩
  · rw [hreport] at hevent
    cases hevent
  · rw [hreport] at hevent
    cases hevent

/-- The report of a step of a queue is written into the entry of its tag. -/
theorem Traced.queue_recorded (hs : s.Traced) {op : ProbedOp N C P E}
    (h : Step s (.queue q op,time) t) :
    t.probe.recorder.counters = s.probe.recorder.counters ∧
    s.probe.recorder.Kept t.probe.recorder ∧
    ∀ event tag, (s.queues q).event time op = some event → event.tag = some tag →
      ∃ i : Fin M, i.val < t.probe.recorder.used ∧ (t.probe.recorder.entries i).tag = tag ∧
        (t.probe.recorder.entries i).us event.phase = some time := by
  obtain ⟨htime,h⟩ := h
  dsimp only [perform] at h
  split at h
  · rename_i hheld
    cases he : (s.queues q).step op with
    | error e =>
      rw [he] at h
      cases h
    | ok o =>
      rw [he] at h
      cases h
      dsimp only
      cases hevent : (s.queues q).event time op with
      | none =>
        refine ⟨rfl,.refl _,?_⟩
        intro event tag hnone
        cases hnone
      | some event =>
        obtain ⟨tag,phase,htag,heventTime,hshows,hrank⟩ := hs.event_due hheld he hevent
        have hpast : s.probe.recorder.Past event.time := by
          rw [heventTime]
          exact fun i hi φ time' h => (hs.past i hi φ time' h).trans htime
        have hchange := Recorder.record_change hs.consistent event
        have hkept := Recorder.kept_change hs.consistent hchange
        obtain ⟨i,e,hi,hitag,hfollows,hrecord⟩ :=
          Recorder.record_due hs.consistent hpast htag hshows hrank
        dsimp only [report]
        rw [hrecord] at hkept ⊢
        refine ⟨rfl,hkept,?_⟩
        intro event' tag' hevent' htag'
        cases hevent'
        cases htag.symm.trans htag'
        refine ⟨i,hi,?_⟩
        simp only [Function.update_self]
        refine ⟨hfollows.tag_eq.trans hitag,?_⟩
        rw [hfollows.us_eq,if_pos rfl,heventTime]
  · cases h

theorem kept_step {op : ProbedQueuesOp Q N C P E × ℕ} (hs : s.Traced) (h : Step s op t) :
    s.probe.recorder.Kept t.probe.recorder := by
  obtain ⟨op,time⟩ := op
  cases op with
  | queue q op => exact (hs.queue_recorded h).2.1
  | arm cycle gateway =>
    obtain ⟨-,h⟩ := h
    obtain rfl := Except.ok.inj h
    exact State.kept_perform hs.consistent (.arm cycle gateway)
  | disarm =>
    obtain ⟨-,h⟩ := h
    obtain rfl := Except.ok.inj h
    exact .refl _
  | accept scope sequence =>
    obtain ⟨-,h⟩ := h
    obtain rfl := Except.ok.inj h
    exact State.kept_perform hs.consistent (.accept scope sequence time)
  | leave tag =>
    obtain ⟨-,h⟩ := h
    dsimp only [perform] at h
    split at h
    · cases h
      exact .refl _
    · cases h

theorem kept_of_runs {ops : List (ProbedQueuesOp Q N C P E × ℕ)} (hs : s.Traced)
    (hr : Runs Step s ops t) : s.probe.recorder.Kept t.probe.recorder := by
  induction hr with
  | refl => exact .refl _
  | step h hr ih => exact (kept_step hs h).trans (ih (traced_step hs h))

/-- In every run the entry of a frame has the phase and the result of the frame. No queue makes
the recorder count an invalid event, and what it reports at a time is kept with that time. -/
theorem frames_recorded {ops : List (ProbedQueuesOp Q N C P E × ℕ)} (hr : Runs Step new ops s) :
    (∀ tag ∈ s.held, s.probe.recorder.Shows tag .accepted none) ∧
    (∀ q g tag, tagAt (s.queues q) g = some tag →
      s.probe.recorder.Shows tag (phaseAt (s.queues q) g) (completionAt (s.queues q) g) ∧
      tag ∉ s.held ∧ ∀ q' g', tagAt (s.queues q') g' = some tag → q' = q ∧ g' = g) ∧
    ∀ q op time t, Step s (.queue q op,time) t →
      t.probe.recorder.counters = s.probe.recorder.counters ∧
      ∀ event tag, (s.queues q).event time op = some event → event.tag = some tag →
        ∀ ops' u, Runs Step t ops' u → ∃ i : Fin M, i.val < u.probe.recorder.used ∧
          (u.probe.recorder.entries i).tag = tag ∧
          (u.probe.recorder.entries i).us event.phase = some time := by
  have hs := traced_of_runs hr
  refine ⟨hs.held_shown,?_,?_⟩
  · intro q g tag htag
    refine ⟨hs.shown q g tag htag,hs.held_apart q g tag htag,?_⟩
    intro q' g' htag'
    exact hs.tagged_once q' g' q g tag htag' htag
  · intro q op time t h
    obtain ⟨hcounters,-,hrecorded⟩ := hs.queue_recorded h
    refine ⟨hcounters,?_⟩
    intro event tag hevent htag ops' u hr'
    obtain ⟨i,hi,hitag,htime⟩ := hrecorded event tag hevent htag
    have hkept := kept_of_runs (traced_step hs h) hr'
    have hextends := hkept.extends_entry i hi
    exact ⟨i,hi.trans_le hkept.used_le_used,hextends.tag_eq.trans hitag,
      hextends.us_eq _ _ htime⟩

/-- A frame on its way through the queue of one buffer. -/
theorem frames_recorded_finished : ∃ s : ProbedQueues (Fin 4) 1 2 Unit Unit Unit,
    tagAt (s.queues 2) 0 = some ⟨1,0⟩ ∧
      s.probe.recorder.Shows ⟨1,0⟩ .finished (some (.ok 3)) := by
  have hr : ∃ s : ProbedQueues (Fin 4) 1 2 Unit Unit Unit, Runs Step new
      [(.arm 1 (fun _ => 10),4),(.accept ⟨1,fun _ => 10,1⟩ 8,5),
        (.queue 2 (.enqueueFrame ⟨⟨0,()⟩,100,((),some ⟨1,0⟩),0,.retryUntil 7⟩),5),
        (.queue 2 .tryReceive,9),(.queue 2 (.transmitted (.ok 3) ()),12)] s ∧
      tagAt (s.queues 2) 0 = some ⟨1,0⟩ ∧ phaseAt (s.queues 2) 0 = .finished ∧
      completionAt (s.queues 2) 0 = some (.ok 3) :=
    ⟨_,Runs.of_execute (fun _ _ _ => step_of_next) rfl,rfl,rfl,rfl⟩
  obtain ⟨s,hr,htag,hphase,hcompletion⟩ := hr
  have hshown := ((frames_recorded hr).2.1 2 0 ⟨1,0⟩ htag).1
  rw [hphase,hcompletion] at hshown
  exact ⟨s,htag,hshown⟩

end ProbedQueues
end FerrisOnAir.Tx.Probe
