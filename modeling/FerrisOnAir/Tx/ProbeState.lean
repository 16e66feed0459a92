import FerrisOnAir.Tx.Probe
import FerrisOnAir.Tx.GatewayEcho

/-! # The scope of the probe

The static state of `foa/src/tx_probe.rs`. `accept_msdu` reads the scope, classifies the frame
outside of the critical section, and records it if the scope is still the same. Anything can
happen in between.
-/
namespace FerrisOnAir.Tx.Probe
open Rsn
variable {N : ℕ} {E : Type*}

structure Scope where
  cycle : ℕ
  gateway : Bytes 4
  generation : ℕ
deriving DecidableEq

structure State (N : ℕ) (E : Type*) where
  recorder : Recorder N E
  scope : Option Scope
  generation : ℕ

/-- The range of `u64`. -/
def u64Size : ℕ := 2 ^ 64

namespace State
variable (s : State N E)

def new : State N E := ⟨.new,none,0⟩

def arm (cycle : ℕ) (gateway : Bytes 4) : Bool × State N E :=
  match checkedSucc u64Size s.generation with
  | none => (false,{ s with recorder := s.recorder.invalid, scope := none })
  | some next =>
    if cycle = 0 then (false,{ s with recorder := s.recorder.invalid, scope := none })
    else (true,{ s with generation := next, scope := some ⟨cycle,gateway,next⟩ })

def disarm : State N E := { s with scope := none }

/-- `accept_msdu` up to the second critical section. -/
def inspect (ethernet : List UInt8) : Option (Scope × ℕ) :=
  s.scope.bind fun scope =>
    (gatewayEchoSequence ethernet scope.gateway).result.toOption.join.map (scope,·)

/-- The second critical section of `accept_msdu`. -/
def acceptInspected (scope : Scope) (sequence time : ℕ) : Option Tag × State N E :=
  if s.scope ≠ some scope then
    (none,{ s with recorder := { s.recorder with counters :=
      { s.recorder.counters with
        scopeChanges := saturatingSucc s.recorder.counters.scopeChanges } } })
  else
    let (tag,recorder) := s.recorder.accept scope.cycle sequence time
    (tag,{ s with recorder })

end State

inductive Op (E : Type*)
  | arm (cycle : ℕ) (gateway : Bytes 4)
  | disarm
  | accept (scope : Scope) (sequence time : ℕ)
  | queued (tag : Tag) (time : ℕ)
  | picked (tag : Tag) (time : ℕ)
  | finished (tag : Tag) (time : ℕ) (result : Except E UInt8)

/-- The operation leaves the scope alone. -/
def Op.KeepsScope : Op E → Prop
  | arm _ _ => False
  | disarm => False
  | _ => True

namespace State

def perform (s : State N E) : Op E → State N E
  | .arm cycle gateway => (s.arm cycle gateway).2
  | .disarm => s.disarm
  | .accept scope sequence time => (s.acceptInspected scope sequence time).2
  | .queued tag time => { s with recorder := s.recorder.queued tag time }
  | .picked tag time => { s with recorder := s.recorder.picked tag time }
  | .finished tag time result => { s with recorder := s.recorder.finished tag time result }

def Step (s : State N E) (op : Op E) (t : State N E) : Prop := t = s.perform op

/-- The recorder is in order, and the scope in force has the last generation. -/
structure Valid (s : State N E) : Prop where
  consistent : s.recorder.Consistent
  current : ∀ scope, s.scope = some scope → scope.generation = s.generation

variable {s t : State N E} {op : Op E} {ops : List (Op E)} {scope : Scope}

theorem valid_new : (new : State N E).Valid := ⟨Recorder.consistent_new,nofun⟩

theorem arm_cases (s : State N E) (cycle : ℕ) (gateway : Bytes 4) :
    (s.arm cycle gateway).2 = { s with recorder := s.recorder.invalid, scope := none } ∨
    (s.arm cycle gateway).2 = { s with
      generation := s.generation + 1
      scope := some ⟨cycle,gateway,s.generation + 1⟩ } := by
  unfold arm checkedSucc
  by_cases hnext : s.generation + 1 < u64Size
  · rw [if_pos hnext]
    dsimp only
    by_cases hcycle : cycle = 0
    · rw [if_pos hcycle]
      exact .inl rfl
    · rw [if_neg hcycle]
      exact .inr rfl
  · rw [if_neg hnext]
    exact .inl rfl

/-- Only `arm` and `disarm` change the scope. -/
theorem perform_scope (s : State N E) (hop : op.KeepsScope) :
    (s.perform op).scope = s.scope ∧ (s.perform op).generation = s.generation := by
  cases op with
  | arm cycle gateway => exact hop.elim
  | disarm => exact hop.elim
  | accept scope sequence time =>
    rw [perform,acceptInspected]
    by_cases h : s.scope ≠ some scope
    · rw [if_pos h]
      exact ⟨rfl,rfl⟩
    · rw [if_neg h]
      exact ⟨rfl,rfl⟩
  | queued tag time => exact ⟨rfl,rfl⟩
  | picked tag time => exact ⟨rfl,rfl⟩
  | finished tag time result => exact ⟨rfl,rfl⟩

/-- A scope in force after `arm` or `disarm` is a new one. -/
theorem perform_generation (s : State N E) (hop : ¬ op.KeepsScope) :
    s.generation ≤ (s.perform op).generation ∧
      ∀ scope, (s.perform op).scope = some scope →
        scope.generation = (s.perform op).generation ∧ s.generation < scope.generation := by
  cases op with
  | arm cycle gateway =>
    rw [perform]
    rcases arm_cases s cycle gateway with h | h
    · rw [h]
      exact ⟨le_rfl,nofun⟩
    · rw [h]
      refine ⟨Nat.le_succ _,?_⟩
      rintro scope ⟨⟩
      exact ⟨rfl,Nat.lt_succ_self _⟩
  | disarm => exact ⟨le_rfl,nofun⟩
  | accept scope sequence time => exact absurd trivial hop
  | queued tag time => exact absurd trivial hop
  | picked tag time => exact absurd trivial hop
  | finished tag time result => exact absurd trivial hop

theorem consistent_perform (hs : s.recorder.Consistent) (op : Op E) :
    (s.perform op).recorder.Consistent := by
  have hrecord : ∀ event, (s.recorder.record event).Consistent := by
    intro event
    exact Recorder.consistent_change hs (Recorder.record_change hs event)
  cases op with
  | arm cycle gateway =>
    rw [perform]
    rcases arm_cases s cycle gateway with h | h
    · rw [h]
      exact hs.of_counters _
    · rw [h]
      exact hs
  | disarm => exact hs
  | accept scope sequence time =>
    rw [perform,acceptInspected]
    by_cases h : s.scope ≠ some scope
    · rw [if_pos h]
      exact hs.of_counters _
    · rw [if_neg h]
      exact hrecord (.accept scope.cycle sequence time)
  | queued tag time => exact hrecord (.queued tag time)
  | picked tag time => exact hrecord (.picked tag time)
  | finished tag time result => exact hrecord (.finished tag time result)

theorem valid_step (hs : s.Valid) (h : Step s op t) : t.Valid := by
  rw [Step] at h
  rw [h]
  refine ⟨consistent_perform hs.consistent op,?_⟩
  intro scope hscope
  by_cases hop : op.KeepsScope
  · obtain ⟨hsame,hgeneration⟩ := perform_scope s hop
    rw [hgeneration]
    exact hs.current scope (hsame.symm.trans hscope)
  · exact ((perform_generation s hop).2 scope hscope).1

theorem valid_of_runs (hr : Runs Step new ops s) : s.Valid :=
  hr.invariant (fun _ _ _ => valid_step) valid_new

theorem kept_perform (hs : s.recorder.Consistent) (op : Op E) :
    s.recorder.Kept (s.perform op).recorder := by
  have hrecord : ∀ event, s.recorder.Kept (s.recorder.record event) := by
    intro event
    exact Recorder.kept_change hs (Recorder.record_change hs event)
  have hcounters : ∀ counters, s.recorder.Kept { s.recorder with counters } := by
    intro counters
    exact ⟨le_rfl,fun _ _ => .refl _⟩
  cases op with
  | arm cycle gateway =>
    rw [perform]
    rcases arm_cases s cycle gateway with h | h
    · rw [h]
      exact hcounters _
    · rw [h]
      exact .refl _
  | disarm => exact .refl _
  | accept scope sequence time =>
    rw [perform,acceptInspected]
    by_cases h : s.scope ≠ some scope
    · rw [if_pos h]
      exact hcounters _
    · rw [if_neg h]
      exact hrecord (.accept scope.cycle sequence time)
  | queued tag time => exact hrecord (.queued tag time)
  | picked tag time => exact hrecord (.picked tag time)
  | finished tag time result => exact hrecord (.finished tag time result)

/-- Neither arming nor disarming takes a record back. -/
theorem kept_of_runs (hs : s.Valid) (hr : Runs Step s ops t) : s.recorder.Kept t.recorder := by
  induction hr with
  | refl => exact .refl _
  | @step s u t op ops h hr ih =>
    have hkept := kept_perform hs.consistent op
    rw [← h] at hkept
    exact hkept.trans (ih (valid_step hs h))

/-- All scopes from here on are newer than a generation. -/
def Past (generation : ℕ) (s : State N E) : Prop :=
  generation ≤ s.generation ∧ ∀ scope, s.scope = some scope → generation < scope.generation

theorem past_step {generation : ℕ} (hs : s.Past generation) (h : Step s op t) :
    t.Past generation := by
  rw [Step] at h
  rw [h]
  by_cases hop : op.KeepsScope
  · obtain ⟨hsame,hgeneration⟩ := perform_scope s hop
    rw [Past,hsame,hgeneration]
    exact hs
  · obtain ⟨hle,hnew⟩ := perform_generation s hop
    refine ⟨hs.1.trans hle,?_⟩
    intro scope hscope
    exact hs.1.trans_lt (hnew scope hscope).2

/-- A scope that is in force at both ends of a run was in force all the time. -/
theorem keepsScope_of_runs (hs : s.Valid) (hr : Runs Step s ops t) (h : s.scope = some scope)
    (h' : t.scope = some scope) : ∀ op ∈ ops, op.KeepsScope := by
  induction hr with
  | refl => exact nofun
  | @step s u t op ops hstep hr ih =>
    have hkeeps : op.KeepsScope := by
      by_contra hop
      have hu : u.Past s.generation := by
        rw [Step] at hstep
        rw [hstep]
        obtain ⟨hle,hnew⟩ := perform_generation s hop
        exact ⟨hle,fun scope hscope => (hnew scope hscope).2⟩
      have ht := hr.invariant (I := Past s.generation) (fun _ _ _ => past_step) hu
      have hlt := ht.2 scope h'
      rw [hs.current scope h] at hlt
      exact hlt.false
    have hu : u.scope = some scope := by
      rw [Step] at hstep
      rw [hstep,(perform_scope s hkeeps).1,h]
    intro op' hmem
    rcases List.mem_cons.mp hmem with rfl | hmem
    · exact hkeeps
    · exact ih (valid_step hs hstep) hu h' op' hmem

theorem inspect_eq_some {ethernet : List UInt8} {sequence : ℕ}
    (h : s.inspect ethernet = some (scope,sequence)) :
    s.scope = some scope ∧
      ∃ p : GatewayEcho, p.sequence = sequence ∧ p.bytes scope.gateway = ethernet := by
  obtain ⟨scope',hscope,hmap⟩ := Option.bind_eq_some_iff.mp h
  obtain ⟨sequence',hresult,heq⟩ := Option.map_eq_some_iff.mp hmap
  cases heq
  obtain ⟨r,hends,hiff⟩ := gatewayEchoSequence_ends ethernet scope.gateway
  rw [hends.result] at hresult
  obtain ⟨ihl,hplaced⟩ := (hiff sequence).mp hresult
  exact ⟨hscope,hplaced.exists_bytes⟩

/-- A recorded frame is an echo to the gateway of a scope, which was in force from before the
classification until the record. -/
theorem acceptMsdu_attributed {ethernet : List UInt8} {sequence time : ℕ} {tag : Tag}
    (hs : s.Valid) (hinspect : s.inspect ethernet = some (scope,sequence))
    (hr : Runs Step s ops t) (haccept : (t.acceptInspected scope sequence time).1 = some tag) :
    (∃ p : GatewayEcho, p.sequence = sequence ∧ p.bytes scope.gateway = ethernet) ∧
    t.scope = some scope ∧ (∀ op ∈ ops, op.KeepsScope) ∧
    ∃ i : Fin N, i.val = tag.slot ∧
      i.val < (t.perform (.accept scope sequence time)).recorder.used ∧
      (t.perform (.accept scope sequence time)).recorder.entries i =
        ⟨tag,scope.cycle,sequence,.accepted,none,time,none,none,none⟩ := by
  obtain ⟨hscope,hbytes⟩ := inspect_eq_some hinspect
  rw [perform]
  unfold acceptInspected at haccept ⊢
  by_cases hsame : t.scope ≠ some scope
  · rw [if_pos hsame] at haccept
    cases haccept
  · have hunchanged := keepsScope_of_runs hs hr hscope (not_not.mp hsame)
    rw [if_neg hsame] at haccept ⊢
    exact ⟨hbytes,not_not.mp hsame,hunchanged,Recorder.accept_some haccept⟩

/-- Every echo of the grammar to the gateway of the scope is classified as one. -/
theorem inspect_bytes (h : s.scope = some scope) (p : GatewayEcho) :
    s.inspect (p.bytes scope.gateway) = some (scope,p.sequence) := by
  obtain ⟨r,hends,hiff⟩ := gatewayEchoSequence_ends (p.bytes scope.gateway) scope.gateway
  have hr : r = some p.sequence := (hiff p.sequence).mpr ⟨p.ihl,.of_bytes p scope.gateway⟩
  rw [inspect,h,Option.bind_some,hends.result,hr]
  rfl

/-- An invalid event comes between the classification and the record. -/
theorem acceptMsdu_attributed_interleaved : ∃ (s : State 2 Unit) (t : State 2 Unit) (scope : Scope),
    Runs Step s [.queued ⟨7,1⟩ 3] t ∧ t.scope = some scope ∧
      (t.perform (.accept scope 8 5)).recorder.used = 1 := by
  let s : State 2 Unit := (new.arm 1 (fun _ => 10)).2
  let p : GatewayEcho :=
    { macAddresses := ⟨List.replicate 12 0xa5,rfl⟩, ihl := 5, ihl_mem := ⟨le_rfl,by decide⟩
      typeOfService := 0, identification := ⟨[0,1],rfl⟩, reserved := false, dontFragment := true
      timeToLive := 64, headerChecksum := ⟨[0xff,0xff],rfl⟩, source := ⟨[10,0,0,2],rfl⟩
      options := ⟨[],rfl⟩, icmpChecksum := ⟨[0xff,0xff],rfl⟩, sequence := 8
      sequence_mem := by decide, padding := [] }
  let scope : Scope := ⟨1,fun _ => 10,1⟩
  have harm : Step new (.arm 1 (fun _ => 10)) s := rfl
  have hs : s.Valid := valid_step valid_new harm
  have hr : Runs Step s [.queued ⟨7,1⟩ 3] (s.perform (.queued ⟨7,1⟩ 3)) := .step rfl (.refl _)
  have hinspect : s.inspect (p.bytes scope.gateway) = some (scope,8) := inspect_bytes rfl p
  have haccept : ((s.perform (.queued ⟨7,1⟩ 3)).acceptInspected scope 8 5).1 = some ⟨1,0⟩ := rfl
  obtain ⟨-,hscope,-,-⟩ := acceptMsdu_attributed hs hinspect hr haccept
  exact ⟨s,_,_,hr,hscope,rfl⟩

end State
end FerrisOnAir.Tx.Probe
