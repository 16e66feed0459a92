import FerrisOnAir.Util.Scan

/-! # A scan and its callback

The scan leaves the reply of the callback open. Here it is computed, from the beacon and from
what the callback has captured, so that a result of the scan can be told from the beacons that
were heard.
-/
namespace FerrisOnAir.Util
open Lmac
variable {n : ℕ} {F G O B M R : Type*}

/-- The replies to some beacons, one after the other. -/
def replies (callback : M → B → PostChannelScanAction R × M) :
    M → List B → List (PostChannelScanAction R)
  | _,[] => []
  | m,b :: beacons => (callback m b).1 :: replies callback (callback m b).2 beacons

/-- What is captured after some beacons. -/
def capturedAfter (callback : M → B → PostChannelScanAction R × M) (m : M) (beacons : List B) :
    M :=
  beacons.foldl (fun m b => (callback m b).2) m

section Replies
variable {callback : M → B → PostChannelScanAction R × M} {m : M} {beacons : List B} {b : B}

theorem capturedAfter_concat : capturedAfter callback m (beacons ++ [b]) =
    (callback (capturedAfter callback m beacons) b).2 := by
  rw [capturedAfter,List.foldl_append]
  rfl

theorem replies_concat : replies callback m (beacons ++ [b]) = replies callback m beacons ++
    [(callback (capturedAfter callback m beacons) b).1] := by
  induction beacons generalizing m with
  | nil => rfl
  | cons c beacons ih => exact congrArg (_ :: ·) ih

theorem length_replies : (replies callback m beacons).length = beacons.length := by
  induction beacons generalizing m with
  | nil => rfl
  | cons c beacons ih => exact congrArg (· + 1) ih

end Replies

/-- The reply that a phase stands for. -/
def ScanPhase.stopReply : ScanPhase n R → List (PostChannelScanAction R)
  | returned (.ok (some res)) => [.stop res]
  | _ => []

theorem ScanPhase.stopReply_of_suspended {phase : ScanPhase n R} (h : phase.suspended = true) :
    phase.stopReply = [] := by
  cases phase with
  | returned result => cases h
  | _ => rfl

/-- The replies so far: every reply but the one that stopped the scan was to go on. -/
def Continued (before : List (PostChannelScanAction R)) : Prop :=
  ∀ action ∈ before, action = .continueScan

namespace Scan
variable (scan : Scan n F G O) {s t : ScanSystem n F O R}

/-- What the replies say of the result. -/
structure Replied (s : ScanSystem n F O R) : Prop where
  replied : scan.continuous = false → ∃ before, Continued before ∧
    s.calls.map ScanCall.action = before ++ s.phase.stopReply
  swept : scan.continuous = false → s.phase = .returned (.ok none) → s.tuned = s.channels
  endless : scan.continuous = true → ∀ res, s.phase ≠ .returned (.ok res)

variable {scan}

theorem replied_of_stopReply (hs : scan.Replied s) (hsuspended : s.phase.suspended = true)
    (hcalls : t.calls = s.calls) (hreply : t.phase.stopReply = [])
    (hne : ∀ res, t.phase ≠ .returned (.ok res)) : scan.Replied t where
  replied hsingle := by
    obtain ⟨before,hbefore,hreplied⟩ := hs.replied hsingle
    refine ⟨before,hbefore,?_⟩
    rw [hcalls,hreply,hreplied,ScanPhase.stopReply_of_suspended hsuspended]
  swept _ h := absurd h (hne _)
  endless _ := hne

theorem swept_replied {u : ScanSystem n F O R} {o : OffChannelOperation n} {rest : List ℕ}
    (h : Swept scan u o rest t) (hs : scan.Replied s) (hsuspended : s.phase.suspended = true)
    (hcalls : u.calls = s.calls)
    (hu : scan.continuous = false → u.tuned ++ rest = u.channels ∧ u.res = none) :
    scan.Replied t := by
  cases h with
  | tuned channel rest' hrest =>
    exact replied_of_stopReply hs hsuspended hcalls rfl (fun _ h => by cases h)
  | failed _ => exact replied_of_stopReply hs hsuspended hcalls rfl (fun _ h => by cases h)
  | spinning _ => exact replied_of_stopReply hs hsuspended hcalls rfl (fun _ h => by cases h)
  | finished hrest honce =>
    obtain ⟨htuned,hres⟩ := hu honce
    have hphase : (scan.leave u o (.ok u.res)).phase = .returned (.ok none) := by
      rw [← hres]
      rfl
    constructor
    case replied =>
      intro _
      obtain ⟨before,hbefore,hreplied⟩ := hs.replied honce
      refine ⟨before,hbefore,?_⟩
      rw [hphase]
      change u.calls.map ScanCall.action = before ++ []
      rw [hcalls,hreplied,ScanPhase.stopReply_of_suspended hsuspended]
    case swept =>
      intro _ _
      rw [hrest,List.append_nil] at htuned
      exact htuned
    case endless => exact fun hforever => absurd hforever (Bool.eq_false_iff.mp honce)

theorem swept_stop_replied {u : ScanSystem n F O R} {o : OffChannelOperation n} {channel : ℕ}
    {res : R} (h : Swept scan u o [] t) (hs : scan.Replied s)
    (hsuspended : s.phase.suspended = true)
    (hcalls : u.calls = s.calls ++ [⟨channel,.stop res,u.tuned.length⟩])
    (hres : u.res = some res) : scan.Replied t := by
  cases hforever : scan.continuous with
  | true =>
    have hne : ∀ res', t.phase ≠ .returned (.ok res') := by
      rintro res' hphase
      cases h with
      | tuned channel rest' hrest => cases hphase
      | failed _ => cases hphase
      | spinning _ => cases hphase
      | finished _ honce => exact absurd hforever (Bool.eq_false_iff.mp honce)
    constructor
    case replied => exact fun hsingle => absurd hforever (Bool.eq_false_iff.mp hsingle)
    case swept => exact fun _ hphase => absurd hphase (hne _)
    case endless => exact fun _ => hne
  | false =>
    cases h with
    | tuned channel rest' hrest =>
      rcases hrest with hrest | ⟨-,hcontinuous⟩
      · cases hrest
      · exact absurd hcontinuous (Bool.eq_false_iff.mp hforever)
    | failed hrest =>
      rcases hrest with hrest | hcontinuous
      · exact absurd rfl hrest
      · exact absurd hcontinuous (Bool.eq_false_iff.mp hforever)
    | spinning hcontinuous => exact absurd hcontinuous (Bool.eq_false_iff.mp hforever)
    | finished _ _ =>
      have hphase : (scan.leave u o (.ok u.res)).phase = .returned (.ok (some res)) := by
        rw [← hres]
        rfl
      constructor
      case replied =>
        intro _
        obtain ⟨before,hbefore,hreplied⟩ := hs.replied hforever
        refine ⟨before,hbefore,?_⟩
        rw [hphase]
        change u.calls.map ScanCall.action = _
        rw [hcalls,List.map_append,hreplied,ScanPhase.stopReply_of_suspended hsuspended,
          List.append_nil]
        rfl
      case swept =>
        intro _ hnone
        rw [hphase] at hnone
        cases hnone
      case endless =>
        exact fun hcontinuous => absurd hcontinuous (Bool.eq_false_iff.mp hforever)

theorem step_replied {op : ScanOp n F O R} (hs : scan.Tracked s) (hr : scan.Replied s)
    (he : scan.Step s op t) : scan.Replied t := by
  obtain ⟨hsuspended,hchange⟩ := step_change he
  cases hchange with
  | waits hphase hop o ht =>
    subst ht
    exact replied_of_stopReply hr hsuspended rfl rfl (fun _ h => by cases h)
  | enters u o hcalls htuned hres hfresh hstate hsweep hop =>
    obtain ⟨hempty,hnone,-⟩ := tracked_fresh hs hfresh
    refine swept_replied hsweep hr hsuspended hcalls (fun _ => ?_)
    rw [htuned,hempty,hres]
    exact ⟨rfl,hnone⟩
  | fails e hne hop ht =>
    subst ht
    exact replied_of_stopReply hr hsuspended rfl rfl (fun _ h => by cases h)
  | continues o channel rest hphase hop hsweep =>
    unfold Tracked at hs
    rw [hphase] at hs
    exact swept_replied hsweep hr hsuspended rfl hs
  | skips router action hop hstops o channel rest hphase calls hcalls ht =>
    subst ht
    have hreply := ScanPhase.stopReply_of_suspended hsuspended
    constructor
    case replied =>
      intro hsingle
      obtain ⟨before,hbefore,hreplied⟩ := hr.replied hsingle
      rw [hreply,List.append_nil] at hreplied
      refine ⟨calls.map ScanCall.action,?_,?_⟩
      · rintro action' haction
        obtain ⟨call,hcall,rfl⟩ := List.mem_map.mp haction
        rcases hcalls call hcall with hold | hnew
        · refine hbefore _ ?_
          rw [← hreplied]
          exact List.mem_map_of_mem hold
        · exact hnew
      · change calls.map ScanCall.action = _ ++ s.phase.stopReply
        rw [hreply,List.append_nil]
    case swept => exact hr.swept
    case endless => exact hr.endless
  | stops u o channel rest hphase res hop hstops hcalls hres htuned hchannels hstate hsweep =>
    exact swept_stop_replied hsweep hr hsuspended hcalls hres
  | cancels hop ht =>
    subst ht
    refine replied_of_stopReply hr hsuspended ?_ rfl (fun _ h => by cases h)
    exact (unwind_frame scan s s.phase.guards).1
  | others channelState scanningMode router hop hrouter ht =>
    subst ht
    exact ⟨hr.replied,hr.swept,hr.endless⟩

theorem new_replied (channelState : ChannelState n) (scanningMode : ScanningMode)
    (router : RxRouter F O) :
    scan.Replied (scan.new channelState scanningMode router : ScanSystem n F O R) where
  replied _ := ⟨[],(fun _ h => by cases h),rfl⟩
  swept _ h := by cases h
  endless _ _ h := by cases h

/-- Whatever else happens, the callback is not called. -/
theorem calls_of_not_receive {op : ScanOp n F O R} (he : scan.Step s op t)
    (hop : ∀ action, op ≠ .receive action) : t.calls = s.calls := by
  cases (step_change he).2 with
  | waits hphase _ o ht =>
    subst ht
    rfl
  | enters u o hcalls htuned hres hfresh hstate hsweep _ => exact (swept_calls hsweep).trans hcalls
  | fails e hne _ ht =>
    subst ht
    rfl
  | continues o channel rest hphase _ hsweep => exact swept_calls hsweep
  | skips router action h hstops o channel rest hphase calls hcalls ht => exact absurd h (hop _)
  | stops u o channel rest hphase res h hstops hcalls hres htuned hchannels hstate hsweep =>
    exact absurd h (hop _)
  | cancels _ ht =>
    subst ht
    exact (unwind_frame scan s s.phase.guards).1
  | others channelState scanningMode router _ hrouter ht =>
    subst ht
    rfl

theorem calls_of_receive {action : PostChannelScanAction R} {x : F × RxRouter F O}
    (he : scan.Step s (.receive action) t) (hx : s.router.receive scan.endpoint = some x) :
    t.calls.map ScanCall.action = s.calls.map ScanCall.action ++
      if scan.isBeacon x.1 then [action] else [] := by
  simp only [Step,step] at he
  split at he
  · obtain ⟨y,hy,rfl⟩ := Option.map_eq_some_iff.mp he
    obtain rfl := Option.some.inj (hx.symm.trans hy)
    unfold receive
    cases hbeacon : scan.isBeacon x.1 with
    | false => simp
    | true =>
      cases action with
      | continueScan => simp
      | stop res =>
        rw [if_pos rfl,if_pos rfl]
        rw [swept_calls endSweep_swept]
        simp
  · cases he

end Scan

/-- A call of `scan`: `parse` is what `match_frames!` makes of a frame. -/
structure CallbackScan (n : ℕ) (F G O B M R : Type*) where
  scan : Scan n F G O
  parse : F → Option B
  isBeacon_eq : ∀ frame, scan.isBeacon frame = (parse frame).isSome
  callback : M → B → PostChannelScanAction R × M

/-- The scan, what its callback has captured, and the beacons it was called with. -/
structure CallbackSystem (n : ℕ) (F O B M R : Type*) where
  system : ScanSystem n F O R
  captured : M
  heard : List B

inductive CallbackOp (n : ℕ) (F O R : Type*)
  | receive
  | scan (op : ScanOp n F O R)

namespace CallbackScan
variable (config : CallbackScan n F G O B M R) (s : CallbackSystem n F O B M R)

def new (captured : M) (channelState : ChannelState n) (scanningMode : ScanningMode)
    (router : RxRouter F O) : CallbackSystem n F O B M R :=
  ⟨config.scan.new channelState scanningMode router,captured,[]⟩

/-- A received frame, to which the callback replies if it is a beacon. -/
def receive (frame : F) : Option (CallbackSystem n F O B M R) :=
  match config.parse frame with
  | none => (config.scan.step s.system (.receive .continueScan)).map
      (fun system => { s with system := system })
  | some b => (config.scan.step s.system (.receive (config.callback s.captured b).1)).map
      (fun system => ⟨system,(config.callback s.captured b).2,s.heard ++ [b]⟩)

def next : CallbackOp n F O R → Option (CallbackSystem n F O B M R)
  | .receive => (s.system.router.receive config.scan.endpoint).bind fun x => config.receive s x.1
  | .scan (.receive _) => none
  | .scan op => (config.scan.step s.system op).map (fun system => { s with system := system })

def Step (s : CallbackSystem n F O B M R) (op : CallbackOp n F O R)
    (t : CallbackSystem n F O B M R) : Prop :=
  config.next s op = some t

variable {config s} {t : CallbackSystem n F O B M R} {op : CallbackOp n F O R} {m : M}

/-- A step of the scan, which hears nothing or one beacon. -/
inductive Heard (config : CallbackScan n F G O B M R) (s t : CallbackSystem n F O B M R) : Prop
  | nothing (hcaptured : t.captured = s.captured) (hheard : t.heard = s.heard)
      (hcalls : t.system.calls.map ScanCall.action = s.system.calls.map ScanCall.action)
  | beacon (b : B) (hcaptured : t.captured = (config.callback s.captured b).2)
      (hheard : t.heard = s.heard ++ [b])
      (hcalls : t.system.calls.map ScanCall.action =
        s.system.calls.map ScanCall.action ++ [(config.callback s.captured b).1])

theorem step_heard (h : config.Step s op t) :
    (∃ op', config.scan.Step s.system op' t.system) ∧ Heard config s t := by
  have hother : ∀ op', (∀ action, op' ≠ .receive action) →
      (config.scan.step s.system op').map (fun system => { s with system := system }) = some t →
      (∃ op', config.scan.Step s.system op' t.system) ∧ Heard config s t := by
    intro op' hop h
    obtain ⟨system,he,rfl⟩ := Option.map_eq_some_iff.mp h
    exact ⟨⟨op',he⟩,.nothing rfl rfl (congrArg _ (Scan.calls_of_not_receive he hop))⟩
  cases op with
  | receive =>
    obtain ⟨x,hx,h⟩ := Option.bind_eq_some_iff.mp h
    have hbeacon := config.isBeacon_eq x.1
    unfold receive at h
    split at h
    · rename_i hparse
      obtain ⟨system,he,rfl⟩ := Option.map_eq_some_iff.mp h
      have hcalls := Scan.calls_of_receive he hx
      rw [hbeacon,hparse,Option.isSome_none,if_neg Bool.false_ne_true,List.append_nil] at hcalls
      exact ⟨⟨_,he⟩,.nothing rfl rfl hcalls⟩
    · rename_i b hparse
      obtain ⟨system,he,rfl⟩ := Option.map_eq_some_iff.mp h
      have hcalls := Scan.calls_of_receive he hx
      rw [hbeacon,hparse,Option.isSome_some,if_pos rfl] at hcalls
      exact ⟨⟨_,he⟩,.beacon b rfl rfl hcalls⟩
  | scan op' =>
    cases op' with
    | receive action => cases h
    | _ => exact hother _ (fun _ h => by cases h) h

/-- What is captured and what was replied follows from the beacons that were heard. -/
structure Consistent (config : CallbackScan n F G O B M R) (m : M)
    (s : CallbackSystem n F O B M R) : Prop where
  tracked : config.scan.Tracked s.system
  replied : config.scan.Replied s.system
  captured : s.captured = capturedAfter config.callback m s.heard
  calls : s.system.calls.map ScanCall.action = replies config.callback m s.heard

theorem step_consistent (hs : Consistent config m s) (h : config.Step s op t) :
    Consistent config m t := by
  obtain ⟨⟨op',he⟩,hheard⟩ := step_heard h
  refine ⟨Scan.step_tracked hs.tracked he,Scan.step_replied hs.tracked hs.replied he,?_,?_⟩
  · cases hheard with
    | nothing hcaptured hheard _ => rw [hcaptured,hheard,hs.captured]
    | beacon b hcaptured hheard _ => rw [hcaptured,hheard,capturedAfter_concat,hs.captured]
  · cases hheard with
    | nothing _ hheard hcalls => rw [hcalls,hheard,hs.calls]
    | beacon b _ hheard hcalls => rw [hcalls,hheard,replies_concat,hs.calls,hs.captured]

section Runs
variable {channelState : ChannelState n} {scanningMode : ScanningMode} {router : RxRouter F O}
  {ops : List (CallbackOp n F O R)}

theorem consistent_of_runs
    (hr : Runs config.Step (config.new m channelState scanningMode router) ops s) :
    Consistent config m s :=
  hr.invariant (I := Consistent config m) (fun _ _ _ hs h => step_consistent hs h)
    ⟨Scan.new_tracked ..,Scan.new_replied ..,rfl,rfl⟩

end Runs

/-- A single sweep that was stopped was stopped by the last beacon, and one that was not has
heard none that would have stopped it. -/
theorem Consistent.outcome (hs : Consistent config m s) (hsingle : config.scan.continuous = false) :
    (∀ res, s.system.phase = .returned (.ok (some res)) → ∃ before b, s.heard = before ++ [b] ∧
      Continued (replies config.callback m before) ∧
      (config.callback (capturedAfter config.callback m before) b).1 = .stop res) ∧
    ((∀ res, s.system.phase ≠ .returned (.ok (some res))) →
      Continued (replies config.callback m s.heard)) := by
  obtain ⟨before,hbefore,hreplied⟩ := hs.replied.replied hsingle
  rw [hs.calls] at hreplied
  constructor
  · intro res hphase
    rw [hphase] at hreplied
    rcases List.eq_nil_or_concat s.heard with hnil | ⟨init,b,hheard⟩
    · rw [hnil] at hreplied
      exact absurd hreplied.symm (List.append_ne_nil_of_right_ne_nil _ (List.cons_ne_nil _ _))
    · rw [List.concat_eq_append] at hheard
      rw [hheard,replies_concat] at hreplied
      obtain ⟨hinit,hlast⟩ := List.append_inj' hreplied rfl
      rw [← hinit] at hbefore
      exact ⟨init,b,hheard,hbefore,List.singleton_inj.mp hlast⟩
  · intro hne
    have hreply : s.system.phase.stopReply = [] := by
      unfold ScanPhase.stopReply
      split
      · rename_i res hphase
        exact absurd hphase (hne res)
      · rfl
    rw [hreply,List.append_nil] at hreplied
    rw [hreplied]
    exact hbefore

end CallbackScan

end FerrisOnAir.Util
