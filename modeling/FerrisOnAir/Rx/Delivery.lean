import FerrisOnAir.Rx.ArcPool

/-! # From the driver to the interfaces

`RxRunner` of `foa/src/bg_task.rs` and the receive queues of `foa/src/lib.rs`. Without reference
counted buffers a frame goes to one interface only; with them whether the pool has a slot for it
is part of the label. A queue is active as long as an endpoint of it is alive, and of those there
is one at most, for which the interface is borrowed.
-/
namespace FerrisOnAir.Rx
variable {n w : ℕ} {F : Type*}

/-- The interfaces of a frame, in the order of `interface_iterator`, and the features. -/
structure RxConfig (n : ℕ) (F : Type*) where
  interfaceIterator : F → List (Fin n)
  nodup : ∀ frame, (interfaceIterator frame).Nodup
  arcBuffers : Bool
  rxQueueLen : ℕ

/-- A receive queue, whether there is an endpoint of it, the frames for its interface that have
arrived since its last reset, and those of them that were received. -/
structure RxQueue (F : Type*) where
  frames : List F
  active : Bool
  endpoint : Bool
  arrived : List F
  received : List F

abbrev RxQueues (n : ℕ) (F : Type*) := Fin n → RxQueue F

inductive RxOp (n : ℕ) (F : Type*)
  | packet (frame : F) (allocated : Bool)
  | split (interface : Fin n)
  | dropEndpoint (interface : Fin n)
  | receive (interface : Fin n)
  | reset (interface : Fin n)

namespace RxQueue
variable (rxQueueLen : ℕ) (frame : F) (q : RxQueue F)

def trySend : RxQueue F :=
  if q.frames.length < rxQueueLen then { q with frames := q.frames ++ [frame] } else q

def offer : RxQueue F := if q.active then q.trySend rxQueueLen frame else q

theorem offer_eq : q.offer rxQueueLen frame =
    if q.active = true ∧ q.frames.length < rxQueueLen then { q with frames := q.frames ++ [frame] }
    else q := by
  unfold offer trySend
  cases q.active with
  | true => simp
  | false => simp

end RxQueue

namespace RxQueues
variable (config : RxConfig n F) (s : RxQueues n F)

def new : RxQueues n F := fun _ => ⟨[],false,false,[],[]⟩

/-- The first interface, if there is no second. -/
def sole : List (Fin n) → Option (Fin n)
  | [interface] => some interface
  | _ => none

/-- The interfaces that a frame can get to. -/
def addressed (frame : F) : List (Fin n) :=
  if config.arcBuffers then config.interfaceIterator frame
  else (sole (config.interfaceIterator frame)).toList

/-- The frame counts as arrived. -/
def arrive (frame : F) : RxQueues n F := fun i =>
  if i ∈ addressed config frame then { s i with arrived := (s i).arrived ++ [frame] } else s i

def sendAll (frame : F) (interfaces : List (Fin n)) : RxQueues n F :=
  interfaces.foldl (fun s i => Function.update s i ((s i).offer config.rxQueueLen frame)) s

def processPacket (frame : F) (allocated : Bool) : RxQueues n F :=
  if config.arcBuffers then
    if allocated then s.sendAll config frame (config.interfaceIterator frame) else s
  else match sole (config.interfaceIterator frame) with
    | some interface =>
      Function.update s interface ((s interface).offer config.rxQueueLen frame)
    | none => s

def next : RxOp n F → Option (RxQueues n F)
  | .packet frame allocated => some ((s.arrive config frame).processPacket config frame allocated)
  | .split i =>
    if (s i).endpoint then none
    else some (Function.update s i { s i with active := true, endpoint := true })
  | .dropEndpoint i =>
    if (s i).endpoint then
      some (Function.update s i { s i with active := false, endpoint := false })
    else none
  | .receive i =>
    if (s i).endpoint then
      match (s i).frames with
      | frame :: frames => some (Function.update s i { s i with
          frames := frames
          received := (s i).received ++ [frame] })
      | [] => none
    else none
  | .reset i =>
    if (s i).endpoint then none
    else some (Function.update s i { s i with frames := [], arrived := [], received := [] })

def Step (s : RxQueues n F) (op : RxOp n F) (t : RxQueues n F) : Prop := s.next config op = some t

/-- Nothing that arrived was lost. -/
def Lossless (i : Fin n) (s : RxQueues n F) : Prop :=
  (s i).received ++ (s i).frames = (s i).arrived

/-- A frame that arrives gets a buffer, and its interface has an endpoint and room. -/
def HasRoom (i : Fin n) (s : RxQueues n F) : RxOp n F → Prop
  | .packet frame allocated => i ∈ addressed config frame →
      (config.arcBuffers = true → allocated = true) ∧ (s i).endpoint = true ∧
        (s i).frames.length < config.rxQueueLen
  | _ => True

/-- What a queue keeps to. -/
structure Delivered (i : Fin n) (q : RxQueue F) : Prop where
  sublist : (q.received ++ q.frames).Sublist q.arrived
  addressed : ∀ frame ∈ q.arrived, i ∈ addressed config frame
  bounded : q.frames.length ≤ config.rxQueueLen
  active : q.active = q.endpoint

variable {config s} {t : RxQueues n F} {op : RxOp n F} {i : Fin n}

theorem sendAll_apply (frame : F) {interfaces : List (Fin n)} (hnodup : interfaces.Nodup) :
    s.sendAll config frame interfaces i =
      if i ∈ interfaces then (s i).offer config.rxQueueLen frame else s i := by
  induction interfaces generalizing s with
  | nil => rfl
  | cons j interfaces ih =>
    obtain ⟨hj,hnodup⟩ := List.nodup_cons.mp hnodup
    refine (ih (s := Function.update s j _) hnodup).trans ?_
    by_cases hi : i = j
    · subst hi
      rw [if_neg hj,if_pos List.mem_cons_self,Function.update_self]
    · rw [Function.update_of_ne hi]
      simp [hi]

/-- Every interface sees a packet by itself. -/
theorem processPacket_apply (frame : F) (allocated : Bool) :
    s.processPacket config frame allocated i =
    if i ∈ addressed config frame ∧ (config.arcBuffers = true → allocated = true) then
      (s i).offer config.rxQueueLen frame
    else s i := by
  unfold processPacket addressed
  cases config.arcBuffers with
  | true =>
    cases allocated with
    | true =>
      rw [if_pos rfl,if_pos rfl,sendAll_apply frame (config.nodup frame)]
      simp
    | false => simp
  | false =>
    rw [if_neg Bool.false_ne_true,if_neg Bool.false_ne_true]
    cases sole (config.interfaceIterator frame) with
    | none => simp
    | some j =>
      by_cases hi : i = j
      · subst hi
        simp
      · simp [hi]

/-- What a step does to one queue. -/
inductive Change (config : RxConfig n F) (i : Fin n) (s t : RxQueues n F) (op : RxOp n F) : Prop
  | same (hop : ∀ frame allocated, op = .packet frame allocated → i ∉ addressed config frame)
      (ht : t i = s i)
  | packet (frame : F) (allocated : Bool) (hop : op = .packet frame allocated)
      (hmem : i ∈ addressed config frame)
      (ht : t i = if config.arcBuffers = true → allocated = true then
        RxQueue.offer config.rxQueueLen frame { s i with arrived := (s i).arrived ++ [frame] }
        else { s i with arrived := (s i).arrived ++ [frame] })
  | endpoint (b : Bool) (hop : op = .split i ∨ op = .dropEndpoint i)
      (ht : t i = { s i with active := b, endpoint := b })
  | received (frame : F) (frames : List F) (hop : op = .receive i)
      (hframes : (s i).frames = frame :: frames)
      (ht : t i = { s i with frames := frames, received := (s i).received ++ [frame] })
  | reset (hop : op = .reset i)
      (ht : t i = { s i with frames := [], arrived := [], received := [] })

theorem step_change (h : Step config s op t) : Change config i s t op := by
  have hother : ∀ {j : Fin n} {q : RxQueue F}, t = Function.update s j q → i ≠ j →
      t i = s i := by
    intro j q ht hij
    rw [ht,Function.update_of_ne hij]
  cases op with
  | packet frame allocated =>
    cases h
    by_cases hmem : i ∈ addressed config frame
    · refine .packet frame allocated rfl hmem ?_
      rw [processPacket_apply]
      simp only [arrive,hmem,true_and,if_true]
    · refine .same ?_ ?_
      · intro frame' allocated' hop
        cases hop
        exact hmem
      · rw [processPacket_apply]
        simp only [arrive,hmem,false_and,if_false]
  | split j =>
    obtain ⟨-,h⟩ := Option.ite_none_left_eq_some.mp h
    by_cases hij : i = j
    · subst hij
      cases h
      exact .endpoint true (Or.inl rfl) (Function.update_self ..)
    · exact .same (fun _ _ hop => by cases hop) (hother (Option.some.inj h).symm hij)
  | dropEndpoint j =>
    obtain ⟨-,h⟩ := Option.ite_none_right_eq_some.mp h
    by_cases hij : i = j
    · subst hij
      cases h
      exact .endpoint false (Or.inr rfl) (Function.update_self ..)
    · exact .same (fun _ _ hop => by cases hop) (hother (Option.some.inj h).symm hij)
  | receive j =>
    obtain ⟨-,h⟩ := Option.ite_none_right_eq_some.mp h
    cases hframes : (s j).frames with
    | nil =>
      rw [hframes] at h
      cases h
    | cons frame frames =>
      rw [hframes] at h
      by_cases hij : i = j
      · subst hij
        cases h
        exact .received frame frames rfl hframes (Function.update_self ..)
      · exact .same (fun _ _ hop => by cases hop) (hother (Option.some.inj h).symm hij)
  | reset j =>
    obtain ⟨-,h⟩ := Option.ite_none_left_eq_some.mp h
    by_cases hij : i = j
    · subst hij
      cases h
      exact .reset rfl (Function.update_self ..)
    · exact .same (fun _ _ hop => by cases hop) (hother (Option.some.inj h).symm hij)

theorem delivered_step (hs : Delivered config i (s i)) (h : Step config s op t) :
    Delivered config i (t i) := by
  cases step_change (i := i) h with
  | same _ ht =>
    rw [ht]
    exact hs
  | endpoint b _ ht =>
    rw [ht]
    exact ⟨hs.sublist,hs.addressed,hs.bounded,rfl⟩
  | reset _ ht =>
    rw [ht]
    exact ⟨List.Sublist.refl _,(fun _ h => by cases h),Nat.zero_le _,hs.active⟩
  | received frame frames _ hframes ht =>
    rw [ht]
    have hsublist := hs.sublist
    have hbounded := hs.bounded
    rw [hframes] at hsublist hbounded
    refine ⟨?_,hs.addressed,(Nat.le_succ _).trans hbounded,hs.active⟩
    rwa [List.append_assoc]
  | packet frame allocated _ hmem ht =>
    have haddressed : ∀ f ∈ (s i).arrived ++ [frame], i ∈ addressed config f := by
      intro f hf
      rcases List.mem_append.mp hf with hf | hf
      · exact hs.addressed f hf
      · rwa [List.mem_singleton.mp hf]
    have hlost : Delivered config i { s i with arrived := (s i).arrived ++ [frame] } :=
      ⟨hs.sublist.trans (List.sublist_append_left _ _),haddressed,hs.bounded,hs.active⟩
    rw [ht]
    split
    · rw [RxQueue.offer_eq]
      split
      · rename_i hroom
        refine ⟨?_,haddressed,?_,hs.active⟩
        · rw [← List.append_assoc]
          exact hs.sublist.append (List.Sublist.refl _)
        · rw [List.length_append]
          exact hroom.2
      · exact hlost
    · exact hlost

/-- A step loses a frame exactly if it arrives without room. -/
theorem lossless_step_iff (hs : Delivered config i (s i)) (hl : Lossless i s)
    (h : Step config s op t) : Lossless i t ↔ HasRoom config i s op := by
  unfold Lossless at hl ⊢
  cases step_change (i := i) h with
  | same hop ht =>
    rw [ht]
    refine iff_of_true hl ?_
    cases op with
    | packet frame allocated => exact fun hmem => absurd hmem (hop frame allocated rfl)
    | _ => trivial
  | endpoint b hop ht =>
    rw [ht]
    refine iff_of_true hl ?_
    rcases hop with rfl | rfl
    · trivial
    · trivial
  | reset hop ht =>
    rw [ht,hop]
    exact iff_of_true rfl trivial
  | received frame frames hop hframes ht =>
    rw [ht,hop]
    refine iff_of_true ?_ trivial
    rw [hframes] at hl
    rwa [List.append_assoc]
  | packet frame allocated hop hmem ht =>
    have hlost : (s i).received ++ (s i).frames ≠ (s i).arrived ++ [frame] := by
      rw [hl]
      exact fun heq => List.cons_ne_nil _ _ (List.self_eq_append_right.mp heq)
    rw [ht,hop]
    unfold HasRoom
    split
    · rename_i hallocated
      rw [RxQueue.offer_eq]
      split
      · rename_i hroom
        refine iff_of_true ?_ (fun _ => ⟨hallocated,hs.active ▸ hroom.1,hroom.2⟩)
        change (s i).received ++ ((s i).frames ++ [frame]) = (s i).arrived ++ [frame]
        rw [← List.append_assoc,hl]
      · rename_i hfull
        refine iff_of_false hlost (fun hroom => hfull ?_)
        obtain ⟨-,hendpoint,hlength⟩ := hroom hmem
        exact ⟨hs.active.trans hendpoint,hlength⟩
    · rename_i hexhausted
      exact iff_of_false hlost (fun hroom => hexhausted (hroom hmem).1)

/-- In every run the frames that an interface receives since its last reset are some of those that
have arrived for it since then, in their order, and each of these was lost exactly if there was
no buffer for it, no endpoint of the interface, or no room in its queue. What the other
interfaces do is of no consequence. -/
theorem delivery_of_runs {ops : List (RxOp n F)} (hr : Runs (Step config) new ops s) (i : Fin n) :
    ((s i).received ++ (s i).frames).Sublist (s i).arrived ∧
    (∀ frame ∈ (s i).arrived, i ∈ addressed config frame) ∧
    (s i).frames.length ≤ config.rxQueueLen ∧ (s i).active = (s i).endpoint ∧
    (Runs (Within (Lossless i) (Step config)) new ops s ↔
      Runs (Guarded (HasRoom config i) (Step config)) new ops s) := by
  have hnew : Delivered config i ((new : RxQueues n F) i) :=
    ⟨List.Sublist.refl _,(fun _ h => by cases h),Nat.zero_le _,rfl⟩
  have hstep : ∀ (s : RxQueues n F) op t, Delivered config i (s i) → Step config s op t →
      Delivered config i (t i) := fun _ _ _ hs h => delivered_step hs h
  have hs : Delivered config i (s i) :=
    hr.invariant (I := fun s => Delivered config i (s i)) hstep hnew
  refine ⟨hs.sublist,hs.addressed,hs.bounded,hs.active,?_⟩
  exact Runs.within_iff_guarded (I := fun s => Delivered config i (s i)) hstep
    (fun _ _ _ hs hl h => lossless_step_iff hs hl h) hnew rfl

/-- Two interfaces with reference counted buffers and queues for one frame. A frame is true if it
is for both, and else it is for the second. -/
def sharedBuffers : RxConfig 2 Bool where
  interfaceIterator frame :=
    if frame then [⟨0,Nat.zero_lt_two⟩,⟨1,Nat.one_lt_two⟩] else [⟨1,Nat.one_lt_two⟩]
  nodup frame := by cases frame <;> decide
  arcBuffers := true
  rxQueueLen := 1

/-- The second interface has lost one frame to a full queue and the first one none. -/
theorem delivery_of_runs_shared : ∃ s : RxQueues 2 Bool,
    (s ⟨0,Nat.zero_lt_two⟩).arrived = [true] ∧ (s ⟨0,Nat.zero_lt_two⟩).frames = [true] ∧
    (s ⟨1,Nat.one_lt_two⟩).arrived = [false,true] ∧ (s ⟨1,Nat.one_lt_two⟩).received = [false] ∧
    ((s ⟨1,Nat.one_lt_two⟩).received ++ (s ⟨1,Nat.one_lt_two⟩).frames).Sublist
      (s ⟨1,Nat.one_lt_two⟩).arrived := by
  have hr : Runs (Step sharedBuffers) new [.split ⟨0,Nat.zero_lt_two⟩,.split ⟨1,Nat.one_lt_two⟩,
      .packet false true,.packet true true,.receive ⟨1,Nat.one_lt_two⟩] _ :=
    .step rfl (.step rfl (.step rfl (.step rfl (.step rfl (.refl _)))))
  exact ⟨_,rfl,rfl,rfl,rfl,(delivery_of_runs hr _).1⟩

end RxQueues

/-! ## A slot for every buffer

The driver has as many buffers as the pool has slots, and never hands out one that is borrowed.
-/
namespace RxArcPool
variable {p q : RxArcPool n w (Fin n)} {op : ArcOp w (Fin n)} {i : Fin n}

def Borrowed (p : RxArcPool n w (Fin n)) (buffer : Fin n) : Prop :=
  ∃ i, (p.state i).map RxArcBufferInner.buffer = some buffer

instance (p : RxArcPool n w (Fin n)) (buffer : Fin n) : Decidable (p.Borrowed buffer) :=
  inferInstanceAs (Decidable (∃ _, _))

/-- A buffer that is put into the pool is not there yet. -/
def Fresh (p : RxArcPool n w (Fin n)) (op : ArcOp w (Fin n)) : Prop :=
  ∀ buffer address, op = .tryAlloc buffer address → ¬ p.Borrowed buffer

/-- No buffer is in two slots. -/
def Exclusive (p : RxArcPool n w (Fin n)) : Prop :=
  ∀ i j inner inner', p.state i = some inner → p.state j = some inner' →
    inner.buffer = inner'.buffer → i = j

/-- A slot that holds the same buffer as before. -/
def Holds (p q : RxArcPool n w (Fin n)) (j : Fin n) : Prop :=
  ∀ inner', q.state j = some inner' → ∃ inner, p.state j = some inner ∧ inner.buffer = inner'.buffer

theorem holds_update {inner : RxArcBufferInner w (Fin n)} {h : Option (RxArcBufferInner w (Fin n))}
    (hinner : p.state i = some inner) (hq : q.state = Function.update p.state i h)
    (hbuffer : ∀ inner' ∈ h, inner'.buffer = inner.buffer) (j : Fin n) : Holds p q j := by
  intro inner' hinner'
  rw [hq] at hinner'
  by_cases hj : j = i
  · subst hj
    rw [Function.update_self] at hinner'
    exact ⟨inner,hinner,(hbuffer inner' hinner').symm⟩
  · rw [Function.update_of_ne hj] at hinner'
    exact ⟨inner',hinner',rfl⟩

/-- A step puts a buffer into one slot at most. -/
theorem step_holds (hp : p.Counted) (hs : p.Step op q) : (∀ j, Holds p q j) ∨
    ∃ buffer address i, op = .tryAlloc buffer address ∧
      (∀ inner, q.state i = some inner → inner.buffer = buffer) ∧ ∀ j, j ≠ i → Holds p q j := by
  cases step_change hp hs with
  | full buffer address hop hq =>
    rw [hq]
    exact Or.inl fun j inner hinner => ⟨inner,hinner,rfl⟩
  | allocated buffer address i hop haddress hempty hq =>
    refine Or.inr ⟨buffer,address,i,hop,?_,?_⟩
    · intro inner hinner
      simp only [hq,Function.update_self] at hinner
      rw [← Option.some.inj hinner]
    · intro j hj inner hinner
      rw [hq] at hinner
      exact ⟨inner,(Function.update_of_ne hj _ _).symm.trans hinner,rfl⟩
  | cloned source address i inner hop haddress hinner hq =>
    refine Or.inl (holds_update hinner (by rw [hq]) ?_)
    rintro inner' ⟨⟩
    rfl
  | moved source address i hop hsource haddress hq =>
    rw [hq]
    exact Or.inl fun j inner hinner => ⟨inner,hinner,rfl⟩
  | dropped address i inner hop haddress hinner hrefs hq =>
    refine Or.inl (holds_update hinner (by rw [hq]) ?_)
    rintro inner' ⟨⟩
    rfl
  | freed address i inner hop haddress hinner hrefs hq =>
    refine Or.inl (holds_update hinner (by rw [hq]) ?_)
    rintro inner' ⟨⟩

theorem exclusive_step (hp : p.Counted) (he : p.Exclusive) (hfresh : p.Fresh op)
    (hs : p.Step op q) : q.Exclusive := by
  intro j k inner inner' hj hk hsame
  rcases step_holds hp hs with hall | ⟨buffer,address,i,hop,hnew,hothers⟩
  · obtain ⟨a,ha,hab⟩ := hall j inner hj
    obtain ⟨b,hb,hbb⟩ := hall k inner' hk
    exact he j k a b ha hb (hab.trans (hsame.trans hbb.symm))
  · have hold : ∀ {l inner}, l ≠ i → q.state l = some inner → inner.buffer ≠ buffer := by
      intro l inner hl hstate hbuffer
      obtain ⟨a,ha,hab⟩ := hothers l hl inner hstate
      exact hfresh buffer address hop ⟨l,Option.map_eq_some_iff.mpr ⟨a,ha,hab.trans hbuffer⟩⟩
    by_cases hji : j = i
    · by_cases hki : k = i
      · rw [hji,hki]
      · subst hji
        exact absurd (hsame.symm.trans (hnew inner hj)) (hold hki hk)
    · by_cases hki : k = i
      · subst hki
        exact absurd (hsame.trans (hnew inner' hk)) (hold hji hj)
      · obtain ⟨a,ha,hab⟩ := hothers j hji inner hj
        obtain ⟨b,hb,hbb⟩ := hothers k hki inner' hk
        exact he j k a b ha hb (hab.trans (hsame.trans hbb.symm))

/-- With a buffer in each of its slots the pool has them all. -/
theorem borrowed_of_full (he : p.Exclusive) (hfull : ∀ i, (p.state i).isSome = true)
    (buffer : Fin n) : p.Borrowed buffer := by
  choose inner hinner using fun i => Option.isSome_iff_exists.mp (hfull i)
  have hinjective : Function.Injective fun i => (inner i).buffer :=
    fun i j h => he i j _ _ (hinner i) (hinner j) h
  obtain ⟨i,hi⟩ := Finite.surjective_of_injective hinjective buffer
  exact ⟨i,Option.map_eq_some_iff.mpr ⟨inner i,hinner i,hi⟩⟩

/-- As long as the driver hands out no buffer twice, the pool always has a slot for the next
one, however its handles are cloned and dropped. -/
theorem tryAlloc_of_runs {ops : List (ArcOp w (Fin n))} {buffer : Fin n}
    (hr : Runs (Guarded Fresh Step) new ops p) (hbuffer : ¬ p.Borrowed buffer) :
    (p.tryAlloc buffer).1.isSome = true := by
  have hp : p.Counted ∧ p.Exclusive := by
    refine hr.invariant (I := fun p => p.Counted ∧ p.Exclusive) ?_ ⟨counted_new,?_⟩
    · rintro p op q ⟨hp,he⟩ ⟨hfresh,hs⟩
      exact ⟨counted_change hp (step_change hp hs),exclusive_step hp he hfresh hs⟩
    · intro i j inner inner' hi
      cases hi
  rcases tryAlloc_cases p buffer with ⟨-,hfull⟩ | ⟨i,-,heq⟩
  · exact absurd (borrowed_of_full hp.2 hfull buffer) hbuffer
  · rw [heq]
    rfl

/-- All three buffers are borrowed, and then one comes back, for which there is a slot again. -/
theorem tryAlloc_of_runs_again : ∃ p : RxArcPool 3 2 (Fin 3),
    p.Borrowed 0 ∧ p.Borrowed 2 ∧ (p.tryAlloc 1).1.isSome = true := by
  have hfresh : ∀ {p : RxArcPool 3 2 (Fin 3)} {buffer : Fin 3} {address : Fin (2 ^ 2)},
      ¬ p.Borrowed buffer → p.Fresh (.tryAlloc buffer address) := by
    rintro p buffer address hb _ _ ⟨⟩
    exact hb
  have hr : Runs (Guarded Fresh Step) (new : RxArcPool 3 2 (Fin 3))
      [.tryAlloc 0 0,.tryAlloc 1 1,.tryAlloc 2 2,.clone 1 3,.drop 1,.drop 3] _ :=
    .step ⟨hfresh (by decide),rfl⟩ (.step ⟨hfresh (by decide),rfl⟩
      (.step ⟨hfresh (by decide),rfl⟩ (.step ⟨(fun _ _ h => by cases h),rfl⟩
        (.step ⟨(fun _ _ h => by cases h),rfl⟩ (.step ⟨(fun _ _ h => by cases h),rfl⟩ (.refl _))))))
  exact ⟨_,by decide,by decide,tryAlloc_of_runs hr (by decide)⟩

end RxArcPool

end FerrisOnAir.Rx
