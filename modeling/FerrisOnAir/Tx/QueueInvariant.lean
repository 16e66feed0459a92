import FerrisOnAir.Tx.QueueSystem
import FerrisOnAir.Foundation.Runs

/-! # The ring invariant of one queue

A handle never names a slot but a generation. The invariant says, for every
generation whose slot has not been issued again, what that slot and its interest
flag contain in terms of the history: queued frames in enqueue order, the single
transmission at the front, and behind it the unclaimed completions of live handles.
Every operation touches the item of one generation, so its preservation proof only
has to look at that generation.
-/
namespace FerrisOnAir.Tx.QueueSystem
open TxQueueState RingWindow
variable {N : ℕ} {C P E : Type*}

/-- The completion a finished generation still has to deliver. -/
def stored (s : QueueSystem N C P E) (g : ℕ) : Option (TxReturnData N C E) :=
  if g ∈ s.handles ∧ g ∉ s.history.claimed.map Prod.fst then
    s.history.finished[g]?.bind Prod.snd
  else none

def handedCount (s : QueueSystem N C P E) : ℕ := s.front + s.active.toList.length

/-- The slot content of a generation that was not overwritten, from the history. -/
def expectedSlot (s : QueueSystem N C P E) (g : ℕ) : TxQueueSlot N C P E :=
  if g < s.front then .ofOutcome (s.stored g)
  else if g < s.handedCount then .inProgress
  else match s.history.enqueued[g]? with
    | some f => .pending f
    | none => .empty

def Shows (s : QueueSystem N C P E) (g : ℕ) (item : TxQueueItem N C P E) : Prop :=
  item.slot = s.expectedSlot g ∧ (item.returnDataExpected = true ↔ g ∈ s.handles)

variable [NeZero N]

def item (s : QueueSystem N C P E) (g : ℕ) : TxQueueItem N C P E :=
  s.queue.queueItems (slotOf g)

structure Valid (s : QueueSystem N C P E) : Prop where
  capacity_le : s.queue.capacity ≤ N
  len_le : s.queue.len ≤ s.queue.counter
  counter_eq : s.queue.counter = s.history.enqueued.length
  handles_lt : ∀ g ∈ s.handles, g < s.queue.counter
  items : ∀ g, InWindow N s.queue.counter g → s.Shows g (s.item g)
  fresh : ∀ i : Fin N, s.queue.counter ≤ i → (s.queue.queueItems i).slot = .empty
  active_front : ∀ t f, s.active = some (t,f) → 0 < s.queue.len ∧ t.index = slotOf s.front ∧
    t.generation = s.front ∧ s.history.enqueued[s.front]? = some f
  handed_frames : s.history.handed.map Prod.snd = s.history.enqueued.take s.handedCount
  handed_generations : s.history.handed.map Prod.fst = List.range s.handedCount
  finished_generations : s.history.finished.map Prod.fst = List.range s.front
  finished_frames : ∀ g d, (g,some d) ∈ s.history.finished →
    ∃ f, s.history.enqueued[g]? = some f ∧ d.frame.buffer = f.frame.buffer ∧
      d.frameLength = f.frameLength
  claimed_finished : ∀ g d, (g,d) ∈ s.history.claimed → (g,some d) ∈ s.history.finished
  claimed_once : (s.history.claimed.map Prod.fst).Nodup

theorem slotOf_ne {c g h : ℕ} (hg : InWindow N c g) (hh : InWindow N c h) (hne : g ≠ h) :
    (slotOf g : Fin N) ≠ slotOf h := by
  intro he
  exact hne (hg.eq_of_mod_eq hh (Fin.mk.inj he))

/-- A slot that was never issued is not the slot of an issued generation. -/
theorem slotOf_lt {c g : ℕ} (hg : g < c) {i : Fin N} (hi : c ≤ i) : i ≠ slotOf g := by
  rintro rfl
  have h : ((slotOf g : Fin N) : ℕ) ≤ g := Nat.mod_le g N
  omega

namespace Valid
variable {s : QueueSystem N C P E}

theorem front_add_len (hs : s.Valid) : s.front + s.queue.len = s.queue.counter := by
  have := hs.len_le
  unfold front
  omega

theorem len_add_capacity (hs : s.Valid) : s.queue.len + s.queue.capacity = N := by
  have := hs.capacity_le
  unfold TxQueueState.len
  omega

theorem handedCount_le (hs : s.Valid) : s.handedCount ≤ s.queue.counter := by
  have h := congrArg List.length hs.handed_frames
  have h' := congrArg List.length hs.handed_generations
  have hc := hs.counter_eq
  simp only [List.length_map,List.length_take,List.length_range] at h h'
  omega

theorem inWindow_of_front_le (hs : s.Valid) {g : ℕ} (h₁ : s.front ≤ g) (h₂ : g < s.queue.counter) :
    InWindow N s.queue.counter g := by
  have hf := hs.front_add_len
  have hl := hs.len_add_capacity
  exact ⟨h₂,by omega⟩

theorem finished_length (hs : s.Valid) : s.history.finished.length = s.front := by
  have h := congrArg List.length hs.finished_generations
  simpa using h

/-- The finish record of a generation sits at its own position. -/
theorem finished_getElem? (hs : s.Valid) {i g : ℕ} {o : Option (TxReturnData N C E)}
    (h : s.history.finished[i]? = some (g,o)) : i = g := by
  have hm : (s.history.finished.map Prod.fst)[i]? = some g := by simp [h]
  rw [hs.finished_generations] at hm
  obtain ⟨_,hg⟩ := List.getElem?_eq_some_iff.mp hm
  rwa [List.getElem_range] at hg

theorem mem_finished (hs : s.Valid) {g : ℕ} {o : Option (TxReturnData N C E)} :
    (g,o) ∈ s.history.finished ↔ s.history.finished[g]? = some (g,o) := by
  constructor
  · intro h
    obtain ⟨i,hi⟩ := List.mem_iff_getElem?.mp h
    rwa [hs.finished_getElem? hi] at hi
  · exact List.mem_of_getElem?

theorem finished_lt (hs : s.Valid) {g : ℕ} {o : Option (TxReturnData N C E)}
    (h : (g,o) ∈ s.history.finished) : g < s.front := by
  have hl := (List.getElem?_eq_some_iff.mp (hs.mem_finished.mp h)).1
  rwa [hs.finished_length] at hl

theorem claimed_lt (hs : s.Valid) {g : ℕ} (h : g ∈ s.history.claimed.map Prod.fst) :
    g < s.front := by
  obtain ⟨⟨_,d⟩,hp,rfl⟩ := List.mem_map.mp h
  exact hs.finished_lt (hs.claimed_finished _ d hp)

theorem stored_eq_some (hs : s.Valid) {g : ℕ} {d : TxReturnData N C E} :
    s.stored g = some d ↔
      g ∈ s.handles ∧ g ∉ s.history.claimed.map Prod.fst ∧ (g,some d) ∈ s.history.finished := by
  unfold stored
  split
  · rename_i h
    rw [Option.bind_eq_some_iff,hs.mem_finished]
    constructor
    · rintro ⟨⟨g',o⟩,hg,rfl⟩
      obtain rfl := hs.finished_getElem? hg
      exact ⟨h.1,h.2,hg⟩
    · rintro ⟨_,_,hg⟩
      exact ⟨_,hg,rfl⟩
  · rename_i h
    constructor
    · exact nofun
    · rintro ⟨h₁,h₂,_⟩
      exact absurd ⟨h₁,h₂⟩ h

theorem queued_slot (hs : s.Valid) {g : ℕ} (h₁ : s.handedCount ≤ g) (h₂ : g < s.queue.counter) :
    ∃ f, s.history.enqueued[g]? = some f ∧ (s.item g).slot = .pending f := by
  have hf : s.front ≤ g := (Nat.le_add_right ..).trans h₁
  have hg : g < s.history.enqueued.length := hs.counter_eq ▸ h₂
  refine ⟨_,List.getElem?_eq_getElem hg,?_⟩
  rw [(hs.items g (hs.inWindow_of_front_le hf h₂)).1,expectedSlot,if_neg (by omega),
    if_neg (by omega),List.getElem?_eq_getElem hg]

theorem active_slot (hs : s.Valid) {t : InProgressTransmission N} {f : PendingFrame N C P}
    (ha : s.active = some (t,f)) : (s.item s.front).slot = .inProgress := by
  have hfl := hs.front_add_len
  have hlt := (hs.active_front t f ha).1
  rw [(hs.items _ (hs.inWindow_of_front_le le_rfl (by omega))).1,expectedSlot,
    if_neg (Nat.lt_irrefl _),if_pos (by simp [handedCount,ha])]

theorem retired_slot (hs : s.Valid) {g : ℕ} (hlt : g < s.front)
    (hw : InWindow N s.queue.counter g) : (s.item g).slot = .ofOutcome (s.stored g) := by
  rw [(hs.items g hw).1,expectedSlot,if_pos hlt]

theorem occupied_of_front_le (hs : s.Valid) {g : ℕ} (h₁ : s.front ≤ g) (h₂ : g < s.queue.counter) :
    (s.item g).slot.occupied = true := by
  by_cases hc : s.handedCount ≤ g
  · obtain ⟨f,_,hslot⟩ := hs.queued_slot hc h₂
    rw [hslot,TxQueueSlot.occupied_pending]
  · rw [(hs.items g (hs.inWindow_of_front_le h₁ h₂)).1,expectedSlot,if_neg (by omega),
      if_pos (by omega),TxQueueSlot.occupied_inProgress]

/-- Inside the window the occupied slots are those of the queued generations. -/
theorem occupied_iff (hs : s.Valid) {g : ℕ} (hw : InWindow N s.queue.counter g) :
    (s.item g).slot.occupied = true ↔ s.front ≤ g := by
  constructor
  · intro h
    by_contra hlt
    rw [hs.retired_slot (by omega) hw] at h
    cases ho : s.stored g <;> simp [ho,TxQueueSlot.ofOutcome] at h
  · intro h
    exact hs.occupied_of_front_le h hw.1

/-- Return data in a slot of the window is the unclaimed completion of its own
generation, whose handle is alive. -/
theorem returnDataAvailable_iff (hs : s.Valid) {g : ℕ} (hw : InWindow N s.queue.counter g)
    {d : TxReturnData N C E} : (s.item g).slot = .returnDataAvailable d ↔
      g ∈ s.handles ∧ g ∉ s.history.claimed.map Prod.fst ∧ (g,some d) ∈ s.history.finished := by
  rw [← hs.stored_eq_some]
  constructor
  · intro h
    have hlt : g < s.front := by
      by_contra hge
      have ho := hs.occupied_of_front_le (not_lt.mp hge) hw.1
      rw [h] at ho
      cases ho
    rw [hs.retired_slot hlt hw] at h
    cases ho : s.stored g with
    | none => rw [ho] at h; cases h
    | some d' => rw [ho] at h; cases h; rfl
  · intro h
    have hlt := hs.finished_lt (hs.stored_eq_some.mp h).2.2
    rw [hs.retired_slot hlt hw,h]
    rfl

/-- `front_index` is the slot of the oldest generation for every capacity. -/
theorem frontIndex_eq (hs : s.Valid) : s.queue.frontIndex = s.front % N := by
  have hl := hs.len_add_capacity
  have h := sub_mod_eq (Nat.pos_of_neZero N) (show s.queue.len ≤ N by omega) hs.len_le
  rw [front,h]
  rfl

/-- Every slot belongs to a generation of the window or was never issued. -/
theorem slot_cases (hs : s.Valid) (i : Fin N) :
    (∃ g, InWindow N s.queue.counter g ∧ slotOf g = i) ∨ (s.queue.queueItems i).slot = .empty := by
  by_cases hi : (i : ℕ) < s.queue.counter
  · obtain ⟨g,hw,hg⟩ := exists_inWindow i.isLt hi
    exact Or.inl ⟨g,hw,Fin.ext hg⟩
  · exact Or.inr (hs.fresh i (by omega))

/-- The occupied slots are those of the queued generations. -/
theorem occupied_slots (hs : s.Valid) :
    Finset.univ.filter (fun i => (s.queue.queueItems i).slot.occupied = true) =
      (Finset.Ico s.front s.queue.counter).image slotOf := by
  ext i
  simp only [Finset.mem_filter,Finset.mem_univ,true_and,Finset.mem_image,Finset.mem_Ico]
  constructor
  · intro ho
    rcases hs.slot_cases i with ⟨g,hw,rfl⟩ | he
    · exact ⟨g,⟨(hs.occupied_iff hw).mp ho,hw.1⟩,rfl⟩
    · rw [he] at ho
      cases ho
  · rintro ⟨g,⟨h₁,h₂⟩,rfl⟩
    exact hs.occupied_of_front_le h₁ h₂

theorem slotOf_injOn (hs : s.Valid) :
    Set.InjOn (slotOf : ℕ → Fin N) (Finset.Ico s.front s.queue.counter) := by
  intro g hg h hh he
  obtain ⟨hg₁,hg₂⟩ := Finset.mem_Ico.mp hg
  obtain ⟨hh₁,hh₂⟩ := Finset.mem_Ico.mp hh
  by_contra hne
  exact slotOf_ne (hs.inWindow_of_front_le hg₁ hg₂) (hs.inWindow_of_front_le hh₁ hh₂) hne he

end Valid

theorem new_valid : (new : QueueSystem N C P E).Valid where
  capacity_le := le_rfl
  len_le := by simp [new,TxQueueState.new,TxQueueState.len]
  counter_eq := rfl
  handles_lt := by simp [new]
  items g h := absurd h.1 (Nat.not_lt_zero g)
  fresh _ _ := rfl
  active_front := by simp [new]
  handed_frames := by simp [new]
  handed_generations := by simp [new,handedCount,front,TxQueueState.new]
  finished_generations := by simp [new,front,TxQueueState.new]
  finished_frames := by simp [new]
  claimed_finished := by simp [new]
  claimed_once := by simp [new]

section Preservation
variable {s s' : QueueSystem N C P E} {o : Outcome N C P E}

/-- Replacing the item of one generation of the window: all other generations are
to be shown unaffected by the change of the history. -/
theorem items_update {g : ℕ} {it : TxQueueItem N C P E}
    (hs : s.Valid) (hg : InWindow N s.queue.counter g)
    (hcounter : s'.queue.counter = s.queue.counter)
    (hq : s'.queue.queueItems = Function.update s.queue.queueItems (slotOf g) it)
    (hself : s'.Shows g it)
    (hother : ∀ h item, h ≠ g → s.Shows h item → s'.Shows h item) :
    ∀ h, InWindow N s'.queue.counter h → s'.Shows h (s'.item h) := by
  intro h hh
  rw [hcounter] at hh
  unfold item
  rw [hq]
  by_cases hhg : h = g
  · subst hhg
    rwa [Function.update_self]
  · rw [Function.update_of_ne (slotOf_ne hh hg hhg)]
    exact hother h _ hhg (hs.items h hh)

theorem fresh_update {g : ℕ} {it : TxQueueItem N C P E} (hs : s.Valid) (hg : g < s.queue.counter)
    (hcounter : s.queue.counter ≤ s'.queue.counter)
    (hq : s'.queue.queueItems = Function.update s.queue.queueItems (slotOf g) it) :
    ∀ i : Fin N, s'.queue.counter ≤ i → (s'.queue.queueItems i).slot = .empty := by
  intro i hi
  rw [hq,Function.update_of_ne (slotOf_lt hg (hcounter.trans hi))]
  exact hs.fresh i (hcounter.trans hi)

omit [NeZero N] in
theorem expectedSlot_congr {g : ℕ} (hfront : g < s'.front ↔ g < s.front)
    (hcount : g < s'.handedCount ↔ g < s.handedCount)
    (hstored : g < s.front → s'.stored g = s.stored g)
    (henqueued : s'.history.enqueued[g]? = s.history.enqueued[g]?) :
    s'.expectedSlot g = s.expectedSlot g := by
  unfold expectedSlot
  rw [henqueued]
  simp only [hfront,hcount]
  split
  · rename_i hlt
    rw [hstored hlt]
  · rfl

section Enqueue
variable {f : PendingFrame N C P} {woken : List Waker}

/-- The state in which `f` has become the newest generation. -/
def pushed (s : QueueSystem N C P E) (f : PendingFrame N C P) (woken : List Waker) :
    QueueSystem N C P E :=
  { s with
    queue := ({ s.queue with
      counter := s.queue.counter + 1
      capacity := s.queue.capacity - 1 }).setItem (slotOf s.queue.counter)
        { s.item s.queue.counter with slot := .pending f, returnDataExpected := true }
    handles := insert s.queue.counter s.handles
    history := { s.history with
      enqueued := s.history.enqueued ++ [f]
      woken := s.history.woken ++ woken } }

theorem enqueueFrame_pushed (he : s.enqueueFrame f = .ok o) :
    0 < s.queue.capacity ∧ ∃ woken, o.system = s.pushed f woken := by
  unfold QueueSystem.enqueueFrame at he
  split at he
  · cases he
  · rename_i q c old w hq
    cases he
    obtain ⟨hcap,_,rfl,rfl,rfl⟩ := enqueueFrame_ok hq
    exact ⟨hcap,w.toList,rfl⟩

theorem pushed_len (hs : s.Valid) (hcap : 0 < s.queue.capacity) :
    (s.pushed f woken).queue.len = s.queue.len + 1 := by
  have hlen := hs.len_add_capacity
  change N - (s.queue.capacity - 1) = _
  omega

theorem pushed_front (hs : s.Valid) (hcap : 0 < s.queue.capacity) :
    (s.pushed f woken).front = s.front := by
  have hlen : (s.pushed f woken).queue.len = s.queue.len + 1 := pushed_len hs hcap
  have hle := hs.len_le
  have hcounter : (s.pushed f woken).queue.counter = s.queue.counter + 1 := rfl
  unfold front
  omega

theorem pushed_handedCount (hs : s.Valid) (hcap : 0 < s.queue.capacity) :
    (s.pushed f woken).handedCount = s.handedCount := by
  unfold handedCount
  rw [pushed_front hs hcap]
  rfl

theorem pushed_enqueued (hs : s.Valid) {g : ℕ} (hg : g < s.queue.counter) :
    (s.pushed f woken).history.enqueued[g]? = s.history.enqueued[g]? :=
  List.getElem?_append_left (hs.counter_eq ▸ hg)

theorem pushed_mem_handles {g : ℕ} (hg : g ≠ s.queue.counter) :
    g ∈ (s.pushed f woken).handles ↔ g ∈ s.handles := by
  change g ∈ insert s.queue.counter s.handles ↔ _
  rw [Finset.mem_insert,or_iff_right hg]

/-- The new generation is pending and wanted. -/
theorem pushed_shows_new (hs : s.Valid) (hcap : 0 < s.queue.capacity) :
    (s.pushed f woken).Shows s.queue.counter ((s.pushed f woken).item s.queue.counter) := by
  have hfl := hs.front_add_len
  have hhc := hs.handedCount_le
  have hitem : (s.pushed f woken).item s.queue.counter = { s.item s.queue.counter with
      slot := .pending f, returnDataExpected := true } := Function.update_self ..
  have hlast : (s.pushed f woken).history.enqueued[s.queue.counter]? = some f := by
    rw [hs.counter_eq]
    exact List.getElem?_concat_length ..
  rw [hitem]
  refine ⟨?_,by simp [pushed]⟩
  rw [expectedSlot,pushed_front hs hcap,pushed_handedCount hs hcap,if_neg (by omega),
    if_neg (by omega),hlast]

/-- The generations that stay in the window keep their items. -/
theorem pushed_shows_old (hs : s.Valid) (hcap : 0 < s.queue.capacity) {g : ℕ}
    (hw : InWindow N (s.queue.counter + 1) g) (hg : g ≠ s.queue.counter) :
    (s.pushed f woken).Shows g ((s.pushed f woken).item g) := by
  obtain ⟨hslot,hflag⟩ := hs.items g (inWindow_succ hw hg)
  have hitem : (s.pushed f woken).item g = s.item g := Function.update_of_ne
    (slotOf_ne hw (inWindow_self (Nat.pos_of_neZero N)) hg) _ _
  have hstored : (s.pushed f woken).stored g = s.stored g := by
    simp only [stored,pushed_mem_handles hg]
    rfl
  rw [hitem,Shows,pushed_mem_handles hg]
  refine ⟨hslot.trans (Eq.symm ?_),hflag⟩
  apply expectedSlot_congr
  · rw [pushed_front hs hcap]
  · rw [pushed_handedCount hs hcap]
  · exact fun _ => hstored
  · exact pushed_enqueued hs (inWindow_succ hw hg).1

theorem pushed_valid (hs : s.Valid) (hcap : 0 < s.queue.capacity) :
    (s.pushed f woken).Valid := by
  have hfl := hs.front_add_len
  have hfront : (s.pushed f woken).front = s.front := pushed_front hs hcap
  have hhanded : (s.pushed f woken).handedCount = s.handedCount := pushed_handedCount hs hcap
  refine
    { capacity_le := (Nat.sub_le ..).trans hs.capacity_le
      len_le := by rw [pushed_len hs hcap]; exact Nat.succ_le_succ hs.len_le
      counter_eq := ?_
      handles_lt := ?_
      items := ?_
      fresh := ?_
      active_front := ?_
      handed_frames := ?_
      handed_generations := by rw [hhanded]; exact hs.handed_generations
      finished_generations := by rw [hfront]; exact hs.finished_generations
      finished_frames := ?_
      claimed_finished := hs.claimed_finished
      claimed_once := hs.claimed_once }
  · change s.queue.counter + 1 = (s.history.enqueued ++ [f]).length
    simp [hs.counter_eq]
  · intro g hg
    rcases Finset.mem_insert.mp hg with rfl | hg
    · exact Nat.lt_succ_self _
    · exact (hs.handles_lt g hg).trans (Nat.lt_succ_self _)
  · intro g hw
    by_cases hg : g = s.queue.counter
    · subst hg
      exact pushed_shows_new hs hcap
    · exact pushed_shows_old hs hcap hw hg
  · intro i hi
    change s.queue.counter + 1 ≤ i at hi
    have hne : i ≠ slotOf s.queue.counter := slotOf_lt (Nat.lt_succ_self _) hi
    change (Function.update s.queue.queueItems _ _ i).slot = _
    rw [Function.update_of_ne hne]
    exact hs.fresh i (by omega)
  · intro t f' ha
    obtain ⟨hp,hi,hg,hf'⟩ := hs.active_front t f' ha
    rw [pushed_len hs hcap,hfront]
    exact ⟨Nat.succ_pos _,hi,hg,(pushed_enqueued hs (by omega)).trans hf'⟩
  · have hhc := hs.handedCount_le
    rw [hhanded]
    change _ = (s.history.enqueued ++ [f]).take _
    rw [List.take_append_of_le_length (hs.counter_eq ▸ hhc),← hs.handed_frames]
    rfl
  · intro g d hd
    obtain ⟨f',hf',hrest⟩ := hs.finished_frames g d hd
    have hlt := hs.finished_lt hd
    exact ⟨f',(pushed_enqueued hs (by omega)).trans hf',hrest⟩

/-- A new generation takes the slot of the one that leaves the window. -/
theorem enqueueFrame_valid (hs : s.Valid) (he : s.enqueueFrame f = .ok o) : o.system.Valid := by
  obtain ⟨hcap,woken,ho⟩ := enqueueFrame_pushed he
  rw [ho]
  exact pushed_valid hs hcap

end Enqueue

omit [NeZero N] in
theorem isEmpty_eq_false (h : s.queue.isEmpty = false) : s.queue.capacity ≠ N := by
  simpa [TxQueueState.isEmpty] using h

/-- The runner takes the oldest queued frame. -/
theorem tryReceive_valid (hs : s.Valid) (he : s.tryReceive = .ok o) : o.system.Valid := by
  unfold QueueSystem.tryReceive at he
  cases ha : s.active with
  | some a => simp only [ha] at he; cases he
  | none =>
    simp only [ha] at he
    split at he
    · cases he
    · cases he
      exact hs
    · rename_i t f q hq
      split at he
      · cases he
        obtain ⟨hne,hidx,hgen,hpend,rfl⟩ := tryReceive_some hq
        have hcap := isEmpty_eq_false hne
        have hlen := hs.len_add_capacity
        have hfl := hs.front_add_len
        have hcount : s.handedCount = s.front := by simp [handedCount,ha]
        have hi : t.index = slotOf s.front := Fin.ext (hidx.trans hs.frontIndex_eq)
        obtain ⟨f',hf',hslot⟩ := hs.queued_slot hcount.le (by omega)
        obtain rfl : f = f' := by
          rw [hi] at hpend
          exact TxQueueSlot.pending.inj (hpend.symm.trans hslot)
        have hwf := hs.inWindow_of_front_le le_rfl (by omega)
        set s' : QueueSystem N C P E := _ with hs'
        change s'.Valid
        have hfront : s'.front = s.front := rfl
        have hcount' : s'.handedCount = s.front + 1 := rfl
        have hqi : s'.queue.queueItems = Function.update s.queue.queueItems (slotOf s.front)
            { s.item s.front with slot := .inProgress } := by
          change Function.update s.queue.queueItems t.index _ = _
          rw [hi]
          rfl
        refine { hs with
          items := items_update hs hwf rfl hqi ?_ ?_
          fresh := fresh_update hs hwf.1 le_rfl hqi
          active_front := ?_
          handed_frames := ?_
          handed_generations := ?_ }
        · refine ⟨?_,(hs.items _ hwf).2⟩
          rw [expectedSlot,hfront,hcount',if_neg (Nat.lt_irrefl _),if_pos (Nat.lt_succ_self _)]
        · rintro h item hne' ⟨hslot',hflag⟩
          refine ⟨hslot'.trans (Eq.symm ?_),hflag⟩
          exact expectedSlot_congr Iff.rfl (by omega) (fun _ => rfl) rfl
        · intro t' f' ha'
          cases ha'
          exact ⟨by change 0 < s.queue.len; omega,hi,hgen,hf'⟩
        · change (s.history.handed ++ [(t.generation,f)]).map Prod.snd = _
          rw [hcount',List.take_add_one,hf',List.map_append,hs.handed_frames,hcount]
          rfl
        · change (s.history.handed ++ [(t.generation,f)]).map Prod.fst = _
          rw [hcount',List.range_succ,List.map_append,hs.handed_generations,hcount,hgen]
          rfl
      · cases he

section Finish
variable {t : InProgressTransmission N} {f : PendingFrame N C P}
  {out : Option (TxReturnData N C E)} {dropped : List (TxBuffer N C)}

theorem finish_queue (hs : s.Valid) (ha : s.active = some (t,f)) :
    (s.finish t out dropped).system.queue =
      ({ s.queue with capacity := s.queue.capacity + 1 }).setItem (slotOf s.front)
        { s.item s.front with
          slot := if (s.item s.front).returnDataExpected then .ofOutcome out else .empty } := by
  obtain ⟨_,hi,_,_⟩ := hs.active_front t f ha
  have hq := finish_state (s := s.queue) t.index (.ofOutcome out)
  rw [hi] at hq
  rw [QueueSystem.finish,hi]
  exact hq

theorem finish_len (hs : s.Valid) (ha : s.active = some (t,f)) :
    (s.finish t out dropped).system.queue.len + 1 = s.queue.len := by
  obtain ⟨hpos,_,_,_⟩ := hs.active_front t f ha
  have hlen := hs.len_add_capacity
  rw [finish_queue hs ha]
  change N - (s.queue.capacity + 1) + 1 = _
  omega

theorem finish_front (hs : s.Valid) (ha : s.active = some (t,f)) :
    (s.finish t out dropped).system.front = s.front + 1 := by
  have hlen : (s.finish t out dropped).system.queue.len + 1 = s.queue.len := finish_len hs ha
  have hle := hs.len_le
  have hcounter : (s.finish t out dropped).system.queue.counter = s.queue.counter := by
    rw [finish_queue hs ha]
    rfl
  unfold front
  omega

omit [NeZero N] in
theorem handedCount_active (ha : s.active = some (t,f)) : s.handedCount = s.front + 1 := by
  simp [handedCount,ha]

theorem finish_handedCount (hs : s.Valid) (ha : s.active = some (t,f)) :
    (s.finish t out dropped).system.handedCount = s.handedCount := by
  rw [handedCount,finish_front hs ha,handedCount_active ha]
  rfl

/-- Earlier generations keep what they have to deliver. -/
theorem finish_stored_lt (hs : s.Valid) {g : ℕ} (hg : g < s.front) :
    (s.finish t out dropped).system.stored g = s.stored g := by
  have hget : (s.finish t out dropped).system.history.finished[g]? = s.history.finished[g]? :=
    List.getElem?_append_left (by rw [hs.finished_length]; exact hg)
  unfold stored
  rw [hget]
  rfl

/-- The completion is kept exactly if the handle lives. -/
theorem finish_stored_front (hs : s.Valid) :
    (s.finish t out dropped).system.stored s.front =
      if s.front ∈ s.handles then out else none := by
  have hget : (s.finish t out dropped).system.history.finished[s.front]? =
      some (t.generation,out) := by
    rw [← hs.finished_length]
    exact List.getElem?_concat_length ..
  have hnc : s.front ∉ s.history.claimed.map Prod.fst := fun h => (hs.claimed_lt h).false
  unfold stored
  rw [hget]
  change (if s.front ∈ s.handles ∧ s.front ∉ s.history.claimed.map Prod.fst then _ else _) = _
  simp [hnc]

/-- Finishing the front generation keeps its completion exactly if its handle lives. -/
theorem finish_valid (hs : s.Valid) (ha : s.active = some (t,f))
    (hout : ∀ d, out = some d → d.frame.buffer = f.frame.buffer ∧ d.frameLength = f.frameLength) :
    (s.finish t out dropped).system.Valid := by
  obtain ⟨hpos,_,hgen,hf⟩ := hs.active_front t f ha
  have hlen := hs.len_add_capacity
  have hfl := hs.front_add_len
  have hwf := hs.inWindow_of_front_le le_rfl (by omega)
  have hcount := handedCount_active ha
  have hfront : (s.finish t out dropped).system.front = s.front + 1 := finish_front hs ha
  have hcount' : (s.finish t out dropped).system.handedCount = s.handedCount :=
    finish_handedCount hs ha
  have hq : (s.finish t out dropped).system.queue = _ := finish_queue hs ha
  have hcounter : (s.finish t out dropped).system.queue.counter = s.queue.counter := by
    rw [hq]
    rfl
  have hqi : (s.finish t out dropped).system.queue.queueItems =
      Function.update s.queue.queueItems (slotOf s.front) _ := congrArg _ hq
  refine
    { capacity_le := by rw [hq]; change s.queue.capacity + 1 ≤ N; omega
      len_le := ?_
      counter_eq := by rw [hcounter]; exact hs.counter_eq
      handles_lt := by rw [hcounter]; exact hs.handles_lt
      items := items_update hs hwf hcounter hqi ?_ ?_
      fresh := fresh_update hs hwf.1 hcounter.ge hqi
      active_front := nofun
      handed_frames := by rw [hcount']; exact hs.handed_frames
      handed_generations := by rw [hcount']; exact hs.handed_generations
      finished_generations := ?_
      finished_frames := ?_
      claimed_finished := fun g d hd => List.mem_append_left _ (hs.claimed_finished g d hd)
      claimed_once := hs.claimed_once }
  · have hlen' : (s.finish t out dropped).system.queue.len + 1 = s.queue.len := finish_len hs ha
    have hle := hs.len_le
    omega
  · have hint := (hs.items _ hwf).2
    refine ⟨?_,hint⟩
    rw [expectedSlot,hfront,if_pos (Nat.lt_succ_self _),finish_stored_front hs]
    by_cases hm : s.front ∈ s.handles
    · simp [hint.mpr hm,hm]
    · simp [mt hint.mp hm,hm,TxQueueSlot.ofOutcome]
  · rintro h item hne ⟨hslot,hflag⟩
    refine ⟨hslot.trans (Eq.symm ?_),hflag⟩
    exact expectedSlot_congr (by omega) (by omega) (finish_stored_lt hs) rfl
  · change (s.history.finished ++ [(t.generation,out)]).map Prod.fst = _
    rw [hfront,List.range_succ,List.map_append,hs.finished_generations,hgen]
    rfl
  · intro g d hd
    rcases List.mem_append.mp hd with hd | hd
    · exact hs.finished_frames g d hd
    · obtain ⟨rfl,hout'⟩ := Prod.mk.inj (List.mem_singleton.mp hd)
      exact ⟨f,by rw [hgen]; exact hf,hout d hout'.symm⟩

end Finish

/-- Registering a waker is no change of the invariant. -/
theorem registerWaker_valid (hs : s.Valid) {g : ℕ} (hw : InWindow N s.queue.counter g)
    (w : Option Waker) :
    Valid { s with queue := s.queue.setItem (slotOf g) { s.item g with waker := w } } :=
  { hs with
    items := items_update hs hw rfl rfl (hs.items g hw) (fun _ _ _ h => h)
    fresh := fresh_update hs hw.1 le_rfl rfl }

/-- A poll that yields the completion of its own generation empties the slot. -/
theorem claim_valid (hs : s.Valid) {g : ℕ} (hw : InWindow N s.queue.counter g)
    {d : TxReturnData N C E} (hslot : (s.item g).slot = .returnDataAvailable d) :
    Valid { s with
      queue := s.queue.setItem (slotOf g) { s.item g with slot := .empty }
      history := { s.history with claimed := s.history.claimed ++ [(g,d)] } } := by
  obtain ⟨_,hnc,hfin⟩ := (hs.returnDataAvailable_iff hw).mp hslot
  have hlt := hs.finished_lt hfin
  set s' : QueueSystem N C P E := _ with hs'
  change s'.Valid
  have hclaimed : s'.history.claimed.map Prod.fst = s.history.claimed.map Prod.fst ++ [g] :=
    List.map_append ..
  refine { hs with
    items := items_update hs hw rfl rfl ?_ ?_
    fresh := fresh_update hs hw.1 le_rfl rfl
    claimed_finished := ?_
    claimed_once := ?_ }
  · refine ⟨?_,(hs.items g hw).2⟩
    have hn : s'.stored g = none := by
      unfold stored
      rw [hclaimed,if_neg (by simp)]
    rw [expectedSlot,if_pos (show g < s'.front from hlt),hn]
    rfl
  · rintro h item hne ⟨hslot',hflag⟩
    have hst : s'.stored h = s.stored h := by
      unfold stored
      rw [hclaimed]
      simp only [List.mem_append,List.mem_singleton,hne,or_false]
      rfl
    refine ⟨hslot'.trans (Eq.symm ?_),hflag⟩
    exact expectedSlot_congr Iff.rfl Iff.rfl (fun _ => hst) rfl
  · intro h d' hd
    rcases List.mem_append.mp hd with hd | hd
    · exact hs.claimed_finished h d' hd
    · obtain ⟨rfl,rfl⟩ := Prod.mk.inj (List.mem_singleton.mp hd)
      exact hfin
  · rw [hclaimed]
    apply List.nodup_append.mpr
    refine ⟨hs.claimed_once,List.nodup_singleton g,?_⟩
    rintro a ha b hb rfl
    exact hnc (List.mem_singleton.mp hb ▸ ha)

theorem waitForCompletion_valid (hs : s.Valid) {g : ℕ} {w : Waker}
    (he : s.waitForCompletion g w = .ok o) : o.system.Valid := by
  unfold QueueSystem.waitForCompletion at he
  by_cases hg : g ∈ s.handles
  · rw [if_pos hg] at he
    have hlt := hs.handles_lt g hg
    rcases waitForCompletion_cases s.queue g w with ⟨_,hp⟩ | ⟨hb,⟨d,hslot,hp⟩ | ⟨_,hp⟩ | ⟨_,hp⟩⟩
    · simp only [hp] at he
      cases he
      exact hs
    · simp only [hp] at he
      cases he
      exact claim_valid hs ((isCounterOutOfBounds_eq_false hlt).mp hb) hslot
    · simp only [hp] at he
      cases he
      exact hs
    · simp only [hp] at he
      cases he
      exact registerWaker_valid hs ((isCounterOutOfBounds_eq_false hlt).mp hb) _
  · rw [if_neg hg] at he
    cases he

omit [NeZero N] in
theorem stored_erase {g h : ℕ} (hne : h ≠ g) (q : TxQueueState N C P E) :
    stored { s with queue := q, handles := s.handles.erase g } h = s.stored h := by
  unfold stored
  simp only [Finset.mem_erase,hne,ne_eq,not_false_eq_true,true_and]

/-- Dropping a handle clears its interest, and a completion it never claimed. -/
theorem dropHandle_valid (hs : s.Valid) {g : ℕ} (he : s.dropHandle g = .ok o) :
    o.system.Valid := by
  unfold QueueSystem.dropHandle at he
  by_cases hg : g ∈ s.handles
  · rw [if_pos hg] at he
    cases he
    have hlt := hs.handles_lt g hg
    have hhandles : ∀ h ∈ s.handles.erase g, h < s.queue.counter :=
      fun h hh => hs.handles_lt h (Finset.mem_of_mem_erase hh)
    have hother : ∀ (q : TxQueueState N C P E), q.counter = s.queue.counter →
        q.capacity = s.queue.capacity → ∀ h item, h ≠ g → s.Shows h item →
        Shows { s with queue := q, handles := s.handles.erase g } h item := by
      rintro q hc hcap h item hne ⟨hslot,hflag⟩
      refine ⟨hslot.trans (Eq.symm ?_),hflag.trans (by simp [hne])⟩
      apply expectedSlot_congr
      · simp only [front,TxQueueState.len,hc,hcap]
      · simp only [handedCount,front,TxQueueState.len,hc,hcap]
      · exact fun _ => stored_erase hne q
      · rfl
    rcases dropPending_cases s.queue g with ⟨hb,hp⟩ | ⟨hb,⟨d,hslot,hp⟩ | ⟨hslot,hp⟩⟩
    · rw [hp]
      refine { hs with
        handles_lt := hhandles
        items := ?_ }
      intro h hw
      refine hother s.queue rfl rfl h _ ?_ (hs.items h hw)
      rintro rfl
      rw [(isCounterOutOfBounds_eq_false hlt).mpr hw] at hb
      cases hb
    · have hw := (isCounterOutOfBounds_eq_false hlt).mp hb
      have hfin := hs.finished_lt ((hs.returnDataAvailable_iff hw).mp hslot).2.2
      rw [hp]
      refine { hs with
        handles_lt := hhandles
        items := items_update hs hw rfl rfl ?_ (hother _ rfl rfl)
        fresh := fresh_update hs hw.1 le_rfl rfl }
      refine ⟨?_,by simp⟩
      change TxQueueSlot.empty = if g < s.front then _ else _
      rw [if_pos hfin,stored,if_neg (by simp)]
      rfl
    · have hw := (isCounterOutOfBounds_eq_false hlt).mp hb
      rw [hp]
      refine { hs with
        handles_lt := hhandles
        items := items_update hs hw rfl rfl ?_ (hother _ rfl rfl)
        fresh := fresh_update hs hw.1 le_rfl rfl }
      refine ⟨?_,by simp⟩
      have hold := (hs.items g hw).1
      change (s.item g).slot = if g < s.front then _ else _
      by_cases hfin : g < s.front
      · rw [if_pos hfin,stored,if_neg (by simp)]
        rw [hs.retired_slot hfin hw]
        cases ho : s.stored g with
        | none => rfl
        | some d =>
          refine absurd ?_ (hslot d)
          exact (hs.retired_slot hfin hw).trans (by rw [ho]; rfl)
      · rw [if_neg hfin]
        rw [hold,expectedSlot,if_neg hfin]
        rfl
  · rw [if_neg hg] at he
    cases he

/-- Every operation preserves the ring invariant. -/
theorem step_valid (hs : s.Valid) {op : QueueOp N C P E} (he : s.step op = .ok o) :
    o.system.Valid := by
  cases op with
  | enqueueFrame f => exact enqueueFrame_valid hs he
  | waitQueueNotEmpty w =>
    cases ha : s.active with
    | some a => simp only [step,ha] at he; cases he
    | none =>
      simp only [step,ha] at he
      cases he
      unfold TxQueueState.waitQueueNotEmpty
      rw [← ha]
      split
      · exact { hs with }
      · exact hs
  | tryReceive => exact tryReceive_valid hs he
  | transmitted result contents =>
    cases ha : s.active with
    | none => simp only [step,ha] at he; cases he
    | some a =>
      simp only [step,ha] at he
      cases he
      refine finish_valid hs ha ?_
      intro d hd
      cases hd
      exact ⟨rfl,rfl⟩
  | abort =>
    cases ha : s.active with
    | none => simp only [step,ha] at he; cases he
    | some a =>
      simp only [step,ha] at he
      cases he
      refine finish_valid hs ha ?_
      intro d hd
      cases hd
  | waitForCompletion g w => exact waitForCompletion_valid hs he
  | status g =>
    simp only [step] at he
    split at he
    · cases he
      exact hs
    · cases he
  | dropHandle g => exact dropHandle_valid hs he

end Preservation
end FerrisOnAir.Tx.QueueSystem
