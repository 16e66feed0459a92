import FerrisOnAir.Foundation.Runs

/-! # A consumer that peeks

A queue hands out its head again until the head is popped. The items are kept after they
are popped, so an item is named by its position. A pass of the consumer fetches the head,
works on it and pops as often as its work says; without a number the work never ends. A
pass may also be cancelled between the fetch and the pop.
-/
namespace FerrisOnAir
variable {α E : Type*}

structure PeekQueue (α : Type*) where
  items : List α
  done : ℕ

namespace PeekQueue
variable (q : PeekQueue α)

def peek : Option α := q.items[q.done]?

def pop (count : ℕ) : PeekQueue α := { q with done := q.done + count }

def push (a : α) : PeekQueue α := { q with items := q.items ++ [a] }

end PeekQueue

/-- A queue and the positions the consumer has fetched from it, in order. -/
structure Consumer (α : Type*) where
  queue : PeekQueue α
  fetched : List ℕ

inductive ConsumerOp (α E : Type*)
  | push (a : α)
  | pass (e : E)
  | cancelledPass

namespace Consumer
variable (work : E → α → Option ℕ) (s : Consumer α)

/-- The fetch of a pass. -/
def fetch : Option (α × Consumer α) :=
  s.queue.peek.map (fun a => (a,{ s with fetched := s.fetched ++ [s.queue.done] }))

def pass (e : E) : Option (Consumer α) :=
  s.fetch.bind (fun x => (work e x.1).map (fun count =>
    { x.2 with queue := x.2.queue.pop count }))

def step : ConsumerOp α E → Option (Consumer α)
  | .push a => some { s with queue := s.queue.push a }
  | .pass e => s.pass work e
  | .cancelledPass => s.fetch.map Prod.snd

def Step (s : Consumer α) (op : ConsumerOp α E) (t : Consumer α) : Prop :=
  s.step work op = some t

/-- The later state has fetched only positions that were not popped before. -/
def Advances (s t : Consumer α) : Prop :=
  s.queue.done ≤ t.queue.done ∧
    ∃ later, t.fetched = s.fetched ++ later ∧ ∀ i ∈ later, s.queue.done ≤ i

/-- The pass ends and has popped the item it fetched and no other, and however the
consumer goes on, it does not fetch that item again. -/
def PoppedOnce (s : Consumer α) (e : E) : Prop :=
  ∃ t, Step work s (.pass e) t ∧ t.queue = s.queue.pop 1 ∧
    ∀ ops u, Runs (Step work) t ops u → ∃ later, u.fetched = t.fetched ++ later ∧
      s.queue.done ∉ later

variable {work} {s} {t u : Consumer α} {e : E} {a : α}

theorem fetch_of_peek (h : s.queue.peek = some a) :
    s.fetch = some (a,{ s with fetched := s.fetched ++ [s.queue.done] }) := by
  rw [fetch,h,Option.map_some]

theorem pass_of_peek (h : s.queue.peek = some a) : s.pass work e =
    (work e a).map (fun count => ⟨s.queue.pop count,s.fetched ++ [s.queue.done]⟩) := by
  rw [pass,fetch_of_peek h,Option.bind_some]

theorem fetch_some {x : α × Consumer α} (h : s.fetch = some x) :
    s.queue.peek = some x.1 ∧ x.2 = { s with fetched := s.fetched ++ [s.queue.done] } := by
  obtain ⟨b,hb,rfl⟩ := Option.map_eq_some_iff.mp h
  exact ⟨hb,rfl⟩

theorem pass_some (h : s.pass work e = some t) : ∃ b count, s.queue.peek = some b ∧
    work e b = some count ∧ t = ⟨s.queue.pop count,s.fetched ++ [s.queue.done]⟩ := by
  obtain ⟨x,hx,h⟩ := Option.bind_eq_some_iff.mp h
  obtain ⟨hpeek,hfetched⟩ := fetch_some hx
  obtain ⟨count,hcount,rfl⟩ := Option.map_eq_some_iff.mp h
  exact ⟨x.1,count,hpeek,hcount,by rw [hfetched]⟩

theorem Advances.refl (s : Consumer α) : Advances s s :=
  ⟨le_rfl,[],(List.append_nil _).symm,by simp⟩

theorem Advances.trans (h : Advances s t) (h' : Advances t u) : Advances s u := by
  obtain ⟨hdone,later,hfetched,hlater⟩ := h
  obtain ⟨hdone',later',hfetched',hlater'⟩ := h'
  refine ⟨hdone.trans hdone',later ++ later',?_,?_⟩
  · rw [hfetched',hfetched,List.append_assoc]
  · intro i hi
    rcases List.mem_append.mp hi with hi | hi
    · exact hlater i hi
    · exact hdone.trans (hlater' i hi)

theorem advances_fetched {q : PeekQueue α} (h : s.queue.done ≤ q.done) :
    Advances s ⟨q,s.fetched ++ [s.queue.done]⟩ := by
  refine ⟨h,[s.queue.done],rfl,?_⟩
  intro i hi
  rw [List.mem_singleton.mp hi]

theorem step_advances {op : ConsumerOp α E} (h : Step work s op t) : Advances s t := by
  unfold Step at h
  cases op with
  | push b =>
    cases h
    exact Advances.refl s
  | pass e =>
    obtain ⟨b,count,_,_,rfl⟩ := pass_some h
    exact advances_fetched (Nat.le_add_right _ _)
  | cancelledPass =>
    obtain ⟨x,hx,rfl⟩ := Option.map_eq_some_iff.mp h
    rw [(fetch_some hx).2]
    exact advances_fetched le_rfl

/-- What was popped is not fetched again. -/
theorem run_advances {ops : List (ConsumerOp α E)} (hr : Runs (Step work) s ops t) :
    Advances s t :=
  hr.related Advances.refl (fun _ _ _ => Advances.trans) (fun _ _ _ => step_advances)

theorem poppedOnce_iff (h : s.queue.peek = some a) :
    s.PoppedOnce work e ↔ work e a = some 1 := by
  constructor
  · rintro ⟨t,he,hpop,_⟩
    obtain ⟨b,count,hpeek,hcount,rfl⟩ := pass_some he
    obtain rfl := Option.some.inj (h.symm.trans hpeek)
    have hdone : s.queue.done + count = s.queue.done + 1 := congrArg PeekQueue.done hpop
    rw [hcount,Nat.add_left_cancel hdone]
  · intro hwork
    refine ⟨⟨s.queue.pop 1,s.fetched ++ [s.queue.done]⟩,?_,rfl,?_⟩
    · change s.pass work e = _
      rw [pass_of_peek h,hwork,Option.map_some]
    · intro ops u hr
      obtain ⟨_,later,hfetched,hlater⟩ := run_advances hr
      refine ⟨later,hfetched,?_⟩
      intro hmem
      have hlt : s.queue.done + 1 ≤ s.queue.done := hlater _ hmem
      omega

/-- An item whose work never pops stays the head. -/
theorem step_stuck {op : ConsumerOp α E} (hwork : ∀ e, work e a = some 0 ∨ work e a = none)
    (h : s.queue.peek = some a) (he : Step work s op t) :
    t.queue.peek = some a ∧ t.queue.done = s.queue.done := by
  unfold Step at he
  cases op with
  | push b =>
    cases he
    refine ⟨?_,rfl⟩
    obtain ⟨hlt,_⟩ := List.getElem?_eq_some_iff.mp h
    change (s.queue.items ++ [b])[s.queue.done]? = some a
    rw [List.getElem?_append_left hlt]
    exact h
  | pass e =>
    obtain ⟨b,count,hpeek,hcount,rfl⟩ := pass_some he
    obtain rfl := Option.some.inj (h.symm.trans hpeek)
    rcases hwork e with hzero | hnone
    · rw [hzero] at hcount
      obtain rfl := Option.some.inj hcount
      exact ⟨h,rfl⟩
    · rw [hnone] at hcount
      cases hcount
  | cancelledPass =>
    obtain ⟨x,hx,rfl⟩ := Option.map_eq_some_iff.mp he
    rw [(fetch_some hx).2]
    exact ⟨h,rfl⟩

theorem run_stuck {ops : List (ConsumerOp α E)} (hwork : ∀ e, work e a = some 0 ∨ work e a = none)
    (h : s.queue.peek = some a) (hr : Runs (Step work) s ops t) :
    t.queue.peek = some a ∧ t.queue.done = s.queue.done := by
  refine hr.invariant (I := fun u => u.queue.peek = some a ∧ u.queue.done = s.queue.done) ?_ ⟨h,rfl⟩
  rintro u op v ⟨hpeek,hdone⟩ he
  obtain ⟨hpeek',hdone'⟩ := step_stuck hwork hpeek he
  exact ⟨hpeek',hdone'.trans hdone⟩

end Consumer

end FerrisOnAir
