import FerrisOnAir.Foundation.Ownership
import FerrisOnAir.Foundation.Runs

/-! # Reference counted receive buffers

`foa/src/rx_arc_pool.rs`. A buffer in use is counted in a word of `w` bits, from zero for a
single handle. A live `RxArcBuffer` is a value at an address of its own, and an address has
`w` bits as well. The mutex is entered only for single assignments, so it is always free.
-/
namespace FerrisOnAir.Rx
variable {n w : ℕ} {B : Type*}

structure RxArcBufferInner (w : ℕ) (B : Type*) where
  buffer : B
  refs : BitVec w
  index : ℕ

/-- The slots of the pool, and for each address the slot that the handle there points to.
The last two count how often a slot was filled and emptied. -/
structure RxArcPool (n w : ℕ) (B : Type*) where
  state : Fin n → Option (RxArcBufferInner w B)
  handles : Fin (2 ^ w) → Option (Fin n)
  inserted : Fin n → ℕ
  freed : Fin n → ℕ

/-- A pointer to a slot that is empty, and an index outside of the array. -/
inductive ArcFault
  | dangling
  | outOfBounds
deriving DecidableEq

/-- A new handle is written to an address without one. -/
inductive ArcOp (w : ℕ) (B : Type*)
  | tryAlloc (buffer : B) (address : Fin (2 ^ w))
  | clone (source address : Fin (2 ^ w))
  | move (source address : Fin (2 ^ w))
  | drop (address : Fin (2 ^ w))

namespace RxArcPool
variable (p : RxArcPool n w B)

def new : RxArcPool n w B := ⟨fun _ => none,fun _ => none,fun _ => 0,fun _ => 0⟩

/-- The slot that the new handle points to. -/
def tryAlloc (buffer : B) : Option (Fin n) × RxArcPool n w B :=
  match (List.finRange n).find? (fun i => (p.state i).isNone) with
  | none => (none,p)
  | some i => (some i,{ p with
      state := Function.update p.state i (some ⟨buffer,0,i⟩)
      inserted := Function.update p.inserted i (p.inserted i + 1) })

/-- The index is read behind the pointer. -/
def free (inner : Fin n) : Except ArcFault (RxArcPool n w B) :=
  match p.state inner with
  | none => .error .dangling
  | some innerRef =>
    if h : innerRef.index < n then .ok { p with
      state := Function.update p.state ⟨innerRef.index,h⟩ none
      freed := Function.update p.freed ⟨innerRef.index,h⟩ (p.freed ⟨innerRef.index,h⟩ + 1) }
    else .error .outOfBounds

/-- `Clone`. -/
def clone (inner : Fin n) (address : Fin (2 ^ w)) : Except ArcFault (RxArcPool n w B) :=
  match p.state inner with
  | none => .error .dangling
  | some innerRef => .ok { p with
      state := Function.update p.state inner (some { innerRef with refs := innerRef.refs + 1 })
      handles := Function.update p.handles address (some inner) }

/-- `Drop` subtracts one even from zero, and then frees the slot. -/
def drop (inner : Fin n) (address : Fin (2 ^ w)) : Except ArcFault (RxArcPool n w B) :=
  match p.state inner with
  | none => .error .dangling
  | some innerRef =>
    let dropped : RxArcPool n w B := { p with
      state := Function.update p.state inner (some { innerRef with refs := innerRef.refs - 1 })
      handles := Function.update p.handles address none }
    if innerRef.refs = 0 then dropped.free inner else .ok dropped

/-- Nothing where there is no handle to use, or no place for the new one. -/
def perform : ArcOp w B → Option (Except ArcFault (RxArcPool n w B))
  | .tryAlloc buffer address =>
    match p.handles address with
    | none =>
      let (inner,allocated) := p.tryAlloc buffer
      some (.ok { allocated with handles := Function.update p.handles address inner })
    | some _ => none
  | .clone source address =>
    match p.handles source,p.handles address with
    | some inner,none => some (p.clone inner address)
    | _,_ => none
  | .move source address =>
    match p.handles source,p.handles address with
    | some inner,none => some (.ok { p with
        handles := Function.update (Function.update p.handles source none) address (some inner) })
    | _,_ => none
  | .drop address =>
    match p.handles address with
    | some inner => some (p.drop inner address)
    | none => none

def Step (p : RxArcPool n w B) (op : ArcOp w B) (q : RxArcPool n w B) : Prop :=
  p.perform op = some (.ok q)

/-- How many live handles point to a slot. -/
def references (i : Fin n) : ℕ := (Finset.univ.filter (fun a => p.handles a = some i)).card

/-- The count is one less than the number of handles, and an empty slot has none. -/
structure Counted (p : RxArcPool n w B) : Prop where
  occupied : ∀ i inner, p.state i = some inner →
    inner.refs.toNat + 1 = p.references i ∧ inner.index = i
  empty : ∀ i, p.state i = none → p.references i = 0
  balance : ∀ i, p.inserted i = p.freed i + if (p.state i).isSome then 1 else 0

/-- The operation drops the only handle of the slot. -/
def DropsLast (p : RxArcPool n w B) (i : Fin n) (op : ArcOp w B) : Prop :=
  ∃ address, op = .drop address ∧ ∀ a, p.handles a = some i ↔ a = address

structure Correct (p : RxArcPool n w B) : Prop where
  counted : p.Counted
  /-- No handle dangles. -/
  no_fault : ∀ op fault, p.perform op ≠ some (.error fault)
  /-- A slot is emptied exactly by its last handle, each time it was filled. -/
  freed_iff : ∀ op q i, p.Step op q → (p.state i).isSome = true →
    (q.state i = none ↔ p.DropsLast i op)
  freed_once : ∀ op q i, p.Step op q →
    (p.DropsLast i op ∧ q.freed i = p.freed i + 1) ∨ (¬ p.DropsLast i op ∧ q.freed i = p.freed i)
  kept : ∀ op q i inner, p.Step op q → p.state i = some inner → ¬ p.DropsLast i op →
    ∃ inner', q.state i = some inner' ∧ inner'.buffer = inner.buffer
  tryAlloc_none : ∀ buffer, (p.tryAlloc buffer).1 = none ↔ ∀ i, (p.state i).isSome = true
  tryAlloc_some : ∀ buffer i, (p.tryAlloc buffer).1 = some i →
    p.state i = none ∧ ∀ a, p.handles a ≠ some i

section References
variable {p} {q : RxArcPool n w B} {a : Fin (2 ^ w)} {h : Option (Fin n)} {i : Fin n}

theorem references_eq_total (p : RxArcPool n w B) (i : Fin n) :
    p.references i = Ownership.total (fun h => if h = some i then 1 else 0) p.handles :=
  Finset.card_filter _ _

theorem references_update (hq : q.handles = Function.update p.handles a h) (i : Fin n) :
    q.references i + (if p.handles a = some i then 1 else 0) =
      p.references i + if h = some i then 1 else 0 := by
  rw [references_eq_total,references_eq_total,hq]
  exact Ownership.total_update _ p.handles a h

theorem references_place (ha : p.handles a = none)
    (hq : q.handles = Function.update p.handles a (some i)) (j : Fin n) :
    q.references j = p.references j + if i = j then 1 else 0 := by
  have hupdate := references_update hq j
  simpa only [ha,reduceCtorEq,if_false,add_zero,Option.some_inj] using hupdate

theorem references_remove (ha : p.handles a = some i)
    (hq : q.handles = Function.update p.handles a none) (j : Fin n) :
    q.references j + (if i = j then 1 else 0) = p.references j := by
  have hupdate := references_update hq j
  simpa only [ha,reduceCtorEq,if_false,add_zero,Option.some_inj] using hupdate

theorem references_place_of_ne (ha : p.handles a = none)
    (hq : q.handles = Function.update p.handles a (some i)) (j : Fin n) (hj : j ≠ i) :
    q.references j = p.references j := by
  rw [references_place ha hq,if_neg (Ne.symm hj),add_zero]

theorem references_remove_of_ne (ha : p.handles a = some i)
    (hq : q.handles = Function.update p.handles a none) (j : Fin n) (hj : j ≠ i) :
    q.references j = p.references j := by
  rw [← references_remove ha hq,if_neg (Ne.symm hj),add_zero]

/-- There are no more handles than addresses. -/
theorem references_le (p : RxArcPool n w B) (i : Fin n) : p.references i ≤ 2 ^ w := by
  have hle := Finset.card_filter_le (Finset.univ : Finset (Fin (2 ^ w)))
    (fun a => p.handles a = some i)
  rwa [Finset.card_univ,Fintype.card_fin] at hle

theorem references_pos (ha : p.handles a = some i) : 0 < p.references i :=
  Finset.card_pos.mpr ⟨a,Finset.mem_filter.mpr ⟨Finset.mem_univ a,ha⟩⟩

theorem references_eq_one_iff (ha : p.handles a = some i) :
    p.references i = 1 ↔ ∀ b, p.handles b = some i ↔ b = a := by
  constructor
  · intro hone b
    obtain ⟨c,hc⟩ := Finset.card_eq_one.mp hone
    have hmem : ∀ b, p.handles b = some i ↔ b = c := by
      intro b
      have hb := Finset.ext_iff.mp hc b
      simpa using hb
    rw [hmem,(hmem a).mp ha]
  · intro honly
    have hset : Finset.univ.filter (fun b => p.handles b = some i) = {a} := by
      ext b
      simpa using honly b
    rw [references,hset,Finset.card_singleton]

end References

section Steps
variable {p} {q : RxArcPool n w B} {op : ArcOp w B} {i : Fin n}

/-- What an operation can do to a pool whose counts are right. -/
inductive Change (p : RxArcPool n w B) (op : ArcOp w B) (q : RxArcPool n w B) : Prop
  | full (buffer : B) (address : Fin (2 ^ w)) (hop : op = .tryAlloc buffer address) (hq : q = p)
  | allocated (buffer : B) (address : Fin (2 ^ w)) (i : Fin n) (hop : op = .tryAlloc buffer address)
      (haddress : p.handles address = none) (hempty : p.state i = none)
      (hq : q = { p with
        state := Function.update p.state i (some ⟨buffer,0,i⟩)
        handles := Function.update p.handles address (some i)
        inserted := Function.update p.inserted i (p.inserted i + 1) })
  | cloned (source address : Fin (2 ^ w)) (i : Fin n) (inner : RxArcBufferInner w B)
      (hop : op = .clone source address) (haddress : p.handles address = none)
      (hinner : p.state i = some inner)
      (hq : q = { p with
        state := Function.update p.state i (some { inner with refs := inner.refs + 1 })
        handles := Function.update p.handles address (some i) })
  | moved (source address : Fin (2 ^ w)) (i : Fin n) (hop : op = .move source address)
      (hsource : p.handles source = some i) (haddress : p.handles address = none)
      (hq : q = { p with
        handles := Function.update (Function.update p.handles source none) address (some i) })
  | dropped (address : Fin (2 ^ w)) (i : Fin n) (inner : RxArcBufferInner w B)
      (hop : op = .drop address) (haddress : p.handles address = some i)
      (hinner : p.state i = some inner) (hrefs : inner.refs ≠ 0)
      (hq : q = { p with
        state := Function.update p.state i (some { inner with refs := inner.refs - 1 })
        handles := Function.update p.handles address none })
  | freed (address : Fin (2 ^ w)) (i : Fin n) (inner : RxArcBufferInner w B)
      (hop : op = .drop address) (haddress : p.handles address = some i)
      (hinner : p.state i = some inner) (hrefs : inner.refs = 0)
      (hq : q = { p with
        state := Function.update p.state i none
        handles := Function.update p.handles address none
        freed := Function.update p.freed i (p.freed i + 1) })

theorem tryAlloc_cases (p : RxArcPool n w B) (buffer : B) :
    (p.tryAlloc buffer = (none,p) ∧ ∀ i, (p.state i).isSome = true) ∨
    ∃ i, p.state i = none ∧ p.tryAlloc buffer = (some i,{ p with
      state := Function.update p.state i (some ⟨buffer,0,i⟩)
      inserted := Function.update p.inserted i (p.inserted i + 1) }) := by
  unfold tryAlloc
  cases hfind : (List.finRange n).find? (fun i => (p.state i).isNone) with
  | none =>
    refine .inl ⟨rfl,?_⟩
    intro i
    have hi := List.find?_eq_none.mp hfind i (List.mem_finRange i)
    simpa [Option.isSome_iff_ne_none] using hi
  | some i =>
    have hi := List.find?_some hfind
    exact .inr ⟨i,Option.isNone_iff_eq_none.mp hi,rfl⟩

/-- A handle points to an occupied slot. -/
theorem Counted.occupied_of_handle (hp : p.Counted) {a : Fin (2 ^ w)} (ha : p.handles a = some i) :
    ∃ inner, p.state i = some inner := by
  cases hi : p.state i with
  | some inner => exact ⟨inner,rfl⟩
  | none => exact absurd (hp.empty i hi) (references_pos ha).ne'

theorem drop_change (hp : p.Counted) {address : Fin (2 ^ w)} (ha : p.handles address = some i) :
    ∃ q, p.drop i address = .ok q ∧ p.Change (.drop address) q := by
  obtain ⟨inner,hinner⟩ := hp.occupied_of_handle ha
  obtain ⟨-,hindex⟩ := hp.occupied i inner hinner
  unfold drop
  simp only [hinner]
  by_cases hrefs : inner.refs = 0
  · rw [if_pos hrefs]
    have hlt : inner.index < n := hindex ▸ i.isLt
    have hi : (⟨inner.index,hlt⟩ : Fin n) = i := Fin.ext hindex
    refine ⟨_,?_,.freed address i inner rfl ha hinner hrefs rfl⟩
    unfold free
    simp only [Function.update_self,dif_pos hlt,hi,Function.update_idem]
  · rw [if_neg hrefs]
    exact ⟨_,rfl,.dropped address i inner rfl ha hinner hrefs rfl⟩

/-- No operation faults. -/
theorem perform_change (hp : p.Counted) {r : Except ArcFault (RxArcPool n w B)}
    (h : p.perform op = some r) : ∃ q, r = .ok q ∧ p.Change op q := by
  cases op with
  | tryAlloc buffer address =>
    simp only [perform] at h
    cases ha : p.handles address with
    | some i =>
      rw [ha] at h
      cases h
    | none =>
      rw [ha] at h
      refine ⟨_,(Option.some.inj h).symm,?_⟩
      rcases tryAlloc_cases p buffer with ⟨heq,-⟩ | ⟨i,hi,heq⟩
      · rw [heq]
        exact .full buffer address rfl (by rw [← ha,Function.update_eq_self])
      · rw [heq]
        exact .allocated buffer address i rfl ha hi rfl
  | clone source address =>
    simp only [perform] at h
    split at h
    · rename_i i hsource haddress
      obtain ⟨inner,hinner⟩ := hp.occupied_of_handle hsource
      refine ⟨_,(Option.some.inj h).symm.trans ?_,
        .cloned source address i inner rfl haddress hinner rfl⟩
      rw [clone,hinner]
    · cases h
  | move source address =>
    simp only [perform] at h
    split at h
    · rename_i i hsource haddress
      exact ⟨_,(Option.some.inj h).symm,.moved source address i rfl hsource haddress rfl⟩
    · cases h
  | drop address =>
    simp only [perform] at h
    split at h
    · rename_i i ha
      obtain ⟨q,hq,hchange⟩ := drop_change hp ha
      exact ⟨q,(Option.some.inj h).symm.trans hq,hchange⟩
    · cases h

theorem step_change (hp : p.Counted) (hs : p.Step op q) : p.Change op q := by
  obtain ⟨q',hq,hchange⟩ := perform_change hp hs
  cases hq
  exact hchange

/-- An occupied slot that is counted, seen by itself. -/
structure CountedAt (p : RxArcPool n w B) (i : Fin n) : Prop where
  occupied : ∀ inner, p.state i = some inner →
    inner.refs.toNat + 1 = p.references i ∧ inner.index = i
  empty : p.state i = none → p.references i = 0
  balance : p.inserted i = p.freed i + if (p.state i).isSome then 1 else 0

theorem Counted.at (hp : p.Counted) (i : Fin n) : p.CountedAt i :=
  ⟨hp.occupied i,hp.empty i,hp.balance i⟩

theorem counted_of_at (h : ∀ i, p.CountedAt i) : p.Counted :=
  ⟨fun i => (h i).occupied,fun i => (h i).empty,fun i => (h i).balance⟩

/-- A slot that an operation leaves alone. -/
theorem CountedAt.of_eq (hp : p.CountedAt i) (hstate : q.state i = p.state i)
    (hreferences : q.references i = p.references i) (hinserted : q.inserted i = p.inserted i)
    (hfreed : q.freed i = p.freed i) : q.CountedAt i := by
  refine ⟨?_,?_,?_⟩
  · rw [hstate,hreferences]
    exact hp.occupied
  · rw [hstate,hreferences]
    exact hp.empty
  · rw [hstate,hinserted,hfreed]
    exact hp.balance

/-- A slot that stays occupied, by one handle more or less. -/
theorem CountedAt.of_refs (hp : p.CountedAt i) {inner inner' : RxArcBufferInner w B}
    (hinner : p.state i = some inner) (hinner' : q.state i = some inner')
    (hreferences : inner'.refs.toNat + 1 = q.references i) (hindex : inner'.index = inner.index)
    (hinserted : q.inserted i = p.inserted i) (hfreed : q.freed i = p.freed i) :
    q.CountedAt i := by
  refine ⟨?_,?_,?_⟩
  · intro inner'' h
    obtain rfl := Option.some.inj (hinner'.symm.trans h)
    exact ⟨hreferences,hindex.trans (hp.occupied inner hinner).2⟩
  · intro h
    rw [hinner'] at h
    cases h
  · have hbalance := hp.balance
    rw [hinner] at hbalance
    rw [hinner',hinserted,hfreed]
    exact hbalance

/-- A slot that is filled. -/
theorem CountedAt.of_filled (hp : p.CountedAt i) {inner : RxArcBufferInner w B}
    (hempty : p.state i = none) (hinner : q.state i = some inner)
    (hreferences : inner.refs.toNat + 1 = q.references i) (hindex : inner.index = i)
    (hinserted : q.inserted i = p.inserted i + 1) (hfreed : q.freed i = p.freed i) :
    q.CountedAt i := by
  refine ⟨?_,?_,?_⟩
  · intro inner' h
    obtain rfl := Option.some.inj (hinner.symm.trans h)
    exact ⟨hreferences,hindex⟩
  · intro h
    rw [hinner] at h
    cases h
  · have hbalance := hp.balance
    rw [hempty] at hbalance
    rw [hinner,hinserted,hfreed,hbalance]
    rfl

/-- A slot that is emptied. -/
theorem CountedAt.of_emptied (hp : p.CountedAt i) {inner : RxArcBufferInner w B}
    (hinner : p.state i = some inner) (hempty : q.state i = none) (hnone : q.references i = 0)
    (hinserted : q.inserted i = p.inserted i) (hfreed : q.freed i = p.freed i + 1) :
    q.CountedAt i := by
  refine ⟨?_,?_,?_⟩
  · intro inner' h
    rw [hempty] at h
    cases h
  · intro _
    exact hnone
  · have hbalance := hp.balance
    rw [hinner] at hbalance
    rw [hempty,hinserted,hfreed,hbalance]
    rfl

/-- The operation is about one slot and leaves the others alone. -/
theorem Counted.of_slot (hp : p.Counted) (hi : q.CountedAt i)
    (hstate : ∀ j, j ≠ i → q.state j = p.state j)
    (hreferences : ∀ j, j ≠ i → q.references j = p.references j)
    (hinserted : ∀ j, j ≠ i → q.inserted j = p.inserted j)
    (hfreed : ∀ j, j ≠ i → q.freed j = p.freed j) : q.Counted := by
  apply counted_of_at
  intro j
  by_cases hj : j = i
  · rw [hj]
    exact hi
  · exact (hp.at j).of_eq (hstate j hj) (hreferences j hj) (hinserted j hj) (hfreed j hj)

/-- One more handle still fits the word, as there are addresses for all. -/
theorem toNat_add_one {refs : BitVec w} {references : ℕ} (h : refs.toNat + 1 = references)
    (hle : references + 1 ≤ 2 ^ w) : (refs + 1).toNat = references := by
  have hw : 1 < 2 ^ w := by omega
  rw [BitVec.toNat_add,← h]
  change (refs.toNat + 1 % 2 ^ w) % 2 ^ w = _
  rw [Nat.mod_eq_of_lt hw,Nat.mod_eq_of_lt (by omega)]

theorem toNat_sub_one {refs : BitVec w} {references : ℕ} (h : refs.toNat + 1 = references)
    (hne : refs ≠ 0) : (refs - 1).toNat + 1 + 1 = references := by
  have hpos : 0 < refs.toNat := by
    rw [Nat.pos_iff_ne_zero]
    intro hzero
    exact hne (BitVec.eq_of_toNat_eq hzero)
  have hw : 1 < 2 ^ w := by
    have hlt := refs.isLt
    omega
  have hone : (1 : BitVec w).toNat = 1 := Nat.mod_eq_of_lt hw
  rw [BitVec.toNat_sub_of_le (by rw [BitVec.le_def,hone]; exact hpos),hone]
  omega

theorem counted_change (hp : p.Counted) (hc : p.Change op q) : q.Counted := by
  cases hc with
  | full buffer address hop hq =>
    rw [hq]
    exact hp
  | allocated buffer address i hop haddress hempty hq =>
    have hhandles : q.handles = Function.update p.handles address (some i) := by rw [hq]
    have hreferences := references_place haddress hhandles i
    rw [if_pos rfl,hp.empty i hempty] at hreferences
    have hother := references_place_of_ne haddress hhandles
    subst hq
    refine hp.of_slot ?_ (fun j hj => Function.update_of_ne hj _ _) hother
      (fun j hj => Function.update_of_ne hj _ _) (fun _ _ => rfl)
    exact (hp.at i).of_filled hempty (Function.update_self _ _ _) hreferences.symm rfl
      (Function.update_self _ _ _) rfl
  | cloned source address i inner hop haddress hinner hq =>
    have hhandles : q.handles = Function.update p.handles address (some i) := by rw [hq]
    have hreferences := references_place haddress hhandles i
    have hle := q.references_le i
    rw [if_pos rfl] at hreferences
    rw [hreferences] at hle
    have hother := references_place_of_ne haddress hhandles
    subst hq
    refine hp.of_slot ?_ (fun j hj => Function.update_of_ne hj _ _) hother (fun _ _ => rfl)
      (fun _ _ => rfl)
    refine (hp.at i).of_refs hinner (Function.update_self _ _ _) ?_ rfl rfl rfl
    rw [hreferences,toNat_add_one (hp.occupied i inner hinner).1 hle]
  | moved source address i hop hsource haddress hq =>
    have hne : address ≠ source := by
      rintro rfl
      rw [hsource] at haddress
      cases haddress
    have hreferences : ∀ j, q.references j = p.references j := by
      intro j
      have hremove : RxArcPool.references
          { p with handles := Function.update p.handles source none } j +
            (if i = j then 1 else 0) = p.references j := references_remove hsource rfl j
      rw [← hremove]
      refine references_place ?_ (by rw [hq]) j
      exact (Function.update_of_ne hne _ _).trans haddress
    subst hq
    apply counted_of_at
    intro j
    exact (hp.at j).of_eq rfl (hreferences j) rfl rfl
  | dropped address i inner hop haddress hinner hrefs hq =>
    have hhandles : q.handles = Function.update p.handles address none := by rw [hq]
    have hreferences := references_remove haddress hhandles i
    rw [if_pos rfl] at hreferences
    have hother := references_remove_of_ne haddress hhandles
    subst hq
    refine hp.of_slot ?_ (fun j hj => Function.update_of_ne hj _ _) hother (fun _ _ => rfl)
      (fun _ _ => rfl)
    refine (hp.at i).of_refs hinner (Function.update_self _ _ _) ?_ rfl rfl rfl
    have hcount := toNat_sub_one (hp.occupied i inner hinner).1 hrefs
    dsimp only
    omega
  | freed address i inner hop haddress hinner hrefs hq =>
    have hhandles : q.handles = Function.update p.handles address none := by rw [hq]
    have hreferences := references_remove haddress hhandles i
    rw [if_pos rfl] at hreferences
    have hone := (hp.occupied i inner hinner).1
    rw [hrefs] at hone
    have hother := references_remove_of_ne haddress hhandles
    subst hq
    refine hp.of_slot ?_ (fun j hj => Function.update_of_ne hj _ _) hother (fun _ _ => rfl)
      (fun j hj => Function.update_of_ne hj _ _)
    refine (hp.at i).of_emptied hinner (Function.update_self _ _ _) ?_ rfl
      (Function.update_self _ _ _)
    change 0 + 1 = p.references i at hone
    omega

theorem not_dropsLast (hop : ∀ address, op ≠ .drop address) : ¬ p.DropsLast i op := by
  rintro ⟨address,rfl,-⟩
  exact hop address rfl

theorem dropsLast_drop_iff {address : Fin (2 ^ w)} {j : Fin n}
    (ha : p.handles address = some i) :
    p.DropsLast j (.drop address) ↔ i = j ∧ p.references i = 1 := by
  constructor
  · rintro ⟨a,heq,honly⟩
    obtain rfl : address = a := by cases heq; rfl
    obtain rfl : i = j := Option.some.inj (ha.symm.trans ((honly address).mpr rfl))
    exact ⟨rfl,(references_eq_one_iff ha).mpr honly⟩
  · rintro ⟨rfl,hone⟩
    exact ⟨address,rfl,(references_eq_one_iff ha).mp hone⟩

/-- A slot is emptied by its last handle, and otherwise keeps its buffer. -/
theorem change_slot (hp : p.Counted) (hc : p.Change op q) (j : Fin n) :
    (p.DropsLast j op ∧ q.state j = none ∧ q.freed j = p.freed j + 1) ∨
    (¬ p.DropsLast j op ∧ q.freed j = p.freed j ∧ ∀ inner, p.state j = some inner →
      ∃ inner', q.state j = some inner' ∧ inner'.buffer = inner.buffer) := by
  cases hc with
  | full buffer address hop hq =>
    rw [hq]
    exact .inr ⟨not_dropsLast (by rw [hop]; exact nofun),rfl,fun inner h => ⟨inner,h,rfl⟩⟩
  | allocated buffer address i hop haddress hempty hq =>
    subst hq
    refine .inr ⟨not_dropsLast (by rw [hop]; exact nofun),rfl,?_⟩
    intro inner hinner
    have hj : j ≠ i := by
      rintro rfl
      rw [hempty] at hinner
      cases hinner
    exact ⟨inner,(Function.update_of_ne hj _ _).trans hinner,rfl⟩
  | cloned source address i inner hop haddress hinner hq =>
    subst hq
    refine .inr ⟨not_dropsLast (by rw [hop]; exact nofun),rfl,?_⟩
    intro inner' hinner'
    by_cases hj : j = i
    · subst hj
      obtain rfl := Option.some.inj (hinner.symm.trans hinner')
      exact ⟨_,Function.update_self _ _ _,rfl⟩
    · exact ⟨inner',(Function.update_of_ne hj _ _).trans hinner',rfl⟩
  | moved source address i hop hsource haddress hq =>
    subst hq
    exact .inr ⟨not_dropsLast (by rw [hop]; exact nofun),rfl,fun inner h => ⟨inner,h,rfl⟩⟩
  | dropped address i inner hop haddress hinner hrefs hq =>
    subst hq hop
    rw [dropsLast_drop_iff haddress]
    refine .inr ⟨?_,rfl,?_⟩
    · rintro ⟨-,hone⟩
      have hcount := (hp.occupied i inner hinner).1
      exact hrefs (BitVec.eq_of_toNat_eq (Nat.succ.inj (hcount.trans hone)))
    · intro inner' hinner'
      by_cases hj : j = i
      · subst hj
        obtain rfl := Option.some.inj (hinner.symm.trans hinner')
        exact ⟨_,Function.update_self _ _ _,rfl⟩
      · exact ⟨inner',(Function.update_of_ne hj _ _).trans hinner',rfl⟩
  | freed address i inner hop haddress hinner hrefs hq =>
    subst hq hop
    rw [dropsLast_drop_iff haddress]
    by_cases hj : i = j
    · subst hj
      have hcount := (hp.occupied i inner hinner).1
      rw [hrefs] at hcount
      exact .inl ⟨⟨rfl,hcount.symm⟩,Function.update_self _ _ _,Function.update_self _ _ _⟩
    · refine .inr ⟨fun h => hj h.1,Function.update_of_ne (Ne.symm hj) _ _,?_⟩
      intro inner' hinner'
      exact ⟨inner',(Function.update_of_ne (Ne.symm hj) _ _).trans hinner',rfl⟩

theorem counted_new : (new : RxArcPool n w B).Counted := by
  refine ⟨nofun,?_,fun _ => rfl⟩
  intro i _
  exact Finset.card_eq_zero.mpr (Finset.filter_eq_empty_iff.mpr nofun)

/-- In every run the count of a buffer is right, and a slot is filled and emptied in turn, the
latter by its last handle. -/
theorem arcPool_correct (ops : List (ArcOp w B)) (p : RxArcPool n w B) (hr : Runs Step new ops p) :
    p.Correct := by
  have hp : p.Counted := hr.invariant (fun _ _ _ hp hs => counted_change hp (step_change hp hs))
    counted_new
  refine ⟨hp,?_,?_,?_,?_,?_,?_⟩
  · intro op fault hfault
    obtain ⟨q,hq,-⟩ := perform_change hp hfault
    cases hq
  · intro op q i hs hsome
    rcases change_slot hp (step_change hp hs) i with ⟨hlast,hnone,-⟩ | ⟨hlast,-,hkept⟩
    · exact iff_of_true hnone hlast
    · refine iff_of_false ?_ hlast
      obtain ⟨inner,hinner⟩ := Option.isSome_iff_exists.mp hsome
      obtain ⟨inner',hinner',-⟩ := hkept inner hinner
      rw [hinner']
      exact nofun
  · intro op q i hs
    rcases change_slot hp (step_change hp hs) i with ⟨hlast,-,hfreed⟩ | ⟨hlast,hfreed,-⟩
    · exact .inl ⟨hlast,hfreed⟩
    · exact .inr ⟨hlast,hfreed⟩
  · intro op q i inner hs hinner hlast
    rcases change_slot hp (step_change hp hs) i with ⟨h,-,-⟩ | ⟨-,-,hkept⟩
    · exact absurd h hlast
    · exact hkept inner hinner
  · intro buffer
    rcases tryAlloc_cases p buffer with ⟨heq,hall⟩ | ⟨i,hi,heq⟩
    · rw [heq]
      exact iff_of_true rfl hall
    · rw [heq]
      refine iff_of_false nofun ?_
      intro hall
      have hsome := hall i
      rw [hi] at hsome
      cases hsome
  · intro buffer i hsome
    rcases tryAlloc_cases p buffer with ⟨heq,-⟩ | ⟨j,hj,heq⟩
    · rw [heq] at hsome
      cases hsome
    · rw [heq] at hsome
      cases hsome
      refine ⟨hj,?_⟩
      intro a ha
      exact absurd (hp.empty i hj) (references_pos ha).ne'

end Steps

section TwoBuffers

/-- The address of a handle is used again while the other handle keeps the buffer, which goes
with that one. -/
theorem arcPool_correct_twoBuffers : ∃ p : RxArcPool 2 2 ℕ,
    Runs Step new [.tryAlloc 7 0,.clone 0 1,.drop 0,.tryAlloc 8 0,.move 1 2,.drop 2] p ∧
    p.state 0 = none ∧ p.freed 0 = 1 ∧ p.handles 0 = some 1 ∧ p.Correct := by
  have hr : Runs Step (new : RxArcPool 2 2 ℕ)
      [.tryAlloc 7 0,.clone 0 1,.drop 0,.tryAlloc 8 0,.move 1 2,.drop 2] _ :=
    .step rfl (.step rfl (.step rfl (.step rfl (.step rfl (.step rfl (.refl _))))))
  exact ⟨_,hr,rfl,rfl,rfl,arcPool_correct _ _ hr⟩

end TwoBuffers

/-! ## The fan-out to the interfaces

`RxRunner::process_packet`. Each enabled interface gets a clone, which its queue keeps or drops
at once, and the first handle is dropped at the end.
-/
section ProcessPacket
variable {p q : RxArcPool n w B} {i : Fin n} {source address : Fin (2 ^ w)}

/-- The address of the clone, and whether the queue accepts it. -/
def fanOut (source : Fin (2 ^ w)) : List (Fin (2 ^ w) × Bool) → List (ArcOp w B)
  | [] => []
  | (address,true) :: queues => .clone source address :: fanOut source queues
  | (address,false) :: queues => .clone source address :: .drop address :: fanOut source queues

def processPacket (buffer : B) (source : Fin (2 ^ w)) (queues : List (Fin (2 ^ w) × Bool)) :
    List (ArcOp w B) :=
  .tryAlloc buffer source :: (fanOut source queues ++ [.drop source])

/-- A clone points to the slot of its source, which keeps its handle. -/
theorem clone_references (hp : p.Counted) (hs : p.Step (.clone source address) q)
    (hsource : p.handles source = some i) :
    address ≠ source ∧ q.handles source = some i ∧ q.handles address = some i ∧
      q.references i = p.references i + 1 := by
  simp only [Step,perform,hsource] at hs
  split at hs
  · rename_i inner hinner haddress
    obtain rfl := Option.some.inj hinner
    obtain ⟨innerRef,hstate⟩ := hp.occupied_of_handle hsource
    simp only [clone,hstate] at hs
    have hne : address ≠ source := by
      rintro rfl
      rw [hsource] at haddress
      cases haddress
    have hq := Except.ok.inj (Option.some.inj hs)
    have hreferences : q.references i = p.references i + if i = i then 1 else 0 :=
      references_place haddress (by rw [← hq]) i
    rw [if_pos rfl] at hreferences
    refine ⟨hne,?_,?_,hreferences⟩
    · rw [← hq]
      exact (Function.update_of_ne hne.symm _ _).trans hsource
    · rw [← hq]
      exact Function.update_self _ _ _
  · cases hs

theorem drop_references (hp : p.Counted) (hs : p.Step (.drop address) q)
    (haddress : p.handles address = some i) :
    q.handles = Function.update p.handles address none ∧ q.references i + 1 = p.references i := by
  have hhandles : q.handles = Function.update p.handles address none := by
    cases step_change hp hs with
    | dropped a j inner hop ha hinner hrefs hq =>
      cases hop
      rw [hq]
    | freed a j inner hop ha hinner hrefs hq =>
      cases hop
      rw [hq]
    | full _ _ hop _ => cases hop
    | allocated _ _ _ hop _ _ _ => cases hop
    | cloned _ _ _ _ hop _ _ _ => cases hop
    | moved _ _ _ hop _ _ _ => cases hop
  have hreferences := references_remove haddress hhandles i
  rw [if_pos rfl] at hreferences
  exact ⟨hhandles,hreferences⟩

theorem tryAlloc_references {buffer : B} (hp : p.Counted)
    (hs : p.Step (.tryAlloc buffer source) q) (hsome : (p.tryAlloc buffer).1 = some i) :
    q.Counted ∧ q.handles source = some i ∧ q.references i = 1 := by
  have hq := counted_change hp (step_change hp hs)
  simp only [Step,perform] at hs
  split at hs
  · rename_i hsource
    have hhandles : q.handles = Function.update p.handles source (some i) := by
      rw [← Except.ok.inj (Option.some.inj hs),← hsome]
    have hreferences := references_place hsource hhandles i
    have hempty : p.state i = none := by
      rcases tryAlloc_cases p buffer with ⟨heq,-⟩ | ⟨j,hj,heq⟩
      · rw [heq] at hsome
        cases hsome
      · rw [heq] at hsome
        cases hsome
        exact hj
    rw [if_pos rfl,hp.empty i hempty] at hreferences
    exact ⟨hq,by rw [hhandles,Function.update_self],hreferences⟩
  · cases hs

theorem Counted.state_eq_none_iff (hp : p.Counted) : p.state i = none ↔ p.references i = 0 := by
  refine ⟨hp.empty i,?_⟩
  intro hzero
  cases hi : p.state i with
  | none => rfl
  | some inner =>
    have hcount := (hp.occupied i inner hi).1
    omega

/-- Only the clones that a queue accepts are left. -/
theorem fanOut_references (queues : List (Fin (2 ^ w) × Bool)) (hp : p.Counted)
    (hsource : p.handles source = some i) (hr : Runs Step p (fanOut source queues) q) :
    q.Counted ∧ q.handles source = some i ∧
      q.references i = p.references i + queues.countP Prod.snd := by
  induction queues generalizing p with
  | nil =>
    cases hr with
    | refl => exact ⟨hp,hsource,rfl⟩
  | cons queue queues ih =>
    obtain ⟨address,accepted⟩ := queue
    cases accepted with
    | true =>
      cases hr with
      | step hs hr =>
        obtain ⟨-,hkept,-,hclone⟩ := clone_references hp hs hsource
        obtain ⟨hq,hlast,hcount⟩ := ih (counted_change hp (step_change hp hs)) hkept hr
        refine ⟨hq,hlast,?_⟩
        rw [hcount,hclone,List.countP_cons_of_pos rfl]
        omega
    | false =>
      cases hr with
      | step hs hr =>
        cases hr with
        | step hs' hr =>
          obtain ⟨hne,hkept,hnew,hclone⟩ := clone_references hp hs hsource
          have ht := counted_change hp (step_change hp hs)
          obtain ⟨hhandles,hdrop⟩ := drop_references ht hs' hnew
          have hstill := (congrFun hhandles source).trans (Function.update_of_ne hne.symm _ _)
          obtain ⟨hq,hlast,hcount⟩ :=
            ih (counted_change ht (step_change ht hs')) (hstill.trans hkept) hr
          refine ⟨hq,hlast,?_⟩
          rw [hcount,List.countP_cons_of_neg (by simp)]
          omega

/-- A received buffer is in use until the end exactly if some queue accepted it. -/
theorem processPacket_references (buffer : B) (queues : List (Fin (2 ^ w) × Bool)) (hp : p.Counted)
    (hsome : (p.tryAlloc buffer).1 = some i)
    (hr : Runs Step p (processPacket buffer source queues) q) :
    q.references i = queues.countP Prod.snd ∧
      (q.state i = none ↔ ∀ queue ∈ queues, queue.2 = false) := by
  rw [processPacket] at hr
  cases hr with
  | step hs hr =>
    obtain ⟨t,hfan,hlast⟩ := hr.of_append
    cases hlast with
    | step hs' hnil =>
      cases hnil with
      | refl =>
        obtain ⟨hu,hsource,hone⟩ := tryAlloc_references hp hs hsome
        obtain ⟨ht,hkept,hcount⟩ := fanOut_references queues hu hsource hfan
        obtain ⟨-,hdrop⟩ := drop_references ht hs' hkept
        have hq := counted_change ht (step_change ht hs')
        have hreferences : q.references i = queues.countP Prod.snd := by omega
        refine ⟨hreferences,?_⟩
        rw [hq.state_eq_none_iff,hreferences,List.countP_eq_zero]
        simp

/-- One queue takes the frame and the other one is full. -/
theorem processPacket_references_oneQueue : ∃ q : RxArcPool 2 2 ℕ, q.references 0 = 1 ∧
    (q.state 0 = none ↔ ∀ queue ∈ [((1 : Fin (2 ^ 2)),true),(2,false)], queue.2 = false) := by
  have hr : Runs Step (new : RxArcPool 2 2 ℕ) (processPacket 7 0 [(1,true),(2,false)]) _ :=
    .step rfl (.step rfl (.step rfl (.step rfl (.step rfl (.refl _)))))
  exact ⟨_,processPacket_references 7 [(1,true),(2,false)] counted_new rfl hr⟩

end ProcessPacket

end RxArcPool
end FerrisOnAir.Rx
