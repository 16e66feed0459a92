import FerrisOnAir.Rsn.KeyEnvelope

/-! # The pending exchange of the 4-way handshake

`foa_sta/src/rsn_initial.rs` and the wait loops of `operations/connect.rs`. A first
message needs no key. The station answers one that repeats the nonce of the pending
exchange with another second message, and takes over its counter.
-/
namespace FerrisOnAir.Rsn
variable {F : Type*}

structure InitialHandshake where
  authenticatorNonce : Bytes 32
  replayCounter : ℕ

instance : DecidableEq InitialHandshake := fun a b =>
  decidable_of_iff (a.authenticatorNonce = b.authenticatorNonce ∧
    a.replayCounter = b.replayCounter) (by cases a; cases b; simp)

/-- Why a second message was not sent. -/
inductive SendError
  | ackTimeout
  | txCompletionLost
deriving DecidableEq

/-- A frame taken from the foreground queue. If it is answered by a second message, the
transmission ends as `sent` says. -/
structure Reception (F : Type*) where
  frame : F
  sent : Except SendError Unit

inductive Message3Wait
  | waiting (pending : InitialHandshake)
  | failed (error : SendError)
  | accepted (gtk : TransientKeySecurityAssociation 16) (pending : InitialHandshake)

namespace InitialHandshake
variable (codec : EapolCodec F) (ownAddress bssid : Bytes 6) (scratch : ℕ) (kck kek : Bytes 16)

def fromMessage1 (frame : F) : Option InitialHandshake :=
  match codec.keyPayload ownAddress bssid frame with
  | none => none
  | some key =>
    if key.keyInformation ≠ 0x008a then none else some ⟨key.keyNonce,key.replayCounter⟩

def message1Retry (pending : InitialHandshake) (frame : F) : Option (ℕ × InitialHandshake) :=
  match fromMessage1 codec ownAddress bssid frame with
  | none => none
  | some retry =>
    if retry.authenticatorNonce ≠ pending.authenticatorNonce ∨
        retry.replayCounter < pending.replayCounter then none
    else some (retry.replayCounter,{ pending with replayCounter := retry.replayCounter })

def message3 (pending : InitialHandshake) (frame : F) : Option (Message3 × InitialHandshake) :=
  match codec.decryptMessage3 ownAddress bssid scratch frame kck kek with
  | none => none
  | some key =>
    if key.nonce ≠ pending.authenticatorNonce ∨ key.counter ≤ pending.replayCounter then none
    else some (key,{ pending with replayCounter := key.counter })

/-- `process_message_1`: the pending exchange and the frames not yet received. -/
def processMessage1 : List (Reception F) → Option (InitialHandshake × List (Reception F))
  | [] => none
  | r :: rs =>
    match fromMessage1 codec ownAddress bssid r.frame with
    | some pending => some (pending,rs)
    | none => processMessage1 rs

/-- `process_message_3` on the frames it receives: the counters of the second messages it
sends, and how it ends. -/
def processMessage3 : InitialHandshake → List (Reception F) → List ℕ × Message3Wait
  | pending,[] => ([],.waiting pending)
  | pending,r :: rs =>
    match pending.message1Retry codec ownAddress bssid r.frame with
    | some (counter,pending') =>
      match r.sent with
      | .ok _ =>
        let w := processMessage3 pending' rs
        (counter :: w.1,w.2)
      | .error e => ([counter],.failed e)
    | none =>
      match pending.message3 codec ownAddress bssid scratch kck kek r.frame with
      | some (key,pending') => ([],.accepted (.new key.gtk key.gtkId) pending')
      | none => processMessage3 pending rs

section Frames
variable {codec ownAddress bssid scratch kck kek} {pending pending' m : InitialHandshake}
  {frame : F} {key : Message3}

/-- The key information tells first and third messages apart. -/
theorem decryptMessage3_of_fromMessage1 (h : fromMessage1 codec ownAddress bssid frame = some m) :
    codec.decryptMessage3 ownAddress bssid scratch frame kck kek = none := by
  cases hk : codec.decryptMessage3 ownAddress bssid scratch frame kck kek with
  | none => rfl
  | some key =>
    obtain ⟨e,_,he,hinfo,_⟩ := EapolCodec.decryptMessage3_some hk
    unfold fromMessage1 at h
    simp only [he,hinfo] at h
    cases h

theorem message1Retry_of_none (h : fromMessage1 codec ownAddress bssid frame = none) :
    pending.message1Retry codec ownAddress bssid frame = none := by
  unfold message1Retry
  rw [h]

/-- A first message is answered exactly if it repeats the nonce and is not older. -/
theorem message1Retry_of_some (pending : InitialHandshake)
    (h : fromMessage1 codec ownAddress bssid frame = some m) :
    pending.message1Retry codec ownAddress bssid frame =
      if m.authenticatorNonce = pending.authenticatorNonce ∧
        pending.replayCounter ≤ m.replayCounter then
        some (m.replayCounter,{ pending with replayCounter := m.replayCounter })
      else none := by
  unfold message1Retry
  simp only [h]
  by_cases hok : m.authenticatorNonce = pending.authenticatorNonce ∧
      pending.replayCounter ≤ m.replayCounter
  · rw [if_pos hok,if_neg]
    rintro (hne | hlt)
    · exact hne hok.1
    · exact absurd hok.2 (Nat.not_le.mpr hlt)
  · rw [if_neg hok,if_pos]
    by_contra hno
    rw [not_or,not_not,Nat.not_lt] at hno
    exact hok hno

theorem message3_of_none
    (h : codec.decryptMessage3 ownAddress bssid scratch frame kck kek = none) :
    pending.message3 codec ownAddress bssid scratch kck kek frame = none := by
  unfold message3
  rw [h]

theorem message3_of_some
    (h : codec.decryptMessage3 ownAddress bssid scratch frame kck kek = some key) :
    pending.message3 codec ownAddress bssid scratch kck kek frame =
      if key.nonce = pending.authenticatorNonce ∧ pending.replayCounter < key.counter then
        some (key,{ pending with replayCounter := key.counter })
      else none := by
  unfold message3
  simp only [h]
  by_cases hok : key.nonce = pending.authenticatorNonce ∧ pending.replayCounter < key.counter
  · rw [if_pos hok,if_neg]
    rintro (hne | hle)
    · exact hne hok.1
    · exact absurd hok.2 (Nat.not_lt.mpr hle)
  · rw [if_neg hok,if_pos]
    by_contra hno
    rw [not_or,not_not,Nat.not_le] at hno
    exact hok hno

/-- A third message rejected by an exchange is rejected by one with a higher counter. -/
theorem message3_none_mono (hnonce : pending'.authenticatorNonce = pending.authenticatorNonce)
    (hle : pending.replayCounter ≤ pending'.replayCounter)
    (h : pending.message3 codec ownAddress bssid scratch kck kek frame = none) :
    pending'.message3 codec ownAddress bssid scratch kck kek frame = none := by
  cases hk : codec.decryptMessage3 ownAddress bssid scratch frame kck kek with
  | none => exact message3_of_none hk
  | some key =>
    rw [message3_of_some hk] at h ⊢
    rw [if_neg]
    rintro ⟨hn,hlt⟩
    rw [if_pos ⟨hn.trans hnonce,hle.trans_lt hlt⟩] at h
    cases h

end Frames

section Loop
variable {codec ownAddress bssid scratch kck kek} {pending m : InitialHandshake}
  {r : Reception F} {rs : List (Reception F)}

theorem processMessage3_skip (h₁ : pending.message1Retry codec ownAddress bssid r.frame = none)
    (h₃ : pending.message3 codec ownAddress bssid scratch kck kek r.frame = none) :
    processMessage3 codec ownAddress bssid scratch kck kek pending (r :: rs) =
      processMessage3 codec ownAddress bssid scratch kck kek pending rs := by
  rw [processMessage3,h₁]
  simp only [h₃]

/-- A first message of the exchange raises the counter to its own, if its answer is sent. -/
theorem processMessage3_message1 (h : fromMessage1 codec ownAddress bssid r.frame = some m)
    (hnonce : m.authenticatorNonce = pending.authenticatorNonce)
    (hsent : pending.replayCounter ≤ m.replayCounter → r.sent = .ok ()) :
    (processMessage3 codec ownAddress bssid scratch kck kek pending (r :: rs)).2 =
      (processMessage3 codec ownAddress bssid scratch kck kek
        { pending with replayCounter := max pending.replayCounter m.replayCounter } rs).2 := by
  have hretry := message1Retry_of_some pending h
  by_cases hle : pending.replayCounter ≤ m.replayCounter
  · rw [if_pos ⟨hnonce,hle⟩] at hretry
    rw [processMessage3,hretry,max_eq_right hle]
    simp only [hsent hle]
  · rw [if_neg (fun h => hle h.2)] at hretry
    rw [processMessage3_skip hretry (message3_of_none (decryptMessage3_of_fromMessage1 h)),
      max_eq_left (Nat.le_of_not_le hle)]

theorem processMessage3_failed (h : fromMessage1 codec ownAddress bssid r.frame = some m)
    (hnonce : m.authenticatorNonce = pending.authenticatorNonce)
    (hle : pending.replayCounter ≤ m.replayCounter) {e : SendError} (hsent : r.sent = .error e) :
    (processMessage3 codec ownAddress bssid scratch kck kek pending (r :: rs)).2 = .failed e := by
  have hretry := message1Retry_of_some pending h
  rw [if_pos ⟨hnonce,hle⟩] at hretry
  rw [processMessage3,hretry]
  simp only [hsent]

/-- A first message with another nonce is not answered. -/
theorem processMessage3_other (h : fromMessage1 codec ownAddress bssid r.frame = some m)
    (hnonce : m.authenticatorNonce ≠ pending.authenticatorNonce) :
    processMessage3 codec ownAddress bssid scratch kck kek pending (r :: rs) =
      processMessage3 codec ownAddress bssid scratch kck kek pending rs := by
  apply processMessage3_skip
  · rw [message1Retry_of_some pending h,if_neg (fun h => hnonce h.1)]
  · exact message3_of_none (decryptMessage3_of_fromMessage1 h)

/-- What a frame that is no first message does to the loop. -/
theorem processMessage3_none (scratch : ℕ) (kck kek : Bytes 16) (pending : InitialHandshake)
    (rs : List (Reception F)) (h : fromMessage1 codec ownAddress bssid r.frame = none) :
    (pending.message3 codec ownAddress bssid scratch kck kek r.frame = none ∧
      processMessage3 codec ownAddress bssid scratch kck kek pending (r :: rs) =
        processMessage3 codec ownAddress bssid scratch kck kek pending rs) ∨
    ∃ key : Message3,
      (processMessage3 codec ownAddress bssid scratch kck kek pending (r :: rs)).2 =
        .accepted (.new key.gtk key.gtkId) { pending with replayCounter := key.counter } ∧
      pending.replayCounter < key.counter := by
  cases h₃ : pending.message3 codec ownAddress bssid scratch kck kek r.frame with
  | none => exact Or.inl ⟨rfl,processMessage3_skip (message1Retry_of_none h) h₃⟩
  | some p =>
    right
    rw [processMessage3,message1Retry_of_none h]
    simp only [h₃]
    cases hk : codec.decryptMessage3 ownAddress bssid scratch r.frame kck kek with
    | none =>
      rw [message3_of_none hk] at h₃
      cases h₃
    | some key =>
      rw [message3_of_some hk] at h₃
      split at h₃
      · rename_i hok
        cases h₃
        exact ⟨key,rfl,hok.2⟩
      · cases h₃

/-- The stored counter of the exchange never drops, and an accepted third message raises
it. -/
theorem processMessage3_counter (rs : List (Reception F)) (pending : InitialHandshake) :
    (∀ p, (processMessage3 codec ownAddress bssid scratch kck kek pending rs).2 = .waiting p →
      pending.replayCounter ≤ p.replayCounter) ∧
    ∀ gtk p, (processMessage3 codec ownAddress bssid scratch kck kek pending rs).2 =
      .accepted gtk p → pending.replayCounter < p.replayCounter := by
  induction rs generalizing pending with
  | nil =>
    constructor
    · rintro p ⟨⟩
      exact le_rfl
    · intro gtk p h
      cases h
  | cons r rs ih =>
    cases h : fromMessage1 codec ownAddress bssid r.frame with
    | none =>
      rcases processMessage3_none scratch kck kek pending rs h with ⟨_,hskip⟩ | ⟨key,hacc,hlt⟩
      · rw [hskip]
        exact ih pending
      · rw [hacc]
        constructor
        · intro p hp
          cases hp
        · rintro gtk p ⟨⟩
          exact hlt
    | some m =>
      by_cases hnonce : m.authenticatorNonce = pending.authenticatorNonce
      · cases hsent : r.sent with
        | ok u =>
          rw [processMessage3_message1 h hnonce (fun _ => hsent)]
          obtain ⟨hwait,hacc⟩ := ih
            { pending with replayCounter := max pending.replayCounter m.replayCounter }
          exact ⟨fun p hp => (le_max_left _ _).trans (hwait p hp),
            fun gtk p hp => (le_max_left _ _).trans_lt (hacc gtk p hp)⟩
        | error e =>
          by_cases hle : pending.replayCounter ≤ m.replayCounter
          · rw [processMessage3_failed h hnonce hle hsent]
            constructor
            · intro p hp
              cases hp
            · intro gtk p hp
              cases hp
          · rw [processMessage3_message1 h hnonce (fun h => absurd h hle),
              max_eq_left (Nat.le_of_not_le hle)]
            exact ih pending
      · rw [processMessage3_other h hnonce]
        exact ih pending

/-- A wait that goes on has sent the answer to its first messages. -/
theorem sent_of_waiting {p : InitialHandshake}
    (hm : fromMessage1 codec ownAddress bssid r.frame = some m)
    (hn : m.authenticatorNonce = pending.authenticatorNonce)
    (h : (processMessage3 codec ownAddress bssid scratch kck kek pending (r :: rs)).2 =
      .waiting p) (hle : pending.replayCounter ≤ m.replayCounter) : r.sent = .ok () := by
  cases hs : r.sent with
  | ok u => rfl
  | error e =>
    rw [processMessage3_failed hm hn hle hs] at h
    cases h

end Loop

section Insertion
variable {codec ownAddress bssid scratch kck kek} {pending full base p : InitialHandshake}
  {stream : List (Bool × Reception F)} {m₃ : Reception F} {key : Message3} {counter : ℕ}

/-- The frames of a stream; the flag marks an inserted one. -/
def received (stream : List (Bool × Reception F)) : List (Reception F) := stream.map Prod.snd

/-- The frames that were not inserted. -/
def genuine (stream : List (Bool × Reception F)) : List (Reception F) :=
  received (stream.filter (fun x => !x.1))

/-- Every inserted first message of the exchange is below `counter`, and if it is not older
than the first messages before it, its answer is sent. -/
def Harmless (codec : EapolCodec F) (ownAddress bssid : Bytes 6) (pending : InitialHandshake)
    (counter : ℕ) (stream : List (Bool × Reception F)) : Prop :=
  ∀ before r after m, stream = before ++ (true,r) :: after →
    fromMessage1 codec ownAddress bssid r.frame = some m →
    m.authenticatorNonce = pending.authenticatorNonce →
    m.replayCounter < counter ∧
    (pending.replayCounter ≤ m.replayCounter →
      (∀ x ∈ before, ∀ m', fromMessage1 codec ownAddress bssid x.2.frame = some m' →
        m'.authenticatorNonce = pending.authenticatorNonce → m'.replayCounter ≤ m.replayCounter) →
      r.sent = .ok ())

/-- Frames that are no first messages of the exchange do not matter. -/
theorem harmless_skip {x : Bool × Reception F}
    (h : ∀ m, fromMessage1 codec ownAddress bssid x.2.frame = some m →
      m.authenticatorNonce ≠ pending.authenticatorNonce) :
    Harmless codec ownAddress bssid pending counter (x :: stream) ↔
      Harmless codec ownAddress bssid pending counter stream := by
  constructor
  · intro hh before r after m hs hm hn
    obtain ⟨hlt,hsent⟩ := hh (x :: before) r after m (by rw [hs]; rfl) hm hn
    refine ⟨hlt,?_⟩
    intro hle hbefore
    apply hsent hle
    intro y hy m' hm' hn'
    rcases List.mem_cons.mp hy with rfl | hy
    · exact absurd hn' (h m' hm')
    · exact hbefore y hy m' hm' hn'
  · intro hh before r after m hs hm hn
    rcases List.cons_eq_append_iff.mp hs with ⟨_,hx⟩ | ⟨before',rfl,hs'⟩
    · cases hx
      exact absurd hn (h m hm)
    · obtain ⟨hlt,hsent⟩ := hh before' r after m hs' hm hn
      refine ⟨hlt,?_⟩
      intro hle hbefore
      exact hsent hle (fun y hy => hbefore y (List.mem_cons_of_mem _ hy))

/-- A first message of the exchange is judged, and raises the counter for the rest. -/
theorem harmless_cons {inserted : Bool} {r : Reception F} {m : InitialHandshake}
    (hm : fromMessage1 codec ownAddress bssid r.frame = some m)
    (hn : m.authenticatorNonce = pending.authenticatorNonce) :
    Harmless codec ownAddress bssid pending counter ((inserted,r) :: stream) ↔
      (inserted = true → m.replayCounter < counter ∧
        (pending.replayCounter ≤ m.replayCounter → r.sent = .ok ())) ∧
      Harmless codec ownAddress bssid
        { pending with replayCounter := max pending.replayCounter m.replayCounter } counter
        stream := by
  constructor
  · intro hh
    constructor
    · rintro rfl
      obtain ⟨hlt,hsent⟩ := hh [] r stream m rfl hm hn
      exact ⟨hlt,fun hle => hsent hle (by simp)⟩
    · intro before r' after m' hs hm' hn'
      obtain ⟨hlt,hsent⟩ := hh ((inserted,r) :: before) r' after m' (by rw [hs]; rfl) hm' hn'
      refine ⟨hlt,?_⟩
      intro hle hbefore
      apply hsent ((le_max_left _ _).trans hle)
      intro y hy m'' hm'' hn''
      rcases List.mem_cons.mp hy with rfl | hy
      · rw [hm] at hm''
        cases hm''
        exact (le_max_right _ _).trans hle
      · exact hbefore y hy m'' hm'' hn''
  · rintro ⟨hhead,htail⟩ before r' after m' hs hm' hn'
    rcases List.cons_eq_append_iff.mp hs with ⟨rfl,hx⟩ | ⟨before',rfl,hs'⟩
    · cases hx
      rw [hm] at hm'
      cases hm'
      obtain ⟨hlt,hsent⟩ := hhead rfl
      exact ⟨hlt,fun hle _ => hsent hle⟩
    · obtain ⟨hlt,hsent⟩ := htail before' r' after m' hs' hm' hn'
      refine ⟨hlt,?_⟩
      intro hle hbefore
      apply hsent
      · exact max_le hle (hbefore _ List.mem_cons_self m hm hn)
      · intro y hy m'' hm'' hn''
        exact hbefore y (List.mem_cons_of_mem _ hy) m'' hm'' hn''

theorem fromMessage1_of_decryptMessage3
    (hkey : codec.decryptMessage3 ownAddress bssid scratch m₃.frame kck kek = some key) :
    fromMessage1 codec ownAddress bssid m₃.frame = none := by
  cases h : fromMessage1 codec ownAddress bssid m₃.frame with
  | none => rfl
  | some m =>
    rw [decryptMessage3_of_fromMessage1 h] at hkey
    cases hkey

/-- A third message above the counter ends the wait. -/
theorem processMessage3_accept
    (hkey : codec.decryptMessage3 ownAddress bssid scratch m₃.frame kck kek = some key)
    (hnonce : key.nonce = pending.authenticatorNonce) (hlt : pending.replayCounter < key.counter) :
    (processMessage3 codec ownAddress bssid scratch kck kek pending [m₃]).2 =
      .accepted (.new key.gtk key.gtkId) { pending with replayCounter := key.counter } := by
  rw [processMessage3,message1Retry_of_none (fromMessage1_of_decryptMessage3 hkey)]
  simp only [message3_of_some hkey,if_pos (And.intro hnonce hlt)]

/-- While the loop waits it goes on with the next frames in the state it has reached. -/
theorem processMessage3_append {rs : List (Reception F)} (rs' : List (Reception F))
    (h : (processMessage3 codec ownAddress bssid scratch kck kek pending rs).2 = .waiting p) :
    (processMessage3 codec ownAddress bssid scratch kck kek pending (rs ++ rs')).2 =
      (processMessage3 codec ownAddress bssid scratch kck kek p rs').2 ∧
    p.authenticatorNonce = pending.authenticatorNonce := by
  induction rs generalizing pending with
  | nil =>
    cases h
    exact ⟨rfl,rfl⟩
  | cons r rs ih =>
    rw [List.cons_append]
    cases hm : fromMessage1 codec ownAddress bssid r.frame with
    | none =>
      rcases processMessage3_none scratch kck kek pending rs hm with ⟨h₃,hskip⟩ | ⟨key,hacc,_⟩
      · rw [hskip] at h
        rw [processMessage3_skip (message1Retry_of_none hm) h₃]
        exact ih h
      · rw [hacc] at h
        cases h
    | some m =>
      by_cases hn : m.authenticatorNonce = pending.authenticatorNonce
      · have hsent := sent_of_waiting hm hn h
        rw [processMessage3_message1 hm hn hsent] at h ⊢
        exact ih h
      · rw [processMessage3_other hm hn] at h ⊢
        exact ih h

/-- A first message with the nonce of the exchange whose answer is lost, or whose counter is
not below that of a later third message, keeps that message from being accepted. -/
theorem not_accepted_of_message1 {r : Reception F} {m : InitialHandshake} {counter : ℕ}
    {gtk : TransientKeySecurityAssociation 16}
    (hm : fromMessage1 codec ownAddress bssid r.frame = some m)
    (hn : m.authenticatorNonce = pending.authenticatorNonce)
    (hbad : ¬ (m.replayCounter < counter ∧
      (pending.replayCounter ≤ m.replayCounter → r.sent = .ok ()))) (rs : List (Reception F)) :
    (processMessage3 codec ownAddress bssid scratch kck kek pending (r :: rs)).2 ≠
      .accepted gtk { pending with replayCounter := counter } := by
  intro hacc
  by_cases hsent : pending.replayCounter ≤ m.replayCounter → r.sent = .ok ()
  · rw [processMessage3_message1 hm hn hsent] at hacc
    have hraised := (processMessage3_counter _ _).2 _ _ hacc
    exact hbad ⟨(le_max_right _ _).trans_lt hraised,hsent⟩
  · rw [Classical.not_imp] at hsent
    cases hs : r.sent with
    | ok u => exact hsent.2 hs
    | error e =>
      rw [processMessage3_failed hm hn hsent.1 hs] at hacc
      cases hacc

/-- The genuine part of a stream in which the wait goes on raises the counter in step. -/
theorem accepted_iff_harmless
    (hkey : codec.decryptMessage3 ownAddress bssid scratch m₃.frame kck kek = some key)
    (hnonce : key.nonce = full.authenticatorNonce)
    (hins : ∀ x ∈ stream, x.1 = true →
      (fromMessage1 codec ownAddress bssid x.2.frame).isSome = true)
    (hbn : base.authenticatorNonce = full.authenticatorNonce)
    (hbc : base.replayCounter ≤ full.replayCounter) (hlt : full.replayCounter < key.counter)
    (hbase : (processMessage3 codec ownAddress bssid scratch kck kek base (genuine stream)).2 =
      .waiting p) (hp : p.replayCounter < key.counter) :
    (processMessage3 codec ownAddress bssid scratch kck kek full (received stream ++ [m₃])).2 =
        .accepted (.new key.gtk key.gtkId) { full with replayCounter := key.counter } ↔
      Harmless codec ownAddress bssid full key.counter stream := by
  induction stream generalizing full base with
  | nil =>
    refine iff_of_true (processMessage3_accept hkey hnonce hlt) ?_
    intro before r after m hs
    simp at hs
  | cons x stream ih =>
    obtain ⟨inserted,r⟩ := x
    have hins' := fun x hx => hins x (List.mem_cons_of_mem _ hx)
    change (processMessage3 codec ownAddress bssid scratch kck kek full
      (r :: (received stream ++ [m₃]))).2 = _ ↔ _
    cases hm : fromMessage1 codec ownAddress bssid r.frame with
    | none =>
      -- Such a frame is genuine; what the exchange without insertions rejects stays rejected.
      cases inserted with
      | true =>
        have hsome := hins _ List.mem_cons_self rfl
        rw [hm] at hsome
        cases hsome
      | false =>
        change (processMessage3 codec ownAddress bssid scratch kck kek base
          (r :: genuine stream)).2 = _ at hbase
        rcases processMessage3_none scratch kck kek base (genuine stream) hm with
          ⟨h₃,hskip⟩ | ⟨_,hacc,_⟩
        · rw [hskip] at hbase
          rw [processMessage3_skip (message1Retry_of_none hm) (message3_none_mono hbn.symm hbc h₃),
            harmless_skip (fun m h => by rw [hm] at h; cases h)]
          exact ih hnonce hins' hbn hbc hlt hbase
        · rw [hacc] at hbase
          cases hbase
    | some m =>
      by_cases hn : m.authenticatorNonce = full.authenticatorNonce
      · rw [harmless_cons hm hn]
        cases inserted with
        | true =>
          by_cases hok : m.replayCounter < key.counter ∧
              (full.replayCounter ≤ m.replayCounter → r.sent = .ok ())
          · rw [processMessage3_message1 hm hn hok.2]
            refine (@ih { full with
              replayCounter := max full.replayCounter m.replayCounter } base hnonce hins' hbn
              (hbc.trans (le_max_left _ _)) (max_lt hlt hok.1) hbase).trans ?_
            exact ⟨fun h => ⟨fun _ => hok,h⟩,fun h => h.2⟩
          · exact iff_of_false (not_accepted_of_message1 hm hn hok _) (fun h => hok (h.1 rfl))
        | false =>
          change (processMessage3 codec ownAddress bssid scratch kck kek base
            (r :: genuine stream)).2 = _ at hbase
          have hsent := sent_of_waiting hm (hn.trans hbn.symm) hbase
          rw [processMessage3_message1 hm (hn.trans hbn.symm) hsent] at hbase
          have hmc : m.replayCounter < key.counter :=
            ((le_max_right _ _).trans ((processMessage3_counter _ _).1 p hbase)).trans_lt hp
          rw [processMessage3_message1 hm hn (fun hle => hsent (hbc.trans hle))]
          refine (@ih { full with
            replayCounter := max full.replayCounter m.replayCounter }
            { base with replayCounter := max base.replayCounter m.replayCounter }
            hnonce hins' hbn (max_le_max hbc le_rfl) (max_lt hlt hmc) hbase).trans ?_
          exact ⟨fun h => ⟨(by simp),h⟩,fun h => h.2⟩
      · rw [processMessage3_other hm hn,harmless_skip (fun m' h => by
          rw [hm] at h
          cases h
          exact hn)]
        cases inserted with
        | true => exact ih hnonce hins' hbn hbc hlt hbase
        | false =>
          change (processMessage3 codec ownAddress bssid scratch kck kek base
            (r :: genuine stream)).2 = _ at hbase
          rw [processMessage3_other hm (hbn ▸ hn)] at hbase
          exact ih hnonce hins' hbn hbc hlt hbase

/-- A third message that ends the wait without the inserted first messages ends it with
them, and with the same key, exactly if each of those that carries the nonce of the
exchange has a lower counter than the third message and its answer, if any, is sent. -/
theorem message1_insertion_iff
    (hins : ∀ x ∈ stream, x.1 = true →
      (fromMessage1 codec ownAddress bssid x.2.frame).isSome = true)
    (hkey : codec.decryptMessage3 ownAddress bssid scratch m₃.frame kck kek = some key)
    (hnonce : key.nonce = pending.authenticatorNonce)
    (hwait : (processMessage3 codec ownAddress bssid scratch kck kek pending (genuine stream)).2 =
      .waiting p) (hcounter : p.replayCounter < key.counter) :
    (processMessage3 codec ownAddress bssid scratch kck kek pending (genuine stream ++ [m₃])).2 =
      .accepted (.new key.gtk key.gtkId) ⟨key.nonce,key.counter⟩ ∧
    ((processMessage3 codec ownAddress bssid scratch kck kek pending (received stream ++ [m₃])).2 =
      (processMessage3 codec ownAddress bssid scratch kck kek pending (genuine stream ++ [m₃])).2 ↔
      Harmless codec ownAddress bssid pending key.counter stream) := by
  obtain ⟨happ,hn⟩ := processMessage3_append [m₃] hwait
  have hacc : (processMessage3 codec ownAddress bssid scratch kck kek pending
      (genuine stream ++ [m₃])).2 =
      .accepted (.new key.gtk key.gtkId) ⟨key.nonce,key.counter⟩ := by
    rw [happ,processMessage3_accept hkey (hnonce.trans hn.symm) hcounter,hn,hnonce]
  refine ⟨hacc,?_⟩
  have hle := (processMessage3_counter (genuine stream) pending).1 p hwait
  rw [hacc,hnonce]
  exact accepted_iff_harmless hkey hnonce hins rfl le_rfl (hle.trans_lt hcounter) hwait hcounter

/-- A first message with counter 9 and third messages with counter 8 or 10, as they are
read. -/
theorem fromMessage1_clear :
    fromMessage1 EapolCodec.reading 0 0 (.clear 0x008a 9) = some ⟨0,9⟩ := by
  decide +kernel

theorem sameNonce : (⟨0,9⟩ : InitialHandshake).authenticatorNonce =
    (⟨0,7⟩ : InitialHandshake).authenticatorNonce := rfl

theorem decryptMessage3_clear {counter : ℕ} (h : counter = 8 ∨ counter = 10) : ∃ key : Message3,
    EapolCodec.reading.decryptMessage3 0 0 64 (.clear 0x13ca counter) 0 0 = some key ∧
      key.nonce = 0 ∧ key.counter = counter := by
  have hany : (EapolCodec.reading.decryptMessage3 0 0 64 (.clear 0x13ca counter) 0 0).any
      (fun key => decide (key.nonce = 0 ∧ key.counter = counter)) = true := by
    rcases h with rfl | rfl <;> decide +kernel
  obtain ⟨key,hkey,hfields⟩ := (Option.any_eq_true _ _).mp hany
  exact ⟨key,hkey,of_decide_eq_true hfields⟩

/-- A forged first message with the nonce of the exchange, which needs no key, makes the
station reject the genuine third message. -/
theorem message1_insertion_rejects :
    let wait := processMessage3 EapolCodec.reading 0 0 64 0 0 ⟨0,7⟩
    let forged : Reception DataFrame := ⟨.clear 0x008a 9,.ok ()⟩
    let m₃ : Reception DataFrame := ⟨.clear 0x13ca 8,.ok ()⟩
    ∃ key : Message3, EapolCodec.reading.decryptMessage3 0 0 64 m₃.frame 0 0 = some key ∧
      key.nonce = 0 ∧ key.counter = 8 ∧
      (wait [m₃]).2 = .accepted (.new key.gtk key.gtkId) ⟨0,8⟩ ∧
      (wait [forged,m₃]).2 = .waiting ⟨0,9⟩ := by
  intro wait forged m₃
  obtain ⟨key,hkey,hnonce,hcounter⟩ := decryptMessage3_clear (Or.inl rfl)
  refine ⟨key,hkey,hnonce,hcounter,?_,?_⟩
  · have h : (wait [m₃]).2 = .accepted (.new key.gtk key.gtkId) ⟨0,key.counter⟩ :=
      processMessage3_accept hkey hnonce (by rw [hcounter]; decide)
    rw [hcounter] at h
    exact h
  · have hforged : fromMessage1 EapolCodec.reading 0 0 forged.frame = some ⟨0,9⟩ :=
      fromMessage1_clear
    change (processMessage3 EapolCodec.reading 0 0 64 0 0 ⟨0,7⟩ [forged,m₃]).2 = _
    rw [processMessage3_message1 hforged sameNonce (fun _ => rfl),processMessage3_skip]
    · rfl
    · exact message1Retry_of_none (fromMessage1_of_decryptMessage3 hkey)
    · rw [message3_of_some hkey,if_neg]
      rintro ⟨_,hlt⟩
      rw [hcounter] at hlt
      exact absurd hlt (by decide)

/-- The same forged message is harmless for a third message with counter 10. -/
theorem message1_insertion_below :
    let forged : Reception DataFrame := ⟨.clear 0x008a 9,.ok ()⟩
    let m₃ : Reception DataFrame := ⟨.clear 0x13ca 10,.ok ()⟩
    let wait := processMessage3 EapolCodec.reading 0 0 64 0 0 ⟨0,7⟩
    Harmless EapolCodec.reading 0 0 ⟨0,7⟩ 10 [(true,forged)] ∧
    (wait (received [(true,forged)] ++ [m₃])).2 = (wait (genuine [(true,forged)] ++ [m₃])).2 := by
  intro forged m₃ wait
  obtain ⟨key,hkey,hnonce,hcounter⟩ := decryptMessage3_clear (Or.inr rfl)
  have hkey' : EapolCodec.reading.decryptMessage3 0 0 64 m₃.frame 0 0 = some key := hkey
  have hforged : fromMessage1 EapolCodec.reading 0 0 forged.frame = some ⟨0,9⟩ :=
    fromMessage1_clear
  have hharmless : Harmless EapolCodec.reading 0 0 ⟨0,7⟩ 10 [(true,forged)] := by
    refine (harmless_cons hforged sameNonce).mpr ⟨fun _ => ⟨Nat.lt_succ_self 9,fun _ => rfl⟩,?_⟩
    intro before r after m hs
    simp at hs
  have hins : ∀ x ∈ [(true,forged)], x.1 = true →
      (fromMessage1 EapolCodec.reading 0 0 x.2.frame).isSome = true := by
    intro x hx _
    rw [List.mem_singleton.mp hx,hforged]
    rfl
  have hwait : (processMessage3 EapolCodec.reading 0 0 64 0 0 ⟨0,7⟩
      (genuine [(true,forged)])).2 = .waiting ⟨0,7⟩ := by
    simp [genuine,received,processMessage3]
  refine ⟨hharmless,(message1_insertion_iff hins hkey' hnonce hwait ?_).2.mpr ?_⟩
  · rw [hcounter]
    decide
  · rw [hcounter]
    exact hharmless

end Insertion
end InitialHandshake
end FerrisOnAir.Rsn
