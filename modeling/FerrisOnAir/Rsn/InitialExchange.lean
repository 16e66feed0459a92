import FerrisOnAir.Rsn.InitialHandshake

/-! # The initial exchange on any sequence of frames

`do_4whs` of `operations/connect.rs` on the frames it receives, with every transmission of a
second message a success. The frames may come in any order and from anybody, so the exchange
is described frame by frame: each is answered, ends the exchange or is without any effect.
A frame may also stand for its buffer together with what earlier frames left in the scratch
buffer, since nothing is assumed of the decoder.
-/
namespace FerrisOnAir.Rsn
variable {F : Type*}

/-- The messages that the station sends. -/
inductive HandshakeMessage
  | message2 (kck : Bytes 16) (supplicantNonce : Bytes 32) (keyReplayCounter : ℕ)
  | message4 (kck : Bytes 16) (supplicantNonce : Bytes 32) (keyReplayCounter : ℕ)
deriving DecidableEq

def HandshakeMessage.isMessage2 : HandshakeMessage → Bool
  | .message2 _ _ _ => true
  | .message4 _ _ _ => false

inductive HandshakeProgress
  | awaitingMessage1
  | awaitingMessage3 (pending : InitialHandshake)
  | failed (error : SendError)
  | message4 (gtk : TransientKeySecurityAssociation 16) (pending : InitialHandshake)

/-- What an exchange is about: the decoder, both addresses, the size of the scratch buffer,
the keys derived from an authenticator nonce and the nonce drawn by the station. -/
structure InitialExchange (F : Type*) where
  codec : EapolCodec F
  ownAddress : Bytes 6
  bssid : Bytes 6
  scratch : ℕ
  kck : Bytes 32 → Bytes 16
  kek : Bytes 32 → Bytes 16
  supplicantNonce : Bytes 32

namespace InitialExchange
variable (x : InitialExchange F)

/-- The wait loop with the keys that belong to the nonce of the pending exchange. -/
def processMessage3 (pending : InitialHandshake) (frames : List F) : List ℕ × Message3Wait :=
  pending.processMessage3 x.codec x.ownAddress x.bssid x.scratch (x.kck pending.authenticatorNonce)
    (x.kek pending.authenticatorNonce) (frames.map (fun frame => ⟨frame,.ok ()⟩))

/-- `do_4whs` up to the fourth message. -/
def do4whs (frames : List F) : List HandshakeMessage × HandshakeProgress :=
  match InitialHandshake.processMessage1 x.codec x.ownAddress x.bssid
      (frames.map (fun frame => ⟨frame,.ok ()⟩)) with
  | none => ([],.awaitingMessage1)
  | some (pending,receptions) =>
    let kck := x.kck pending.authenticatorNonce
    let wait := x.processMessage3 pending (receptions.map Reception.frame)
    let message2s := (pending.replayCounter :: wait.1).map (.message2 kck x.supplicantNonce)
    match wait.2 with
    | .waiting pending => (message2s,.awaitingMessage3 pending)
    | .failed error => (message2s,.failed error)
    | .accepted gtk pending =>
      (message2s ++ [.message4 kck x.supplicantNonce pending.replayCounter],.message4 gtk pending)

/-! ## The protocol -/

/-- A first message with this nonce and counter. -/
def IsMessage1 (frame : F) (anonce : Bytes 32) (counter : ℕ) : Prop :=
  ∃ e, x.codec.keyPayload x.ownAddress x.bssid frame = some e ∧ e.keyInformation = 0x008a ∧
    e.keyNonce = anonce ∧ e.replayCounter = counter

/-- A third message under the keys of a nonce: the MIC is right, the key data is unwrapped
and its first group key has 16 bytes. -/
def IsMessage3 (frame : F) (anonce : Bytes 32) (counter : ℕ) (gtk : Bytes 16) (gtkId : Fin 4) :
    Prop :=
  ∃ e key, x.codec.keyPayload x.ownAddress x.bssid frame = some e ∧ e.keyInformation = 0x13ca ∧
    EapolCodec.unwrappable x.scratch e = true ∧
    x.codec.deserializeEapolDataFrame frame (x.kck anonce) (x.kek anonce) = some key ∧
    key.keyNonce = anonce ∧ key.keyReplayCounter = counter ∧
    ∃ bytes, key.gtk = some (bytes,gtkId) ∧ tryIntoBytes 16 bytes = some gtk

/-- A frame that opens the exchange and the frames received after it. -/
structure Opens (before : List F) (opening : F) (first : InitialHandshake) : Prop where
  message1 : x.IsMessage1 opening first.authenticatorNonce first.replayCounter
  none : ∀ frame ∈ before, ∀ anonce counter, ¬ x.IsMessage1 frame anonce counter

/-- The counters of the first messages of the exchange among the frames so far. -/
def Counters (first : InitialHandshake) (seen : List F) : Set ℕ :=
  {c | c = first.replayCounter ∨ ∃ frame ∈ seen, x.IsMessage1 frame first.authenticatorNonce c}

/-- The frame is to be answered: a first message of the exchange, not older than any so
far. -/
def Answers (first : InitialHandshake) (seen : List F) (frame : F) (counter : ℕ) : Prop :=
  x.IsMessage1 frame first.authenticatorNonce counter ∧ ∀ c ∈ x.Counters first seen, c ≤ counter

/-- The frame ends the exchange: a third message newer than every first message so far. -/
def Completes (first : InitialHandshake) (seen : List F) (frame : F) (counter : ℕ)
    (gtk : Bytes 16) (gtkId : Fin 4) : Prop :=
  x.IsMessage3 frame first.authenticatorNonce counter gtk gtkId ∧
    ∀ c ∈ x.Counters first seen, c < counter

/-- The exchange on every sequence of frames. -/
structure Correct : Prop where
  /-- Nothing happens before the first message. -/
  closed : ∀ frames, (∀ frame ∈ frames, ∀ anonce counter, ¬ x.IsMessage1 frame anonce counter) →
    x.do4whs frames = ([],.awaitingMessage1)
  /-- The first message is answered. -/
  opened : ∀ before opening first, x.Opens before opening first →
    x.do4whs (before ++ [opening]) =
      ([.message2 (x.kck first.authenticatorNonce) x.supplicantNonce first.replayCounter],
        .awaitingMessage3 first)
  /-- The nonce is that of the first message, the counter the greatest so far. -/
  pending : ∀ before opening first seen p, x.Opens before opening first →
    (x.do4whs (before ++ opening :: seen)).2 = .awaitingMessage3 p →
    p.authenticatorNonce = first.authenticatorNonce ∧
      IsGreatest (x.Counters first seen) p.replayCounter
  answered : ∀ before opening first seen frame p counter, x.Opens before opening first →
    (x.do4whs (before ++ opening :: seen)).2 = .awaitingMessage3 p →
    x.Answers first seen frame counter →
    x.do4whs (before ++ opening :: (seen ++ [frame])) =
      ((x.do4whs (before ++ opening :: seen)).1 ++
        [.message2 (x.kck first.authenticatorNonce) x.supplicantNonce counter],
        .awaitingMessage3 ⟨first.authenticatorNonce,counter⟩)
  completed : ∀ before opening first seen frame behind p counter gtk gtkId,
    x.Opens before opening first →
    (x.do4whs (before ++ opening :: seen)).2 = .awaitingMessage3 p →
    x.Completes first seen frame counter gtk gtkId →
    x.do4whs (before ++ opening :: (seen ++ frame :: behind)) =
      ((x.do4whs (before ++ opening :: seen)).1 ++
        [.message4 (x.kck first.authenticatorNonce) x.supplicantNonce counter],
        .message4 (.new gtk gtkId) ⟨first.authenticatorNonce,counter⟩)
  /-- Any other frame causes no reply and leaves the pending exchange as it was. -/
  rejected : ∀ before opening first seen frame p, x.Opens before opening first →
    (x.do4whs (before ++ opening :: seen)).2 = .awaitingMessage3 p →
    (∀ counter, ¬ x.Answers first seen frame counter) →
    (∀ counter gtk gtkId, ¬ x.Completes first seen frame counter gtk gtkId) →
    x.do4whs (before ++ opening :: (seen ++ [frame])) = x.do4whs (before ++ opening :: seen)
  /-- No frame makes the exchange fail. -/
  progress : ∀ frames e, (x.do4whs frames).2 ≠ .failed e
  /-- All second messages are under one key with one nonce, and their counters do not
  drop. -/
  message2s : ∀ frames, ∃ (kck : Bytes 16) (counters : List ℕ), counters.Pairwise (· ≤ ·) ∧
    (x.do4whs frames).1.filter HandshakeMessage.isMessage2 =
      counters.map (.message2 kck x.supplicantNonce)

/-! ## One frame -/

section Frame
variable {x} {frame : F} {anonce : Bytes 32} {counter : ℕ} {gtk : Bytes 16} {gtkId : Fin 4}
  {pending p : InitialHandshake} {behind : List F}

theorem isMessage1_iff : x.IsMessage1 frame anonce counter ↔
    InitialHandshake.fromMessage1 x.codec x.ownAddress x.bssid frame = some ⟨anonce,counter⟩ := by
  unfold IsMessage1 InitialHandshake.fromMessage1
  cases he : x.codec.keyPayload x.ownAddress x.bssid frame with
  | none => exact iff_of_false (by rintro ⟨e,⟨⟩,-⟩) (by rintro ⟨⟩)
  | some e =>
    by_cases hinfo : e.keyInformation = 0x008a
    · simp only [hinfo,ne_eq,not_true_eq_false,if_false,Option.some_inj]
      constructor
      · rintro ⟨_,rfl,-,rfl,rfl⟩
        rfl
      · intro h
        exact ⟨e,rfl,hinfo,congrArg InitialHandshake.authenticatorNonce h,
          congrArg InitialHandshake.replayCounter h⟩
    · simp only [hinfo,ne_eq,not_false_eq_true,if_true]
      refine iff_of_false ?_ (by rintro ⟨⟩)
      rintro ⟨_,⟨⟩,h,-⟩
      exact hinfo h

theorem isMessage3_iff : x.IsMessage3 frame anonce counter gtk gtkId ↔
    x.codec.decryptMessage3 x.ownAddress x.bssid x.scratch frame (x.kck anonce) (x.kek anonce) =
      some ⟨anonce,counter,gtk,gtkId⟩ := by
  unfold IsMessage3 EapolCodec.decryptMessage3
  cases he : x.codec.keyPayload x.ownAddress x.bssid frame with
  | none => exact iff_of_false (by rintro ⟨e,key,⟨⟩,-⟩) (by rintro ⟨⟩)
  | some e =>
    by_cases hchecks : e.keyInformation ≠ 0x13ca ∨ EapolCodec.unwrappable x.scratch e = false
    · simp only [if_pos hchecks]
      refine iff_of_false ?_ (by rintro ⟨⟩)
      rintro ⟨_,key,⟨⟩,hinfo,hunwrap,-⟩
      rcases hchecks with h | h
      · exact h hinfo
      · cases h.symm.trans hunwrap
    · simp only [if_neg hchecks]
      rw [not_or,not_not,Bool.not_eq_false] at hchecks
      cases hkey : x.codec.deserializeEapolDataFrame frame (x.kck anonce) (x.kek anonce) with
      | none => exact iff_of_false (by rintro ⟨_,key,-,-,-,⟨⟩,-⟩) (by rintro ⟨⟩)
      | some key =>
        cases hgtk : key.gtk with
        | none =>
          simp only [hgtk]
          refine iff_of_false ?_ (by rintro ⟨⟩)
          rintro ⟨_,_,-,-,-,⟨⟩,-,-,bytes,hbytes,-⟩
          cases hgtk.symm.trans hbytes
        | some element =>
          obtain ⟨bytes,id⟩ := element
          simp only [hgtk,Option.map_eq_some_iff]
          constructor
          · rintro ⟨_,_,-,-,-,⟨⟩,rfl,rfl,bytes',hbytes,hlength⟩
            cases hgtk.symm.trans hbytes
            exact ⟨gtk,hlength,rfl⟩
          · rintro ⟨bytes',hlength,h⟩
            obtain ⟨rfl,rfl,rfl,hid⟩ := Message3.mk.inj h
            obtain rfl := Fin.ext hid
            exact ⟨e,key,rfl,hchecks.1,hchecks.2,rfl,rfl,rfl,bytes,hgtk,hlength⟩

theorem processMessage3_answer (h : x.IsMessage1 frame p.authenticatorNonce counter)
    (hle : p.replayCounter ≤ counter) :
    x.processMessage3 p (frame :: behind) =
      (counter :: (x.processMessage3 ⟨p.authenticatorNonce,counter⟩ behind).1,
        (x.processMessage3 ⟨p.authenticatorNonce,counter⟩ behind).2) := by
  have hretry := InitialHandshake.message1Retry_of_some p (isMessage1_iff.mp h)
  rw [if_pos ⟨rfl,hle⟩] at hretry
  unfold processMessage3
  rw [List.map_cons,InitialHandshake.processMessage3]
  simp only [hretry]

theorem processMessage3_complete (h : x.IsMessage3 frame p.authenticatorNonce counter gtk gtkId)
    (hlt : p.replayCounter < counter) :
    x.processMessage3 p (frame :: behind) =
      ([],.accepted (.new gtk gtkId) ⟨p.authenticatorNonce,counter⟩) := by
  have hkey := isMessage3_iff.mp h
  have hretry : p.message1Retry x.codec x.ownAddress x.bssid frame = none := by
    cases hm : InitialHandshake.fromMessage1 x.codec x.ownAddress x.bssid frame with
    | none => exact InitialHandshake.message1Retry_of_none hm
    | some m => cases (InitialHandshake.decryptMessage3_of_fromMessage1 hm).symm.trans hkey
  have hthird : p.message3 x.codec x.ownAddress x.bssid x.scratch (x.kck p.authenticatorNonce)
      (x.kek p.authenticatorNonce) frame = _ := InitialHandshake.message3_of_some hkey
  rw [if_pos ⟨rfl,hlt⟩] at hthird
  unfold processMessage3
  rw [List.map_cons,InitialHandshake.processMessage3]
  simp only [hretry,hthird]

/-- Any other frame: a first message that is older or of another exchange, or anything that
is no newer third message. -/
theorem processMessage3_reject
    (h₁ : ∀ counter, x.IsMessage1 frame p.authenticatorNonce counter → counter < p.replayCounter)
    (h₃ : ∀ counter gtk gtkId, x.IsMessage3 frame p.authenticatorNonce counter gtk gtkId →
      counter ≤ p.replayCounter) :
    x.processMessage3 p (frame :: behind) = x.processMessage3 p behind := by
  have hretry : p.message1Retry x.codec x.ownAddress x.bssid frame = none := by
    cases hm : InitialHandshake.fromMessage1 x.codec x.ownAddress x.bssid frame with
    | none => exact InitialHandshake.message1Retry_of_none hm
    | some m =>
      rw [InitialHandshake.message1Retry_of_some p hm,if_neg]
      rintro ⟨hnonce,hle⟩
      have hlt := h₁ m.replayCounter (isMessage1_iff.mpr (by rw [hm,← hnonce]))
      omega
  have hthird : p.message3 x.codec x.ownAddress x.bssid x.scratch (x.kck p.authenticatorNonce)
      (x.kek p.authenticatorNonce) frame = none := by
    cases hk : x.codec.decryptMessage3 x.ownAddress x.bssid x.scratch frame
        (x.kck p.authenticatorNonce) (x.kek p.authenticatorNonce) with
    | none => exact InitialHandshake.message3_of_none hk
    | some key =>
      rw [InitialHandshake.message3_of_some hk,if_neg]
      rintro ⟨hnonce,hlt⟩
      obtain ⟨_,_,_,_,_,_,hid⟩ := EapolCodec.decryptMessage3_some hk
      have hle := h₃ key.counter key.gtk ⟨key.gtkId,hid⟩ (isMessage3_iff.mpr (by
        rw [hk,← hnonce]))
      omega
  exact InitialHandshake.processMessage3_skip hretry hthird

end Frame

/-! ## All frames -/

section Frames
variable {x} {first pending p : InitialHandshake} {before seen behind : List F} {opening frame : F}
  {counter : ℕ}

theorem mem_counters_cons {c : ℕ} : c ∈ x.Counters first (frame :: seen) ↔
    c ∈ x.Counters first seen ∨ x.IsMessage1 frame first.authenticatorNonce c := by
  unfold Counters
  simp only [Set.mem_ofPred_eq,List.mem_cons,exists_eq_or_imp]
  rw [or_left_comm,or_comm]

theorem isMessage1_unique {anonce anonce' : Bytes 32} {c c' : ℕ}
    (h : x.IsMessage1 frame anonce c) (h' : x.IsMessage1 frame anonce' c') :
    anonce = anonce' ∧ c = c' := by
  obtain ⟨e,he,-,rfl,rfl⟩ := h
  obtain ⟨_,he',-,rfl,rfl⟩ := h'
  cases he.symm.trans he'
  exact ⟨rfl,rfl⟩

/-- What a frame is for the loop in its present state. -/
theorem frame_cases (x : InitialExchange F) (p : InitialHandshake) (frame : F) :
    (∃ counter, x.IsMessage1 frame p.authenticatorNonce counter ∧ p.replayCounter ≤ counter) ∨
    (∃ counter gtk gtkId, x.IsMessage3 frame p.authenticatorNonce counter gtk gtkId ∧
      p.replayCounter < counter) ∨
    (∀ counter, x.IsMessage1 frame p.authenticatorNonce counter → counter < p.replayCounter) ∧
      ∀ counter gtk gtkId, x.IsMessage3 frame p.authenticatorNonce counter gtk gtkId →
        counter ≤ p.replayCounter := by
  by_cases h₁ : ∃ counter, x.IsMessage1 frame p.authenticatorNonce counter ∧
      p.replayCounter ≤ counter
  · exact .inl h₁
  by_cases h₃ : ∃ counter gtk gtkId, x.IsMessage3 frame p.authenticatorNonce counter gtk gtkId ∧
      p.replayCounter < counter
  · exact .inr (.inl h₃)
  refine .inr (.inr ⟨?_,?_⟩)
  · intro counter h
    by_contra hlt
    exact h₁ ⟨counter,h,not_lt.mp hlt⟩
  · intro counter gtk gtkId h
    by_contra hle
    exact h₃ ⟨counter,gtk,gtkId,h,not_le.mp hle⟩

/-- The wait loop on any frames: it waits with the nonce it began with and the greatest
counter, or it has accepted; the counters it answered never dropped. -/
theorem processMessage3_spec (x : InitialExchange F) (pending : InitialHandshake) (seen : List F) :
    ((∃ p, (x.processMessage3 pending seen).2 = .waiting p ∧
        p.authenticatorNonce = pending.authenticatorNonce ∧
        IsGreatest (x.Counters pending seen) p.replayCounter) ∨
      ∃ gtk p, (x.processMessage3 pending seen).2 = .accepted gtk p) ∧
    (pending.replayCounter :: (x.processMessage3 pending seen).1).Pairwise (· ≤ ·) := by
  induction seen generalizing pending with
  | nil =>
    refine ⟨.inl ⟨pending,rfl,rfl,.inl rfl,?_⟩,List.pairwise_singleton _ _⟩
    rintro c (rfl | ⟨frame,hmem,-⟩)
    · exact le_refl _
    · cases hmem
  | cons frame seen ih =>
    rcases frame_cases x pending frame with ⟨counter,h₁,hle⟩ | ⟨counter,gtk,gtkId,h₃,hlt⟩ | ⟨h₁,h₃⟩
    · rw [processMessage3_answer h₁ hle]
      obtain ⟨hstate,hsorted⟩ := ih ⟨pending.authenticatorNonce,counter⟩
      refine ⟨?_,?_⟩
      · rcases hstate with ⟨p,hwait,hnonce,hmem,hmax⟩ | haccepted
        · refine .inl ⟨p,hwait,hnonce,mem_counters_cons.mpr ?_,?_⟩
          · rcases hmem with heq | hmem
            · exact .inr (heq ▸ h₁)
            · exact .inl (.inr hmem)
          · intro c hc
            rcases mem_counters_cons.mp hc with (rfl | hc) | hc
            · exact hle.trans (hmax (.inl rfl))
            · exact hmax (.inr hc)
            · obtain ⟨-,rfl⟩ := isMessage1_unique hc h₁
              exact hmax (.inl rfl)
        · exact .inr haccepted
      · refine List.pairwise_cons.mpr ⟨?_,hsorted⟩
        intro c hc
        rcases List.mem_cons.mp hc with rfl | hc
        · exact hle
        · exact hle.trans (List.rel_of_pairwise_cons hsorted hc)
    · rw [processMessage3_complete h₃ hlt]
      exact ⟨.inr ⟨_,_,rfl⟩,List.pairwise_singleton _ _⟩
    · rw [processMessage3_reject h₁ h₃]
      obtain ⟨hstate,hsorted⟩ := ih pending
      refine ⟨?_,hsorted⟩
      rcases hstate with ⟨p,hwait,hnonce,hmem,hmax⟩ | haccepted
      · refine .inl ⟨p,hwait,hnonce,mem_counters_cons.mpr (.inl hmem),?_⟩
        intro c hc
        rcases mem_counters_cons.mp hc with hc | hc
        · exact hmax hc
        · exact (h₁ c hc).le.trans (hmax (.inl rfl))
      · exact .inr haccepted

/-- While the loop waits, what it has sent and its state are all that matters for the frames
to come. -/
theorem processMessage3_append_frames (h : (x.processMessage3 pending seen).2 = .waiting p)
    (behind : List F) :
    x.processMessage3 pending (seen ++ behind) =
      ((x.processMessage3 pending seen).1 ++ (x.processMessage3 p behind).1,
        (x.processMessage3 p behind).2) := by
  induction seen generalizing pending with
  | nil =>
    cases h
    rfl
  | cons frame seen ih =>
    rw [List.cons_append]
    rcases frame_cases x pending frame with ⟨counter,h₁,hle⟩ | ⟨counter,gtk,gtkId,h₃,hlt⟩ | ⟨h₁,h₃⟩
    · rw [processMessage3_answer h₁ hle] at h ⊢
      rw [processMessage3_answer h₁ hle,ih h]
      rfl
    · rw [processMessage3_complete h₃ hlt] at h
      cases h
    · rw [processMessage3_reject h₁ h₃] at h ⊢
      rw [processMessage3_reject h₁ h₃,ih h]

/-- What the exchange is after its first message, from how the loop ended. -/
def afterMessage1 (x : InitialExchange F) (first : InitialHandshake) (wait : List ℕ × Message3Wait) :
    List HandshakeMessage × HandshakeProgress :=
  let kck := x.kck first.authenticatorNonce
  let message2s := (first.replayCounter :: wait.1).map (.message2 kck x.supplicantNonce)
  match wait.2 with
  | .waiting pending => (message2s,.awaitingMessage3 pending)
  | .failed error => (message2s,.failed error)
  | .accepted gtk pending =>
    (message2s ++ [.message4 kck x.supplicantNonce pending.replayCounter],.message4 gtk pending)

/-- Frames that are no first message are dropped. -/
theorem processMessage1_skip
    (h : ∀ frame ∈ before, ∀ anonce counter, ¬ x.IsMessage1 frame anonce counter)
    (behind : List F) :
    InitialHandshake.processMessage1 x.codec x.ownAddress x.bssid
        ((before ++ behind).map (fun frame => ⟨frame,.ok ()⟩)) =
      InitialHandshake.processMessage1 x.codec x.ownAddress x.bssid
        (behind.map (fun frame => ⟨frame,.ok ()⟩)) := by
  induction before with
  | nil => rfl
  | cons frame before ih =>
    rw [List.cons_append,List.map_cons,InitialHandshake.processMessage1]
    cases hm : InitialHandshake.fromMessage1 x.codec x.ownAddress x.bssid frame with
    | some m => exact absurd (isMessage1_iff.mpr hm) (h frame List.mem_cons_self _ _)
    | none => exact ih (fun frame hmem => h frame (List.mem_cons_of_mem _ hmem))

theorem do4whs_closed
    (h : ∀ frame ∈ before, ∀ anonce counter, ¬ x.IsMessage1 frame anonce counter) :
    x.do4whs before = ([],.awaitingMessage1) := by
  have hnone := processMessage1_skip h []
  rw [List.append_nil] at hnone
  rw [do4whs,hnone]
  rfl

theorem do4whs_opened (h : x.Opens before opening first) (seen : List F) :
    x.do4whs (before ++ opening :: seen) =
      x.afterMessage1 first (x.processMessage3 first seen) := by
  have hsome : InitialHandshake.processMessage1 x.codec x.ownAddress x.bssid
      ((before ++ opening :: seen).map (fun frame => ⟨frame,.ok ()⟩)) =
      some (first,seen.map (fun frame => ⟨frame,.ok ()⟩)) := by
    rw [processMessage1_skip h.none,List.map_cons,InitialHandshake.processMessage1]
    simp only [isMessage1_iff.mp h.message1]
  have hframes : (seen.map (fun frame => (⟨frame,.ok ()⟩ : Reception F))).map Reception.frame =
      seen := by
    rw [List.map_map]
    exact List.map_id seen
  simp only [do4whs,hsome,hframes]
  rfl

/-- The exchange waits for the third message exactly if the loop does. -/
theorem waiting_of_do4whs (h : x.Opens before opening first)
    (hp : (x.do4whs (before ++ opening :: seen)).2 = .awaitingMessage3 p) :
    (x.processMessage3 first seen).2 = .waiting p := by
  rw [do4whs_opened h,afterMessage1] at hp
  cases hw : (x.processMessage3 first seen).2 with
  | waiting q =>
    rw [hw] at hp
    cases hp
    rfl
  | failed e =>
    rw [hw] at hp
    cases hp
  | accepted gtk q =>
    rw [hw] at hp
    cases hp

theorem pending_of_waiting (h : (x.processMessage3 first seen).2 = .waiting p) :
    p.authenticatorNonce = first.authenticatorNonce ∧
      IsGreatest (x.Counters first seen) p.replayCounter := by
  rcases (processMessage3_spec x first seen).1 with ⟨q,hq,hspec⟩ | ⟨gtk,q,hq⟩
  · cases h.symm.trans hq
    exact hspec
  · cases h.symm.trans hq

/-- The frames before the first message, if there is one. -/
theorem closed_or_opened (x : InitialExchange F) (frames : List F) :
    (∀ frame ∈ frames, ∀ anonce counter, ¬ x.IsMessage1 frame anonce counter) ∨
    ∃ before opening first seen, frames = before ++ opening :: seen ∧
      x.Opens before opening first := by
  induction frames with
  | nil => exact .inl (by rintro _ ⟨⟩)
  | cons frame frames ih =>
    by_cases hm : ∃ anonce counter, x.IsMessage1 frame anonce counter
    · obtain ⟨anonce,counter,hm⟩ := hm
      exact .inr ⟨[],frame,⟨anonce,counter⟩,frames,rfl,hm,by rintro _ ⟨⟩⟩
    · have hnot : ∀ anonce counter, ¬ x.IsMessage1 frame anonce counter :=
        fun anonce counter h => hm ⟨anonce,counter,h⟩
      rcases ih with hclosed | ⟨before,opening,first,seen,rfl,h⟩
      · exact .inl (List.forall_mem_cons.mpr ⟨hnot,hclosed⟩)
      · exact .inr ⟨frame :: before,opening,first,seen,rfl,h.message1,
          List.forall_mem_cons.mpr ⟨hnot,h.none⟩⟩

/-- The exchange goes on from where it waits. -/
theorem do4whs_append (h : x.Opens before opening first)
    (hp : (x.do4whs (before ++ opening :: seen)).2 = .awaitingMessage3 p) (behind : List F) :
    x.do4whs (before ++ opening :: (seen ++ behind)) = x.afterMessage1 first
      ((x.processMessage3 first seen).1 ++ (x.processMessage3 p behind).1,
        (x.processMessage3 p behind).2) := by
  rw [do4whs_opened h,processMessage3_append_frames (waiting_of_do4whs h hp)]

theorem sent_of_waiting_exchange (h : x.Opens before opening first)
    (hp : (x.do4whs (before ++ opening :: seen)).2 = .awaitingMessage3 p) :
    (x.do4whs (before ++ opening :: seen)).1 =
      (first.replayCounter :: (x.processMessage3 first seen).1).map
        (.message2 (x.kck first.authenticatorNonce) x.supplicantNonce) := by
  rw [do4whs_opened h,afterMessage1,waiting_of_do4whs h hp]

theorem isMessage2_filter (kck : Bytes 16) (nonce : Bytes 32) (counters : List ℕ) :
    (counters.map (.message2 kck nonce)).filter HandshakeMessage.isMessage2 =
      counters.map (.message2 kck nonce) := by
  refine List.filter_eq_self.mpr ?_
  intro m hm
  obtain ⟨c,-,rfl⟩ := List.mem_map.mp hm
  rfl

/-- For every decoder and every sequence of frames. -/
theorem do4whs_correct (x : InitialExchange F) : x.Correct where
  closed frames h := do4whs_closed h
  opened before opening first h := do4whs_opened h []
  pending before opening first seen p h hp := pending_of_waiting (waiting_of_do4whs h hp)
  answered before opening first seen frame p counter h hp hanswers := by
    obtain ⟨hnonce,hmem,-⟩ := pending_of_waiting (waiting_of_do4whs h hp)
    have hanswer : x.processMessage3 p [frame] = _ :=
      processMessage3_answer (hnonce ▸ hanswers.1) (hanswers.2 _ hmem)
    rw [do4whs_append h hp,hanswer,sent_of_waiting_exchange h hp,hnonce]
    simp only [afterMessage1,processMessage3,List.map_nil,InitialHandshake.processMessage3,
      List.map_cons,List.map_append,List.cons_append]
  completed before opening first seen frame behind p counter gtk gtkId h hp hcompletes := by
    obtain ⟨hnonce,hmem,-⟩ := pending_of_waiting (waiting_of_do4whs h hp)
    have hcomplete : x.processMessage3 p (frame :: behind) = _ :=
      processMessage3_complete (hnonce ▸ hcompletes.1) (hcompletes.2 _ hmem)
    rw [do4whs_append h hp,hcomplete,sent_of_waiting_exchange h hp,hnonce]
    simp only [afterMessage1,List.append_nil]
  rejected before opening first seen frame p h hp hanswers hcompletes := by
    obtain ⟨hnonce,hmem,hmax⟩ := pending_of_waiting (waiting_of_do4whs h hp)
    have hreject : x.processMessage3 p [frame] = x.processMessage3 p [] := by
      refine processMessage3_reject ?_ ?_
      · intro counter hm
        by_contra hlt
        exact hanswers counter ⟨hnonce ▸ hm,fun c hc => (hmax hc).trans (not_lt.mp hlt)⟩
      · intro counter gtk gtkId hm
        by_contra hle
        exact hcompletes counter gtk gtkId
          ⟨hnonce ▸ hm,fun c hc => (hmax hc).trans_lt (not_le.mp hle)⟩
    rw [do4whs_append h hp,hreject,← do4whs_append h hp,List.append_nil]
  progress frames e hfailed := by
    rcases closed_or_opened x frames with hclosed | ⟨before,opening,first,seen,rfl,h⟩
    · rw [do4whs_closed hclosed] at hfailed
      cases hfailed
    · rw [do4whs_opened h,afterMessage1] at hfailed
      rcases (processMessage3_spec x first seen).1 with ⟨p,hp,-⟩ | ⟨gtk,p,hp⟩
      · rw [hp] at hfailed
        cases hfailed
      · rw [hp] at hfailed
        cases hfailed
  message2s frames := by
    rcases closed_or_opened x frames with hclosed | ⟨before,opening,first,seen,rfl,h⟩
    · exact ⟨0,[],List.Pairwise.nil,by rw [do4whs_closed hclosed]; rfl⟩
    · obtain ⟨hstate,hsorted⟩ := processMessage3_spec x first seen
      refine ⟨x.kck first.authenticatorNonce,_,hsorted,?_⟩
      rw [do4whs_opened h,afterMessage1]
      rcases hstate with ⟨p,hp,-⟩ | ⟨gtk,p,hp⟩
      · rw [hp]
        exact isMessage2_filter _ _ _
      · rw [hp]
        simp only [List.filter_append]
        rw [isMessage2_filter]
        exact List.append_nil _

/-- First messages with counters 7, 6, 8 and 8, then third messages with 7 and 9. -/
example : (do4whs ⟨EapolCodec.reading,0,0,64,fun _ => 0,fun _ => 0,0⟩
    [.clear 0x1382 5,.clear 0x008a 7,.clear 0x008a 6,.clear 0x008a 8,.clear 0x008a 8,
      .clear 0x13ca 7,.clear 0x13ca 9]).1 =
    [.message2 0 0 7,.message2 0 0 8,.message2 0 0 8,.message4 0 0 9] := by
  decide +kernel

end Frames

end InitialExchange

end FerrisOnAir.Rsn
