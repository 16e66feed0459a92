import FerrisOnAir.Rsn.KeyInstallation
import FerrisOnAir.Tx.SystemRuns

/-! # Transmit packet numbers of one pairwise key

Two parties draw from the packet number of the PTK: the MSDU loop and the sender of
EAPOL key frames. Neither awaits anything between taking a buffer and
`transmit_edca`, so each of these stretches is one step; everything else the
transmit side does (runners, completions, handles, the frames of other users) and
the whole receive side interleaves freely.
-/
namespace FerrisOnAir.Rsn
open Tx
variable {N : ℕ} {E F : Type*}

/-- `ieee80211::crypto::CryptoHeader`. -/
structure CryptoHeader where
  packetNumber : ℕ
  keyId : ℕ
deriving DecidableEq

namespace CryptoHeader

/-- `CryptoHeader::MAX_PN`. -/
def maxPn : ℕ := 2 ^ 48 - 1

def new (packetNumber keyId : ℕ) : Option CryptoHeader :=
  if 1 ≤ packetNumber ∧ packetNumber ≤ maxPn then some ⟨packetNumber,keyId⟩ else none

theorem new_packetNumber {pn k : ℕ} {h : CryptoHeader} (he : new pn k = some h) :
    h.packetNumber = pn := by
  unfold new at he
  split at he
  · cases he
    rfl
  · cases he

end CryptoHeader

/-- A serialized MPDU, by what the key slot makes of it. -/
inductive Mpdu
  | zeroed
  | clear (body : List UInt8)
  | ccmp (header : CryptoHeader) (body : List UInt8)
deriving DecidableEq

instance : Zero Mpdu := ⟨.zeroed⟩

/-- The part of `TxMacParameters` the station sets. -/
structure TxMacParameters where
  keySlotIndex : Option ℕ
  waitForAck : Bool
  overrideSeqNum : Bool
deriving DecidableEq

/-- The EAPOL key frames the station sends. -/
inductive KeyMessage
  | message2
  | message4
  | groupMessage2
  | groupRequest
deriving DecidableEq

/-- The key information bits of each message. -/
def KeyMessage.keyInformation : KeyMessage → ℕ
  | message2 => 0x010a
  | message4 => 0x030a
  | groupMessage2 => 0x0302
  | groupRequest => 0x0b02

def KeyMessage.isPairwise (m : KeyMessage) : Bool := m.keyInformation.testBit 3

/-- `protect_eapol` on a serialized key frame of `written` bytes. -/
def protectEapol (body : List UInt8) (written pn : ℕ) : Option (Mpdu × ℕ) :=
  if pn = 0 ∨ pn > CryptoHeader.maxPn ∨ written + 16 > txBufferSize then none
  else match CryptoHeader.new pn 0 with
    | none => none
    | some header => some (.ccmp header body,written + 16)

/-- One attempt to submit a frame: the number it drew and what it gave to `transmit_edca`. -/
structure Submission where
  message : Option KeyMessage
  packetNumber : Option ℕ
  frame : Option (Mpdu × TxMacParameters)
deriving DecidableEq

/-- MSDUs and group messages are sent under the PTK. -/
def Submission.isProtected (x : Submission) : Bool := x.message.all (fun m => !m.isPairwise)

/-- A submission draws a number exactly if it is protected; its frame, unless it failed,
carries that number or is clear. -/
def Submission.WellFormed (slot : ℕ) (x : Submission) : Prop :=
  (x.packetNumber.isSome = x.isProtected) ∧
  ∀ m p, x.frame = some (m,p) →
    if x.isProtected then
      ∃ header body, m = .ccmp header body ∧ x.packetNumber = some header.packetNumber ∧
        p.keySlotIndex = some slot
    else ∃ body, m = .clear body ∧ p.keySlotIndex = none

/-- The station's `TxEndpoint`: the queue of the default access category. -/
structure StaTxEndpoint where
  queue : Fin 4
  interface : ℕ

structure StaTx (N : ℕ) (E : Type*) where
  tx : TxSystem N Mpdu TxMacParameters E
  rsn : CryptoRun
  submissions : List Submission

inductive StaTxOp (N : ℕ) (E F : Type*)
  | msdu (body : List UInt8) (written : Option ℕ)
  | eapolKey (message : KeyMessage) (body : List UInt8) (written : ℕ)
  | rx (e : RxEvent F)
  | tx (op : TxOp N Mpdu TxMacParameters E)

inductive StaTxFault
  | tx (f : Fault)
  | rsn (p : RsnPanic)
  | packetNumbersExhausted
deriving DecidableEq

namespace StaTx
variable [NeZero N] (s : StaTx N E)

omit [NeZero N] in
def ptksa : TransientKeySecurityAssociation 48 := s.rsn.state.securityAssociations.ptksa

omit [NeZero N] in
def ptkKeySlot : ℕ := s.rsn.state.slots.keySlot .pairwise

omit [NeZero N] in
/-- `next_packet_number` on the PTK. -/
def draw : StaTx N E :=
  { s with rsn := { s.rsn with state := s.rsn.state.setPtksa s.ptksa.nextPacketNumber.2 } }

omit [NeZero N] in
def record (x : Submission) : StaTx N E := { s with submissions := s.submissions ++ [x] }

def runTx (ops : List (TxOp N Mpdu TxMacParameters E)) : Except StaTxFault (StaTx N E) :=
  match s.tx.run ops with
  | .error f => .error (.tx f)
  | .ok tx => .ok { s with tx := tx }

/-- `transmit_edca` with the buffer the allocation yields, after writing it. -/
def transmit (ep : StaTxEndpoint) (i : Fin N) (frame : Mpdu) (written : ℕ)
    (keySlotIndex : Option ℕ) :
    List (TxOp N Mpdu TxMacParameters E) :=
  [.tryAlloc,.write i frame,
    .transmitEdca ep.queue i written ⟨keySlotIndex,true,true⟩ ep.interface (.retryUntil 7)]

/-- One pass of `run_msdu_tx` from the moment a buffer is available. The handle is
dropped at once; a frame that does not fit drops the buffer. -/
def msdu (ep : StaTxEndpoint) (body : List UInt8) (written : Option ℕ) :
    Except StaTxFault (StaTx N E) :=
  match s.tx.manager.bufferQueue with
  | [] => .error (.tx .disabled)
  | b :: _ =>
    let pn := s.ptksa.nextPacketNumber.1
    match CryptoHeader.new pn s.ptksa.keyId with
    | none => .error .packetNumbersExhausted
    | some header =>
      match written with
      | none => (s.draw.record ⟨none,some pn,none⟩).runTx [.tryAlloc,.dropBuffer b.buffer]
      | some written =>
        let frame := Mpdu.ccmp header body
        (s.draw.record ⟨none,some pn,some (frame,⟨some s.ptkKeySlot,true,true⟩)⟩).runTx
          (transmit ep b.buffer frame written (some s.ptkKeySlot) ++
            [.queue ep.queue (.dropHandle (s.tx.queues ep.queue).queue.counter)])

/-- `send_eapol_key_frame` from the moment a buffer is available up to the wait for
its completion. -/
def sendEapolKeyFrame (ep : StaTxEndpoint) (message : KeyMessage) (body : List UInt8) (written : ℕ) :
    Except StaTxFault (StaTx N E) :=
  match s.tx.manager.bufferQueue with
  | [] => .error (.tx .disabled)
  | b :: _ =>
    if message.isPairwise then
      let frame := Mpdu.clear body
      (s.record ⟨some message,none,some (frame,⟨none,true,true⟩)⟩).runTx
        (transmit ep b.buffer frame written none)
    else
      let pn := s.ptksa.nextPacketNumber.1
      match protectEapol body written pn with
      | none => (s.draw.record ⟨some message,some pn,none⟩).runTx [.tryAlloc,.dropBuffer b.buffer]
      | some (frame,written) =>
        (s.draw.record ⟨some message,some pn,some (frame,⟨some s.ptkKeySlot,true,true⟩)⟩).runTx
          (transmit ep b.buffer frame written (some s.ptkKeySlot))

omit [NeZero N] in
/-- A frame of somebody else with the key slot this connection owns. -/
def stealsKeySlot : TxOp N Mpdu TxMacParameters E → Bool
  | .transmitEdca _ _ _ p _ _ => p.keySlotIndex == some s.ptkKeySlot
  | _ => false

def step (ep : StaTxEndpoint) (d : KeyFrameDecoder F) (bssid : Bytes 6) :
    StaTxOp N E F → Except StaTxFault (StaTx N E)
  | .msdu body written => s.msdu ep body written
  | .eapolKey message body written => s.sendEapolKeyFrame ep message body written
  | .rx e =>
    match s.rsn.step d bssid e with
    | .error p => .error (.rsn p)
    | .ok rsn => .ok { s with rsn := rsn }
  | .tx op => if s.stealsKeySlot op then .error (.tx .disabled) else s.runTx [op]

def Step (ep : StaTxEndpoint) (d : KeyFrameDecoder F) (bssid : Bytes 6) (s : StaTx N E)
    (op : StaTxOp N E F) (t : StaTx N E) : Prop :=
  s.step ep d bssid op = .ok t

section Numbers
variable {s} {t : StaTx N E} {ep : StaTxEndpoint} {d : KeyFrameDecoder F} {bssid : Bytes 6}

omit [NeZero N] in
/-- The numbers drawn so far, in order. -/
def drawn (s : StaTx N E) : List ℕ := s.submissions.filterMap Submission.packetNumber

/-- The packet numbers of the frames sent through a key slot. -/
def protectedNumbers (slot : ℕ) (frames : List (PendingFrame N Mpdu TxMacParameters)) : List ℕ :=
  frames.filterMap (fun f =>
    if f.parameters.keySlotIndex = some slot then
      match f.frame.contents with
      | .ccmp header _ => some header.packetNumber
      | _ => none
    else none)

structure Numbered (ep : StaTxEndpoint) (base slot : ℕ) (s : StaTx N E) : Prop where
  slot_eq : s.ptkKeySlot = slot
  base_le : base ≤ (s.tx.enqueued ep.queue).length
  drawn_eq : s.drawn = (List.range s.drawn.length).map (fun i => (i + 1) % 2 ^ 64)
  next_eq : s.ptksa.packetNumber = (s.drawn.length + 1) % 2 ^ 64
  carried : (protectedNumbers slot ((s.tx.enqueued ep.queue).drop base)).Sublist s.drawn
  ccmp : ∀ f ∈ (s.tx.enqueued ep.queue).drop base, f.parameters.keySlotIndex = some slot →
    ∃ header body, f.frame.contents = .ccmp header body
  submissions_wellFormed : ∀ x ∈ s.submissions, x.WellFormed slot

theorem runTx_ok {ops : List (TxOp N Mpdu TxMacParameters E)} (h : s.runTx ops = .ok t) :
    ∃ tx, s.tx.run ops = .ok tx ∧ t = { s with tx := tx } := by
  unfold runTx at h
  split at h
  · cases h
  · rename_i tx htx
    cases h
    exact ⟨tx,htx,rfl⟩

theorem transmit_enqueued {tx tx' : TxSystem N Mpdu TxMacParameters E} {i : Fin N} {m : Mpdu}
    {w : ℕ} {ks : Option ℕ} {rest : List (TxOp N Mpdu TxMacParameters E)}
    (h : tx.run (transmit ep i m w ks ++ rest) = .ok tx') :
    ∃ (mid : TxSystem N Mpdu TxMacParameters E) (f : PendingFrame N Mpdu TxMacParameters),
      mid.run rest = .ok tx' ∧
      mid.enqueued ep.queue = tx.enqueued ep.queue ++ [f] ∧ f.frame.contents = m ∧
      f.parameters = ⟨ks,true,true⟩ := by
  obtain ⟨t₁,h₁,h⟩ := TxSystem.run_cons h
  obtain ⟨t₂,h₂,h⟩ := TxSystem.run_cons h
  obtain ⟨t₃,h₃,h⟩ := TxSystem.run_cons h
  have he₁ : t₁.enqueued ep.queue = tx.enqueued ep.queue := by
    rcases TxSystem.step_enqueued_cases h₁ ep.queue with he | ⟨_,_,_,_,_,_,_,hop,_⟩
    · exact he
    · cases hop
  have he₂ : t₂.enqueued ep.queue = t₁.enqueued ep.queue := by
    rcases TxSystem.step_enqueued_cases h₂ ep.queue with he | ⟨_,_,_,_,_,_,_,hop,_⟩
    · exact he
    · cases hop
  have hheld : ∃ b rest, t₂.held = b :: rest ∧ b.buffer = i ∧ b.contents = m := by
    obtain ⟨b,rest,hb,rfl⟩ := TxSystem.step_write h₂
    exact ⟨_,rest,rfl,(takeBuffer_some hb).1,rfl⟩
  obtain ⟨b,rest',hheld,hbi,hbm⟩ := hheld
  have htake : takeBuffer t₂.held i = some (b,rest') := by
    rw [hheld,takeBuffer,if_pos hbi]
  have he₃ := h₃
  simp only [TxSystem.Step,TxSystem.step,htake] at he₃
  have hq := TxSystem.queueStep_enqueued (q := ep.queue) he₃
  rw [if_pos rfl] at hq
  refine ⟨t₃,⟨b,w,⟨ks,true,true⟩,ep.interface,.retryUntil 7⟩,h,?_,hbm,rfl⟩
  rw [hq,he₂,he₁]
  rfl

theorem run_enqueued {tx tx' : TxSystem N Mpdu TxMacParameters E}
    {ops : List (TxOp N Mpdu TxMacParameters E)}
    (hops : ∀ op ∈ ops, ∀ q i len p iface r, op ≠ .transmitEdca q i len p iface r)
    (h : tx.run ops = .ok tx') : tx'.enqueued ep.queue = tx.enqueued ep.queue := by
  induction ops generalizing tx with
  | nil =>
    cases h
    rfl
  | cons op ops ih =>
    obtain ⟨t,ht,h⟩ := TxSystem.run_cons h
    rw [ih (fun op hop => hops op (List.mem_cons_of_mem _ hop)) h]
    rcases TxSystem.step_enqueued_cases ht ep.queue with he | ⟨_,_,_,_,_,_,_,hop,_⟩
    · exact he
    · exact absurd hop (hops op List.mem_cons_self _ _ _ _ _ _)

namespace Numbered
variable {base slot : ℕ}

omit [NeZero N] in
/-- One frame more does not shorten the queue, and is in CCMP if it uses the key slot. -/
theorem append_frame (hs : Numbered ep base slot s) (tx : TxSystem N Mpdu TxMacParameters E)
    (htx : tx.enqueued ep.queue = s.tx.enqueued ep.queue ∨
      ∃ f, tx.enqueued ep.queue = s.tx.enqueued ep.queue ++ [f] ∧
        (f.parameters.keySlotIndex = some slot →
          ∃ header body, f.frame.contents = .ccmp header body)) :
    base ≤ (tx.enqueued ep.queue).length ∧
      ∀ f ∈ (tx.enqueued ep.queue).drop base, f.parameters.keySlotIndex = some slot →
        ∃ header body, f.frame.contents = .ccmp header body := by
  rcases htx with h | ⟨f,h,hf⟩
  · rw [h]
    exact ⟨hs.base_le,hs.ccmp⟩
  · rw [h,List.drop_append_of_le_length hs.base_le,List.length_append]
    refine ⟨hs.base_le.trans (Nat.le_add_right ..),?_⟩
    intro f' hf' hslot
    rcases List.mem_append.mp hf' with hf' | hf'
    · exact hs.ccmp f' hf' hslot
    · rw [List.mem_singleton.mp hf'] at hslot ⊢
      exact hf hslot

omit [NeZero N] in
/-- One more drawn number, and possibly a frame that carries it. -/
theorem append_draw (hs : Numbered ep base slot s) {tx : TxSystem N Mpdu TxMacParameters E}
    {x : Submission} (hx : x.WellFormed slot) (hpn : x.packetNumber = some s.ptksa.packetNumber)
    (htx : tx.enqueued ep.queue = s.tx.enqueued ep.queue ∨
      ∃ f, tx.enqueued ep.queue = s.tx.enqueued ep.queue ++ [f] ∧
        f.parameters.keySlotIndex = some slot ∧
        ∃ header body, f.frame.contents = .ccmp header body ∧
          header.packetNumber = s.ptksa.packetNumber) :
    Numbered ep base slot { s.draw.record x with tx := tx } := by
  have hdrawn : ({ s.draw.record x with tx := tx } : StaTx N E).drawn =
      s.drawn ++ [s.ptksa.packetNumber] := by
    simp [drawn,record,draw,hpn]
  have hlen : ({ s.draw.record x with tx := tx } : StaTx N E).drawn.length =
      s.drawn.length + 1 := by
    rw [hdrawn,List.length_append,List.length_singleton]
  have hsub : ∀ x' ∈ s.submissions ++ [x], x'.WellFormed slot := by
    intro x' hx'
    rcases List.mem_append.mp hx' with h | h
    · exact hs.submissions_wellFormed x' h
    · rw [List.mem_singleton.mp h]
      exact hx
  obtain ⟨hbase,hccmp⟩ := hs.append_frame tx (htx.imp_right (by
    rintro ⟨f,h,-,header,body,hc,-⟩
    exact ⟨f,h,fun _ => ⟨header,body,hc⟩⟩))
  refine ⟨hs.slot_eq,hbase,?_,?_,?_,hccmp,hsub⟩
  · rw [hlen,hdrawn,List.range_succ,List.map_append,← hs.drawn_eq,hs.next_eq]
    rfl
  · rw [hlen]
    change (s.ptksa.packetNumber + 1) % 2 ^ 64 = _
    rw [hs.next_eq,Nat.mod_add_mod]
  · rw [hdrawn]
    rcases htx with h | ⟨f,h,hslot,header,body,hc,hn⟩
    · rw [h]
      exact hs.carried.trans (List.sublist_append_left ..)
    · rw [h,List.drop_append_of_le_length hs.base_le,protectedNumbers,List.filterMap_append]
      refine hs.carried.append ?_
      simp [hslot,hc,hn]

omit [NeZero N] in
/-- A step that draws no number, and whose frame does not use the key slot. -/
theorem append_clear (hs : Numbered ep base slot s) (ht : t.drawn = s.drawn)
    (hslot : t.ptkKeySlot = s.ptkKeySlot)
    (hnext : t.ptksa.packetNumber = s.ptksa.packetNumber)
    (hsub : ∀ x ∈ t.submissions, x.WellFormed slot)
    (htx : t.tx.enqueued ep.queue = s.tx.enqueued ep.queue ∨
      ∃ f, t.tx.enqueued ep.queue = s.tx.enqueued ep.queue ++ [f] ∧
        f.parameters.keySlotIndex ≠ some slot) :
    Numbered ep base slot t := by
  have hnumbers : protectedNumbers slot ((t.tx.enqueued ep.queue).drop base) =
      protectedNumbers slot ((s.tx.enqueued ep.queue).drop base) := by
    rcases htx with h | ⟨f,h,hf⟩
    · rw [h]
    · rw [h,List.drop_append_of_le_length hs.base_le,protectedNumbers,List.filterMap_append]
      simp [hf,protectedNumbers]
  obtain ⟨hbase,hccmp⟩ := hs.append_frame t.tx (htx.imp_right (by
    rintro ⟨f,h,hf⟩
    exact ⟨f,h,fun hslot => absurd hslot hf⟩))
  refine ⟨hslot.trans hs.slot_eq,hbase,?_,?_,?_,hccmp,hsub⟩
  · rw [ht]
    exact hs.drawn_eq
  · rw [ht,hnext]
    exact hs.next_eq
  · rw [ht,hnumbers]
    exact hs.carried

/-- A submission that failed after its number was drawn. -/
theorem failed_draw (hs : Numbered ep base slot s) {message : Option KeyMessage} {i : Fin N}
    (hm : message.all (fun m => !m.isPairwise) = true)
    (he : (s.draw.record ⟨message,some s.ptksa.packetNumber,none⟩).runTx
      [.tryAlloc,.dropBuffer i] = .ok t) : Numbered ep base slot t := by
  obtain ⟨tx,htx,rfl⟩ := runTx_ok he
  refine hs.append_draw ⟨hm.symm,nofun⟩ rfl (Or.inl (run_enqueued ?_ htx))
  simp

/-- A protected frame is enqueued with the number drawn for it. -/
theorem enqueued_draw (hs : Numbered ep base slot s) {message : Option KeyMessage} {i : Fin N}
    {header : CryptoHeader} {body : List UInt8} {w : ℕ}
    {rest : List (TxOp N Mpdu TxMacParameters E)}
    (hm : message.all (fun m => !m.isPairwise) = true)
    (hpn : header.packetNumber = s.ptksa.packetNumber)
    (hrest : ∀ op ∈ rest, ∀ q i len p iface r, op ≠ .transmitEdca q i len p iface r)
    (he : (s.draw.record ⟨message,some s.ptksa.packetNumber,
      some (.ccmp header body,⟨some s.ptkKeySlot,true,true⟩)⟩).runTx
      (transmit ep i (.ccmp header body) w (some s.ptkKeySlot) ++ rest) = .ok t) :
    Numbered ep base slot t := by
  obtain ⟨tx,htx,rfl⟩ := runTx_ok he
  obtain ⟨mid,f,hmid,hf,hc,hp⟩ := transmit_enqueued htx
  refine hs.append_draw ⟨hm.symm,?_⟩ rfl (Or.inr ⟨f,?_,?_,header,body,hc,hpn⟩)
  · rintro m p h
    cases h
    simp only [Submission.isProtected,hm,if_true]
    exact ⟨header,body,rfl,by rw [hpn],congrArg some hs.slot_eq⟩
  · rw [run_enqueued hrest hmid,hf]
    rfl
  · rw [hp,hs.slot_eq]

theorem msdu_numbered (hs : Numbered ep base slot s) {body : List UInt8} {written : Option ℕ}
    (he : s.msdu ep body written = .ok t) : Numbered ep base slot t := by
  cases hb : s.tx.manager.bufferQueue with
  | nil => simp only [msdu,hb] at he; cases he
  | cons b rest =>
    cases hh : CryptoHeader.new s.ptksa.nextPacketNumber.1 s.ptksa.keyId with
    | none => simp only [msdu,hb,hh] at he; cases he
    | some header =>
      cases written with
      | none =>
        simp only [msdu,hb,hh] at he
        exact hs.failed_draw rfl he
      | some w =>
        simp only [msdu,hb,hh] at he
        refine hs.enqueued_draw rfl (CryptoHeader.new_packetNumber hh) ?_ he
        simp

theorem protectEapol_some {body : List UInt8} {w w' pn : ℕ} {m : Mpdu}
    (h : protectEapol body w pn = some (m,w')) :
    ∃ header, m = .ccmp header body ∧ header.packetNumber = pn := by
  unfold protectEapol at h
  split at h
  · cases h
  · split at h
    · cases h
    · rename_i header hheader
      cases h
      exact ⟨header,rfl,CryptoHeader.new_packetNumber hheader⟩

theorem sendEapolKeyFrame_numbered (hs : Numbered ep base slot s) {message : KeyMessage}
    {body : List UInt8} {written : ℕ} (he : s.sendEapolKeyFrame ep message body written = .ok t) :
    Numbered ep base slot t := by
  cases hb : s.tx.manager.bufferQueue with
  | nil => simp only [sendEapolKeyFrame,hb] at he; cases he
  | cons b rest =>
    cases hp : message.isPairwise with
    | true =>
      simp only [sendEapolKeyFrame,hb,hp,if_true] at he
      obtain ⟨tx,htx,rfl⟩ := runTx_ok he
      rw [← List.append_nil (transmit ..)] at htx
      obtain ⟨mid,f,hmid,hf,hc,hpar⟩ := transmit_enqueued htx
      cases hmid
      refine hs.append_clear ?_ rfl rfl ?_ (Or.inr ⟨f,hf,?_⟩)
      · simp [drawn,record]
      · intro x hx
        rcases List.mem_append.mp hx with h | h
        · exact hs.submissions_wellFormed x h
        · rw [List.mem_singleton.mp h]
          refine ⟨by simp [Submission.isProtected,hp],?_⟩
          rintro m p h
          cases h
          simp only [Submission.isProtected,Option.all_some,hp,Bool.not_true,Bool.false_eq_true,
            if_false]
          exact ⟨body,rfl,trivial⟩
      · rw [hpar]
        simp
    | false =>
      have hm : (some message).all (fun m => !m.isPairwise) = true := by simp [hp]
      cases hprot : protectEapol body written s.ptksa.nextPacketNumber.1 with
      | none =>
        simp only [sendEapolKeyFrame,hb,hp,hprot,Bool.false_eq_true,if_false] at he
        exact hs.failed_draw hm he
      | some r =>
        obtain ⟨m,w⟩ := r
        obtain ⟨header,rfl,hpn⟩ := protectEapol_some hprot
        simp only [sendEapolKeyFrame,hb,hp,hprot,Bool.false_eq_true,if_false] at he
        rw [← List.append_nil (transmit ..)] at he
        exact hs.enqueued_draw hm hpn (fun _ h => absurd h List.not_mem_nil) he

theorem step_numbered (hs : Numbered ep base slot s) {op : StaTxOp N E F}
    (he : Step ep d bssid s op t) : Numbered ep base slot t := by
  unfold Step at he
  cases op with
  | msdu body written => exact hs.msdu_numbered he
  | eapolKey message body written => exact hs.sendEapolKeyFrame_numbered he
  | rx e =>
    simp only [step] at he
    split at he
    · cases he
    · rename_i rsn hrsn
      cases he
      obtain ⟨hslots,hnext⟩ := CryptoRun.step_ptk hrsn
      refine hs.append_clear rfl ?_ hnext hs.submissions_wellFormed (Or.inl rfl)
      exact congrArg (fun k => k.keySlot .pairwise) hslots
  | tx op =>
    simp only [step] at he
    by_cases hst : s.stealsKeySlot op = true
    · rw [if_pos hst] at he
      cases he
    · rw [if_neg hst] at he
      obtain ⟨tx,htx,rfl⟩ := runTx_ok he
      obtain ⟨mid,hmid,hend⟩ := TxSystem.run_cons htx
      cases hend
      refine hs.append_clear rfl rfl rfl hs.submissions_wellFormed ?_
      rcases TxSystem.step_enqueued_cases hmid ep.queue with h | ⟨i,len,p,iface,r,b,rest,rfl,_,h⟩
      · exact Or.inl h
      · refine Or.inr ⟨_,h,?_⟩
        intro hslot
        exact hst (by simpa [stealsKeySlot,hs.slot_eq] using hslot)

end Numbered


theorem step_tx {op : StaTxOp N E F} (he : Step ep d bssid s op t) :
    ∃ ops, Runs TxSystem.Step s.tx ops t.tx := by
  have hrun : ∀ {u : StaTx N E} {ops}, u.runTx ops = .ok t → u.tx = s.tx →
      ∃ ops, Runs TxSystem.Step s.tx ops t.tx := by
    intro u ops h hu
    obtain ⟨tx,htx,rfl⟩ := runTx_ok h
    exact ⟨ops,hu ▸ TxSystem.runs_of_run htx⟩
  unfold Step at he
  cases op with
  | msdu body written =>
    simp only [step,msdu] at he
    split at he
    · cases he
    · split at he
      · cases he
      · split at he <;> exact hrun he rfl
  | eapolKey message body written =>
    simp only [step,sendEapolKeyFrame] at he
    split at he
    · cases he
    · split at he
      · exact hrun he rfl
      · split at he <;> exact hrun he rfl
  | rx e =>
    simp only [step] at he
    split at he
    · cases he
    · cases he
      exact ⟨[],.refl _⟩
  | tx op =>
    simp only [step] at he
    split at he
    · cases he
    · exact hrun he rfl

theorem runs_tx_valid {ops : List (StaTxOp N E F)} (hr : Runs (Step ep d bssid) s ops t)
    (hs : s.tx.Valid) : t.tx.Valid := by
  refine hr.invariant (I := fun u => u.tx.Valid) ?_ hs
  intro u op v hu he
  obtain ⟨ops,h⟩ := step_tx he
  exact TxSystem.runs_valid h hu

/-- What reaches the radio is a prefix of what was enqueued, whatever came before. -/
theorem handed_prefix (hs : s.tx.Valid) (q : Fin 4) (base : ℕ) :
    ((s.tx.queues q).history.handed.map Prod.snd).drop base <+:
      (s.tx.enqueued q).drop base := by
  rw [(hs.queues_valid q).handed_frames]
  exact (List.take_prefix _ _).drop base

/-- Under one PTK every protected submission consumes the next number, frames carry
strictly increasing numbers in the order in which they are enqueued and in which they
reach the radio, and pairwise EAPOL messages are clear and consume none. -/
theorem packet_numbers_in_order {slots : KeySlots} {ptk : Bytes 48} {gtk : Bytes 16}
    {gtkId : Fin 4} {m : Message3Replay} {rsn : CryptoRun}
    {tx : TxSystem N Mpdu TxMacParameters E} {ops₀ : List (TxOp N Mpdu TxMacParameters E)}
    {ops : List (StaTxOp N E F)} (htx : Runs TxSystem.Step TxSystem.new ops₀ tx)
    (hrsn : CryptoRun.start slots bssid ptk gtk gtkId m = .ok rsn)
    (hr : Runs (Step ep d bssid) ⟨tx,rsn,[]⟩ ops s) (hcount : s.drawn.length < 2 ^ 64) :
    let base := (tx.enqueued ep.queue).length
    let slot := slots.keySlot .pairwise
    let frames := (s.tx.enqueued ep.queue).drop base
    let radio := ((s.tx.queues ep.queue).history.handed.map Prod.snd).drop base
    (protectedNumbers slot frames).Pairwise (· < ·) ∧
    (protectedNumbers slot radio).Pairwise (· < ·) ∧ radio <+: frames ∧
    (∀ f ∈ frames, f.parameters.keySlotIndex = some slot →
      ∃ header body, f.frame.contents = .ccmp header body ∧ header.packetNumber ∈ s.drawn) ∧
    s.drawn = (List.range s.drawn.length).map (· + 1) ∧
    (∀ x ∈ s.submissions, x.packetNumber.isSome = x.isProtected) ∧
    ∀ x ∈ s.submissions, ∀ mpdu p, x.frame = some (mpdu,p) →
      if x.isProtected then ∃ header body, mpdu = .ccmp header body ∧
        x.packetNumber = some header.packetNumber ∧ p.keySlotIndex = some slot
      else ∃ body, mpdu = .clear body ∧ p.keySlotIndex = none := by
  intro base slot frames radio
  have hstart : Numbered ep base slot (⟨tx,rsn,[]⟩ : StaTx N E) := by
    obtain ⟨hslot,hptk⟩ := CryptoRun.start_ptk hrsn
    refine ⟨congrArg (fun k => k.keySlot .pairwise) hslot,le_rfl,rfl,?_,?_,?_,nofun⟩
    · rw [ptksa,hptk]
      rfl
    · rw [List.drop_length]
      exact List.nil_sublist _
    · rw [List.drop_length]
      exact fun f hf => absurd hf List.not_mem_nil
  have hs : Numbered ep base slot s :=
    hr.invariant (I := Numbered ep base slot) (fun _ _ _ h he => h.step_numbered he) hstart
  have htxv := runs_tx_valid hr (TxSystem.runs_valid htx TxSystem.new_valid)
  have hdrawn : s.drawn = (List.range s.drawn.length).map (· + 1) := by
    refine hs.drawn_eq.trans (List.map_congr_left ?_)
    intro i hi
    exact Nat.mod_eq_of_lt (by have := List.mem_range.mp hi; omega)
  have hsorted : s.drawn.Pairwise (· < ·) := by
    rw [hdrawn,List.pairwise_map]
    exact List.pairwise_lt_range.imp (fun h => Nat.succ_lt_succ h)
  have hframes : (protectedNumbers slot frames).Pairwise (· < ·) := hsorted.sublist hs.carried
  have hradio : radio <+: frames := handed_prefix htxv ep.queue base
  refine ⟨hframes,hframes.sublist (hradio.sublist.filterMap _),hradio,?_,hdrawn,
    fun x hx => (hs.submissions_wellFormed x hx).1,fun x hx => (hs.submissions_wellFormed x hx).2⟩
  intro f hf hslot
  obtain ⟨header,body,hc⟩ := hs.ccmp f hf hslot
  refine ⟨header,body,hc,hs.carried.subset (List.mem_filterMap.mpr ⟨f,hf,?_⟩)⟩
  rw [if_pos hslot,hc]

/-- A G2, an M4 and an MSDU, with the G2 aborted by the runner. -/
theorem packet_numbers_in_order_mixed :
    let d : KeyFrameDecoder GroupMessage1 := ⟨fun _ => true,fun m _ _ => some m,fun _ _ _ => none⟩
    ∃ rsn, CryptoRun.start .lowest 0 0 0 1 ⟨0,0,2⟩ = .ok rsn ∧
    ∃ s : StaTx 3 Unit, Runs (Step ⟨0,0⟩ d 0) ⟨TxSystem.new,rsn,[]⟩
      [.eapolKey .groupMessage2 [1] 131,.tx (.queue 0 .tryReceive),.tx (.queue 0 .abort),
        .eapolKey .message4 [2] 131,.msdu [3] (some 60),.tx (.queue 0 .tryReceive)] s ∧
    protectedNumbers 4 (s.tx.enqueued 0) = [1,2] ∧
    (protectedNumbers 4 ((s.tx.queues 0).history.handed.map Prod.snd)).Pairwise (· < ·) := by
  intro d
  have hstart : CryptoRun.start .lowest 0 0 0 1 ⟨0,0,2⟩ = .ok _ := rfl
  refine ⟨_,hstart,?_⟩
  apply Runs.exists_of_execute (fun _ _ _ => ok_of_toOption)
    (fun s => s.drawn.length < 2 ^ 64 ∧ protectedNumbers 4 (s.tx.enqueued 0) = [1,2])
  · decide
  · rintro s hr ⟨hcount,hnumbers⟩
    exact ⟨hnumbers,(packet_numbers_in_order (.refl _) hstart hr hcount).2.1⟩

end Numbers
end StaTx
end FerrisOnAir.Rsn
