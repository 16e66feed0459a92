import FerrisOnAir.Rsn.GroupKeys

/-! # The replay counter of EAPOL frames after the connection is up

Third messages and group messages share one counter. The former need a higher one, the
latter may also repeat the last message in all fields. Every answered frame is recorded
with its reply and the keys it made the station program.
-/
namespace FerrisOnAir.Rsn
variable {F : Type*}

def Reply.counter : Reply → ℕ
  | .groupMessage2 _ counter => counter
  | .message4 _ _ counter => counter

structure Answer (F : Type*) where
  frame : F
  reply : Reply
  commands : List SetKey

structure EapolRun (F : Type*) where
  state : CryptoState
  answers : List (Answer F)

/-- The counter of the completed exchange. -/
abbrev CryptoState.counter (s : CryptoState) : ℕ := s.message3Replay.replayCounter

/-- The group message a frame carries under the PTK of the connection. -/
def CryptoState.groupMessage (d : KeyFrameDecoder F) (s : CryptoState) (frame : F) :
    Option GroupMessage1 :=
  if d.isGroup frame then d.decodeGroupMessage1 frame (kck s.securityAssociations.ptksa.key)
    (kek s.securityAssociations.ptksa.key)
  else none

namespace EapolRun

def step (d : KeyFrameDecoder F) (bssid : Bytes 6) (s : EapolRun F) :
    RxEvent F → Except RsnPanic (EapolRun F)
  | .data isGroup keyId pn => .ok { s with state := (s.state.validateData isGroup keyId pn).2 }
  | .eapol frame packetNumber =>
    match s.state.handleEapolRetry d bssid frame packetNumber with
    | .error e => .error e
    | .ok (state,commands,reply) => .ok {
        state := state
        answers := s.answers ++ reply.toList.map (fun reply => ⟨frame,reply,commands⟩) }

def Step (d : KeyFrameDecoder F) (bssid : Bytes 6) (s : EapolRun F) (e : RxEvent F)
    (t : EapolRun F) : Prop :=
  s.step d bssid e = .ok t

/-- The group messages answered so far. -/
def groupMessages (d : KeyFrameDecoder F) (s : EapolRun F) : List GroupMessage1 :=
  s.answers.filterMap (fun a => s.state.groupMessage d a.frame)

/-- The keys programmed because of frames with the counter `k`. -/
def programmedAt (s : EapolRun F) (k : ℕ) : List SetKey :=
  (s.answers.filter (fun a => a.reply.counter = k)).flatMap Answer.commands

end EapolRun

/-- How `handle_eapol_retry` treats one frame by its counter. -/
structure CounterDiscipline (codec : EapolCodec F) (ownAddress bssid : Bytes 6) (scratch : ℕ)
    (s : CryptoState) (frame : F) (packetNumber : Option ℕ) (t : CryptoState)
    (commands : List SetKey) (reply : Option Reply) : Prop where
  monotone : s.counter ≤ t.counter
  echoes : ∀ r, reply = some r → codec.counter ownAddress bssid frame = some r.counter
  below : ∀ k, codec.counter ownAddress bssid frame = some k → k < s.counter → reply = none
  equal : codec.counter ownAddress bssid frame = some s.counter → reply ≠ none →
    ∃ m, s.groupMessage (codec.decoder ownAddress bssid scratch) frame = some m ∧
      s.lastGroupMessage = some m ∧ t = (s.validateOuter packetNumber).2 ∧ commands = []
  above : ∀ k, codec.counter ownAddress bssid frame = some k → k ≠ s.counter → reply ≠ none →
    s.counter < t.counter ∧ t.counter = k
  silent : reply = none → t = (s.validateOuter packetNumber).2 ∧ commands = []

section Frame
variable {codec : EapolCodec F} {ownAddress bssid : Bytes 6} {scratch : ℕ} {s t : CryptoState}
  {frame : F} {packetNumber : Option ℕ} {commands : List SetKey} {reply : Option Reply}

theorem GroupAccept.counter {m : GroupMessage1} (h : GroupAccept bssid s m t commands) :
    t.counter = m.counter ∧ s.counter ≤ m.counter ∧ t.lastGroupMessage = some m ∧
      (m.counter = s.counter → s.lastGroupMessage = some m ∧ t = s) ∧
      (commands ≠ [] → s.counter < m.counter) ∧ commands.length ≤ 1 := by
  cases h with
  | repeated hcounter hlast =>
    exact ⟨hcounter.symm,hcounter.ge,hlast,fun _ => ⟨hlast,rfl⟩,fun h => absurd rfl h,by simp⟩
  | known id hid hcounter hinst =>
    exact ⟨rfl,hcounter.le,rfl,fun h => absurd h hcounter.ne',fun h => absurd rfl h,by simp⟩
  | installed id hid hcounter hother hinst =>
    exact ⟨rfl,hcounter.le,rfl,fun h => absurd h hcounter.ne',fun _ => hcounter,by simp⟩

theorem validateOuter_kept (s : CryptoState) (packetNumber : Option ℕ) :
    (s.validateOuter packetNumber).2.counter = s.counter ∧
      (s.validateOuter packetNumber).2.lastGroupMessage = s.lastGroupMessage ∧
      (s.validateOuter packetNumber).2.securityAssociations.ptksa.key =
        s.securityAssociations.ptksa.key := by
  refine ⟨?_,?_,(s.validateOuter_key packetNumber).1⟩
  · rw [CryptoState.counter,(s.validateOuter_frame packetNumber).2.1]
  · cases packetNumber <;> rfl

theorem validateData_last (s : CryptoState) (g : Bool) (k pn : ℕ) :
    (s.validateData g k pn).2.lastGroupMessage = s.lastGroupMessage := by
  unfold CryptoState.validateData
  split
  · split
    · split <;> rfl
    · rfl
  · split <;> rfl

theorem counter_discipline (hc : codec.ReadsCounter ownAddress bssid)
    (h : s.handleEapolRetry (codec.decoder ownAddress bssid scratch) bssid frame packetNumber =
      .ok (t,commands,reply)) :
    CounterDiscipline codec ownAddress bssid scratch s frame packetNumber t commands reply := by
  obtain ⟨hcounter,hlast,hkey⟩ := validateOuter_kept s packetNumber
  have ho := CryptoState.handleEapolRetry_outcome h
  cases ho with
  | silent =>
    exact ⟨hcounter.ge,by simp,fun _ _ _ => rfl,fun _ h => absurd rfl h,fun _ _ _ h => absurd rfl h,
      fun _ => ⟨rfl,rfl⟩⟩
  | group m hgroup hdecode haccept =>
    have hfield := EapolCodec.decodeGroupMessage1_counter hc hdecode
    obtain ⟨htc,hle,_,hequal,_,_⟩ := haccept.counter
    rw [hcounter] at hle hequal
    constructor
    · rw [htc]
      exact hle
    · rintro r ⟨⟩
      exact hfield
    · intro k hk hlt
      rw [hfield] at hk
      cases hk
      omega
    · intro hk _
      rw [hfield] at hk
      obtain ⟨hm,ht⟩ := hequal (Option.some.inj hk)
      refine ⟨m,?_,hlast ▸ hm,ht,?_⟩
      · rw [CryptoState.groupMessage,if_pos hgroup,← hkey]
        exact hdecode
      · by_contra hne
        have hlt := haccept.counter.2.2.2.2.1 hne
        rw [hcounter] at hlt
        exact absurd (Option.some.inj hk) hlt.ne'
    · intro k hk hne _
      rw [hfield] at hk
      cases hk
      exact ⟨by omega,htc⟩
    · intro hnone
      cases hnone
  | message3 m hgroup hdecode hlt =>
    have hfield := EapolCodec.decryptMessage3_counter hc hdecode
    change (s.validateOuter packetNumber).2.counter < m.counter at hlt
    rw [hcounter] at hlt
    constructor
    · exact hlt.le
    · rintro r ⟨⟩
      exact hfield
    · intro k hk hkt
      rw [hfield] at hk
      cases hk
      omega
    · intro hk _
      rw [hfield] at hk
      exact absurd (Option.some.inj hk) hlt.ne'
    · intro k hk _ _
      rw [hfield] at hk
      cases hk
      exact ⟨hlt,rfl⟩
    · intro hnone
      cases hnone

end Frame

namespace EapolRun
variable {d : KeyFrameDecoder F} {bssid : Bytes 6} {s t : EapolRun F}

/-- The answers so far: none has a counter above the stored one, each counter programmed at
most one key, and the last group message is the last one answered. -/
structure Disciplined (d : KeyFrameDecoder F) (s : EapolRun F) : Prop where
  bounded : ∀ a ∈ s.answers, a.reply.counter ≤ s.state.counter
  once : ∀ k, (s.programmedAt k).length ≤ 1
  last : s.state.lastGroupMessage = (s.groupMessages d).getLast?

/-- The PTK stays, so a frame keeps its meaning. -/
theorem groupMessages_append {answers : List (Answer F)}
    (hkey : t.state.securityAssociations.ptksa.key = s.state.securityAssociations.ptksa.key)
    (h : t.answers = s.answers ++ answers) : t.groupMessages d = s.groupMessages d ++
      answers.filterMap (fun a => s.state.groupMessage d a.frame) := by
  have hsame : t.state.groupMessage d = s.state.groupMessage d := by
    funext frame
    rw [CryptoState.groupMessage,CryptoState.groupMessage,hkey]
  rw [groupMessages,groupMessages,hsame,h,List.filterMap_append]

theorem programmedAt_append {a : Answer F} (h : t.answers = s.answers ++ [a]) (k : ℕ) :
    t.programmedAt k = s.programmedAt k ++ if a.reply.counter = k then a.commands else [] := by
  rw [programmedAt,programmedAt,h,List.filter_append,List.flatMap_append]
  congr 1
  by_cases hk : a.reply.counter = k <;> simp [hk]

theorem Disciplined.silent (hs : Disciplined d s)
    (hkey : t.state.securityAssociations.ptksa.key = s.state.securityAssociations.ptksa.key)
    (hcounter : t.state.counter = s.state.counter)
    (hlast : t.state.lastGroupMessage = s.state.lastGroupMessage)
    (hanswers : t.answers = s.answers) : Disciplined d t where
  bounded a ha := by
    rw [hanswers] at ha
    rw [hcounter]
    exact hs.bounded a ha
  once k := by
    rw [programmedAt,hanswers]
    exact hs.once k
  last := by
    rw [hlast,groupMessages_append hkey (hanswers.trans (List.append_nil _).symm)]
    simpa using hs.last

/-- One more answer, which programs a key only with a counter of its own. -/
theorem Disciplined.answer (hs : Disciplined d s) {a : Answer F}
    (hkey : t.state.securityAssociations.ptksa.key = s.state.securityAssociations.ptksa.key)
    (hmono : s.state.counter ≤ t.state.counter) (hcounter : a.reply.counter = t.state.counter)
    (hnew : a.commands ≠ [] → s.state.counter < a.reply.counter) (hone : a.commands.length ≤ 1)
    (hlast : t.state.lastGroupMessage =
      (s.state.groupMessage d a.frame).or s.state.lastGroupMessage)
    (hanswers : t.answers = s.answers ++ [a]) : Disciplined d t where
  bounded b hb := by
    rw [hanswers] at hb
    rcases List.mem_append.mp hb with hb | hb
    · exact (hs.bounded b hb).trans hmono
    · obtain rfl := List.mem_singleton.mp hb
      exact hcounter.le
  once k := by
    rw [programmedAt_append hanswers]
    by_cases hk : a.reply.counter = k
    · rw [if_pos hk]
      by_cases hc : a.commands = []
      · rw [hc,List.append_nil]
        exact hs.once k
      · have hbefore : s.answers.filter (fun b => b.reply.counter = k) = [] := by
          apply List.filter_eq_nil_iff.mpr
          intro b hb
          have hle := hs.bounded b hb
          have hlt := hnew hc
          simp only [decide_eq_true_eq]
          omega
        rw [programmedAt,hbefore]
        exact hone
    · rw [if_neg hk,List.append_nil]
      exact hs.once k
  last := by
    rw [hlast,groupMessages_append hkey hanswers,hs.last]
    cases hm : s.state.groupMessage d a.frame with
    | none => simp [hm]
    | some m => simp [hm]

theorem step_disciplined (hs : Disciplined d s) {e : RxEvent F} (he : Step d bssid s e t) :
    Disciplined d t ∧ s.state.counter ≤ t.state.counter := by
  cases e with
  | data g k pn =>
    cases he
    obtain ⟨_,hreplay,hkey,_⟩ := s.state.validateData_frame g k pn
    have hcounter : (s.state.validateData g k pn).2.counter = s.state.counter := by
      rw [CryptoState.counter,hreplay]
    exact ⟨hs.silent hkey hcounter (validateData_last s.state g k pn) rfl,hcounter.ge⟩
  | eapol frame packetNumber =>
    simp only [Step,step] at he
    split at he
    · cases he
    · rename_i state commands reply hc
      cases he
      obtain ⟨hcounter,hlast,hkey⟩ := validateOuter_kept s.state packetNumber
      have ho := CryptoState.handleEapolRetry_outcome hc
      have hptk := (CryptoState.handleEapolRetry_sameHandshake hc).2.1
      cases ho with
      | silent => exact ⟨hs.silent hptk hcounter hlast (List.append_nil _),hcounter.ge⟩
      | group m hgroup hdecode haccept =>
        obtain ⟨htc,hle,htl,_,hnew,hone⟩ := haccept.counter
        rw [hcounter] at hle hnew
        refine ⟨hs.answer (a := ⟨frame,.groupMessage2 _ m.counter,commands⟩) hptk
          (hle.trans htc.ge) htc.symm hnew hone ?_ rfl,hle.trans htc.ge⟩
        have hm : s.state.groupMessage d frame = some m := by
          rw [CryptoState.groupMessage,if_pos hgroup,← hkey]
          exact hdecode
        rw [hm]
        exact htl
      | message3 m hgroup hdecode hlt =>
        change (s.state.validateOuter packetNumber).2.counter < m.counter at hlt
        rw [hcounter] at hlt
        refine ⟨hs.answer (a := ⟨frame,_,[]⟩) hptk hlt.le rfl (fun h => absurd rfl h) (by simp)
          ?_ rfl,hlt.le⟩
        have hm : s.state.groupMessage d frame = none := by
          rw [CryptoState.groupMessage,if_neg (by simp [hgroup])]
        rw [hm]
        exact hlast

/-- In every state after `CryptoState::new` the counter has not dropped, frames are treated
by their counter, the last group message is the last one answered, and every counter has
made the station program at most one key. -/
theorem eapol_replay_counter {codec : EapolCodec F} {ownAddress : Bytes 6} {scratch : ℕ}
    {slots : KeySlots} {sa : SecurityAssociations} {m : Message3Replay} {s₀ : CryptoState}
    {commands : List SetKey} {es : List (RxEvent F)} (hc : codec.ReadsCounter ownAddress bssid)
    (h : CryptoState.new slots bssid sa m = .ok (s₀,commands))
    (hr : Runs (Step (codec.decoder ownAddress bssid scratch) bssid) ⟨s₀,[]⟩ es s) :
    s₀.counter ≤ s.state.counter ∧
    (∀ frame packetNumber t commands reply, s.state.handleEapolRetry
        (codec.decoder ownAddress bssid scratch) bssid frame packetNumber =
          .ok (t,commands,reply) →
      CounterDiscipline codec ownAddress bssid scratch s.state frame packetNumber t commands
        reply) ∧
    s.state.lastGroupMessage =
      (s.groupMessages (codec.decoder ownAddress bssid scratch)).getLast? ∧
    ∀ k, (s.programmedAt k).length ≤ 1 := by
  have hstart : Disciplined (codec.decoder ownAddress bssid scratch) ⟨s₀,[]⟩ := by
    have hlast : s₀.lastGroupMessage = none := by
      unfold CryptoState.new at h
      simp only at h
      split at h <;> cases h
      rfl
    exact ⟨by simp,by simp [programmedAt],by simpa [groupMessages] using hlast⟩
  have hinv : Disciplined (codec.decoder ownAddress bssid scratch) s ∧
      s₀.counter ≤ s.state.counter := by
    apply Runs.invariant (I := fun s => Disciplined (codec.decoder ownAddress bssid scratch) s ∧
      s₀.counter ≤ s.state.counter) ?_ hr ⟨hstart,le_rfl⟩
    rintro s e t ⟨hs,hle⟩ he
    obtain ⟨ht,hmono⟩ := step_disciplined hs he
    exact ⟨ht,hle.trans hmono⟩
  refine ⟨hinv.2,?_,hinv.1.last,hinv.1.once⟩
  intro frame packetNumber t commands reply hh
  exact counter_discipline hc hh

/-- A group message and its retransmission are both answered, but only the first one
programs the key. -/
theorem eapol_replay_counter_retry :
    ∃ s₀ commands, CryptoState.new .lowest 0 (.established 0 0 1) ⟨0,0,2⟩ = .ok (s₀,commands) ∧
    ∃ s, Runs (Step (EapolCodec.reading.decoder 0 0 64) 0) ⟨s₀,[]⟩
      [.eapol (.clear 0x1382 3) none,.eapol (.clear 0x1382 3) none] s ∧
    s.answers.map (fun a => a.reply.counter) = [3,3] ∧ (s.programmedAt 3).length ≤ 1 := by
  have hnew := CryptoState.new_established .lowest 0 0 0 1 ⟨0,0,2⟩
  refine ⟨_,_,hnew,?_⟩
  apply Runs.exists_of_execute (fun _ _ _ => ok_of_toOption)
    (fun s => s.answers.map (fun a => a.reply.counter) = [3,3])
  · decide +kernel
  · intro s hr hs
    exact ⟨hs,(eapol_replay_counter (EapolCodec.reading_readsCounter 0 0) hnew hr).2.2.2 3⟩

end EapolRun
end FerrisOnAir.Rsn
