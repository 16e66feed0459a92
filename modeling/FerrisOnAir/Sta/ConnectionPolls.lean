import FerrisOnAir.Sta.ConnectionCleanup

/-! # What a poll of an attempt is made of

Behind its `join` an attempt takes frames from its router operation, transmits, gives
buffers back, and then awaits again, fails or finishes. Whatever these calls keep, indexed
by the buffers in the hands of the attempt, is kept by every poll.
-/
namespace FerrisOnAir.Sta.ConnectSystem
open Lmac Rsn Util Tx
variable {n N : ℕ} {F C P E : Type*} [Zero C] [NeZero N]
variable {k : ConnectConfig n F} {s t : ConnectSystem n N F C P E}

/-- The guards of the functions called by `run`. -/
def ofTx : ScopeGuard N → Bool
  | .txBuffer _ => true
  | .pendingTransmission _ => true
  | _ => false

omit [NeZero N] in
theorem guards_ofTx {a : ConnectAwait N} (ha : a.isJoin = false) : a.guards.all ofTx = true := by
  cases a with
  | join started completed => cases ha
  | eapolBuffer m => cases m <;> rfl
  | eapolCompletion m g => cases m <;> rfl
  | _ => rfl

/-- `H` is kept by what a poll calls, and `R` holds where the poll ends. -/
structure PollRule (k : ConnectConfig n F)
    (H : Multiset (Fin N) → ConnectSystem n N F C P E → Prop)
    (R : ConnectSystem n N F C P E → Prop) : Prop where
  receive : ∀ {s t own}, H own s → s.receive k = some t → H own t
  transition : ∀ {s t own operation}, H own s → s.transition k operation = some t → H own t
  allocTxBuf : ∀ {s t own i}, H own s → s.allocTxBuf = some (i,t) → H ({i} + own) t
  sendFrame : ∀ {s t own frame p g}, H own s → s.sendFrame k frame p = some (g,t) → H own t
  transmitEdca : ∀ {s t own i length p g}, H ({i} + own) s →
    s.transmitEdca k i length p = some (g,t) → H own t
  pollCompletion : ∀ {s t own g w poll}, H own s → s.pollCompletion k g w = some (poll,t) →
    H (poll.returned + own) t
  dropBuffer : ∀ {s own i}, H ({i} + own) s → H own (s.drop k (.txBuffer i))
  await : ∀ {s a}, a.isJoin = false → H (guardBuffers a.guards) s → R (s.await a)
  fail : ∀ {s inner error}, H (guardBuffers inner) s → inner.all ofTx = true →
    R (s.fail k error inner)
  finish : ∀ {s t handshake}, H 0 s → s.finish k handshake = some t → R t

omit [Zero C] [NeZero N] in
theorem receive_task (he : s.receive k = some t) : t.task = s.task := by
  obtain ⟨router,_,rfl⟩ := Option.map_eq_some_iff.mp he
  rfl

theorem pollCompletion_task {g : ℕ} {w : Waker} {poll : Poll (Option (TxReturnData N C E))}
    (he : s.pollCompletion k g w = some (poll,t)) : t.task = s.task := by
  obtain ⟨u,hu,hiu⟩ := Option.map_eq_some_iff.mp he
  obtain ⟨tx,_,rfl⟩ := Option.map_eq_some_iff.mp hu
  split at hiu
  · cases hiu
    rfl
  · cases hiu
    rw [drop,txDrop_frame]

namespace PollRule
variable {H : Multiset (Fin N) → ConnectSystem n N F C P E → Prop}
variable {R : ConnectSystem n N F C P E → Prop}

/-- A poll that leaves the future where it is. -/
theorem remains (rule : PollRule k H R) {a : ConnectAwait N} (htask : t.task = some a)
    (ha : a.isJoin = false) (h : H (guardBuffers a.guards) t) : R t := by
  have hawait : t = t.await a := by
    unfold ConnectSystem.await
    rw [← htask]
  rw [hawait]
  exact rule.await ha h

theorem proceed (rule : PollRule k H R) {handshake : Handshake} {e : Exchange} (h : H 0 s)
    (he : s.proceed k handshake e = some t) : R t := by
  cases e with
  | authentication =>
    obtain ⟨u,hu,rfl⟩ := Option.map_eq_some_iff.mp he
    exact rule.await rfl (rule.transition h hu)
  | association =>
    simp only [ConnectSystem.proceed] at he
    split at he
    · exact rule.finish h he
    · obtain ⟨u,hu,rfl⟩ := Option.map_eq_some_iff.mp he
      exact rule.await rfl (rule.transition h hu)
    · cases he

theorem proceedHandshake (rule : PollRule k H R) {handshake : Handshake} {m : EapolMessage N}
    (h : H (guardBuffers m.guards) s) (he : s.proceedHandshake k handshake m = some t) : R t := by
  cases m with
  | message2 =>
    cases he
    exact rule.await rfl h
  | message2Again scratch =>
    cases he
    exact rule.await rfl h
  | message4 => exact rule.finish h he

theorem resumeBuffer (rule : PollRule k H R) {e : Exchange} {event : ConnectEvent C P} (h : H 0 s)
    (he : s.resume k (.requestBuffer e) event = some t) : R t := by
  cases event with
  | buffer frame p =>
    cases frame with
    | none =>
      cases e with
      | authentication => cases he
      | association =>
        obtain ⟨r,hr,rfl⟩ := Option.map_eq_some_iff.mp he
        exact rule.fail (rule.allocTxBuf h hr) rfl
    | some frame =>
      obtain ⟨r,hr,rfl⟩ := Option.map_eq_some_iff.mp he
      exact rule.await rfl (rule.sendFrame h hr)
  | _ => cases he

theorem resumeRequest (rule : PollRule k H R) {e : Exchange} {retries length g : ℕ}
    {event : ConnectEvent C P} (h : H 0 s)
    (htask : s.task = some (.requestCompletion e retries length g))
    (he : s.resume k (.requestCompletion e retries length g) event = some t) : R t := by
  cases event with
  | completion w handshake =>
    obtain ⟨⟨poll,u⟩,hu,rfl⟩ := Option.map_eq_some_iff.mp he
    have hpolled := rule.pollCompletion h hu
    cases poll with
    | pending => exact rule.remains ((pollCompletion_task hu).trans htask) rfl hpolled
    | ready r =>
      cases r with
      | none => exact rule.fail hpolled rfl
      | some data => exact rule.await rfl hpolled
  | _ => cases he

theorem resumeResponse (rule : PollRule k H R) {e : Exchange} {retries length : ℕ} {i : Fin N}
    {event : ConnectEvent C P} (h : H {i} s)
    (htask : s.task = some (.response e retries length i))
    (he : s.resume k (.response e retries length i) event = some t) : R t := by
  cases event with
  | response reply handshake =>
    simp only [resume] at he
    split at he
    · obtain ⟨u,hu,he⟩ := Option.bind_eq_some_iff.mp he
      have hreceived : H 0 (u.drop k (.txBuffer i)) := rule.dropBuffer (rule.receive h hu)
      cases reply with
      | malformed =>
        cases he
        exact rule.fail hreceived rfl
      | refused status =>
        cases he
        exact rule.fail hreceived rfl
      | accepted => exact rule.proceed hreceived he
    · cases he
  | discard =>
    simp only [resume] at he
    split at he
    · cases he
    · exact rule.remains ((receive_task he).trans htask) rfl (rule.receive h he)
  | timeout p =>
    cases retries with
    | zero =>
      cases he
      exact rule.fail h rfl
    | succ retries =>
      obtain ⟨r,hr,rfl⟩ := Option.map_eq_some_iff.mp he
      exact rule.await rfl (rule.transmitEdca h hr)
  | _ => cases he

theorem resumeEapol (rule : PollRule k H R) {m : EapolMessage N} {g : ℕ}
    {event : ConnectEvent C P} (h : H (guardBuffers m.guards) s)
    (htask : s.task = some (.eapolCompletion m g))
    (he : s.resume k (.eapolCompletion m g) event = some t) : R t := by
  have hinner : m.guards.all ofTx = true := by cases m <;> rfl
  cases event with
  | completion w handshake =>
    obtain ⟨⟨poll,u⟩,hu,he⟩ := Option.bind_eq_some_iff.mp he
    have hpolled := rule.pollCompletion h hu
    cases poll with
    | pending =>
      cases he
      refine rule.remains ((pollCompletion_task hu).trans htask) rfl ?_
      rw [guardBuffers_eapolCompletion]
      exact zero_add (guardBuffers m.guards) ▸ hpolled
    | ready r =>
      cases r with
      | none =>
        cases he
        exact rule.fail (zero_add (guardBuffers m.guards) ▸ hpolled) hinner
      | some data =>
        have hdropped : H (guardBuffers m.guards) (u.drop k (.txBuffer data.frame.buffer)) :=
          rule.dropBuffer hpolled
        dsimp only at he
        split at he
        · exact rule.proceedHandshake hdropped he
        · cases he
          exact rule.fail hdropped hinner
  | _ => cases he

theorem resumeMessage3 (rule : PollRule k H R) {scratch : Fin N} {event : ConnectEvent C P}
    (h : H {scratch} s) (htask : s.task = some (.message3 scratch))
    (he : s.resume k (.message3 scratch) event = some t) : R t := by
  cases event with
  | message1Retry =>
    obtain ⟨u,hu,rfl⟩ := Option.map_eq_some_iff.mp he
    exact rule.await rfl (rule.receive h hu)
  | message3 =>
    obtain ⟨u,hu,rfl⟩ := Option.map_eq_some_iff.mp he
    have hdropped : H 0 (u.drop k (.txBuffer scratch)) := rule.dropBuffer (rule.receive h hu)
    exact rule.await rfl hdropped
  | discard => exact rule.remains ((receive_task he).trans htask) rfl (rule.receive h he)
  | _ => cases he

/-- Every poll behind the `join`. -/
theorem resume (rule : PollRule k H R) {a : ConnectAwait N} {event : ConnectEvent C P}
    (ha : a.isJoin = false) (h : H (guardBuffers a.guards) s) (htask : s.task = some a)
    (he : s.resume k a event = some t) : R t := by
  cases a with
  | join started completed => cases ha
  | requestBuffer e => exact rule.resumeBuffer h he
  | requestCompletion e retries length g => exact rule.resumeRequest h htask he
  | response e retries length i => exact rule.resumeResponse h htask he
  | message1 =>
    cases event with
    | message1 =>
      obtain ⟨u,hu,rfl⟩ := Option.map_eq_some_iff.mp he
      exact rule.await rfl (rule.receive h hu)
    | discard => exact rule.remains ((receive_task he).trans htask) rfl (rule.receive h he)
    | _ => cases he
  | eapolBuffer m =>
    cases event with
    | buffer frame p =>
      cases frame with
      | none => cases he
      | some frame =>
        obtain ⟨r,hr,rfl⟩ := Option.map_eq_some_iff.mp he
        refine rule.await rfl ?_
        rw [guardBuffers_eapolCompletion]
        exact rule.sendFrame h hr
    | _ => cases he
  | eapolCompletion m g =>
    rw [guardBuffers_eapolCompletion] at h
    exact rule.resumeEapol h htask he
  | scratchBuffer =>
    cases event with
    | buffer frame p =>
      cases frame with
      | none =>
        obtain ⟨r,hr,rfl⟩ := Option.map_eq_some_iff.mp he
        exact rule.await rfl (rule.allocTxBuf h hr)
      | some frame => cases he
    | _ => cases he
  | message3 scratch => exact rule.resumeMessage3 h htask he

end PollRule

end FerrisOnAir.Sta.ConnectSystem
