import FerrisOnAir.Awdl.Events
import FerrisOnAir.Awdl.MsduTx
import FerrisOnAir.Rsn.KeyEnvelope

/-! # Neighbours of the network stack

With `ndp-inject` a session answers the neighbour solicitations of its own network stack: the
transmitting runner signals the hardware address that the solicited address stands for, and
the receiving runner makes up an advertisement of that peer if it is in the cache. The
conversions are those of `foa_awdl/src/lib.rs`; octets are numbered from the front.
-/
namespace FerrisOnAir.Awdl
open Rsn

/-- The segments of an address. -/
abbrev Ipv6Addr := Fin 8 → UInt16

/-- `u16::from_be_bytes`. -/
def fromBeBytes (a b : UInt8) : UInt16 := UInt16.ofNat (beU16 a b)

/-- `u16::to_be_bytes`. -/
def toBeBytes (segment : UInt16) : List UInt8 :=
  [UInt8.ofNat (segment.toNat / 256),UInt8.ofNat segment.toNat]

def Ipv6Addr.octets (ipv6 : Ipv6Addr) : List UInt8 :=
  toBeBytes (ipv6 0) ++ toBeBytes (ipv6 1) ++ toBeBytes (ipv6 2) ++ toBeBytes (ipv6 3) ++
    toBeBytes (ipv6 4) ++ toBeBytes (ipv6 5) ++ toBeBytes (ipv6 6) ++ toBeBytes (ipv6 7)

def Ipv6Addr.octet (ipv6 : Ipv6Addr) (i : ℕ) : UInt8 := ipv6.octets.getD i 0

def hwAddressToIpv6 (address : Address) : Ipv6Addr
  | 0 => 0xfe80
  | 1 => 0x0000
  | 2 => 0x0000
  | 3 => 0x0000
  | 4 => fromBeBytes (address 0 ^^^ 0x2) (address 1)
  | 5 => fromBeBytes (address 2) 0xff
  | 6 => fromBeBytes 0xfe (address 3)
  | 7 => fromBeBytes (address 4) (address 5)

def ipv6ToHwAddress (ipv6 : Ipv6Addr) : Address
  | 0 => ipv6.octet 8 ^^^ 0x2
  | 1 => ipv6.octet 9
  | 2 => ipv6.octet 10
  | 3 => ipv6.octet 13
  | 4 => ipv6.octet 14
  | 5 => ipv6.octet 15

/-- A link local address whose interface identifier is made of a hardware address. -/
structure IsLinkLocalEui64 (ipv6 : Ipv6Addr) : Prop where
  linkLocal : ipv6 0 = 0xfe80
  padding : ipv6 1 = 0 ∧ ipv6 2 = 0 ∧ ipv6 3 = 0
  eui64 : ipv6.octet 11 = 0xff ∧ ipv6.octet 12 = 0xfe

section Conversions
variable {a b : UInt8} {address : Address} {ipv6 : Ipv6Addr}

theorem fromBeBytes_toNat (a b : UInt8) : (fromBeBytes a b).toNat = 256 * a.toNat + b.toNat := by
  have ha := a.toNat_lt
  have hb := b.toNat_lt
  rw [fromBeBytes,beU16,UInt16.toNat_ofNat']
  omega

theorem high_fromBeBytes : UInt8.ofNat ((fromBeBytes a b).toNat / 256) = a := by
  have ha := a.toNat_lt
  have hb := b.toNat_lt
  refine UInt8.toNat_inj.mp ?_
  rw [UInt8.toNat_ofNat',fromBeBytes_toNat]
  omega

theorem low_fromBeBytes : UInt8.ofNat (fromBeBytes a b).toNat = b := by
  have ha := a.toNat_lt
  have hb := b.toNat_lt
  refine UInt8.toNat_inj.mp ?_
  rw [UInt8.toNat_ofNat',fromBeBytes_toNat]
  omega

theorem fromBeBytes_octets (segment : UInt16) :
    fromBeBytes (UInt8.ofNat (segment.toNat / 256)) (UInt8.ofNat segment.toNat) = segment := by
  have hs := segment.toNat_lt
  refine UInt16.toNat_inj.mp ?_
  rw [fromBeBytes_toNat,UInt8.toNat_ofNat',UInt8.toNat_ofNat']
  omega

theorem xor_two_two (a : UInt8) : a ^^^ 0x2 ^^^ 0x2 = a := by
  rw [UInt8.xor_assoc,UInt8.xor_self,UInt8.xor_zero]

/-- A hardware address comes back from the address made of it. -/
theorem ipv6ToHwAddress_hwAddressToIpv6 (address : Address) :
    ipv6ToHwAddress (hwAddressToIpv6 address) = address := by
  funext i
  match i with
  | 0 => exact (congrArg (· ^^^ 0x2) high_fromBeBytes).trans (xor_two_two _)
  | 1 => exact low_fromBeBytes
  | 2 => exact high_fromBeBytes
  | 3 => exact low_fromBeBytes
  | 4 => exact high_fromBeBytes
  | 5 => exact low_fromBeBytes

theorem isLinkLocalEui64_hwAddressToIpv6 (address : Address) :
    IsLinkLocalEui64 (hwAddressToIpv6 address) where
  linkLocal := rfl
  padding := ⟨rfl,rfl,rfl⟩
  eui64 := ⟨low_fromBeBytes,high_fromBeBytes⟩

/-- The other way round exactly link local addresses with such an identifier come back. -/
theorem hwAddressToIpv6_ipv6ToHwAddress_iff (ipv6 : Ipv6Addr) :
    hwAddressToIpv6 (ipv6ToHwAddress ipv6) = ipv6 ↔ IsLinkLocalEui64 ipv6 := by
  constructor
  · intro h
    rw [← h]
    exact isLinkLocalEui64_hwAddressToIpv6 _
  · rintro ⟨hlocal,⟨h1,h2,h3⟩,hff,hfe⟩
    have h5 : fromBeBytes (ipv6.octet 10) 0xff = ipv6 5 := by
      rw [← hff]
      exact fromBeBytes_octets (ipv6 5)
    have h6 : fromBeBytes 0xfe (ipv6.octet 13) = ipv6 6 := by
      rw [← hfe]
      exact fromBeBytes_octets (ipv6 6)
    funext i
    match i with
    | 0 => exact hlocal.symm
    | 1 => exact h1.symm
    | 2 => exact h2.symm
    | 3 => exact h3.symm
    | 4 =>
      refine (congrArg (fun a => fromBeBytes a (ipv6.octet 9)) (xor_two_two _)).trans ?_
      exact fromBeBytes_octets (ipv6 4)
    | 5 => exact h5
    | 6 => exact h6
    | 7 => exact fromBeBytes_octets (ipv6 7)

end Conversions

/-- The advertisement that the network stack gets, from its peer to itself. -/
structure NeighborAdvert where
  ethernetDst : Address
  ethernetSrc : Address
  srcAddr : Ipv6Addr
  dstAddr : Ipv6Addr
  targetAddr : Ipv6Addr
  lladdr : Address

/-- A session with the signal between its runners, the solicitations of the stack and the
advertisements it got. -/
structure NeighborSession where
  resources : CommonResources
  ndpInjectSignal : Option Address
  solicited : List Ipv6Addr
  injected : List NeighborAdvert

inductive NeighborOp
  | session (op : SessionOp)
  | solicit (targetAddr : Ipv6Addr)
  | inject (rxBuf : Bool)

namespace NeighborSession
variable (config : SessionConfig) (s : NeighborSession)

/-- `initialize_session_parameters`, on an empty cache. -/
def begin (r : CommonResources) (channel : UInt8) (now : ℕ) : NeighborSession where
  resources := r.initializeSessionParameters config channel now
  ndpInjectSignal := none
  solicited := []
  injected := []

def neighborAdvert (ownAddress peerAddress : Address) : NeighborAdvert where
  ethernetDst := ownAddress
  ethernetSrc := peerAddress
  srcAddr := hwAddressToIpv6 peerAddress
  dstAddr := hwAddressToIpv6 ownAddress
  targetAddr := hwAddressToIpv6 peerAddress
  lladdr := peerAddress

/-- `inject_neighbor`, with or without a free buffer of the stack. -/
def injectNeighbor (peerAddress : Address) (rxBuf : Bool) : Option NeighborAdvert :=
  if !(s.resources.peerCache.get peerAddress).isSome then none
  else if rxBuf then some (neighborAdvert config.ourAddress peerAddress) else none

/-- A solicitation is not transmitted but signalled, and replaces one that is pending. -/
def next : NeighborOp → Option NeighborSession
  | .session op => some { s with resources := s.resources.step config op }
  | .solicit targetAddr => some { s with
      ndpInjectSignal := some (ipv6ToHwAddress targetAddr)
      solicited := s.solicited ++ [targetAddr] }
  | .inject rxBuf => s.ndpInjectSignal.map (fun peerAddress => { s with
      ndpInjectSignal := none
      injected := s.injected ++ (s.injectNeighbor config peerAddress rxBuf).toList })

def Step (s : NeighborSession) (op : NeighborOp) (t : NeighborSession) : Prop :=
  s.next config op = some t

/-- An advertisement of the peer that some solicited address stands for. -/
def Answers (ownAddress : Address) (advert : NeighborAdvert) (targetAddr : Ipv6Addr) : Prop :=
  advert = neighborAdvert ownAddress (ipv6ToHwAddress targetAddr)

/-- Every advertisement has a solicitation of its own, and so has the signal: the last one. -/
structure Answered (s : NeighborSession) : Prop where
  injected : ∃ answered : List Ipv6Addr, answered.Sublist s.solicited ∧
    List.Forall₂ (Answers config.ourAddress) s.injected answered ∧
    (s.ndpInjectSignal.isSome → ∃ targetAddr,
      s.ndpInjectSignal = some (ipv6ToHwAddress targetAddr) ∧
      (answered ++ [targetAddr]).Sublist s.solicited ∧ s.solicited.getLast? = some targetAddr)

variable {config s} {t : NeighborSession} {op : NeighborOp}

theorem injectNeighbor_eq_some {peerAddress : Address} {rxBuf : Bool} {advert : NeighborAdvert}
    (h : s.injectNeighbor config peerAddress rxBuf = some advert) :
    (s.resources.peerCache.get peerAddress).isSome ∧
      advert = neighborAdvert config.ourAddress peerAddress := by
  unfold injectNeighbor at h
  split at h
  · cases h
  · rename_i hcached
    split at h
    · cases h
      exact ⟨by simpa [Option.isSome_iff_ne_none] using hcached,rfl⟩
    · cases h

theorem answered_step (hs : s.Answered config) (h : Step config s op t) : t.Answered config := by
  obtain ⟨answered,hsublist,hadverts,hsignal⟩ := hs.injected
  cases op with
  | session op =>
    cases h
    exact ⟨answered,hsublist,hadverts,hsignal⟩
  | solicit targetAddr =>
    cases h
    refine ⟨answered,hsublist.trans (List.sublist_append_left _ _),hadverts,fun _ => ?_⟩
    exact ⟨targetAddr,rfl,hsublist.append (List.Sublist.refl _),List.getLast?_concat⟩
  | inject rxBuf =>
    obtain ⟨peerAddress,hpending,rfl⟩ := Option.map_eq_some_iff.mp h
    obtain ⟨targetAddr,htarget,hlast,-⟩ := hsignal (by rw [hpending]; rfl)
    cases hadvert : s.injectNeighbor config peerAddress rxBuf with
    | none =>
      refine ⟨answered,hsublist,?_,fun hsome => ?_⟩
      · simpa using hadverts
      · cases hsome
    | some advert =>
      refine ⟨answered ++ [targetAddr],hlast,?_,fun hsome => ?_⟩
      · obtain ⟨-,hshape⟩ := injectNeighbor_eq_some hadvert
        obtain rfl := Option.some.inj (hpending.symm.trans htarget)
        simp only [Option.toList_some]
        exact List.rel_append hadverts (.cons hshape .nil)
      · cases hsome

/-- In every run the stack gets one advertisement at most for each solicitation, in their
order, of a peer that is cached then. It is the answer to what was solicited exactly if that
was a link local address made of a hardware address, and then under this hardware address. -/
theorem neighbors_of_runs {r : CommonResources} {channel : UInt8} {now : ℕ}
    {ops : List NeighborOp} (hr : Runs (Step config) (begin config r channel now) ops s) :
    (∃ answered : List Ipv6Addr, answered.Sublist s.solicited ∧
      List.Forall₂ (fun advert targetAddr => advert.ethernetDst = config.ourAddress ∧
        advert.lladdr = ipv6ToHwAddress targetAddr ∧ advert.ethernetSrc = advert.lladdr ∧
        advert.srcAddr = advert.targetAddr ∧ ipv6ToHwAddress advert.targetAddr = advert.lladdr ∧
        (advert.targetAddr = targetAddr ↔ IsLinkLocalEui64 targetAddr)) s.injected answered) ∧
    ∀ rxBuf t, Step config s (.inject rxBuf) t → ∃ targetAddr,
      s.solicited.getLast? = some targetAddr ∧ t.ndpInjectSignal = none ∧
      t.injected = s.injected ++
        if (s.resources.peerCache.get (ipv6ToHwAddress targetAddr)).isSome && rxBuf then
          [neighborAdvert config.ourAddress (ipv6ToHwAddress targetAddr)] else [] := by
  have hs : s.Answered config := by
    refine hr.invariant (I := Answered config) (fun _ _ _ => answered_step) ?_
    exact ⟨[],List.Sublist.refl _,.nil,fun hsome => by cases hsome⟩
  obtain ⟨answered,hsublist,hadverts,hsignal⟩ := hs.injected
  refine ⟨⟨answered,hsublist,hadverts.imp ?_⟩,?_⟩
  · rintro advert targetAddr rfl
    exact ⟨rfl,rfl,rfl,rfl,ipv6ToHwAddress_hwAddressToIpv6 _,
      hwAddressToIpv6_ipv6ToHwAddress_iff targetAddr⟩
  · intro rxBuf t h
    obtain ⟨peerAddress,hpending,rfl⟩ := Option.map_eq_some_iff.mp h
    obtain ⟨targetAddr,htarget,-,hlast⟩ := hsignal (by rw [hpending]; rfl)
    obtain rfl := Option.some.inj (hpending.symm.trans htarget)
    refine ⟨targetAddr,hlast,rfl,congrArg (s.injected ++ ·) ?_⟩
    unfold injectNeighbor
    cases (s.resources.peerCache.get (ipv6ToHwAddress targetAddr)).isSome with
    | true => cases rxBuf <;> rfl
    | false => rfl

/-- A peer is heard, its address is solicited after that of another station, and the signal is
answered once. -/
theorem neighbors_of_runs_solicited : ∃ s : NeighborSession,
    s.solicited = [hwAddressToIpv6 (fun _ => 5),hwAddressToIpv6 (fun _ => 3)] ∧
    s.injected = [neighborAdvert (fun _ => 1) (fun _ => 3)] ∧
    ∃ answered : List Ipv6Addr, answered.Sublist s.solicited ∧
      List.Forall₂ (fun advert targetAddr => advert.ethernetDst = (fun _ => 1) ∧
        advert.lladdr = ipv6ToHwAddress targetAddr ∧ advert.ethernetSrc = advert.lladdr ∧
        advert.srcAddr = advert.targetAddr ∧ ipv6ToHwAddress advert.targetAddr = advert.lladdr ∧
        (advert.targetAddr = targetAddr ↔ IsLinkLocalEui64 targetAddr)) s.injected answered := by
  let frame : ActionFrame :=
    { channelSequence := some (.simple (fun _ => 6))
      synchronizationParameters :=
        some (SynchronizationState.generateTlv ⟨fun _ => 6,0⟩ (fun _ => 3) 0 5000)
      txDelta := 0
      electionParametersV2 := none
      electionParameters := some ⟨70,4,fun _ => 4,90⟩
      serviceResponses := [] }
  have hr : Runs (Step ⟨fun _ => 1,⟨some 16,fun keys _ => keys.length⟩,1⟩)
      (begin ⟨fun _ => 1,⟨some 16,fun keys _ => keys.length⟩,1⟩
        ⟨⟨[],List.nodup_nil⟩,.new 1 0,.new (fun _ => 0),[]⟩ 6 0)
      [.session (.processActionFrame (fun _ => 3) frame 5000 5000),
        .solicit (hwAddressToIpv6 (fun _ => 5)),.solicit (hwAddressToIpv6 (fun _ => 3)),
        .inject true] _ :=
    .step rfl (.step rfl (.step rfl (.step rfl (.refl _))))
  refine ⟨_,rfl,?_,(neighbors_of_runs hr).1⟩
  rw [← ipv6ToHwAddress_hwAddressToIpv6 (fun _ => 3)]
  rfl

end NeighborSession

end FerrisOnAir.Awdl
