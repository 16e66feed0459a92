import FerrisOnAir.Util.RxRouterSystem
import FerrisOnAir.Rsn.SecurityAssociation

/-! # The router operations of the station

`foa_sta/src/rx_router.rs`. A received frame is read through what the generic parser
tells about it. The station does not support concurrent operations.
-/
namespace FerrisOnAir.Sta
open Rsn Util

inductive ManagementFrameSubtype
  | associationResponse
  | probeResponse
  | beacon
  | authentication
  | deauthentication
  | other
deriving DecidableEq

inductive FrameType
  | management (subtype : ManagementFrameSubtype)
  | control
  | data
deriving DecidableEq

structure GenericFrame where
  frameType : FrameType
  address1 : Bytes 6
  isEapolKeyFrame : Bool
deriving DecidableEq

inductive StaRxRouterOperation
  | authenticating (ownAddress : Bytes 6)
  | associating (ownAddress : Bytes 6)
  | cryptoHandshake (ownAddress : Bytes 6)
  | scanning
deriving DecidableEq

namespace StaRxRouterOperation

def connectingMacAddress : StaRxRouterOperation → Option (Bytes 6)
  | authenticating ownAddress => some ownAddress
  | associating ownAddress => some ownAddress
  | cryptoHandshake ownAddress => some ownAddress
  | scanning => none

def frameRelevantForOperation (operation : StaRxRouterOperation) (g : GenericFrame) : Bool :=
  match operation with
  | scanning => g.frameType == .management .beacon || g.frameType == .management .probeResponse
  | authenticating _ => g.frameType == .management .authentication
  | associating _ => g.frameType == .management .associationResponse
  | cryptoHandshake _ => g.isEapolKeyFrame

end StaRxRouterOperation

/-- `RxRouterOperation for StaRxRouterOperation`, with the defaults of the trait. -/
def staRouterOperation : RxRouterOperation GenericFrame StaRxRouterOperation where
  concurrentOperationsSupported := false
  frameRelevantForOperation := StaRxRouterOperation.frameRelevantForOperation
  compatibleWith _ _ := false

/-- `StaRxRouter` over frames that are parsed by `genericFrame`. -/
def staRouter {F : Type*} (genericFrame : F → Option GenericFrame) (queueDepth : ℕ) :
    RxRouterConfig F GenericFrame StaRxRouterOperation :=
  { staRouterOperation with genericFrame := genericFrame, queueDepth := queueDepth }

end FerrisOnAir.Sta
