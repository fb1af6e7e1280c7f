import AdaptivePlatform.Nm.Channel

/-!
# Requests of a partial network

`PartialNetworkOper`: it counts its requests and asks its channels for the first and the last one.
The parameter `size` is the number of its channels; it is in full communication when all of them
are.
-/
namespace AdaptivePlatform.Nm

open Bytes

inductive PNCSMStateType where
  | kNmPncRequest
  | kNmPncReadySleep
  | kNmPncPrepareSleep
  | kNmPncNoCommunication
  deriving DecidableEq, Repr

structure Pn where
  pnComState : NetworkStateType := .kNoCom
  pnSMStateType : PNCSMStateType := .kNmPncNoCommunication
  pnMsgCount : uint32 := 0
  networkRequestedCount : uint8 := 0
  fullComEther : uint32 := 0
  pnResetTimer : Timer := .absent
  pncPrepareSleepTimer : Timer := .absent

namespace Pn

variable (size : ℕ) (currentState : NetworkStateType) (pn : Pn)

def notifyPartialNetworkCurrentStateChanged : Pn :=
  if currentState ≠ pn.pnComState then { pn with pnComState := currentState } else pn

/-! ## Transitions -/

def otherStateToPncRequested : Pn :=
  if pn.pnSMStateType ≠ .kNmPncRequest then
    { pn with
      pnResetTimer := .pending
      pncPrepareSleepTimer := .absent
      pnMsgCount := 0
      pnSMStateType := .kNmPncRequest }
  else pn

def pncRequestedToPncReadySleep : Pn :=
  if pn.pnSMStateType = .kNmPncRequest then
    { pn with pnMsgCount := 0, pnSMStateType := .kNmPncReadySleep }
  else pn

end Pn

/-- The requested state of a partial network. `requestAll` and `releaseAll` ask its channels,
which report back to it on the way; `pn` and `put` are its place in the whole state. -/
def setPartialNetworkRequestedState {σ : Type*} (size : ℕ) (pn : σ → Pn) (put : Pn → σ → σ)
    (requestAll releaseAll : σ → Option σ) (requestState : NetworkStateType) (s : σ) : Option σ :=
  match requestState with
  | .kFullCom =>
    let counted := { pn s with networkRequestedCount := (pn s).networkRequestedCount + 1 }
    if counted.networkRequestedCount = 1 then
      (requestAll (put counted.otherStateToPncRequested s)).map fun s =>
        if size = (pn s).fullComEther.toNat then
          put ((pn s).notifyPartialNetworkCurrentStateChanged .kFullCom) s
        else s
    else some (put counted s)
  | .kNoCom =>
    if 0 < (pn s).networkRequestedCount then
      let counted := { pn s with networkRequestedCount := (pn s).networkRequestedCount - 1 }
      if counted.networkRequestedCount = 0 then
        releaseAll (put counted.pncRequestedToPncReadySleep s)
      else some (put counted s)
    else some s
  | _ => some s

end AdaptivePlatform.Nm
