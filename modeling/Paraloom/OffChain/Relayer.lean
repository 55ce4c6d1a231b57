import Paraloom.OffChain.ShieldedPool

/-!
# The private-swap relayer

The relayer withdraws a note to a fresh address, swaps what arrives there and, in the full round trip, deposits the output again.
The swap provider and the submitter of the on-chain legs are behind traits, so both are arbitrary here. A withdrawal that settles
burns the note whatever the submitter answers.
-/

namespace Paraloom.OffChain

/-- The signing key of an address. -/
structure Keypair where
  secret : Bytes32
  pubkey : Bytes32

inductive RelayerError where
  | invalidAmount (amount : UInt64)
  | feeTooHigh (feeBps : UInt16)
  | swapFailed (message : String)
  | noRoute (message : String)
  | httpError (message : String)
  | submissionFailed (message : String)
  | slippageExceeded (outAmount minOut : UInt64)
  deriving DecidableEq

/-- The path of an on-chain leg. -/
inductive WithdrawLeg where
  | native
  | spl (mint : AssetId)
  deriving DecidableEq

def WithdrawLeg.forAsset (asset : AssetId) : WithdrawLeg := if asset = nativeSolAsset then .native else .spl asset

structure SubmittedLeg where
  leg : WithdrawLeg
  amount : UInt64
  freshAddress : Bytes32
  signature : String
  deriving DecidableEq

structure SwapResult where
  outAmount : UInt64

structure PrivateSwapRequest where
  amountIn : UInt64
  assetIn : AssetId
  inSk : Bytes32
  inBlinding : Bytes32
  inNotePubkey : Bytes32
  inLeafIndex : UInt64
  assetOut : AssetId
  reshieldRecipient : Bytes32
  reshieldRandomness : Bytes32
  feeBps : UInt16
  minOutAmount : Option UInt64

structure SwapProvider where
  swap : (assetIn assetOut : AssetId) → (amount : UInt64) → (signer : Keypair) → Except RelayerError SwapResult

/-- What becomes of a withdrawal: whether it settles on chain, and what the submitter returns. -/
structure WithdrawAnswer where
  settled : Bool
  result : Except RelayerError SubmittedLeg

structure Submitter where
  submitWithdrawToFresh : WithdrawLeg → (amount : UInt64) → (sk blinding notePubkey : Bytes32) → (leafIndex : UInt64) →
    (freshAddress : Bytes32) → WithdrawAnswer
  submitDepositFromFresh : WithdrawLeg → (amount : UInt64) → (signer : Keypair) → (recipient randomness : Bytes32) →
    Except RelayerError SubmittedLeg

/-- What the relayer does on the outside. -/
inductive RelayerAction where
  | withdraw (leg : WithdrawLeg) (amount : UInt64) (freshAddress : Bytes32) (settled : Bool)
  | swap (assetIn assetOut : AssetId) (amount : UInt64)
  | deposit (leg : WithdrawLeg) (amount : UInt64) (freshAddress : Bytes32)
  deriving DecidableEq

structure PrivateSwapResult where
  withdrawLeg : SubmittedLeg
  depositLeg : SubmittedLeg
  grossOutAmount : UInt64
  relayerFee : UInt64
  netOutAmount : UInt64
  freshAddress : Bytes32
  outputNote : Note
  deriving DecidableEq

structure SwapOutResult where
  withdrawLeg : SubmittedLeg
  grossOutAmount : UInt64
  freshAddress : Bytes32
  assetOut : AssetId

def withdrawalFeeBps : Nat := 25

structure PrivateSwapRelayer where
  swapProvider : SwapProvider
  submitter : Submitter
  nativeSwapOverheadLamports : UInt64

/-- What reaches the fresh address of an amount, after the protocol fee. -/
def PrivateSwapRequest.withdrawn (request : PrivateSwapRequest) : Except RelayerError Nat := do
  let amountIn := request.amountIn.toNat
  let withdrawalFee ← Checked.okOr ((Checked.checkedMul amountIn withdrawalFeeBps).map (· / 10000))
    (.invalidAmount request.amountIn)
  Checked.okOr ((Checked.checkedSub amountIn withdrawalFee).filter (0 < ·)) (.invalidAmount request.amountIn)

/-- What can be traded of the amount at the fresh address: on a native leg not the lamports that pay for the trade. -/
def PrivateSwapRequest.tradable (request : PrivateSwapRequest) (overhead : UInt64) (withdrawn : Nat) :
    Except RelayerError Nat :=
  if request.assetIn = nativeSolAsset then
    Checked.okOr ((Checked.checkedSub withdrawn overhead.toNat).filter (0 < ·)) (.invalidAmount request.amountIn)
  else pure withdrawn

/-- What is traded. -/
def PrivateSwapRequest.swapAmount (request : PrivateSwapRequest) (overhead : UInt64) : Except RelayerError UInt64 := do
  let withdrawn ← request.withdrawn
  let amount ← request.tradable overhead withdrawn
  pure (UInt64.ofNat amount)

def PrivateSwapRequest.checkMinOut (request : PrivateSwapRequest) (outAmount : UInt64) : Except RelayerError Unit :=
  match request.minOutAmount with
  | some minOut => Checked.require (minOut ≤ outAmount) (.slippageExceeded outAmount minOut)
  | none => pure ()

namespace PrivateSwapRelayer

variable (relayer : PrivateSwapRelayer) (request : PrivateSwapRequest)

def withdrawAnswer (freshAddress : Bytes32) : WithdrawAnswer :=
  relayer.submitter.submitWithdrawToFresh (.forAsset request.assetIn) request.amountIn request.inSk request.inBlinding
    request.inNotePubkey request.inLeafIndex freshAddress

def withdrawThenSwap (ephemeral : Keypair) : Traced RelayerAction RelayerError (SubmittedLeg × UInt64) := do
  Traced.check (request.amountIn ≠ 0) (.invalidAmount 0)
  Traced.check (request.feeBps.toNat ≤ 10000) (.feeTooHigh request.feeBps)
  let answer := relayer.withdrawAnswer request ephemeral.pubkey
  let withdrawLeg ← Traced.perform
    (.withdraw (.forAsset request.assetIn) request.amountIn ephemeral.pubkey answer.settled) answer.result
  let swapAmount ← Traced.lift (request.swapAmount relayer.nativeSwapOverheadLamports)
  let swap ← Traced.perform (.swap request.assetIn request.assetOut swapAmount)
    (relayer.swapProvider.swap request.assetIn request.assetOut swapAmount ephemeral)
  Traced.lift (request.checkMinOut swap.outAmount)
  pure (withdrawLeg, swap.outAmount)

/-- With the keypair that it generates. -/
def execute (ephemeral : Keypair) : Traced RelayerAction RelayerError PrivateSwapResult := do
  let (withdrawLeg, grossOutAmount) ← relayer.withdrawThenSwap request ephemeral
  let depositLeg ← Traced.perform (.deposit (.forAsset request.assetOut) grossOutAmount ephemeral.pubkey)
    (relayer.submitter.submitDepositFromFresh (.forAsset request.assetOut) grossOutAmount ephemeral request.reshieldRecipient
      request.reshieldRandomness)
  pure {
    withdrawLeg, depositLeg, grossOutAmount, relayerFee := 0, netOutAmount := grossOutAmount
    freshAddress := ephemeral.pubkey
    outputNote := ⟨request.reshieldRecipient, grossOutAmount, request.reshieldRandomness, request.assetOut, none⟩ }

/-- With the keypair of the caller. -/
def executeSwapOut (fresh : Keypair) : Traced RelayerAction RelayerError SwapOutResult := do
  let (withdrawLeg, grossOutAmount) ← relayer.withdrawThenSwap request fresh
  pure { withdrawLeg, grossOutAmount, freshAddress := fresh.pubkey, assetOut := request.assetOut }

end PrivateSwapRelayer

/-! ## Keys -/

def RelayerError.keypairs : RelayerError → List Keypair
  | .invalidAmount _ => []
  | .feeTooHigh _ => []
  | .swapFailed _ => []
  | .noRoute _ => []
  | .httpError _ => []
  | .submissionFailed _ => []
  | .slippageExceeded _ _ => []

/-- The keypairs that a caller can reach after an error: those it passed in and those it got back. What is local to the call is
dropped. -/
def reachableKeypairs (passed : List Keypair) (e : RelayerError) : List Keypair := passed ++ e.keypairs

/-! ## The production submitter -/

/-- `OnChainSubmitter`, over what the network makes of its legs. -/
structure OnChainSubmitter where
  /-- Proof, ingress and co-sign quorum: whether the withdrawal settles, and what the task returns. -/
  settleTransact : (amount : UInt64) → (sk blinding notePubkey : Bytes32) → (leafIndex : UInt64) → (freshAddress : Bytes32) →
    Bool × Except String String
  /-- The `deposit_note` transaction. -/
  sendDepositNote : (amount : UInt64) → (signer : Keypair) → (recipient randomness : Bytes32) → Except String String

def OnChainSubmitter.submitter (s : OnChainSubmitter) : Submitter where
  submitWithdrawToFresh leg amount sk blinding notePubkey leafIndex freshAddress :=
    match leg with
    | .spl _ => ⟨false, .error (.submissionFailed "SPL withdraw is unavailable on the native-only v3 program")⟩
    | .native =>
      let (settled, result) := s.settleTransact amount sk blinding notePubkey leafIndex freshAddress
      ⟨settled, match result with
        | .ok signature => .ok ⟨leg, amount, freshAddress, signature⟩
        | .error e => .error (.submissionFailed e)⟩
  submitDepositFromFresh leg amount signer recipient randomness :=
    match leg with
    | .spl _ =>
      .error (.submissionFailed "SPL re-shield is unavailable on the native-only v3 program (needs a redeploy)")
    | .native =>
      match s.sendDepositNote amount signer recipient randomness with
      | .ok signature => .ok ⟨leg, amount, signer.pubkey, signature⟩
      | .error e => .error (.submissionFailed e)

end Paraloom.OffChain
