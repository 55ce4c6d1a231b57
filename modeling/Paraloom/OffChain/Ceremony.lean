import Paraloom.Lib.Codec
import Paraloom.OffChain.TransactConsensus

/-!
# The phase-2 ceremony

Contributors multiply the delta of a proving key by secret scalars, one after the other, and prove that they used the same
scalar in both groups. The transcript chains the contributions by their hashes. Before the last key is used, the transcript,
the key and the policy of the operator are checked.
-/

namespace Paraloom.OffChain

/-- `TranscriptHash`: a SHA-512 digest. -/
abbrev TranscriptHash : Type := List.Vector UInt8 64

/-- The curve as the ceremony uses it: encodings of the points and scalars and the pairing. Points of both groups are multiplied
by the scalars of the same prime field. -/
structure PairingSuite (p : ℕ) (G1 G2 GT : Type) [AddCommGroup G1] [AddCommGroup G2] [AddCommGroup GT] [Module (ZMod p) G1]
    [Module (ZMod p) G2] [Module (ZMod p) GT] where
  g1 : Codec G1
  g2 : Codec G2
  fr : Codec (ZMod p)
  pairing : G1 →ₗ[ZMod p] G2 →ₗ[ZMod p] GT
  sha512 : Bytes → TranscriptHash

/-- `Fr::from_le_bytes_mod_order` of a digest. -/
def scalarOfDigest (p : ℕ) (digest : TranscriptHash) : ZMod p := (LittleEndian.toNat digest.toList : ℕ)

/-- `ark_groth16::VerifyingKey`. -/
structure CeremonyVk (G1 G2 : Type) where
  alphaG1 : G1
  betaG2 : G2
  gammaG2 : G2
  deltaG2 : G2
  gammaAbcG1 : List G1

/-- `ark_groth16::ProvingKey`. -/
structure ProvingKey (G1 G2 : Type) where
  vk : CeremonyVk G1 G2
  betaG1 : G1
  deltaG1 : G1
  aQuery : List G1
  bG1Query : List G1
  bG2Query : List G2
  hQuery : List G1
  lQuery : List G1

/-! ## Contributions -/

inductive BgmError where
  | zeroContribution
  | malformedDleqProof
  | dleqMismatchG1
  | dleqMismatchG2
  deriving DecidableEq

/-- The proof that one scalar was applied to both deltas. -/
structure DleqProof (p : ℕ) (G1 G2 : Type) where
  rG1 : G1
  rG2 : G2
  s : ZMod p

section Bgm17

variable {p : ℕ} [Fact p.Prime] {G1 G2 GT : Type} [AddCommGroup G1] [AddCommGroup G2] [AddCommGroup GT] [Module (ZMod p) G1]
  [Module (ZMod p) G2] [Module (ZMod p) GT] [DecidableEq G1] [DecidableEq G2] [DecidableEq GT] (C : PairingSuite p G1 G2 GT)

/-- The pairing with one point of the second group. -/
def PairingSuite.pairWith (b : G2) (a : G1) : GT := C.pairing a b

def DleqProof.toBytes (proof : DleqProof p G1 G2) : Bytes :=
  C.g1.encode proof.rG1 ++ C.g2.encode proof.rG2 ++ C.fr.encode proof.s

def DleqProof.fromBytes (bytes : Bytes) : Except BgmError (DleqProof p G1 G2) := do
  let (rG1, cursor) ← Checked.okOr (C.g1.read bytes) .malformedDleqProof
  let (rG2, cursor) ← Checked.okOr (C.g2.read cursor) .malformedDleqProof
  let (s, cursor) ← Checked.okOr (C.fr.read cursor) .malformedDleqProof
  Checked.require (cursor = []) .malformedDleqProof
  pure ⟨rG1, rG2, s⟩

def fiatShamirChallenge (deltaBeforeG1 deltaAfterG1 : G1) (deltaBeforeG2 deltaAfterG2 : G2) (rG1 : G1) (rG2 : G2) : ZMod p :=
  scalarOfDigest p (C.sha512 (utf8 "paraloom-bgm17-dleq-challenge-v1" ++ C.g1.encode deltaBeforeG1 ++
    C.g1.encode deltaAfterG1 ++ C.g2.encode deltaBeforeG2 ++ C.g2.encode deltaAfterG2 ++ C.g1.encode rG1 ++ C.g2.encode rG2))

def applyScalarToG1Vec (points : List G1) (scalar : ZMod p) : List G1 := points.map (scalar • ·)

/-- With the scalar and the nonce `k` that it draws. -/
def applyContribution (pk : ProvingKey G1 G2) (deltaI k : ZMod p) : Except BgmError (ProvingKey G1 G2 × DleqProof p G1 G2) := do
  -- the inverse exists once the scalar is not zero
  Checked.require (deltaI ≠ 0) .zeroContribution
  let deltaInv := deltaI⁻¹
  let after := { pk with
    deltaG1 := deltaI • pk.deltaG1
    vk := { pk.vk with deltaG2 := deltaI • pk.vk.deltaG2 }
    hQuery := applyScalarToG1Vec pk.hQuery deltaInv
    lQuery := applyScalarToG1Vec pk.lQuery deltaInv }
  let rG1 := k • pk.deltaG1
  let rG2 := k • pk.vk.deltaG2
  let c := fiatShamirChallenge C pk.deltaG1 after.deltaG1 pk.vk.deltaG2 after.vk.deltaG2 rG1 rG2
  pure (after, ⟨rG1, rG2, k + c * deltaI⟩)

/-- The checks of `verify_contribution_deltas` under a challenge. -/
def verifyContributionDeltasAt (c : ZMod p) (deltaBeforeG1 deltaAfterG1 : G1) (deltaBeforeG2 deltaAfterG2 : G2)
    (proof : DleqProof p G1 G2) : Except BgmError Unit := do
  Checked.require (¬(deltaAfterG1 = 0 ∨ deltaAfterG2 = 0)) .zeroContribution
  Checked.require (proof.s • deltaBeforeG1 = proof.rG1 + c • deltaAfterG1) .dleqMismatchG1
  Checked.require (proof.s • deltaBeforeG2 = proof.rG2 + c • deltaAfterG2) .dleqMismatchG2

def verifyContributionDeltas (deltaBeforeG1 deltaAfterG1 : G1) (deltaBeforeG2 deltaAfterG2 : G2) (proof : DleqProof p G1 G2) :
    Except BgmError Unit :=
  verifyContributionDeltasAt (fiatShamirChallenge C deltaBeforeG1 deltaAfterG1 deltaBeforeG2 deltaAfterG2 proof.rG1 proof.rG2)
    deltaBeforeG1 deltaAfterG1 deltaBeforeG2 deltaAfterG2 proof

end Bgm17

/-! ## The transcript -/

def transcriptVersion : Nat := 1

inductive CircuitId where
  | deposit
  | transfer
  | withdraw
  | transact

structure Contribution where
  priorHash : TranscriptHash
  contributor : NodeId
  deltaAfterG1 : Bytes
  deltaAfterG2 : Bytes
  dleqProof : Bytes
  contributorPubkey : Bytes
  signature : Bytes
  attestation : String

structure Phase2Transcript where
  version : Nat
  circuit : CircuitId
  initialSrsHash : TranscriptHash
  contributions : List Contribution
  finalSrsHash : TranscriptHash

/-- `TranscriptError::ChainBroken`. -/
structure ChainBroken where
  position : Nat
  deriving DecidableEq

/-- A byte string in bincode: its length in eight bytes and then the bytes. -/
def bincodeBytes (bytes : Bytes) : Bytes := LittleEndian.ofNat 8 bytes.length ++ bytes

/-- `bincode::serialize` of a contribution. -/
def Contribution.serialize (c : Contribution) : Bytes :=
  bincodeBytes c.priorHash.toList ++ bincodeBytes c.contributor ++ bincodeBytes c.deltaAfterG1 ++ bincodeBytes c.deltaAfterG2 ++
    bincodeBytes c.dleqProof ++ bincodeBytes c.contributorPubkey ++ bincodeBytes c.signature ++ bincodeBytes (utf8 c.attestation)

def hashContribution (sha512 : Bytes → TranscriptHash) (contribution : Contribution) : TranscriptHash :=
  sha512 contribution.serialize

namespace Phase2Transcript

def new (circuit : CircuitId) (initialSrsHash : TranscriptHash) : Phase2Transcript :=
  ⟨transcriptVersion, circuit, initialSrsHash, [], List.Vector.replicate 64 0⟩

variable (sha512 : Bytes → TranscriptHash)

/-- The `prior_hash` that the chain expects next. -/
def expectedPrior (t : Phase2Transcript) : TranscriptHash :=
  match t.contributions.getLast? with
  | some prev => hashContribution sha512 prev
  | none => t.initialSrsHash

def append (t : Phase2Transcript) (contribution : Contribution) : Except ChainBroken Phase2Transcript := do
  Checked.require (contribution.priorHash = t.expectedPrior sha512) ⟨t.contributions.length⟩
  pure { t with contributions := t.contributions ++ [contribution] }

/-- One round of the loop of `verify_chain`. -/
def chainStep (expected : TranscriptHash) (contribution : Contribution × Nat) : Except ChainBroken TranscriptHash := do
  Checked.require (contribution.1.priorHash = expected) ⟨contribution.2⟩
  pure (hashContribution sha512 contribution.1)

def verifyChain (t : Phase2Transcript) : Except ChainBroken Unit := do
  let _ ← t.contributions.zipIdx.foldlM (chainStep sha512) t.initialSrsHash
  pure ()

end Phase2Transcript

/-! ## Contributing -/

/-- The errors of `contribute`. Those of reading and writing files do not occur in it. -/
inductive ContributeError where
  | bgm (e : BgmError)
  | transcript (e : ChainBroken)

/-- The arguments of a call of `contribute` besides the key and the transcript, with the two scalars that the call draws. -/
structure ContributeCall (p : ℕ) where
  circuit : CircuitId
  initialSrsHash : TranscriptHash
  contributor : NodeId
  attestation : String
  deltaI : ZMod p
  nonce : ZMod p

/-- A step with the errors of a wider type. -/
def mapErr {ε ε' α : Type} (wrap : ε → ε') : Except ε α → Except ε' α
  | .ok a => .ok a
  | .error e => .error (wrap e)

section Flow

variable {p : ℕ} [Fact p.Prime] {G1 G2 GT : Type} [AddCommGroup G1] [AddCommGroup G2] [AddCommGroup GT] [Module (ZMod p) G1]
  [Module (ZMod p) G2] [Module (ZMod p) GT] [DecidableEq G1] [DecidableEq G2] [DecidableEq GT] (C : PairingSuite p G1 G2 GT)

def contribute (priorPk : ProvingKey G1 G2) (priorTranscript : Option Phase2Transcript) (call : ContributeCall p) :
    Except ContributeError (ProvingKey G1 G2 × Phase2Transcript) := do
  let (pk, proof) ← mapErr .bgm (applyContribution C priorPk call.deltaI call.nonce)
  let transcript := priorTranscript.getD (.new call.circuit call.initialSrsHash)
  let contribution : Contribution := {
    priorHash := transcript.expectedPrior C.sha512
    contributor := call.contributor
    deltaAfterG1 := C.g1.encode pk.deltaG1
    deltaAfterG2 := C.g2.encode pk.vk.deltaG2
    dleqProof := proof.toBytes C
    contributorPubkey := []
    signature := []
    attestation := call.attestation }
  let transcript ← mapErr .transcript (transcript.append C.sha512 contribution)
  pure (pk, transcript)

/-! ## Verification -/

inductive VerifyError where
  | chain (e : ChainBroken)
  | malformedDeltaG1 (position : Nat)
  | malformedDeltaG2 (position : Nat)
  | malformedDleq (position : Nat) (source : BgmError)
  | dleqRejected (position : Nat) (source : BgmError)
  | finalPkDeltaMismatch
  | keyElementAltered (field : String)
  | queryLengthMismatch (field : String)
  | queryInconsistent (field : String)
  deriving DecidableEq

/-- The deltas that a contribution records. What follows a point in its bytes is not looked at. -/
def Contribution.deltas (contribution : Contribution) (position : Nat) : Except VerifyError (G1 × G2) := do
  let (deltaAfterG1, _) ← Checked.okOr (C.g1.read contribution.deltaAfterG1) (.malformedDeltaG1 position)
  let (deltaAfterG2, _) ← Checked.okOr (C.g2.read contribution.deltaAfterG2) (.malformedDeltaG2 position)
  pure (deltaAfterG1, deltaAfterG2)

/-- One round of the loop of `verify_phase2_transcript`. -/
def transitionStep (before : G1 × G2) (contribution : Contribution × Nat) : Except VerifyError (G1 × G2) := do
  let after ← contribution.1.deltas C contribution.2
  let proof ← mapErr (.malformedDleq contribution.2) (DleqProof.fromBytes C contribution.1.dleqProof)
  mapErr (.dleqRejected contribution.2) (verifyContributionDeltas C before.1 after.1 before.2 after.2 proof)
  pure after

def verifyPhase2Transcript (initialPk : ProvingKey G1 G2) (transcript : Phase2Transcript) : Except VerifyError Unit := do
  mapErr .chain (transcript.verifyChain C.sha512)
  let _ ← transcript.contributions.zipIdx.foldlM (transitionStep C) (initialPk.deltaG1, initialPk.vk.deltaG2)
  pure ()

/-- The deltas that the chain ends on. -/
def Phase2Transcript.finalDeltas (initialPk : ProvingKey G1 G2) (transcript : Phase2Transcript) : Except VerifyError (G1 × G2) :=
  match transcript.contributions.getLast? with
  | some last => last.deltas C (transcript.contributions.length - 1)
  | none => pure (initialPk.deltaG1, initialPk.vk.deltaG2)

def verifyFinalPk (initialPk : ProvingKey G1 G2) (transcript : Phase2Transcript) (finalPk : ProvingKey G1 G2) :
    Except VerifyError Unit := do
  let expected ← transcript.finalDeltas C initialPk
  Checked.require (¬(finalPk.deltaG1 ≠ expected.1 ∨ finalPk.vk.deltaG2 ≠ expected.2)) .finalPkDeltaMismatch

/-- The loop of `scalar_powers` with its accumulator. -/
def scalarPowersFrom (acc base : ZMod p) : Nat → List (ZMod p)
  | 0 => []
  | n + 1 => acc :: scalarPowersFrom (acc * base) base n

def scalarPowers (base : ZMod p) (n : Nat) : List (ZMod p) := scalarPowersFrom 1 base n

/-- `VariableBaseMSM::msm`, which refuses lists of different lengths. -/
def msm (bases : List G1) (scalars : List (ZMod p)) : Option G1 :=
  if bases.length = scalars.length then some (List.zipWith (fun base scalar => scalar • base) bases scalars).sum else none

def fiatShamirRho (domain : String) (initial final : List G1) (initialDeltaG2 finalDeltaG2 : G2) : ZMod p :=
  scalarOfDigest p (C.sha512 (utf8 "paraloom-ceremony-query-consistency-v1" ++ utf8 domain ++ C.g2.encode initialDeltaG2 ++
    C.g2.encode finalDeltaG2 ++ initial.flatMap C.g1.encode ++ final.flatMap C.g1.encode))

/-- `check_query_consistency` under a challenge. -/
def checkQueryConsistencyAt (rho : ZMod p) (field : String) (initial final : List G1) (initialDeltaG2 finalDeltaG2 : G2) :
    Except (Checked.Failure VerifyError) Unit :=
  if initial = [] then pure () else do
    let scalars := scalarPowers rho initial.length
    let finalCombined ← Checked.okOr (msm final scalars) .panic
    let initialCombined ← Checked.okOr (msm initial scalars) .panic
    Checked.require (C.pairing finalCombined finalDeltaG2 = C.pairing initialCombined initialDeltaG2)
      (.error (.queryInconsistent field))

def checkQueryConsistency (field : String) (initial final : List G1) (initialDeltaG2 finalDeltaG2 : G2) :
    Except (Checked.Failure VerifyError) Unit :=
  checkQueryConsistencyAt C (fiatShamirRho C field initial final initialDeltaG2 finalDeltaG2) field initial final
    initialDeltaG2 finalDeltaG2

def verifyFinalPkConsistency (initialPk finalPk : ProvingKey G1 G2) : Except (Checked.Failure VerifyError) Unit := do
  Checked.require (finalPk.vk.alphaG1 = initialPk.vk.alphaG1) (.error (.keyElementAltered "vk.alpha_g1"))
  Checked.require (finalPk.vk.betaG2 = initialPk.vk.betaG2) (.error (.keyElementAltered "vk.beta_g2"))
  Checked.require (finalPk.vk.gammaG2 = initialPk.vk.gammaG2) (.error (.keyElementAltered "vk.gamma_g2"))
  Checked.require (finalPk.vk.gammaAbcG1 = initialPk.vk.gammaAbcG1) (.error (.keyElementAltered "vk.gamma_abc_g1"))
  Checked.require (finalPk.betaG1 = initialPk.betaG1) (.error (.keyElementAltered "beta_g1"))
  Checked.require (finalPk.aQuery = initialPk.aQuery) (.error (.keyElementAltered "a_query"))
  Checked.require (finalPk.bG1Query = initialPk.bG1Query) (.error (.keyElementAltered "b_g1_query"))
  Checked.require (finalPk.bG2Query = initialPk.bG2Query) (.error (.keyElementAltered "b_g2_query"))
  Checked.require (finalPk.hQuery.length = initialPk.hQuery.length) (.error (.queryLengthMismatch "h_query"))
  Checked.require (finalPk.lQuery.length = initialPk.lQuery.length) (.error (.queryLengthMismatch "l_query"))
  checkQueryConsistency C "h_query" initialPk.hQuery finalPk.hQuery initialPk.vk.deltaG2 finalPk.vk.deltaG2
  checkQueryConsistency C "l_query" initialPk.lQuery finalPk.lQuery initialPk.vk.deltaG2 finalPk.vk.deltaG2

/-! ## The policy -/

structure FinalizePolicy where
  minContributions : Nat
  initialSrsHash : TranscriptHash
  finalContributionHash : Option TranscriptHash

inductive PolicyError where
  | emptyTranscript
  | tooFewContributions (got min : Nat)
  | transcriptSrsHashMismatch
  | initialKeyHashMismatch
  | finalKeyUnchanged
  | finalContributionMismatch

def enforceFinalizePolicy (policy : FinalizePolicy) (initialPkFileHash : TranscriptHash) (initialPk finalPk : ProvingKey G1 G2)
    (transcript : Phase2Transcript) : Except PolicyError Unit :=
  match transcript.contributions.getLast? with
  | none => .error .emptyTranscript
  | some tip => do
    let min := max policy.minContributions 1
    Checked.require (¬transcript.contributions.length < min) (.tooFewContributions transcript.contributions.length min)
    Checked.require (transcript.initialSrsHash = policy.initialSrsHash) .transcriptSrsHashMismatch
    Checked.require (initialPkFileHash = policy.initialSrsHash) .initialKeyHashMismatch
    Checked.require (¬(finalPk.deltaG1 = initialPk.deltaG1 ∧ finalPk.vk.deltaG2 = initialPk.vk.deltaG2)) .finalKeyUnchanged
    match policy.finalContributionHash with
    | some pinnedTail => Checked.require (hashContribution C.sha512 tip = pinnedTail) .finalContributionMismatch
    | none => pure ()

end Flow

end Paraloom.OffChain
