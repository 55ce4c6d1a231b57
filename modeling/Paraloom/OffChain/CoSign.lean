import Paraloom.OffChain.Settlement

/-!
# Co-signing

A validator signs the settlement message that it rebuilds itself, if the parameters are those of a request it verified under
the same id, and counts its signatures by input nullifier and authority. When one of its two maps is full, a new key takes the
place of the one that the iteration over the map comes to first.
-/

namespace Paraloom.OffChain

inductive SettlementKind where
  | transact

/-- What the leader of a round sends to a co-signer. -/
structure CoSignRequest where
  requestId : String
  kind : SettlementKind
  message : Bytes

/-- The answer of a co-signer, without a signature if it declines. -/
structure CoSignResponse where
  requestId : String
  walletPubkey : String
  signature : Option Bytes

def maxVerifiedCache : Nat := 1024

def maxCosignsPerSettlement : Nat := 4

def maxCosignCounts : Nat := 1024

/-! ## Bounded maps -/

/-- The order in which a hash map iterates over its keys, as far as `keys().next()` shows it: some key of a map that has one. -/
structure KeyOrder where
  next : List String → Option String
  next_mem : ∀ {keys key}, next keys = some key → key ∈ keys
  next_isSome : ∀ {keys}, keys ≠ [] → (next keys).isSome

/-- A full map gives up one key for a new one. -/
def makeRoom {V : Type} (ι : KeyOrder) (bound : Nat) (map : Table String V) (key : String) : Table String V :=
  if key ∉ map ∧ bound ≤ map.entries.length then
    match ι.next map.keys with
    | some victim => map.erase victim
    | none => map
  else map

def cacheVerified {V : Type} (ι : KeyOrder) (cache : Table String V) (requestId : String) (value : V) : Table String V :=
  (makeRoom ι maxVerifiedCache cache requestId).insert requestId value

def cosignCount (counts : Table String Nat) (key : String) : Nat := (counts.lookup key).getD 0

/-- One more signature under a key. -/
def countCosign (ι : KeyOrder) (counts : Table String Nat) (key : String) : Table String Nat :=
  let counts := makeRoom ι maxCosignCounts counts key
  counts.insert key (cosignCount counts key + 1)

/-! ## The decision -/

/-- The parameters are those of a verified request. Only the token settlement has a mint to compare. -/
def TransactVerificationRequest.approves (req : TransactVerificationRequest) : SettlementParams → Bool
  | .transact recipient nullifiers outputCommitments root extAmount _ =>
    req.recipient = recipient && req.nullifiers = nullifiers && req.outputCommitments = outputCommitments &&
      req.root = root && req.extAmount = extAmount
  | .transactSpl recipientTokenAccount mint nullifiers outputCommitments root extAmount _ =>
    req.recipient = recipientTokenAccount && req.mint = some mint && req.nullifiers = nullifiers &&
      req.outputCommitments = outputCommitments && req.root = root && req.extAmount = extAmount

def capKey (nullifier authority : Bytes32) : String := s!"{hexEncode nullifier.toList}:{hexEncode authority.toList}"

def CoSignPayload.capNullifiers (payload : CoSignPayload) : List String :=
  [capKey payload.params.nullifiers.1 payload.authority, capKey payload.params.nullifiers.2 payload.authority]

/-- A response without a signature. -/
def CoSignRequest.declined (request : CoSignRequest) : CoSignResponse := ⟨request.requestId, "", none⟩

section

variable (κ : Crypto) (δ : SolanaSdk) (ι : KeyOrder) (cosignKeypair : Option Bytes32) (expectedProgramId : Bytes32)

/-- The response, and the counters after it. -/
def cosignSettlement (verifiedTransacts : Table String TransactVerificationRequest) (cosignCounts : Table String Nat)
    (request : CoSignRequest) : CoSignResponse × Table String Nat :=
  match cosignKeypair, CoSignPayload.fromBytes δ request.message with
  | none, _ => (request.declined, cosignCounts)
  | some _, .error _ => (request.declined, cosignCounts)
  | some wallet, .ok payload =>
    if payload.programId ≠ expectedProgramId then (request.declined, cosignCounts)
    else if ((verifiedTransacts.lookup request.requestId).any fun req => req.approves payload.params) = false then
      (request.declined, cosignCounts)
    else match buildSettlementMessage δ payload with
      | .error _ => (request.declined, cosignCounts)
      | .ok message =>
        if payload.capNullifiers.any fun key => maxCosignsPerSettlement ≤ cosignCount cosignCounts key then
          (request.declined, cosignCounts)
        else
          (⟨request.requestId, walletName wallet, some (κ.signMessage wallet (δ.serializeMessage message))⟩,
            payload.capNullifiers.foldl (countCosign ι) cosignCounts)

end

/-! ## Runs -/

/-- What a validator keeps for co-signing. -/
structure CoSigner where
  verifiedTransacts : Table String TransactVerificationRequest
  cosignCounts : Table String Nat

/-- A validator that has just started. -/
def CoSigner.new : CoSigner := ⟨∅, ∅⟩

/-- What happens to a co-signer, with the order in which its maps iterate at that moment. -/
inductive CoSignEvent where
  | verified (ι : KeyOrder) (requestId : String) (request : TransactVerificationRequest)
  | cosign (ι : KeyOrder) (request : CoSignRequest)

namespace CoSigner

variable (κ : Crypto) (δ : SolanaSdk) (cosignKeypair : Option Bytes32) (expectedProgramId : Bytes32)

def handle (n : CoSigner) : CoSignEvent → CoSigner × Option CoSignResponse
  | .verified ι requestId request =>
    ({ n with verifiedTransacts := cacheVerified ι n.verifiedTransacts requestId request }, none)
  | .cosign ι request =>
    let answered := cosignSettlement κ δ ι cosignKeypair expectedProgramId n.verifiedTransacts n.cosignCounts request
    ({ n with cosignCounts := answered.2 }, some answered.1)

def run (n : CoSigner) (events : List CoSignEvent) : CoSigner :=
  events.foldl (fun n e => (n.handle κ δ cosignKeypair expectedProgramId e).1) n

@[simp] theorem run_nil (n : CoSigner) : n.run κ δ cosignKeypair expectedProgramId [] = n := rfl

@[simp] theorem run_cons (n : CoSigner) (e : CoSignEvent) (events : List CoSignEvent) :
    n.run κ δ cosignKeypair expectedProgramId (e :: events) =
      (n.handle κ δ cosignKeypair expectedProgramId e).1.run κ δ cosignKeypair expectedProgramId events := rfl

theorem run_append (n : CoSigner) (xs ys : List CoSignEvent) : n.run κ δ cosignKeypair expectedProgramId (xs ++ ys) =
      (n.run κ δ cosignKeypair expectedProgramId xs).run κ δ cosignKeypair expectedProgramId ys :=
  List.foldl_append

end CoSigner

end Paraloom.OffChain
