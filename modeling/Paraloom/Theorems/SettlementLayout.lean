import Paraloom.OffChain.SettlementContext
import Paraloom.Theorems.CoSignedSettlement

/-!
# Settlement messages fit the program

The instruction of a settlement message decodes to what was approved, its accounts are those the struct asks for at each place,
and the accounts after them are the pairs of the quorum. What does not fit is the token program: the builder always names the
classic one, and a mint may be of the other.
-/

namespace Paraloom.OffChain

open List LittleEndian

variable {δ : SolanaSdk} {owner : Bytes32 → Bytes32} {payload : CoSignPayload} {request : TransactVerificationRequest}
  {proof : Bytes}

/-! ## The statement -/

def TransactVerificationRequest.settledBy (request : TransactVerificationRequest) : SettlementInstruction :=
  match request.mint with
  | none => .transact
  | some _ => .transactSpl

def SettlementInstruction.rules (δ : SolanaSdk) (programId : Bytes32) (nullifiers : Bytes32 × Bytes32)
    (accounts : List PassedAccount) : SettlementInstruction → List AccountRule
  | .transact => transactRules δ programId nullifiers accounts
  | .transactSpl => transactSplRules δ programId nullifiers accounts

/-- In a settlement in a token, the token program that is named owns the mint. -/
def TokenProgramOwnsMint (owner : Bytes32 → Bytes32) (accounts : List PassedAccount) : SettlementInstruction → Prop
  | .transact => True
  | .transactSpl => owner (keyAt accounts 2) = keyAt accounts 12

def passedAccount (owner : Bytes32 → Bytes32) (account : Sdk.AccountMeta Bytes32) : PassedAccount where
  key := account.pubkey
  isSigner := account.isSigner
  isWritable := account.isWritable
  owner := owner account.pubkey

/-- The accounts an instruction is called with fit the program: those of the struct place by place, the token program, and the
pairs of the quorum after them. -/
structure AccountsFit (δ : SolanaSdk) (owner : Bytes32 → Bytes32) (programId : Bytes32) (nullifiers : Bytes32 × Bytes32)
    (quorum : List Bytes32) (ix : SettlementInstruction) (accounts : List PassedAccount) : Prop where
  leading : List.Forall₂ AccountRule.Allows (ix.rules δ programId nullifiers accounts)
    (accounts.take (ix.rules δ programId nullifiers accounts).length)
  tokenProgram : TokenProgramOwnsMint owner accounts ix
  remaining : (quorumPairs (accounts.drop (ix.rules δ programId nullifiers accounts).length)).map
      (fun pair => (pair.1.key, pair.1.isSigner, pair.2.key)) =
    quorum.map fun wallet => (wallet, true, deriveValidatorAccount δ programId wallet)

/-- A message is built, and the call it makes to the program fits the request. -/
def MessageFits (δ : SolanaSdk) (owner : Bytes32 → Bytes32) (payload : CoSignPayload) (request : TransactVerificationRequest)
    (proof : Bytes) : Prop :=
  ∃ message call, buildSettlementMessage δ payload = .ok message ∧
    message.instructions[1]?.bind message.invocation = some call ∧ call.programId = payload.programId ∧
    dispatch call.data = some (request.settledBy, request.args proof) ∧
    AccountsFit δ owner payload.programId request.nullifiers payload.quorumValidators request.settledBy
      (call.accounts.map (passedAccount owner))

/-- The accounts of the program that every settlement needs are there. -/
structure Deployed (δ : SolanaSdk) (owner : Bytes32 → Bytes32) (programId authority : Bytes32) : Prop where
  bridgeState : owner (deriveBridgeState δ programId) = programId
  merkleTree : owner (deriveMerkleTree δ programId) = programId
  bridgeVault : owner (deriveBridgeVault δ programId) = systemProgramId
  validatorAccount : owner (deriveValidatorAccount δ programId authority) = programId
  validatorRegistry : owner (deriveValidatorRegistry δ programId) = programId

/-- The mint is of one of the token programs, and the vault of the mint and the two token accounts of a settlement are there,
with the token program that owns the mint. -/
structure TokenAccountsExist (δ : SolanaSdk) (owner : Bytes32 → Bytes32) (programId authority mint recipient : Bytes32) :
    Prop where
  supported : owner mint ∈ tokenInterfaceIds
  assetVault : owner (deriveAssetVault δ programId mint) = owner mint
  recipientTokenAccount : owner recipient = owner mint
  feeTokenAccount : owner (deriveAssociatedTokenAddress δ authority mint splTokenProgramId) = owner mint

/-- The vault of a mint can be made and notes of it can be deposited: there are accounts that the two structs allow, with the
token program that owns the mint, which the calls to it need. -/
structure Depositable (δ : SolanaSdk) (owner : Bytes32 → Bytes32) (programId mint : Bytes32) : Prop where
  init : ∃ metas : List (Sdk.AccountMeta Bytes32), ∃ accounts, accounts = metas.map (passedAccount owner) ∧
    List.Forall₂ AccountRule.Allows (initAssetVaultRules δ programId accounts) accounts ∧
    keyAt accounts 1 = mint ∧ keyAt accounts 6 = owner mint
  deposit : ∃ metas : List (Sdk.AccountMeta Bytes32), ∃ accounts, accounts = metas.map (passedAccount owner) ∧
    List.Forall₂ AccountRule.Allows (depositNoteSplRules δ programId accounts) accounts ∧
    keyAt accounts 2 = mint ∧ keyAt accounts 7 = owner mint

namespace SettlementLayoutAux

/-! ## Arguments -/

theorem readVec_append (rest : Bytes) (h : bytes.length < 2 ^ 32) :
    readVec (ofNat 4 bytes.length ++ (bytes ++ rest)) = some (bytes, rest) := by
  have hlength : (UInt32.ofNat bytes.length).toNat = bytes.length := UInt32.toNat_ofNat_of_lt' h
  have hencode : ofNat 4 bytes.length = u32Codec.encode (.ofNat bytes.length) :=
    congrArg (ofNat 4) hlength.symm
  rw [readVec, hencode, u32Codec.read_encode_append]
  simp [hlength]

/-- What the builder encodes, the program decodes. -/
theorem decode_transactInstructionData (h : proof.length < 2 ^ 32) :
    decodeTransactArgs (transactInstructionData nullifiers outputCommitments root extAmount proof) =
      some ⟨nullifiers.1, nullifiers.2, outputCommitments.1, outputCommitments.2, root, extAmount, proof⟩ := by
  have hvec := readVec_append [] h
  rw [append_nil] at hvec
  have hword : ∀ (v : Bytes32) rest, bytes32Codec.read (v.toList ++ rest) = some (v, rest) := bytes32Codec.read_encode_append
  have hamount : ∀ rest, i64Codec.read (ofNat 8 extAmount.toBitVec.toNat ++ rest) = some (extAmount, rest) :=
    i64Codec.read_encode_append extAmount
  simp only [decodeTransactArgs, transactInstructionData, append_assoc, hword, hamount, hvec, Option.bind_eq_bind,
    Option.bind_some, Option.pure_def]

theorem dispatch_discriminator : dispatch (ix.discriminator ++ body) = (decodeTransactArgs body).map (ix, ·) := by
  cases ix with
  | transact => exact if_pos rfl
  | transactSpl => exact (if_neg (show SettlementInstruction.transactSpl.discriminator ≠ _ by decide)).trans (if_pos rfl)

theorem dispatch_eq (hparams : payload.params = request.params proof) (h : proof.length < 2 ^ 32) :
    dispatch (payload.instruction δ).data = some (request.settledBy, request.args proof) := by
  have hdata : (payload.instruction δ).data = request.settledBy.discriminator ++ transactInstructionData request.nullifiers
      request.outputCommitments request.root request.extAmount proof := by
    unfold CoSignPayload.instruction
    rw [hparams]
    unfold TransactVerificationRequest.params TransactVerificationRequest.settledBy
    cases request.mint <;> rfl
  rw [hdata, dispatch_discriminator, decode_transactInstructionData h]
  rfl

/-! ## Accounts -/

/-- A rule but for the rights. -/
def Identifies (rule : AccountRule) (account : PassedAccount) : Prop :=
  (∀ keys ∈ rule.addresses, account.key ∈ keys) ∧ ∀ owners ∈ rule.owners, account.owner ∈ owners

variable {rules : List AccountRule} {accounts metas : List (Sdk.AccountMeta Bytes32)}

/-- Rights do not change what a rule says about address and owner. -/
theorem identifies_iff (h : a.pubkey = b.pubkey) :
    Identifies rule (passedAccount owner a) ↔ Identifies rule (passedAccount owner b) := by
  simp only [Identifies, passedAccount, h]

theorem allows_iff : rule.Allows account ↔ Identifies rule account ∧
    (rule.isWritable = true → account.isWritable = true) ∧ (rule.isSigner = true → account.isSigner = true) := by
  rw [AccountRule.Allows, Identifies, and_assoc]

theorem allows_of {rule : AccountRule} (hkey : rule.addresses.elim True (account.key ∈ ·))
    (howner : rule.owners.elim True (account.owner ∈ ·)) (hwritable : rule.isWritable = true → account.isWritable = true)
    (hsigner : rule.isSigner = true → account.isSigner = true) : rule.Allows account := by
  refine ⟨fun keys hkeys => ?_, fun owners howners => ?_, hwritable, hsigner⟩
  · rwa [hkeys] at hkey
  · rwa [howners] at howner

section Grants

variable (hgrants : List.Forall₂ Sdk.AccountMeta.Grants accounts metas)
include hgrants

theorem allows_of_grants (h : List.Forall₂ AccountRule.Allows rules (metas.map (passedAccount owner))) :
    List.Forall₂ AccountRule.Allows rules (accounts.map (passedAccount owner)) := by
  induction hgrants generalizing rules with
  | nil => exact h
  | cons hfirst _ ih =>
    rw [map_cons, forall₂_cons_right_iff] at h
    obtain ⟨rule, rest, hallows, hrest, rfl⟩ := h
    obtain ⟨hidentifies, hwritable, hsigner⟩ := allows_iff.mp hallows
    refine .cons (allows_iff.mpr ⟨(identifies_iff hfirst.key).mpr hidentifies, ?_, ?_⟩) (ih hrest)
    · exact fun hw => hfirst.writable (hwritable hw)
    · exact fun hs => hfirst.signer (hsigner hs)

/-- Whatever their rights, accounts that are allowed identify those they have the keys of. -/
theorem identifies_of_grants (h : List.Forall₂ AccountRule.Allows rules (accounts.map (passedAccount owner))) :
    List.Forall₂ Identifies rules (metas.map (passedAccount owner)) := by
  induction hgrants generalizing rules with
  | nil =>
    rw [map_nil, forall₂_nil_right_iff] at h
    exact h ▸ .nil
  | cons hfirst _ ih =>
    rw [map_cons, forall₂_cons_right_iff] at h
    obtain ⟨rule, rest, hallows, hrest, rfl⟩ := h
    exact .cons ((identifies_iff hfirst.key).mp (allows_iff.mp hallows).1) (ih hrest)

theorem keyAt_of_grants (i : Nat) : keyAt (accounts.map (passedAccount owner)) i = keyAt (metas.map (passedAccount owner)) i := by
  induction hgrants generalizing i with
  | nil => rfl
  | cons hfirst _ ih =>
    cases i with
    | zero => exact hfirst.key
    | succ i => exact ih i

end Grants

theorem pairs_of_grants {programId : Bytes32}
    (hgrants : List.Forall₂ Sdk.AccountMeta.Grants accounts (appendQuorumAccounts δ programId quorum [])) :
    (quorumPairs (accounts.map (passedAccount owner))).map (fun pair => (pair.1.key, pair.1.isSigner, pair.2.key)) =
      quorum.map fun wallet => (wallet, true, deriveValidatorAccount δ programId wallet) := by
  induction quorum generalizing accounts with
  | nil =>
    rw [appendQuorumAccounts, flatMap_nil, append_nil, forall₂_nil_right_iff] at hgrants
    rw [hgrants]
    rfl
  | cons wallet quorum ih =>
    rw [appendQuorumAccounts, nil_append, flatMap_cons, cons_append, cons_append, nil_append, forall₂_cons_right_iff] at hgrants
    obtain ⟨a, rest, ha, hrest, rfl⟩ := hgrants
    rw [forall₂_cons_right_iff] at hrest
    obtain ⟨b, rest, hb, hrest, rfl⟩ := hrest
    simp only [map_cons, quorumPairs, cons.injEq, Prod.mk.injEq]
    exact ⟨⟨ha.key, ha.signer rfl, hb.key⟩, ih hrest⟩

theorem split_of_grants {programId : Bytes32}
    (hgrants : List.Forall₂ Sdk.AccountMeta.Grants accounts (appendQuorumAccounts δ programId quorum metas)) :
    List.Forall₂ Sdk.AccountMeta.Grants (accounts.take metas.length) metas ∧
      (quorumPairs ((accounts.map (passedAccount owner)).drop metas.length)).map
          (fun pair => (pair.1.key, pair.1.isSigner, pair.2.key)) =
        quorum.map fun wallet => (wallet, true, deriveValidatorAccount δ programId wallet) := by
  refine ⟨forall₂_take_append _ _ _ hgrants, ?_⟩
  rw [← map_drop]
  exact pairs_of_grants (forall₂_drop_append _ _ _ hgrants)

variable {programId authority recipient mint feeTokenAccount root : Bytes32}
  {nullifiers outputCommitments : Bytes32 × Bytes32} {extAmount : Int64} {quorum : List Bytes32}

theorem accountsFit_transact_iff (hdeployed : Deployed δ owner programId authority)
    (hgrants : List.Forall₂ Sdk.AccountMeta.Grants accounts (createTransactInstruction δ programId authority
      (deriveBridgeVault δ programId) recipient nullifiers outputCommitments root extAmount proof quorum).accounts) :
    AccountsFit δ owner programId nullifiers quorum .transact (accounts.map (passedAccount owner)) ↔
      owner recipient = systemProgramId := by
  obtain ⟨hleading, hpairs⟩ := split_of_grants hgrants
  have hauthority : keyAt (accounts.map (passedAccount owner)) 8 = authority := keyAt_of_grants hgrants 8
  constructor
  · rintro ⟨hallows, -, -⟩
    rw [← map_take] at hallows
    have hidentifies := identifies_of_grants hleading hallows
    simp only [SettlementInstruction.rules, transactRules, map_cons, map_nil, forall₂_cons] at hidentifies
    obtain ⟨-, -, -, -, -, ⟨-, hrecipient⟩, -⟩ := hidentifies
    exact mem_singleton.mp (hrecipient _ rfl)
  · intro hrecipient
    refine ⟨?_, trivial, hpairs⟩
    rw [← map_take]
    refine allows_of_grants hleading ?_
    simp only [SettlementInstruction.rules, transactRules, hauthority, map_cons, map_nil, forall₂_cons]
    exact ⟨allows_of (.head _) (mem_singleton.mpr hdeployed.bridgeState) (fun _ => rfl) nofun,
      allows_of (.head _) (mem_singleton.mpr hdeployed.merkleTree) (fun _ => rfl) nofun,
      allows_of (.head _) (mem_singleton.mpr hdeployed.bridgeVault) (fun _ => rfl) nofun,
      allows_of (.head _) trivial (fun _ => rfl) nofun,
      allows_of (.head _) trivial (fun _ => rfl) nofun,
      allows_of trivial (mem_singleton.mpr hrecipient) (fun _ => rfl) nofun,
      allows_of (.head _) (mem_singleton.mpr hdeployed.validatorAccount) (fun _ => rfl) nofun,
      allows_of (.head _) (mem_singleton.mpr hdeployed.validatorRegistry) nofun nofun,
      allows_of trivial trivial (fun _ => rfl) (fun _ => rfl),
      allows_of (.head _) trivial nofun nofun,
      .nil⟩

theorem tokenProgramOwnsMint_iff (hgrants : List.Forall₂ Sdk.AccountMeta.Grants accounts
      (createTransactSplInstruction δ programId authority mint recipient feeTokenAccount splTokenProgramId nullifiers
        outputCommitments root extAmount proof quorum).accounts) :
    TokenProgramOwnsMint owner (accounts.map (passedAccount owner)) .transactSpl ↔ owner mint = splTokenProgramId := by
  have hmint : keyAt (accounts.map (passedAccount owner)) 2 = mint := keyAt_of_grants hgrants 2
  have htoken : keyAt (accounts.map (passedAccount owner)) 12 = splTokenProgramId := keyAt_of_grants hgrants 12
  rw [TokenProgramOwnsMint, hmint, htoken]

/-- The accounts of a settlement in a token fit if and only if the token program that is named owns the mint. -/
theorem accountsFit_transactSpl_iff (hdeployed : Deployed δ owner programId authority)
    (htokens : TokenAccountsExist δ owner programId authority mint recipient)
    (hgrants : List.Forall₂ Sdk.AccountMeta.Grants accounts (createTransactSplInstruction δ programId authority mint recipient
      (deriveAssociatedTokenAddress δ authority mint splTokenProgramId) splTokenProgramId nullifiers outputCommitments root
      extAmount proof quorum).accounts) :
    AccountsFit δ owner programId nullifiers quorum .transactSpl (accounts.map (passedAccount owner)) ↔
      owner mint = splTokenProgramId := by
  obtain ⟨hleading, hpairs⟩ := split_of_grants hgrants
  have hmint : keyAt (accounts.map (passedAccount owner)) 2 = mint := keyAt_of_grants hgrants 2
  have hauthority : keyAt (accounts.map (passedAccount owner)) 11 = authority := keyAt_of_grants hgrants 11
  constructor
  · exact fun h => (tokenProgramOwnsMint_iff hgrants).mp h.tokenProgram
  · intro hclassic
    refine ⟨?_, (tokenProgramOwnsMint_iff hgrants).mpr hclassic, hpairs⟩
    rw [← map_take]
    refine allows_of_grants hleading ?_
    have hsupported : ∀ k, owner k = owner mint → owner k ∈ tokenInterfaceIds := fun k hk => hk ▸ htokens.supported
    simp only [SettlementInstruction.rules, transactSplRules, hmint, hauthority, map_cons, map_nil, forall₂_cons]
    exact ⟨allows_of (.head _) (mem_singleton.mpr hdeployed.bridgeState) (fun _ => rfl) nofun,
      allows_of (.head _) (mem_singleton.mpr hdeployed.merkleTree) (fun _ => rfl) nofun,
      allows_of trivial htokens.supported nofun nofun,
      allows_of (.head _) (hsupported _ htokens.assetVault) (fun _ => rfl) nofun,
      allows_of (.head _) trivial nofun nofun,
      allows_of trivial (hsupported _ htokens.recipientTokenAccount) (fun _ => rfl) nofun,
      allows_of trivial (hsupported _ htokens.feeTokenAccount) (fun _ => rfl) nofun,
      allows_of (.head _) trivial (fun _ => rfl) nofun,
      allows_of (.head _) trivial (fun _ => rfl) nofun,
      allows_of (.head _) (mem_singleton.mpr hdeployed.validatorAccount) (fun _ => rfl) nofun,
      allows_of (.head _) (mem_singleton.mpr hdeployed.validatorRegistry) nofun nofun,
      allows_of trivial trivial (fun _ => rfl) (fun _ => rfl),
      allows_of (.head _) trivial nofun nofun,
      allows_of (.head _) trivial nofun nofun,
      .nil⟩

theorem call_of_message : ∃ accounts, (payload.message δ).instructions[1]?.bind (payload.message δ).invocation =
        some ⟨payload.programId, accounts, (payload.instruction δ).data⟩ ∧
      List.Forall₂ Sdk.AccountMeta.Grants accounts (payload.instruction δ).accounts := by
  have hprogram : (payload.instruction δ).programId = payload.programId := by
    unfold CoSignPayload.instruction
    cases payload.params <;> rfl
  have hmem : payload.instruction δ ∈ [setComputeUnitLimit transactComputeUnitLimit, payload.instruction δ] := by simp
  obtain ⟨accounts, hcall, hgrants⟩ :=
    @Sdk.invocation_newWithBlockhash Bytes32 Bytes32 pubkeyOrder _ payload.authority payload.blockhash _ hmem
  rw [hprogram] at hcall
  exact ⟨accounts, hcall, hgrants⟩

theorem messageFits_iff (hparams : payload.params = request.params proof) (hproof : proof.length < 2 ^ 32)
    (hquorum : payload.quorumValidators.length ≤ 100) :
    ∃ accounts, List.Forall₂ Sdk.AccountMeta.Grants accounts (payload.instruction δ).accounts ∧
      (MessageFits δ owner payload request proof ↔ AccountsFit δ owner payload.programId request.nullifiers
        payload.quorumValidators request.settledBy (accounts.map (passedAccount owner))) := by
  have hbuild : buildSettlementMessage δ payload = .ok (payload.message δ) := if_neg (Nat.not_lt.mpr hquorum)
  obtain ⟨accounts, hcall, hgrants⟩ := call_of_message
  refine ⟨accounts, hgrants, ?_, ?_⟩
  · rintro ⟨message, call, hmessage, hinvoked, -, -, hfit⟩
    rw [hbuild, Except.ok.injEq] at hmessage
    rw [← hmessage, hcall, Option.some.injEq] at hinvoked
    rw [← hinvoked] at hfit
    exact hfit
  · intro hfit
    exact ⟨_, _, hbuild, hcall, rfl, dispatch_eq hparams hproof, hfit⟩

end SettlementLayoutAux

open SettlementLayoutAux in
/-- The settlement message of a request, for the vault of the program and a quorum that a message can hold, fits the program if
and only if a native settlement goes to a system account and the mint of a settlement in a token is of the classic token
program. -/
theorem settlement_message_fits_iff (hparams : payload.params = request.params proof) (hproof : proof.length < 2 ^ 32)
    (hvault : payload.bridgeVault = deriveBridgeVault δ payload.programId)
    (hquorum : payload.quorumValidators.length ≤ 100)
    (hdeployed : Deployed δ owner payload.programId payload.authority)
    (htokens : ∀ mint ∈ request.mint, TokenAccountsExist δ owner payload.programId payload.authority mint request.recipient) :
    MessageFits δ owner payload request proof ↔
      match request.mint with
      | none => owner request.recipient = systemProgramId
      | some mint => owner mint = splTokenProgramId := by
  obtain ⟨accounts, hgrants, hfits⟩ := messageFits_iff hparams hproof hquorum
  rw [hfits]
  unfold CoSignPayload.instruction at hgrants
  rw [hparams] at hgrants
  unfold TransactVerificationRequest.params at hgrants
  unfold TransactVerificationRequest.settledBy
  cases hmint : request.mint with
  | none =>
    rw [hmint] at hgrants
    simp only [hvault] at hgrants
    exact accountsFit_transact_iff hdeployed hgrants
  | some mint =>
    rw [hmint] at hgrants
    exact accountsFit_transactSpl_iff hdeployed (htokens mint hmint) hgrants

/-! ## A settlement in a token -/

namespace SettlementLayoutSample

open ApprovalSample (operator cosigner)
open CoSignSample (tokenRequest)

abbrev program : Bytes32 := CoSignSample.programId

def mint : Bytes32 := .replicate 32 7

def addresses : List (Bytes32 × List Bytes × Bytes32) :=
  CoSignSample.addresses.map (program, ·) ++ [ (program, [utf8 "asset_vault", mint.toList],
      LittleEndian.vec 32 0x57097c4f0d9fe361c7885f92d03c2af67e716fca9123acf543e634cbf6e57549),
    (program, [utf8 "asset_vault_authority"],
      LittleEndian.vec 32 0xe47cbfb1fda238358da16526ae47325d4a510bb93492083d92aae0d7e6283657),
    (program, [utf8 "asset_config", mint.toList],
      LittleEndian.vec 32 0xa1fe8ec84036dac8b1fdd99c98815973306bbf3eb7484d6bdd8b7a51b275ab25),
    (bpfLoaderUpgradeableId, [program.toList],
      LittleEndian.vec 32 0xfc56c4d22934162321f1ec61c060df5c65f316355b57177e8fc0d48b929231e8),
    (splAssociatedTokenAccountProgramId, [operator.toList, splTokenProgramId.toList, mint.toList],
      LittleEndian.vec 32 0x838a02927929fdee9f22792756e5bd20a95c8b9bba894c168fe19029c41f5339)]

def sdk : SolanaSdk := { CoSignSample.sdk with
  findProgramAddress := fun seeds caller =>
    ((addresses.find? fun e => e.1 = caller ∧ e.2.1 = seeds).map (·.2.2)).getD zero32 }

def wireProof : Bytes := .replicate 256 0

def tokenPayload : CoSignPayload := { CoSignSample.payload with params := tokenRequest.params wireProof }

def chain (tokenProgram : Bytes32) (key : Bytes32) : Bytes32 :=
  if [deriveBridgeState sdk program, deriveMerkleTree sdk program, deriveValidatorRegistry sdk program,
      deriveValidatorAccount sdk program operator, deriveValidatorAccount sdk program cosigner,
      sdk.findProgramAddress [utf8 "asset_config", mint.toList] program].contains key then program
  else if [mint, deriveAssetVault sdk program mint, tokenRequest.recipient,
      deriveAssociatedTokenAddress sdk operator mint splTokenProgramId].contains key then tokenProgram
  else systemProgramId

def initMetas (tokenProgram : Bytes32) : List (Sdk.AccountMeta Bytes32) := [ .writable operator true, .readonly mint false,
  .writable (deriveAssetVault sdk program mint) false,
  .readonly (deriveAssetVaultAuthority sdk program) false,
  .writable (sdk.findProgramAddress [utf8 "asset_config", mint.toList] program) false,
  .readonly (sdk.findProgramAddress [program.toList] bpfLoaderUpgradeableId) false,
  .readonly tokenProgram false,
  .readonly systemProgramId false,
  .readonly rentSysvarId false]

def depositMetas (tokenProgram : Bytes32) : List (Sdk.AccountMeta Bytes32) := [ .readonly (deriveBridgeState sdk program) false,
  .writable (sdk.findProgramAddress [utf8 "asset_config", mint.toList] program) false,
  .readonly mint false,
  .writable (deriveAssetVault sdk program mint) false,
  .writable tokenRequest.recipient false,
  .writable (deriveMerkleTree sdk program) false,
  .writable cosigner true,
  .readonly tokenProgram false]

theorem deployed (tokenProgram : Bytes32) : Deployed sdk (chain tokenProgram) program operator := by
  constructor
  · exact if_pos (by decide +kernel)
  · exact if_pos (by decide +kernel)
  · exact (if_neg (by decide +kernel)).trans (if_neg (by decide +kernel))
  · exact if_pos (by decide +kernel)
  · exact if_pos (by decide +kernel)

theorem chain_mint (tokenProgram : Bytes32) : chain tokenProgram mint = tokenProgram :=
  (if_neg (by decide +kernel)).trans (if_pos (by decide +kernel))

theorem tokenAccountsExist {tokenProgram : Bytes32} (h : tokenProgram ∈ tokenInterfaceIds) :
    TokenAccountsExist sdk (chain tokenProgram) program operator mint tokenRequest.recipient := by
  constructor
  · rwa [chain_mint]
  all_goals
    rw [chain_mint]
    exact (if_neg (by decide +kernel)).trans (if_pos (by decide +kernel))

theorem depositable : Depositable sdk (chain splToken2022ProgramId) program mint := by
  constructor
  · exact ⟨initMetas splToken2022ProgramId, _, rfl, by decide +kernel, by decide +kernel, by decide +kernel⟩
  · exact ⟨depositMetas splToken2022ProgramId, _, rfl, by decide +kernel, by decide +kernel, by decide +kernel⟩

end SettlementLayoutSample

open SettlementLayoutSample in
/-- The theorem for a mint of the classic token program. -/
theorem settlement_message_fits_classic :
    MessageFits sdk (chain splTokenProgramId) tokenPayload CoSignSample.tokenRequest wireProof := by
  refine (settlement_message_fits_iff rfl (by decide +kernel) (by decide +kernel) (by decide) (deployed _) ?_).mpr
    (chain_mint _)
  rintro _ ⟨⟩
  exact tokenAccountsExist (.head _)

open SettlementLayoutSample SettlementLayoutAux in
/-- A mint of the other token program: notes of it can be deposited and all accounts are there, and whatever else is on the
chain, the settlement message does not fit. -/
theorem token2022_message_does_not_fit :
    chain splToken2022ProgramId mint = splToken2022ProgramId ∧ Depositable sdk (chain splToken2022ProgramId) program mint ∧
    Deployed sdk (chain splToken2022ProgramId) program tokenPayload.authority ∧
    TokenAccountsExist sdk (chain splToken2022ProgramId) program tokenPayload.authority mint
      CoSignSample.tokenRequest.recipient ∧
    ∀ owner, owner mint = splToken2022ProgramId → ¬ MessageFits sdk owner tokenPayload CoSignSample.tokenRequest wireProof := by
  refine ⟨chain_mint _, depositable, deployed _, tokenAccountsExist (.tail _ (.head _)), fun owner howner hfits => ?_⟩
  have hparams : tokenPayload.params = CoSignSample.tokenRequest.params wireProof := rfl
  obtain ⟨accounts, hgrants, hiff⟩ := messageFits_iff hparams (by decide +kernel) (by decide)
  have hclassic : owner mint = splTokenProgramId := (tokenProgramOwnsMint_iff hgrants).mp (hiff.mp hfits).tokenProgram
  exact absurd (howner.symm.trans hclassic) (by decide +kernel)

end Paraloom.OffChain
