import Paraloom.Lemmas.Decoder
import Paraloom.Lemmas.Poseidon
import Paraloom.OffChain.Listener
import Paraloom.Theorems.CoSignedSettlement
import Paraloom.Theorems.NoInflation

/-!
# The leaf of a deposit on chain and in the pool

The program appends a leaf for a deposit, the listener finds the instruction and credits a commitment. The two are the same
bytes whenever it finds the instruction. The program reads its arguments from the front of the data, while the decoder wants
the data to end with them.
-/

namespace Paraloom.OffChain

/-- The event of a deposit says what the program was called with, and the pool is credited with the leaf that was appended. -/
structure DepositAgrees (Γ : Ctx) (poseidon : List Fr → Fr) (address : Bytes32 → Pubkey) (call : DepositCall)
    (s s' : State) (event : DepositEvent) : Prop where
  amount : event.amount = call.data.amount
  pubkey : event.recipient = call.data.recipient
  blinding : event.randomness = call.data.randomness
  depositor : event.sender = call.depositor
  asset : call.asset Γ address = .ok event.assetId
  credited : ∃ leaf, s'.leaves = s.leaves ++ [leaf] ∧
    ∀ noteCommitment leafAcknowledged supplyAcknowledged node, ∃ note,
      (processDeposit noteCommitment poseidon leafAcknowledged supplyAcknowledged event node).map Prod.snd =
        (node.pool.creditCommitment node.store leafAcknowledged supplyAcknowledged leaf note event.amount event.assetId).map
          fun r => ⟨r.pool, r.store⟩

namespace DepositLeafAux

variable {call : DepositCall}

theorem canonical_native : Canonical Paraloom.nativeSolAsset := by
  rw [canonical_iff]
  decide +kernel

theorem asset_eq (hposeidon : Γ.PoseidonAgrees poseidon) (haddress : ∀ b, Γ.toBytes (address b) = b) :
    call.asset Γ address = .ok (call.assetId poseidon) := by
  cases call with
  | note depositor data => rfl
  | noteSpl depositor mint tokenAccount data =>
    have hasset := hposeidon.mintToAsset (address mint)
    rw [haddress] at hasset
    exact hasset

/-- The leaf that the program appends for a deposit. -/
theorem leaves_of_exec (hposeidon : Γ.PoseidonAgrees poseidon) (haddress : ∀ b, Γ.toBytes (address b) = b)
    (h : (call.toInstruction address).exec Γ clock s = .ok s') :
    s'.leaves = s.leaves ++ [toBytesLe (v3Commit poseidon (call.data.amount.toNat : Fr)
      (fromLeBytesModOrder call.data.recipient) (fromLeBytesModOrder call.data.randomness)
      (fromLeBytesModOrder (call.assetId poseidon)))] := by
  cases call with
  | note depositor data =>
    obtain ⟨_, _, _, leaf, _, _, _, -, -, hpubkey, hblinding, -, hleaf, -, rfl⟩ := depositNote_ok h
    rw [hposeidon.commitment data.amount hpubkey hblinding canonical_native] at hleaf
    obtain rfl := Except.ok.inj hleaf
    exact State.leaves_append
  | noteSpl depositor mint tokenAccount data =>
    obtain ⟨_, _, asset, leaf, _, _, _, -, hpubkey, hblinding, -, -, hasset, hleaf, -, rfl⟩ := depositNoteSpl_ok h
    rw [hposeidon.mintToAsset, haddress] at hasset
    obtain rfl := Except.ok.inj hasset
    have hcanonical : Canonical (PoseidonCircom.mintToAsset poseidon mint) := canonical_toBytesLe _
    rw [hposeidon.commitment data.amount hpubkey hblinding hcanonical] at hleaf
    obtain rfl := Except.ok.inj hleaf
    exact State.leaves_append

theorem verify_newAsset {event : DepositEvent} (hfee : event.fee = 0) (noteCommitment : Note → Bytes32) :
    (DepositTx.newAsset noteCommitment event.sender.toList event.amount event.recipient event.randomness event.fee
      event.assetId).verify noteCommitment = true := by
  simp [DepositTx.verify, DepositTx.newAsset, hfee]

theorem processDeposit_credits {event : DepositEvent} (hfee : event.fee = 0) (leafAcknowledged supplyAcknowledged : Bool)
    (node : OpenPool) :
    ∃ note, (processDeposit noteCommitment poseidon leafAcknowledged supplyAcknowledged event node).map Prod.snd =
      (node.pool.creditCommitment node.store leafAcknowledged supplyAcknowledged (event.commitment poseidon) note
        event.amount event.assetId).map fun r => ⟨r.pool, r.store⟩ := by
  refine ⟨(DepositTx.newAsset noteCommitment event.sender.toList event.amount event.recipient event.randomness event.fee
    event.assetId).outputNote, ?_⟩
  simp only [processDeposit, verify_newAsset hfee noteCommitment, Bool.true_eq_false, if_false, Option.map_map]
  rfl

end DepositLeafAux

open DepositLeafAux

/-- The events of a transaction are those of its instructions, none if it failed and none for the instructions of other
programs; and the event of a deposit that succeeded is there and agrees with the leaf exactly if its data ends with the
arguments. -/
theorem deposit_event_agrees_iff (Γ : Ctx) (poseidon : List Fr → Fr) (address : Bytes32 → Pubkey) (programId : Bytes32)
    (tx : FinalizedTransaction) (signature : String) (hposeidon : Γ.PoseidonAgrees poseidon)
    (haddress : ∀ b, Γ.toBytes (address b) = b) :
    (tx.error.isSome = true → extractDepositEvents poseidon signature tx.render programId = []) ∧
    (tx.error = none → extractDepositEvents poseidon signature tx.render programId =
      tx.listed.filterMap (tx.eventOf poseidon signature programId)) ∧
    (∀ instruction, tx.accountKeys[instruction.programIdIndex]? ≠ some programId →
      tx.eventOf poseidon signature programId instruction = none) ∧
    ∀ instruction ∈ tx.listed, ∀ call clock s s', tx.depositCall programId instruction = some call →
      (call.toInstruction address).exec Γ clock s = .ok s' →
        ((∃ event, tx.eventOf poseidon signature programId instruction = some event ∧
          DepositAgrees Γ poseidon address call s s' event) ↔ instruction.data.length = 8 + depositPayloadLen) := by
  refine ⟨extractDepositEvents_of_error poseidon signature programId, extractDepositEvents_render poseidon signature programId,
    fun instruction => eventOf_of_other_program poseidon signature, ?_⟩
  intro instruction _ call clock s s' hcall hexec
  have hdecoded := decodeCompiledDeposit_of_call poseidon hcall
  constructor
  · rintro ⟨event, hevent, -⟩
    by_contra hlen
    rw [FinalizedTransaction.eventOf, hdecoded, if_neg hlen] at hevent
    cases hevent
  · intro hlen
    rw [if_pos hlen] at hdecoded
    refine ⟨_, by rw [FinalizedTransaction.eventOf, hdecoded]; rfl, rfl, rfl, rfl, rfl,
      asset_eq hposeidon haddress, ?_⟩
    exact ⟨_, leaves_of_exec hposeidon haddress hexec, fun noteCommitment leafAcknowledged supplyAcknowledged =>
      processDeposit_credits rfl leafAcknowledged supplyAcknowledged⟩

namespace DepositSample

def poseidon (xs : List Fr) : Fr := (Sample.evaluations.lookup xs).getD 0

def ctx : Ctx := { Sample.hashCtx with
  solPoseidon xs := if xs.all (Canonical ·) then some (toBytesLe (poseidon (xs.map fromLeBytesModOrder))) else none }

theorem poseidonAgrees : ctx.PoseidonAgrees poseidon := Ctx.poseidonAgrees_of_canonical rfl

def arguments : Bytes :=
  LittleEndian.ofNat 8 1000000000 ++ (toBytesLe Sample.ownerKey).toList ++ (Sample.word 5).toList

def instruction (trailing : Bytes) : Sdk.CompiledInstruction :=
  ⟨4, [1, 2, 3, 0, 5], depositNoteDiscriminator ++ arguments ++ trailing⟩

def transaction (trailing : Bytes) : FinalizedTransaction where
  slot := 16
  blockTime := some 0
  accountKeys := [Sample.depositor, deriveBridgeState CoSignSample.sdk CoSignSample.programId,
    deriveBridgeVault CoSignSample.sdk CoSignSample.programId, deriveMerkleTree CoSignSample.sdk CoSignSample.programId,
    CoSignSample.programId, systemProgramId]
  calls := [(instruction trailing, [])]
  error := none

def call : DepositCall := .note Sample.depositor ⟨1000000000, toBytesLe Sample.ownerKey, Sample.word 5⟩

theorem depositCall_eq : (transaction []).depositCall CoSignSample.programId (instruction []) = some call := by decide +kernel

/-- The bridge is set up, and the deposit succeeds. -/
def actions : List Action := Sample.depositAndSpend.take 6

theorem exists_deposit : ∃ s s', Execution ctx Sample.genesis actions s ∧
    (call.toInstruction .key).exec ctx ⟨16, 0⟩ s = .ok s' := by
  have hsucceeds : succeedsWith ctx Sample.genesis (actions ++ [.program ⟨16, 0⟩ (call.toInstruction .key)])
      (fun _ => true) = true := by decide +kernel
  obtain ⟨s', hrun, -⟩ := exists_execution hsucceeds
  obtain ⟨s, hactions, hlast⟩ := hrun.last_step
  exact ⟨s, s', hactions, hlast⟩

end DepositSample

open DepositSample

/-- A deposit of one SOL, of which the pool is credited the leaf. -/
theorem deposit_event_agrees_one_sol : ∃ s s', Execution DepositSample.ctx Sample.genesis DepositSample.actions s ∧
      (DepositSample.call.toInstruction .key).exec DepositSample.ctx ⟨16, 0⟩ s = .ok s' ∧
      ∃ event, (DepositSample.transaction []).eventOf DepositSample.poseidon "" CoSignSample.programId
          (DepositSample.instruction []) = some event ∧
        DepositAgrees DepositSample.ctx DepositSample.poseidon .key DepositSample.call s s' event := by
  obtain ⟨s, s', hrun, hexec⟩ := exists_deposit
  obtain ⟨-, -, -, hagrees⟩ := deposit_event_agrees_iff ctx poseidon .key CoSignSample.programId
    (transaction []) "" poseidonAgrees fun _ => rfl
  exact ⟨s, s', hrun, hexec, (hagrees (instruction []) (List.mem_cons_self ..) call ⟨16, 0⟩ s s'
    depositCall_eq hexec).mpr (by decide +kernel)⟩

/-- With one byte behind the arguments the program takes the same deposit and the decoder finds none. -/
theorem deposit_with_trailing_byte_unseen : ∃ s s', Execution DepositSample.ctx Sample.genesis DepositSample.actions s ∧
      (DepositSample.transaction [0]).depositCall CoSignSample.programId (DepositSample.instruction [0]) =
        some DepositSample.call ∧
      (DepositSample.call.toInstruction .key).exec DepositSample.ctx ⟨16, 0⟩ s = .ok s' ∧
      s'.leaves.length = s.leaves.length + 1 ∧
      extractDepositEvents DepositSample.poseidon "" (DepositSample.transaction [0]).render CoSignSample.programId = [] := by
  obtain ⟨s, s', hrun, hexec⟩ := exists_deposit
  have hleaves := leaves_of_exec poseidonAgrees (fun _ => rfl) hexec
  have hcall : (transaction [0]).depositCall CoSignSample.programId (instruction [0]) = some call := by decide +kernel
  have hlen : (instruction [0]).data.length ≠ 8 + depositPayloadLen := by decide +kernel
  refine ⟨s, s', hrun, hcall, hexec, by rw [hleaves, List.length_append, List.length_singleton], ?_⟩
  rw [extractDepositEvents_render _ _ _ rfl, List.filterMap_eq_nil_iff]
  intro i hi
  obtain rfl := List.mem_singleton.mp hi
  rw [FinalizedTransaction.eventOf, decodeCompiledDeposit_of_call _ hcall, if_neg hlen]
  rfl

end Paraloom.OffChain
