import Paraloom.OffChain.Finalized

/-!
# What the decoder reads out of a finalized transaction

The decoder sees a transaction in the encoding of the RPC. Reading it back gives the keys and the instructions, so each
instruction can be decoded by itself.
-/

namespace Paraloom.OffChain

open List Option

variable {tx : FinalizedTransaction} {instruction : Sdk.CompiledInstruction}

namespace FinalizedTransaction

def eventOf (poseidon : List Fr → Fr) (signature : String) (programId : Bytes32) (tx : FinalizedTransaction)
    (instruction : Sdk.CompiledInstruction) : Option DepositEvent :=
  (decodeCompiledDeposit poseidon (renderInstruction instruction) tx.accountKeys programId).map (buildEvent signature tx.render)

end FinalizedTransaction

open FinalizedTransaction

namespace DecoderAux

/-- Keys are read back from their texts. -/
theorem mapM_decode_walletName (keys : List Bytes32) : (keys.map walletName).mapM (Base58.decode 32) = some keys := by
  induction keys with
  | nil => rfl
  | cons key keys ih =>
    have hkey : Base58.decode 32 (walletName key) = some key := Base58.decode_eq_some_iff.mpr rfl
    rw [map_cons, mapM_cons, hkey, ih]
    rfl

/-- Resolved accounts, position by position. -/
theorem getElem?_of_mapM {xs : List α} (h : xs.mapM f = some ys) (i : Nat) : (xs[i]?).bind f = ys[i]? := by
  induction xs generalizing ys i with
  | nil =>
    obtain rfl : ys = [] := by simpa using h.symm
    simp
  | cons x xs ih =>
    rw [mapM_cons, bind_eq_bind, bind_eq_some_iff] at h
    obtain ⟨y, hy, h⟩ := h
    rw [bind_eq_bind, bind_eq_some_iff] at h
    obtain ⟨ys', hys, h⟩ := h
    obtain rfl := some.inj h
    cases i with
    | zero => simpa using hy
    | succ i => simpa using ih hys i

theorem compiledInner_render (calls : List (Sdk.CompiledInstruction × List Sdk.CompiledInstruction)) :
    ((calls.map Prod.snd).map fun inner => inner.map fun i => UiInstruction.compiled (renderInstruction i)).flatten.filterMap
      UiInstruction.toCompiled = (calls.flatMap Prod.snd).map renderInstruction := by
  induction calls with
  | nil => rfl
  | cons call calls ih =>
    rw [map_cons, map_cons, flatten_cons, filterMap_append, ih, flatMap_cons, map_append, filterMap_map]
    congr 1
    exact filterMap_eq_map ▸ rfl

end DecoderAux

theorem extractDepositEvents_of_error (poseidon : List Fr → Fr) (signature : String) (programId : Bytes32) (h : tx.error.isSome = true) :
    extractDepositEvents poseidon signature tx.render programId = [] := by
  have hstatus : ∃ status ∈ tx.render.status, status.err.isSome := ⟨_, rfl, h⟩
  rw [extractDepositEvents, if_pos hstatus]

/-- The deposits of a transaction are those of its instructions, in the order of the RPC. -/
theorem extractDepositEvents_render (poseidon : List Fr → Fr) (signature : String) (programId : Bytes32) (h : tx.error = none) :
    extractDepositEvents poseidon signature tx.render programId =
      tx.listed.filterMap (tx.eventOf poseidon signature programId) := by
  have hstatus : ¬∃ status ∈ tx.render.status, status.err.isSome := by
    rintro ⟨status, hstatus, herr⟩
    obtain rfl := some.inj hstatus
    simp [h] at herr
  rw [extractDepositEvents, if_neg hstatus]
  simp only [render, DecoderAux.mapM_decode_walletName, map_some, getD_some,
    UiTransactionStatusMeta.compiledInner, DecoderAux.compiledInner_render]
  rw [← map_append, filterMap_map, listed]
  rfl

theorem eventOf_of_other_program (poseidon : List Fr → Fr) (signature : String) {programId : Bytes32}
    (h : tx.accountKeys[instruction.programIdIndex]? ≠ some programId) :
    tx.eventOf poseidon signature programId instruction = none := by
  rw [eventOf, map_eq_none_iff, decodeCompiledDeposit]
  cases hkey : tx.accountKeys[instruction.programIdIndex]? with
  | none => simp [renderInstruction, hkey]
  | some key =>
    have hne : key ≠ programId := fun heq => h (by rw [hkey, heq])
    simp [renderInstruction, hkey, hne]

theorem eventOf_of_other_kind (signature : String) (programId : Bytes32)
    (h : depositLayout poseidon (renderInstruction instruction) tx.accountKeys (instruction.data.take 8) = none) :
    tx.eventOf poseidon signature programId instruction = none := by
  have hraw : Base58.decodeVec (renderInstruction instruction).data = some instruction.data :=
    Base58.decodeVec_encode instruction.data
  rw [eventOf, map_eq_none_iff, decodeCompiledDeposit, hraw, bind_eq_bind, bind_eq_none_iff]
  intro program _
  split
  · rfl
  · simp [h]

def DepositCall.assetId (poseidon : List Fr → Fr) : DepositCall → Bytes32
  | .note .. => nativeSolAsset
  | .noteSpl _ mint _ _ => PoseidonCircom.mintToAsset poseidon mint

namespace DecoderAux

theorem ofInstruction_cases (h : DepositCall.ofInstruction accounts data = some call) : 8 + depositPayloadLen ≤ data.length ∧
      ((∃ depositor, data.take 8 = depositNoteDiscriminator ∧ accounts[3]? = some depositor ∧
          call = .note depositor (.read (data.drop 8))) ∨
        ∃ depositor mint tokenAccount, data.take 8 = depositNoteSplDiscriminator ∧ accounts[2]? = some mint ∧
          accounts[6]? = some depositor ∧ call = .noteSpl depositor mint tokenAccount (.read (data.drop 8))) := by
  unfold DepositCall.ofInstruction at h
  split at h
  · cases h
  rename_i hlen
  refine ⟨Nat.le_of_not_lt hlen, ?_⟩
  split at h
  · rename_i hdisc
    split at h
    · exact .inl ⟨_, hdisc, rfl, (some.inj h).symm⟩
    · cases h
  · split at h
    · rename_i hdisc
      split at h
      · exact .inr ⟨_, _, _, hdisc, rfl, rfl, (some.inj h).symm⟩
      · cases h
    · cases h

theorem depositLayout_of_call (poseidon : List Fr → Fr) {accounts : List Bytes32}
    (haccounts : tx.accountsOf instruction = some accounts)
    (h : DepositCall.ofInstruction accounts instruction.data = some call) :
    ∃ position, depositLayout poseidon (renderInstruction instruction) tx.accountKeys (instruction.data.take 8) =
        some (position, call.assetId poseidon) ∧
      (renderInstruction instruction).account tx.accountKeys position = some call.depositor ∧
      call.data = .read (instruction.data.drop 8) := by
  have haccount : ∀ i, (renderInstruction instruction).account tx.accountKeys i = accounts[i]? :=
    fun i => getElem?_of_mapM haccounts i
  obtain ⟨-, ⟨depositor, hdisc, hdepositor, rfl⟩ | ⟨depositor, mint, tokenAccount, hdisc, hmint, hdepositor, rfl⟩⟩ :=
    ofInstruction_cases h
  · refine ⟨3, ?_, (haccount 3).trans hdepositor, rfl⟩
    rw [depositLayout, if_pos hdisc]
    rfl
  · have hother : instruction.data.take 8 ≠ depositNoteDiscriminator := by
      rw [hdisc]
      decide
    refine ⟨6, ?_, (haccount 6).trans hdepositor, rfl⟩
    rw [depositLayout, if_neg hother, if_pos hdisc, haccount, hmint]
    rfl

end DecoderAux

/-- The decoder reads a deposit of the program as the program does, if nothing follows the arguments. -/
theorem decodeCompiledDeposit_of_call (poseidon : List Fr → Fr) {programId : Bytes32}
    (h : tx.depositCall programId instruction = some call) :
    decodeCompiledDeposit poseidon (renderInstruction instruction) tx.accountKeys programId =
      if instruction.data.length = 8 + depositPayloadLen then some ⟨call.data, call.depositor, call.assetId poseidon⟩
      else none := by
  unfold depositCall at h
  split at h
  swap
  · cases h
  rename_i hprogram
  rw [bind_eq_some_iff] at h
  obtain ⟨accounts, haccounts, hcall⟩ := h
  obtain ⟨hlen, -⟩ := DecoderAux.ofInstruction_cases hcall
  obtain ⟨position, hlayout, hdepositor, hdata⟩ := DecoderAux.depositLayout_of_call poseidon haccounts hcall
  have hkey : tx.accountKeys[(renderInstruction instruction).programIdIndex]? = some programId := hprogram
  have hraw : Base58.decodeVec (renderInstruction instruction).data = some instruction.data :=
    Base58.decodeVec_encode instruction.data
  have hlong : ¬instruction.data.length < 8 := by omega
  have hpayload : (instruction.data.drop 8).length = depositPayloadLen ↔
      instruction.data.length = 8 + depositPayloadLen := by
    rw [length_drop]
    omega
  simp only [decodeCompiledDeposit, hkey, hraw, hlayout, hdepositor, hlong, hdata, bind_eq_bind, bind_some,
    ne_eq, not_true_eq_false, if_false, DepositInstructionData.tryFromSlice, hpayload]
  split <;> rfl

end Paraloom.OffChain
