import Mathlib
import Paraloom.Lib.KeyValue

/-!
# Transaction messages

A message lists every key once, the payer first and the signers before the others, and its instructions point into that list.
Reading back a message that was compiled from instructions gives these instructions, and its signers are the payer and the
accounts that some instruction wants signed, each once.
-/

namespace Sdk

open List

/-- An account of an instruction. -/
structure AccountMeta (K : Type) where
  pubkey : K
  isSigner : Bool
  isWritable : Bool

/-- `AccountMeta::new`. -/
def AccountMeta.writable {K : Type} (pubkey : K) (isSigner : Bool) : AccountMeta K := ⟨pubkey, isSigner, true⟩

/-- `AccountMeta::new_readonly`. -/
def AccountMeta.readonly {K : Type} (pubkey : K) (isSigner : Bool) : AccountMeta K := ⟨pubkey, isSigner, false⟩

structure Instruction (K : Type) where
  programId : K
  accounts : List (AccountMeta K)
  data : List UInt8

/-- An instruction that points into the keys of its message. -/
structure CompiledInstruction where
  programIdIndex : Nat
  accounts : List Nat
  data : List UInt8

structure Message (K H : Type) where
  numRequiredSignatures : Nat
  numReadonlySignedAccounts : Nat
  numReadonlyUnsignedAccounts : Nat
  accountKeys : List K
  recentBlockhash : H
  instructions : List CompiledInstruction

/-- What is known of a key when a message is compiled. -/
structure KeyMeta where
  isSigner : Bool
  isWritable : Bool
  deriving DecidableEq

variable {K H : Type}

def Message.signers (m : Message K H) : List K := m.accountKeys.take m.numRequiredSignatures

def Message.carries (m : Message K H) (ci : CompiledInstruction) : Option K × List (Option K) × List UInt8 :=
  (m.accountKeys[ci.programIdIndex]?, ci.accounts.map (m.accountKeys[·]?), ci.data)

def Message.carried (m : Message K H) : List (Option K × List (Option K) × List UInt8) := m.instructions.map m.carries

/-- What an instruction carries once it is in a message. -/
def Instruction.content (ix : Instruction K) : Option K × List (Option K) × List UInt8 :=
  (some ix.programId, ix.accounts.map fun account => some account.pubkey, ix.data)

/-! ## Messages on the wire -/

/-- The length of a `short_vec`, in seven bits a byte; one that takes more than sixteen bits cannot be written. -/
def shortLength (n : Nat) : Option (List UInt8) :=
  if n < 2 ^ 7 then some [.ofNat n]
  else if n < 2 ^ 14 then some [.ofNat (n % 2 ^ 7 + 2 ^ 7), .ofNat (n / 2 ^ 7)]
  else if n < 2 ^ 16 then some [.ofNat (n % 2 ^ 7 + 2 ^ 7), .ofNat (n / 2 ^ 7 % 2 ^ 7 + 2 ^ 7), .ofNat (n / 2 ^ 14)]
  else none

def CompiledInstruction.serialize (ci : CompiledInstruction) : Option (List UInt8) := do
  let accountsLength ← shortLength ci.accounts.length
  let dataLength ← shortLength ci.data.length
  return .ofNat ci.programIdIndex :: (accountsLength ++ ci.accounts.map UInt8.ofNat ++ dataLength ++ ci.data)

/-- `Message::serialize`: the header, the keys, the blockhash and the instructions, with the bytes of a key and of a hash. -/
def Message.serialize (keyBytes : K → List UInt8) (hashBytes : H → List UInt8) (m : Message K H) : Option (List UInt8) := do
  let keysLength ← shortLength m.accountKeys.length
  let instructionsLength ← shortLength m.instructions.length
  let instructions ← m.instructions.mapM CompiledInstruction.serialize
  return [.ofNat m.numRequiredSignatures, .ofNat m.numReadonlySignedAccounts, .ofNat m.numReadonlyUnsignedAccounts] ++
    keysLength ++ m.accountKeys.flatMap keyBytes ++ hashBytes m.recentBlockhash ++ instructionsLength ++ instructions.flatten

/-- A message starts with the number of its signers. -/
theorem Message.head?_serialize {m : Message K H} (h : m.serialize keyBytes hashBytes = some bytes) :
    bytes.head? = some (.ofNat m.numRequiredSignatures) := by
  unfold Message.serialize at h
  simp only [Option.bind_eq_bind, Option.bind_eq_some_iff] at h
  obtain ⟨keysLength, -, instructionsLength, -, instructions, -, hbytes⟩ := h
  obtain rfl := Option.some.inj hbytes
  rfl

/-! ## Compiling a message -/

variable [LinearOrder K]

def mention (keys : Column K KeyMeta) (account : AccountMeta K) : Column K KeyMeta :=
  let known := (keys.get account.pubkey).getD ⟨false, false⟩
  keys.put account.pubkey ⟨known.isSigner || account.isSigner, known.isWritable || account.isWritable⟩

def mentions (instructions : List (Instruction K)) (payer : K) : List (AccountMeta K) :=
  (instructions.flatMap fun ix => .readonly ix.programId false :: ix.accounts) ++ [.writable payer true]

/-- `CompiledKeys::compile`. -/
def compiledKeys (instructions : List (Instruction K)) (payer : K) : Column K KeyMeta :=
  (mentions instructions payer).foldl mention .empty

def keysWith (keys : Column K KeyMeta) (payer : K) (isSigner isWritable : Bool) : List K :=
  (keys.entries.filter fun e => e.1 ≠ payer ∧ e.2 = ⟨isSigner, isWritable⟩).map Prod.fst

/-- The keys of a message in their order. -/
def staticAccountKeys (keys : Column K KeyMeta) (payer : K) : List K :=
  (payer :: keysWith keys payer true true ++ keysWith keys payer true false) ++
    (keysWith keys payer false true ++ keysWith keys payer false false)

/-- An instruction whose keys are replaced by their places. -/
def compileInstruction (accountKeys : List K) (ix : Instruction K) : CompiledInstruction where
  programIdIndex := accountKeys.idxOf ix.programId
  accounts := ix.accounts.map fun account => accountKeys.idxOf account.pubkey
  data := ix.data

def Message.newWithBlockhash (instructions : List (Instruction K)) (payer : K) (blockhash : H) : Message K H :=
  let keys := compiledKeys instructions payer
  let accountKeys := staticAccountKeys keys payer
  { numRequiredSignatures := 1 + (keysWith keys payer true true).length + (keysWith keys payer true false).length
    numReadonlySignedAccounts := (keysWith keys payer true false).length
    numReadonlyUnsignedAccounts := (keysWith keys payer false false).length
    accountKeys
    recentBlockhash := blockhash
    instructions := instructions.map (compileInstruction accountKeys) }

/-! ## The keys of a compiled message -/

theorem get_mention (keys : Column K KeyMeta) (account : AccountMeta K) :
    (mention keys account).get k = if k = account.pubkey then
      some ⟨((keys.get k).getD ⟨false, false⟩).isSigner || account.isSigner,
        ((keys.get k).getD ⟨false, false⟩).isWritable || account.isWritable⟩ else keys.get k := by
  unfold mention
  rw [Column.get_put]
  split
  · rename_i hk
    rw [hk]
  · rfl

theorem isSome_foldl_mention (accounts : List (AccountMeta K)) (keys : Column K KeyMeta) :
    ((accounts.foldl mention keys).get k).isSome ↔ (keys.get k).isSome ∨ ∃ a ∈ accounts, a.pubkey = k := by
  induction accounts generalizing keys with
  | nil => simp
  | cons account accounts ih =>
    rw [foldl_cons, ih, get_mention]
    by_cases hk : k = account.pubkey
    · simp [hk]
    · simp [hk, Ne.symm hk]

theorem isSigner_foldl_mention (accounts : List (AccountMeta K)) (keys : Column K KeyMeta) (k : K) :
    (∃ known, (accounts.foldl mention keys).get k = some known ∧ known.isSigner = true) ↔
      (∃ known, keys.get k = some known ∧ known.isSigner = true) ∨
        ∃ a ∈ accounts, a.isSigner = true ∧ a.pubkey = k := by
  induction accounts generalizing keys with
  | nil => simp
  | cons account accounts ih =>
    rw [foldl_cons, ih, get_mention]
    by_cases hk : k = account.pubkey
    · subst hk
      cases hget : keys.get account.pubkey with
      | none => simp [or_and_right, exists_or]
      | some known => simp [or_and_right, exists_or, or_assoc]
    · simp [hk, Ne.symm hk]

theorem mem_keysWith (keys : Column K KeyMeta) (payer k : K) (isSigner : Bool) :
    k ∈ keysWith keys payer isSigner isWritable ↔ k ≠ payer ∧ keys.get k = some ⟨isSigner, isWritable⟩ := by
  constructor
  · intro h
    obtain ⟨⟨k', known⟩, he, rfl⟩ := mem_map.mp h
    obtain ⟨hmem, hflags⟩ := mem_filter.mp he
    obtain ⟨hpayer, rfl⟩ := of_decide_eq_true hflags
    exact ⟨hpayer, keys.mem_entries_iff.mp hmem⟩
  · rintro ⟨hpayer, hget⟩
    exact mem_map.mpr ⟨(k, ⟨isSigner, isWritable⟩), mem_filter.mpr ⟨keys.mem_entries_iff.mpr hget, by simp [hpayer]⟩, rfl⟩

theorem nodup_keysWith (keys : Column K KeyMeta) (payer : K) (isSigner : Bool) :
    (keysWith keys payer isSigner isWritable).Nodup := by
  have hsorted := keys.sorted.filter (p := fun e => decide (e.1 ≠ payer ∧ e.2 = ⟨isSigner, isWritable⟩))
  exact pairwise_map.mpr (hsorted.imp ne_of_lt)

theorem signers_newWithBlockhash (payer : K) (blockhash : H) : (Message.newWithBlockhash instructions payer blockhash).signers =
      payer :: keysWith (compiledKeys instructions payer) payer true true ++
        keysWith (compiledKeys instructions payer) payer true false := by
  unfold Message.signers Message.newWithBlockhash staticAccountKeys
  refine take_left' ?_
  simp only [cons_append, length_cons, length_append]
  omega

section Signers

variable (instructions : List (Instruction K)) (payer : K) (blockhash : H)

theorem length_signers : (Message.newWithBlockhash instructions payer blockhash).signers.length =
      (Message.newWithBlockhash instructions payer blockhash).numRequiredSignatures := by
  rw [signers_newWithBlockhash, length_append, length_cons]
  simp only [Message.newWithBlockhash]
  omega

theorem mem_signers (k : K) : k ∈ (Message.newWithBlockhash instructions payer blockhash).signers ↔
      k = payer ∨ ∃ ix ∈ instructions, ∃ a ∈ ix.accounts, a.isSigner = true ∧ a.pubkey = k := by
  have hsigns := isSigner_foldl_mention (mentions instructions payer) .empty k
  rw [signers_newWithBlockhash]
  simp only [cons_append, mem_cons, mem_append, mem_keysWith]
  constructor
  · rintro (rfl | ⟨hk, hget⟩ | ⟨hk, hget⟩)
    · exact .inl rfl
    all_goals
      obtain ⟨_, hnone, _⟩ | ⟨a, ha, hsigner, rfl⟩ := hsigns.mp ⟨_, hget, rfl⟩
      · simp at hnone
      · right
        rcases mem_append.mp ha with ha | ha
        · obtain ⟨ix, hix, ha⟩ := mem_flatMap.mp ha
          rcases mem_cons.mp ha with rfl | ha
          · simp [AccountMeta.readonly] at hsigner
          · exact ⟨ix, hix, a, ha, hsigner, rfl⟩
        · obtain rfl := mem_singleton.mp ha
          exact absurd rfl hk
  · rintro (rfl | ⟨ix, hix, a, ha, hsigner, rfl⟩)
    · exact .inl rfl
    · by_cases hk : a.pubkey = payer
      · exact .inl hk
      · right
        have hmention : a ∈ mentions instructions payer :=
          mem_append_left _ (mem_flatMap.mpr ⟨ix, hix, mem_cons_of_mem _ ha⟩)
        obtain ⟨⟨isSigner, isWritable⟩, hget, rfl⟩ := hsigns.mpr (.inr ⟨a, hmention, hsigner, rfl⟩)
        cases isWritable with
        | true => exact .inl ⟨hk, hget⟩
        | false => exact .inr ⟨hk, hget⟩

theorem nodup_signers : (Message.newWithBlockhash instructions payer blockhash).signers.Nodup := by
  rw [signers_newWithBlockhash, cons_append, nodup_cons, nodup_append]
  refine ⟨fun h => ?_, nodup_keysWith _ _ _, nodup_keysWith _ _ _, ?_⟩
  · rcases mem_append.mp h with h | h
    · exact ((mem_keysWith _ _ _ _).mp h).1 rfl
    · exact ((mem_keysWith _ _ _ _).mp h).1 rfl
  · rintro k hk k' hk' rfl
    have htrue := ((mem_keysWith _ _ _ _).mp hk).2
    have hfalse := ((mem_keysWith _ _ _ _).mp hk').2
    rw [htrue] at hfalse
    simp at hfalse

end Signers

theorem mem_accountKeys {a : AccountMeta K} (h : a ∈ mentions instructions payer) :
    a.pubkey ∈ (Message.newWithBlockhash instructions payer blockhash).accountKeys := by
  have hknown := (isSome_foldl_mention (mentions instructions payer) .empty).mpr (.inr ⟨a, h, rfl⟩)
  obtain ⟨⟨isSigner, isWritable⟩, hget⟩ := Option.isSome_iff_exists.mp hknown
  simp only [Message.newWithBlockhash, staticAccountKeys, cons_append, mem_cons, mem_append, mem_keysWith]
  by_cases hk : a.pubkey = payer
  · exact .inl hk
  · right
    cases isSigner <;> cases isWritable
    · exact .inr (.inr ⟨hk, hget⟩)
    · exact .inr (.inl ⟨hk, hget⟩)
    · exact .inl (.inr ⟨hk, hget⟩)
    · exact .inl (.inl ⟨hk, hget⟩)

/-- Reading a compiled message back gives the instructions it was compiled from. -/
theorem carried_newWithBlockhash (instructions : List (Instruction K)) (payer : K) (blockhash : H) :
    (Message.newWithBlockhash instructions payer blockhash).carried = instructions.map Instruction.content := by
  have hread : ∀ a ∈ mentions instructions payer, (Message.newWithBlockhash instructions payer blockhash).accountKeys[
        (Message.newWithBlockhash instructions payer blockhash).accountKeys.idxOf a.pubkey]? = some a.pubkey :=
    fun a ha => getElem?_idxOf (mem_accountKeys ha)
  have hcarried : (Message.newWithBlockhash instructions payer blockhash).carried = instructions.map fun ix =>
      (Message.newWithBlockhash instructions payer blockhash).carries
        (compileInstruction (Message.newWithBlockhash instructions payer blockhash).accountKeys ix) := by
    simp [Message.carried, Message.newWithBlockhash]
  rw [hcarried]
  refine map_congr_left fun ix hix => ?_
  have hmention : ∀ a ∈ AccountMeta.readonly ix.programId false :: ix.accounts, a ∈ mentions instructions payer :=
    fun a ha => mem_append_left _ (mem_flatMap.mpr ⟨ix, hix, ha⟩)
  refine Prod.ext (hread _ (hmention _ mem_cons_self)) (Prod.ext ?_ rfl)
  simp only [Message.carries, compileInstruction, Instruction.content, map_map]
  exact map_congr_left fun a ha => hread a (hmention a (mem_cons_of_mem _ ha))

/-! ## What the runtime hands to a program -/

omit [LinearOrder K] in
/-- Whether the header makes a place writable: the signers are the first keys, and of the signers and of the others the
readonly ones come last. -/
def Message.isWritableIndex (m : Message K H) (i : Nat) : Bool :=
  if i < m.numRequiredSignatures then i < m.numRequiredSignatures - m.numReadonlySignedAccounts
  else i < m.accountKeys.length - m.numReadonlyUnsignedAccounts

omit [LinearOrder K] in
/-- The account at a place, with the rights the header gives it. -/
def Message.accountAt (m : Message K H) (i : Nat) : Option (AccountMeta K) :=
  m.accountKeys[i]?.map fun k => ⟨k, i < m.numRequiredSignatures, m.isWritableIndex i⟩

omit [LinearOrder K] in
def Message.invocation (m : Message K H) (ci : CompiledInstruction) : Option (Instruction K) := do
  let programId ← m.accountKeys[ci.programIdIndex]?
  let accounts ← ci.accounts.mapM m.accountAt
  pure ⟨programId, accounts, ci.data⟩

/-- An account with the rights that another one asks for. -/
structure AccountMeta.Grants (a b : AccountMeta K) : Prop where
  key : a.pubkey = b.pubkey
  signer : b.isSigner = true → a.isSigner = true
  writable : b.isWritable = true → a.isWritable = true

theorem isWritable_foldl_mention (accounts : List (AccountMeta K)) (keys : Column K KeyMeta)
    (h : (∃ known, keys.get k = some known ∧ known.isWritable = true) ∨ ∃ a ∈ accounts, a.isWritable = true ∧ a.pubkey = k) :
    ∃ known, (accounts.foldl mention keys).get k = some known ∧ known.isWritable = true := by
  induction accounts generalizing keys with
  | nil => simpa using h
  | cons account accounts ih =>
    rw [foldl_cons]
    refine ih _ ?_
    rw [get_mention]
    rcases h with ⟨known, hget, hwritable⟩ | ⟨a, ha, hwritable, hk⟩
    · refine .inl ?_
      by_cases hk : k = account.pubkey
      · exact ⟨_, if_pos hk, by simp [hget, hwritable]⟩
      · exact ⟨known, (if_neg hk).trans hget, hwritable⟩
    · rcases mem_cons.mp ha with rfl | ha
      · exact .inl ⟨_, if_pos hk.symm, by simp [hwritable]⟩
      · exact .inr ⟨a, ha, hwritable, hk⟩

theorem idxOf_append_lt_iff (l l' : List K) (k : K) : (l ++ l').idxOf k < l.length ↔ k ∈ l := by
  constructor
  · intro h
    by_contra hk
    rw [idxOf_append_of_notMem hk] at h
    omega
  · intro hk
    rw [idxOf_append_of_mem hk]
    exact idxOf_lt_length_of_mem hk

section Rights

variable {instructions : List (Instruction K)} {payer : K} {blockhash : H}

theorem signer_index (h : k ∈ (Message.newWithBlockhash instructions payer blockhash).signers) :
    (Message.newWithBlockhash instructions payer blockhash).accountKeys.idxOf k <
      (Message.newWithBlockhash instructions payer blockhash).numRequiredSignatures := by
  rw [signers_newWithBlockhash] at h
  have hlt := (idxOf_append_lt_iff _ (keysWith (compiledKeys instructions payer) payer false true ++
    keysWith (compiledKeys instructions payer) payer false false) k).mpr h
  simp only [cons_append, length_cons, length_append] at hlt
  simp only [Message.newWithBlockhash, staticAccountKeys, cons_append]
  omega

theorem writable_index (h : k = payer ∨ ∃ known, (compiledKeys instructions payer).get k = some known ∧
      known.isWritable = true) :
    (Message.newWithBlockhash instructions payer blockhash).isWritableIndex
      ((Message.newWithBlockhash instructions payer blockhash).accountKeys.idxOf k) = true := by
  set keys := compiledKeys instructions payer with hkeys
  have hsigned := idxOf_append_lt_iff (payer :: keysWith keys payer true true) (keysWith keys payer true false ++
    (keysWith keys payer false true ++ keysWith keys payer false false)) k
  have hsigner := idxOf_append_lt_iff (payer :: keysWith keys payer true true ++ keysWith keys payer true false)
    (keysWith keys payer false true ++ keysWith keys payer false false) k
  have hunsigned := idxOf_append_lt_iff (payer :: keysWith keys payer true true ++ keysWith keys payer true false ++
    keysWith keys payer false true) (keysWith keys payer false false) k
  simp only [cons_append, append_assoc, length_cons, length_append, mem_cons, mem_append,
    mem_keysWith] at hsigned hsigner hunsigned
  simp only [Message.isWritableIndex, Message.newWithBlockhash, staticAccountKeys, ← hkeys, cons_append,
    append_assoc, length_cons, length_append]
  by_cases hk : k = payer
  · have hi := hsigned.mpr (.inl hk)
    rw [if_pos (by omega), decide_eq_true_eq]
    omega
  · obtain ⟨⟨isSigner, isWritable⟩, hget, rfl⟩ := h.resolve_left hk
    cases isSigner with
    | true =>
      have hi := hsigned.mpr (.inr ⟨hk, hget⟩)
      rw [if_pos (by omega), decide_eq_true_eq]
      omega
    | false =>
      have hi := hunsigned.mpr (.inr (.inr (.inr ⟨hk, hget⟩)))
      have hnot : ¬ _ := fun hlt => by simpa [hk, hget] using hsigner.mp hlt
      rw [if_neg (by omega), decide_eq_true_eq]
      omega

theorem accountAt_idxOf (h : a ∈ mentions instructions payer) :
    ∃ b, (Message.newWithBlockhash instructions payer blockhash).accountAt
      ((Message.newWithBlockhash instructions payer blockhash).accountKeys.idxOf a.pubkey) = some b ∧ b.Grants a := by
  rw [Message.accountAt, getElem?_idxOf (mem_accountKeys h), Option.map_some]
  refine ⟨_, rfl, rfl, ?_, ?_⟩
  · intro hsigner
    refine decide_eq_true (signer_index ?_)
    rw [signers_newWithBlockhash]
    by_cases hk : a.pubkey = payer
    · exact mem_append_left _ (hk ▸ mem_cons_self)
    · obtain ⟨⟨isSigner, isWritable⟩, hget, rfl⟩ :=
        (isSigner_foldl_mention (mentions instructions payer) .empty a.pubkey).mpr (.inr ⟨a, h, hsigner, rfl⟩)
      cases isWritable with
      | true => exact mem_append_left _ (mem_cons_of_mem _ ((mem_keysWith _ _ _ _).mpr ⟨hk, hget⟩))
      | false => exact mem_append_right _ ((mem_keysWith _ _ _ _).mpr ⟨hk, hget⟩)
  · intro hwritable
    exact writable_index (.inr (isWritable_foldl_mention _ _ (.inr ⟨a, h, hwritable, rfl⟩)))

theorem mapM_accountAt {as : List (AccountMeta K)} (h : ∀ a ∈ as, a ∈ mentions instructions payer) :
    ∃ bs, (as.map fun a => (Message.newWithBlockhash instructions payer blockhash).accountKeys.idxOf a.pubkey).mapM
        (Message.newWithBlockhash instructions payer blockhash).accountAt = some bs ∧
      List.Forall₂ AccountMeta.Grants bs as := by
  induction as with
  | nil => exact ⟨[], rfl, .nil⟩
  | cons a as ih =>
    obtain ⟨b, hb, hgrants⟩ := accountAt_idxOf (h a mem_cons_self)
    obtain ⟨bs, hbs, hall⟩ := ih fun a ha => h a (mem_cons_of_mem _ ha)
    refine ⟨b :: bs, ?_, .cons hgrants hall⟩
    rw [map_cons, mapM_cons, hb, hbs]
    rfl

theorem invocation_newWithBlockhash {ix : Instruction K} (h : ix ∈ instructions) :
    ∃ accounts, (Message.newWithBlockhash instructions payer blockhash).invocation
        (compileInstruction (Message.newWithBlockhash instructions payer blockhash).accountKeys ix) =
          some ⟨ix.programId, accounts, ix.data⟩ ∧
      List.Forall₂ AccountMeta.Grants accounts ix.accounts := by
  have hmention : ∀ a ∈ AccountMeta.readonly ix.programId false :: ix.accounts, a ∈ mentions instructions payer :=
    fun a ha => mem_append_left _ (mem_flatMap.mpr ⟨ix, h, ha⟩)
  obtain ⟨accounts, haccounts, hall⟩ := @mapM_accountAt K H _ instructions payer blockhash ix.accounts fun a ha =>
    hmention a (mem_cons_of_mem _ ha)
  have hprogram : (Message.newWithBlockhash instructions payer blockhash).accountKeys[
      (Message.newWithBlockhash instructions payer blockhash).accountKeys.idxOf ix.programId]? = some ix.programId :=
    getElem?_idxOf (mem_accountKeys (hmention _ mem_cons_self))
  refine ⟨accounts, ?_, hall⟩
  simp only [Message.invocation, compileInstruction, haccounts, hprogram]
  rfl

end Rights

end Sdk
