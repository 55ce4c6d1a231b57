import Paraloom.Theorems.CoSignedSettlement

/-!
# The budget of co-signatures

The map of counters never grows beyond its bound. A counter that is kept bounds the signatures for its nullifier and authority;
but a full map drops counters, and a counter that was dropped starts again at zero, although the spend it belongs to may be the
one that is just being signed.
-/

namespace Paraloom.OffChain

open LittleEndian

namespace CoSigner

variable (κ : Crypto) (δ : SolanaSdk) (cosignKeypair : Option Bytes32) (expectedProgramId : Bytes32)

def signsFor (n : CoSigner) (nullifier authority : Bytes32) : CoSignEvent → Bool
  | .verified _ _ _ => false
  | .cosign ι request =>
    (cosignSettlement κ δ ι cosignKeypair expectedProgramId n.verifiedTransacts n.cosignCounts request).1.signature.isSome &&
      match CoSignPayload.fromBytes δ request.message with
      | .ok payload => payload.authority = authority ∧
          (payload.params.nullifiers.1 = nullifier ∨ payload.params.nullifiers.2 = nullifier)
      | .error _ => false

def signatures (n : CoSigner) (nullifier authority : Bytes32) : List CoSignEvent → Nat
  | [] => 0
  | e :: events => (n.signsFor κ δ cosignKeypair expectedProgramId nullifier authority e).toNat +
      signatures (n.handle κ δ cosignKeypair expectedProgramId e).1 nullifier authority events

/-- A request that is signed for finds room: the counters that are there and its own are not too many. -/
def RoomFor (n : CoSigner) : CoSignEvent → Prop
  | .verified _ _ _ => True
  | .cosign _ request => ∀ wallet payload req,
      CoSigns δ cosignKeypair expectedProgramId n.verifiedTransacts n.cosignCounts request wallet payload req →
        (n.cosignCounts.keys ++ payload.capNullifiers).toFinset.card ≤ maxCosignCounts

def RoomAlong (n : CoSigner) : List CoSignEvent → Prop
  | [] => True
  | e :: events => n.RoomFor δ cosignKeypair expectedProgramId e ∧
      RoomAlong (n.handle κ δ cosignKeypair expectedProgramId e).1 events

end CoSigner

namespace BudgetAux

variable {V : Type}

/-! ## Bounded maps -/

theorem length_keys (t : Table String V) : t.keys.length = t.entries.length := List.length_map _

theorem card_keys (t : Table String V) : t.keys.toFinset.card = t.entries.length := by
  rw [List.toFinset_card_of_nodup t.keys_nodup, length_keys]

theorem toFinset_keys_insert (t : Table String V) (key : String) (v : V) :
    (t.insert key v).keys.toFinset = insert key t.keys.toFinset := by
  ext k
  simp [AList.keys_insert, t.keys_nodup.mem_erase_iff]
  tauto

theorem toFinset_keys_erase (t : Table String V) (key : String) : (t.erase key).keys.toFinset = t.keys.toFinset.erase key := by
  ext k
  simp [AList.keys_erase, t.keys_nodup.mem_erase_iff]

theorem makeRoom_of_room (ι : KeyOrder) (h : (insert key map.keys.toFinset).card ≤ bound) : makeRoom ι bound map key = map := by
  unfold makeRoom
  rw [if_neg]
  rintro ⟨hnew, hfull⟩
  have hkey : key ∉ map.keys.toFinset := by simpa [AList.mem_keys] using hnew
  rw [Finset.card_insert_of_notMem hkey, card_keys] at h
  omega

theorem makeRoom_of_full (hnew : key ∉ map) (hfull : bound ≤ map.entries.length) (hnext : ι.next map.keys = some victim) :
    makeRoom ι bound map key = map.erase victim := by
  unfold makeRoom
  rw [if_pos ⟨hnew, hfull⟩, hnext]

theorem length_makeRoom_insert_le (ι : KeyOrder) (key : String) (v : V) (hbound : 0 < bound) (h : map.entries.length ≤ bound) :
    ((makeRoom ι bound map key).insert key v).entries.length ≤ bound := by
  rw [← card_keys] at h ⊢
  rw [toFinset_keys_insert]
  unfold makeRoom
  split_ifs with hroom
  · have hkeys : map.keys ≠ [] := by
      rw [← List.length_pos_iff, length_keys]
      omega
    obtain ⟨victim, hnext⟩ := Option.isSome_iff_exists.mp (ι.next_isSome hkeys)
    have hvictim : victim ∈ map.keys.toFinset := List.mem_toFinset.mpr (ι.next_mem hnext)
    simp only [hnext, toFinset_keys_erase]
    have hcard := Finset.card_erase_of_mem hvictim
    have hpos := Finset.card_pos.mpr ⟨victim, hvictim⟩
    have := Finset.card_insert_le key (map.keys.toFinset.erase victim)
    omega
  · by_cases hkey : key ∈ map
    · rw [Finset.insert_eq_self.mpr (by simpa [AList.mem_keys] using hkey)]
      exact h
    · have := Finset.card_insert_le key map.keys.toFinset
      rw [card_keys] at this
      have hlt : map.entries.length < bound := by
        by_contra hge
        exact hroom ⟨hkey, Nat.not_lt.mp hge⟩
      omega

/-! ## Counters -/

/-- One more signature under a key, with room for it. -/
theorem cosignCount_countCosign (h : (insert key counts.keys.toFinset).card ≤ maxCosignCounts) (k : String) :
    cosignCount (countCosign ι counts key) k = cosignCount counts k + if k = key then 1 else 0 := by
  unfold countCosign
  rw [makeRoom_of_room ι h]
  unfold cosignCount
  rw [Table.lookup_insert_if]
  by_cases hk : k = key
  · subst hk
    simp
  · simp [hk]

theorem countCosign_foldl (ι : KeyOrder) (keys : List String) (h : (counts.keys ++ keys).toFinset.card ≤ maxCosignCounts) :
    (keys.foldl (countCosign ι) counts).keys.toFinset = (counts.keys ++ keys).toFinset ∧
      ∀ k, cosignCount (keys.foldl (countCosign ι) counts) k = cosignCount counts k + keys.count k := by
  induction keys generalizing counts with
  | nil => simp
  | cons key keys ih =>
    have hsplit : (counts.keys ++ key :: keys).toFinset = insert key counts.keys.toFinset ∪ keys.toFinset := by
      ext k
      simp
    have hroom : (insert key counts.keys.toFinset).card ≤ maxCosignCounts :=
      (Finset.card_le_card (hsplit ▸ Finset.subset_union_left)).trans h
    have hkeys : (countCosign ι counts key).keys.toFinset = insert key counts.keys.toFinset := by
      unfold countCosign
      rw [makeRoom_of_room ι hroom, toFinset_keys_insert]
    have hrest : ((countCosign ι counts key).keys ++ keys).toFinset = (counts.keys ++ key :: keys).toFinset := by
      rw [List.toFinset_append, hkeys, hsplit]
    obtain ⟨ihkeys, ihcount⟩ := ih (hrest ▸ h)
    refine ⟨ihkeys.trans hrest, fun k => ?_⟩
    rw [List.foldl_cons, ihcount, cosignCount_countCosign hroom, List.count_cons]
    by_cases hk : k = key
    · simp [hk]
      omega
    · simp [hk, Ne.symm hk]

theorem length_foldl_countCosign_le (ι : KeyOrder) (keys : List String) (h : counts.entries.length ≤ maxCosignCounts) :
    (keys.foldl (countCosign ι) counts).entries.length ≤ maxCosignCounts := by
  induction keys generalizing counts with
  | nil => exact h
  | cons key keys ih => exact ih (length_makeRoom_insert_le ι key _ (by decide) h)

/-! ## Steps and runs -/

section

variable {κ : Crypto} {δ : SolanaSdk} {keypair : Option Bytes32} {programId : Bytes32} {n : CoSigner}

/-- The counters stay within their bound. -/
theorem length_handle_le (h : n.cosignCounts.entries.length ≤ maxCosignCounts) :
    (n.handle κ δ keypair programId e).1.cosignCounts.entries.length ≤ maxCosignCounts := by
  cases e with
  | verified ι requestId request => exact h
  | cosign ι request =>
    simp only [CoSigner.handle]
    rcases cosignSettlement_cases κ δ ι keypair programId n.verifiedTransacts n.cosignCounts request with
      hdeclined | ⟨wallet, payload, req, hsigns⟩
    · rw [hdeclined]
      exact h
    · rw [hsigns.cosignSettlement_eq]
      exact length_foldl_countCosign_le ι _ h

theorem length_run_le (h : n.cosignCounts.entries.length ≤ maxCosignCounts) :
    (n.run κ δ keypair programId events).cosignCounts.entries.length ≤ maxCosignCounts := by
  induction events generalizing n with
  | nil => exact h
  | cons e events ih => exact ih (length_handle_le h)

theorem handle_counted (hroom : n.RoomFor δ keypair programId e) (nullifier authority : Bytes32) :
    (n.signsFor κ δ keypair programId nullifier authority e = true →
        cosignCount n.cosignCounts (capKey nullifier authority) < maxCosignsPerSettlement) ∧
      cosignCount n.cosignCounts (capKey nullifier authority) + (n.signsFor κ δ keypair programId nullifier authority e).toNat ≤
        cosignCount (n.handle κ δ keypair programId e).1.cosignCounts (capKey nullifier authority) := by
  cases e with
  | verified ι requestId request => simp [CoSigner.signsFor, CoSigner.handle]
  | cosign ι request =>
    rcases cosignSettlement_cases κ δ ι keypair programId n.verifiedTransacts n.cosignCounts request with
      hdeclined | ⟨wallet, payload, req, hsigns⟩
    · simp [CoSigner.signsFor, CoSigner.handle, hdeclined, CoSignRequest.declined]
    · obtain ⟨-, hcount⟩ := countCosign_foldl ι payload.capNullifiers (hroom wallet payload req hsigns)
      -- a payload that spends the nullifier under the authority has its key among the two it counts under
      have hkey : n.signsFor κ δ keypair programId nullifier authority (.cosign ι request) = true →
          capKey nullifier authority ∈ payload.capNullifiers := by
        intro hfor
        simp only [CoSigner.signsFor, hsigns.decoded, Bool.and_eq_true, decide_eq_true_eq] at hfor
        obtain ⟨-, rfl, rfl | rfl⟩ := hfor
        · exact List.mem_cons_self
        · exact List.mem_cons_of_mem _ List.mem_cons_self
      refine ⟨fun hfor => hsigns.budget _ (hkey hfor), ?_⟩
      simp only [CoSigner.handle, hsigns.cosignSettlement_eq, hcount]
      cases hfor : n.signsFor κ δ keypair programId nullifier authority (.cosign ι request) with
      | false => simp
      | true =>
        have hpos := List.count_pos_iff.mpr (hkey hfor)
        simp only [Bool.toNat_true]
        omega

theorem signatures_le (nullifier authority : Bytes32) (hroom : n.RoomAlong κ δ keypair programId events) :
    n.signatures κ δ keypair programId nullifier authority events ≤
      maxCosignsPerSettlement - cosignCount n.cosignCounts (capKey nullifier authority) := by
  induction events generalizing n with
  | nil => exact Nat.zero_le _
  | cons e events ih =>
    obtain ⟨hbudget, hcounted⟩ := handle_counted (κ := κ) hroom.1 nullifier authority
    have hrest := ih hroom.2
    unfold CoSigner.signatures
    cases hfor : n.signsFor κ δ keypair programId nullifier authority e with
    | false =>
      rw [hfor] at hcounted
      simp only [Bool.toNat_false] at hcounted ⊢
      omega
    | true =>
      have hlt := hbudget hfor
      rw [hfor] at hcounted
      simp only [Bool.toNat_true] at hcounted ⊢
      omega

theorem card_append_capNullifiers_le (counts : Table String Nat) (payload : CoSignPayload) :
    (counts.keys ++ payload.capNullifiers).toFinset.card ≤ counts.entries.length + 2 := by
  rw [List.toFinset_append]
  refine (Finset.card_union_le _ _).trans ?_
  rw [card_keys]
  exact Nat.add_le_add_left (List.toFinset_card_le _) _

theorem length_handle_le_add {e : CoSignEvent} (h : n.cosignCounts.entries.length + 2 ≤ maxCosignCounts) :
    (n.handle κ δ keypair programId e).1.cosignCounts.entries.length ≤ n.cosignCounts.entries.length + 2 := by
  cases e with
  | verified ι requestId request => simp [CoSigner.handle]
  | cosign ι request =>
    simp only [CoSigner.handle]
    rcases cosignSettlement_cases κ δ ι keypair programId n.verifiedTransacts n.cosignCounts request with
      hdeclined | ⟨wallet, payload, req, hsigns⟩
    · simp [hdeclined]
    · have hcard := card_append_capNullifiers_le n.cosignCounts payload
      rw [hsigns.cosignSettlement_eq, ← card_keys, (countCosign_foldl ι _ (hcard.trans h)).1]
      exact hcard

/-- A run that is too short to fill the map has room. -/
theorem roomAlong_of_short (h : n.cosignCounts.entries.length + 2 * events.length ≤ maxCosignCounts) :
    n.RoomAlong κ δ keypair programId events := by
  induction events generalizing n with
  | nil => trivial
  | cons e events ih =>
    rw [List.length_cons] at h
    refine ⟨?_, ih ?_⟩
    · cases e with
      | verified ι requestId request => trivial
      | cosign ι request =>
        intro wallet payload req _
        have := card_append_capNullifiers_le n.cosignCounts payload
        omega
    · have := @length_handle_le_add κ δ keypair programId n e (by omega)
      omega

end

end BudgetAux

/-- In every run of a co-signer the map of counters holds at most `MAX_COSIGN_COUNTS` entries. If every request that is signed
for finds room in that map, at most `MAX_COSIGNS_PER_SETTLEMENT` signatures are made over messages that spend a given nullifier
under a given authority. -/
theorem cosign_budget (κ : Crypto) (δ : SolanaSdk) (cosignKeypair : Option Bytes32) (expectedProgramId : Bytes32)
    (events : List CoSignEvent) :
    (CoSigner.new.run κ δ cosignKeypair expectedProgramId events).cosignCounts.entries.length ≤ maxCosignCounts ∧
      (CoSigner.new.RoomAlong κ δ cosignKeypair expectedProgramId events → ∀ nullifier authority,
        CoSigner.new.signatures κ δ cosignKeypair expectedProgramId nullifier authority events ≤ maxCosignsPerSettlement) := by
  refine ⟨BudgetAux.length_run_le (Nat.zero_le _), fun hroom nullifier authority => ?_⟩
  have hbound := BudgetAux.signatures_le nullifier authority hroom
  omega

namespace BudgetSample

open ApprovalSample (cosigner request)
open CoSignSample (serializePayload firstKey crypto)

/-- The authorities that ask for the same spend. -/
def authority (i : Nat) : Bytes32 := LittleEndian.vec 32 i

def payloadOf (authority : Bytes32) : CoSignPayload := { CoSignSample.payload with authority }

def sdk : SolanaSdk := { CoSignSample.sdk with
  deserializePayload bytes :=
    let payload := payloadOf (pubkeyOf ((bytes.drop 32).take 32))
    if serializePayload payload = bytes then .ok payload else .error "unexpected end of file" }

def ask (ι : KeyOrder) (i : Nat) : CoSignEvent :=
  .cosign ι ⟨request.requestId, .transact, serializePayload (payloadOf (authority i))⟩

def keys (i : Nat) : List String := (payloadOf (authority i)).capNullifiers

/-- Maps whose iteration comes to the counters of the first authority first. -/
def forgetful : KeyOrder where
  next ks := ((keys 0).find? (· ∈ ks)).or ks.head?
  next_mem {ks key} h := by
    rcases Option.or_eq_some_iff.mp h with h | ⟨-, h⟩
    · simpa using List.find?_some h
    · exact List.mem_of_mem_head? h
  next_isSome {ks} h := by cases ks <;> simp_all

/-- The first authority uses up its budget. -/
def opening : List CoSignEvent := .verified firstKey request.requestId request :: List.replicate 4 (ask firstKey 0)

def others (j : Nat) : List CoSignEvent := (List.range j).map fun i => ask firstKey (i + 1)

def events : List CoSignEvent := opening ++ others 511 ++ [ask forgetful 512, ask firstKey 0]

end BudgetSample

/-- A run with room: the first authority gets its four signatures. -/
theorem cosign_budget_first_authority :
    CoSigner.new.RoomAlong CoSignSample.crypto BudgetSample.sdk (some ApprovalSample.cosigner) CoSignSample.programId
        BudgetSample.opening ∧
      CoSigner.new.signatures CoSignSample.crypto BudgetSample.sdk (some ApprovalSample.cosigner) CoSignSample.programId
        ApprovalSample.request.nullifiers.1 (BudgetSample.authority 0) BudgetSample.opening ≤ maxCosignsPerSettlement := by
  have hroom : CoSigner.new.RoomAlong CoSignSample.crypto BudgetSample.sdk (some ApprovalSample.cosigner)
      CoSignSample.programId BudgetSample.opening := BudgetAux.roomAlong_of_short (by decide)
  exact ⟨hroom, (cosign_budget _ _ _ _ BudgetSample.opening).2 hroom _ _⟩

namespace BudgetAux

open ApprovalSample (cosigner request)
open CoSignSample (serializePayload firstKey crypto)
open BudgetSample

variable {n : CoSigner}

/-! ## A map that forgets a spend -/

theorem pubkeyOf_toList : pubkeyOf v.toList = v := by
  apply List.Vector.toList_injective
  have h := ofNat_toNat v.toList
  rw [List.Vector.toList_length] at h
  exact h

theorem fromBytes_payloadOf : CoSignPayload.fromBytes sdk (serializePayload (payloadOf a)) = .ok (payloadOf a) := by
  have hauthority : ((serializePayload (payloadOf a)).drop 32).take 32 = a.toList := by
    simp [serializePayload, payloadOf]
  have hproof : ¬ maxProofBytes < CoSignSample.payload.params.proof.length := by decide +kernel
  simp [CoSignPayload.fromBytes, sdk, hauthority, pubkeyOf_toList]
  simpa [payloadOf] using hproof

section Ask

variable (hcached : n.verifiedTransacts.lookup request.requestId = some request)
  (hbudget : ∀ key ∈ keys i, cosignCount n.cosignCounts key < maxCosignsPerSettlement)
include hcached hbudget

theorem coSigns_ask : CoSigns sdk (some cosigner) CoSignSample.programId n.verifiedTransacts n.cosignCounts
      ⟨request.requestId, .transact, serializePayload (payloadOf (authority i))⟩ cosigner (payloadOf (authority i)) request where
  keypair := rfl
  decoded := fromBytes_payloadOf
  program := rfl
  cached := hcached
  approved := by
    have h : request.approves CoSignSample.payload.params = true := by decide +kernel
    exact h
  quorum := by
    have h : CoSignSample.payload.quorumValidators.length ≤ maxQuorumCosigners := by decide +kernel
    exact h
  budget := hbudget

theorem handle_ask (ι : KeyOrder) : (n.handle crypto sdk (some cosigner) CoSignSample.programId (ask ι i)).1 =
      { n with cosignCounts := (keys i).foldl (countCosign ι) n.cosignCounts } := by
  simp only [CoSigner.handle, ask, (coSigns_ask hcached hbudget).cosignSettlement_eq, keys]

theorem signsFor_ask (ι : KeyOrder) :
    n.signsFor crypto sdk (some cosigner) CoSignSample.programId request.nullifiers.1 (authority i) (ask ι i) = true := by
  have hauthority : (payloadOf (authority i)).authority = authority i := rfl
  have hnullifier : (payloadOf (authority i)).params.nullifiers.1 = request.nullifiers.1 := rfl
  simp only [CoSigner.signsFor, ask, (coSigns_ask hcached hbudget).cosignSettlement_eq, fromBytes_payloadOf, hauthority,
    hnullifier, true_or, and_self, decide_true, Option.isSome_some, Bool.and_self]

end Ask

def counters (authorities : Finset Nat) : Finset String := authorities.biUnion fun i => (keys i).toFinset

theorem keys_eq (i : Nat) :
    keys i = [capKey request.nullifiers.1 (authority i), capKey request.nullifiers.2 (authority i)] := rfl

theorem nullifiers_ne : request.nullifiers.1 ≠ request.nullifiers.2 := by decide +kernel

theorem authority_inj (hi : i < 1024) (hj : j < 1024) (h : authority i = authority j) : i = j := by
  have hbytes : ofNat 32 i = ofNat 32 j := congrArg Subtype.val h
  have hnat := congrArg toNat hbytes
  have hbound : 1024 < 256 ^ 32 := by norm_num
  rwa [toNat_ofNat_of_lt (hi.trans hbound), toNat_ofNat_of_lt (hj.trans hbound)] at hnat

/-- A counter belongs to one authority. -/
theorem eq_of_mem_keys (hi : i < 1024) (hj : j < 1024) (hkey : key ∈ keys i) (hkey' : key ∈ keys j) : i = j := by
  simp only [keys_eq, List.mem_cons, List.not_mem_nil, or_false] at hkey hkey'
  rcases hkey with rfl | rfl <;> rcases hkey' with h | h <;> exact authority_inj hi hj (capKey_inj.mp h).2

theorem card_counters (h : ∀ i ∈ authorities, i < 1024) : (counters authorities).card = 2 * authorities.card := by
  unfold counters
  rw [Finset.card_biUnion]
  · have hcard : ∀ i, (keys i).toFinset.card = 2 := by
      intro i
      refine List.toFinset_card_of_nodup ?_
      simp [keys_eq, capKey_inj, nullifiers_ne]
    simp only [hcard, Finset.sum_const, smul_eq_mul]
    exact Nat.mul_comm _ _
  · intro i hi j hj hne
    refine Finset.disjoint_left.mpr fun key hkey hkey' => ?_
    exact hne (eq_of_mem_keys (h i hi) (h j hj) (List.mem_toFinset.mp hkey) (List.mem_toFinset.mp hkey'))

/-- The request is cached, and exactly the first authorities up to `j` have counters. -/
structure Filled (n : CoSigner) (j : Nat) : Prop where
  cached : n.verifiedTransacts.lookup request.requestId = some request
  counts : n.cosignCounts.keys.toFinset = counters (Finset.range (j + 1))

theorem cosignCount_of_notMem (h : key ∉ counts.keys.toFinset) : cosignCount counts key = 0 := by
  have hkey : key ∉ counts := by simpa [AList.mem_keys] using h
  rw [cosignCount, AList.lookup_eq_none.mpr hkey, Option.getD_none]

theorem Filled.fresh (h : Filled n j) (hij : j < i) (hi : i < 1024) : ∀ key ∈ keys i, key ∉ n.cosignCounts.keys.toFinset := by
  intro key hkey hmem
  rw [h.counts, counters, Finset.mem_biUnion] at hmem
  obtain ⟨i', hi', hkey'⟩ := hmem
  have hlt := Finset.mem_range.mp hi'
  have := eq_of_mem_keys hi (by omega) hkey (List.mem_toFinset.mp hkey')
  omega

theorem Filled.budget (h : Filled n j) (hij : j < i) (hi : i < 1024) :
    ∀ key ∈ keys i, cosignCount n.cosignCounts key < maxCosignsPerSettlement := by
  intro key hkey
  rw [cosignCount_of_notMem (h.fresh hij hi key hkey)]
  decide

/-- One more authority fills two more counters, up to the bound. -/
theorem Filled.step (h : Filled n j) (hj : j < 511) :
    Filled (n.handle crypto sdk (some cosigner) CoSignSample.programId (ask firstKey (j + 1))).1 (j + 1) := by
  have hcounters : (n.cosignCounts.keys ++ keys (j + 1)).toFinset = counters (Finset.range (j + 2)) := by
    rw [List.toFinset_append, h.counts, counters, counters, Finset.range_add_one (n := j + 1), Finset.biUnion_insert,
      Finset.union_comm]
  have hroom : (n.cosignCounts.keys ++ keys (j + 1)).toFinset.card ≤ maxCosignCounts := by
    rw [hcounters, card_counters fun i hi => by have := Finset.mem_range.mp hi; omega, Finset.card_range]
    unfold maxCosignCounts
    omega
  rw [handle_ask h.cached (h.budget (by omega) (by omega))]
  exact ⟨h.cached, (countCosign_foldl firstKey _ hroom).1.trans hcounters⟩

theorem Filled.others (h : Filled n 0) (hj : j ≤ 511) :
    Filled (n.run crypto sdk (some cosigner) CoSignSample.programId (others j)) j := by
  induction j with
  | zero => exact h
  | succ j ih =>
    have hsnoc : BudgetSample.others (j + 1) = BudgetSample.others j ++ [ask firstKey (j + 1)] := by
      simp [BudgetSample.others, List.range_succ]
    rw [hsnoc, CoSigner.run_append]
    exact (ih (by omega)).step (by omega)

theorem forgetful_first (h : capKey request.nullifiers.1 (authority 0) ∈ ks) :
    forgetful.next ks = some (capKey request.nullifiers.1 (authority 0)) := by
  simp [forgetful, keys_eq, h]

theorem forgetful_second (hgone : capKey request.nullifiers.1 (authority 0) ∉ ks)
    (h : capKey request.nullifiers.2 (authority 0) ∈ ks) :
    forgetful.next ks = some (capKey request.nullifiers.2 (authority 0)) := by
  simp [forgetful, keys_eq, hgone, h]

/-- A new counter in a full map takes the place of another one. -/
theorem countCosign_of_full (hnew : key ∉ counts.keys.toFinset) (hfull : counts.keys.toFinset.card = maxCosignCounts)
    (hnext : ι.next counts.keys = some victim) :
    (countCosign ι counts key).keys.toFinset = insert key (counts.keys.toFinset.erase victim) ∧
      (countCosign ι counts key).keys.toFinset.card = maxCosignCounts := by
  have hkey : key ∉ counts := by simpa [AList.mem_keys] using hnew
  have hvictim : victim ∈ counts.keys.toFinset := List.mem_toFinset.mpr (ι.next_mem hnext)
  have hkeys : (countCosign ι counts key).keys.toFinset = insert key (counts.keys.toFinset.erase victim) := by
    unfold countCosign
    rw [makeRoom_of_full hkey (by rw [← card_keys, hfull]) hnext, toFinset_keys_insert, toFinset_keys_erase]
  refine ⟨hkeys, ?_⟩
  have hpos := Finset.card_pos.mpr ⟨victim, hvictim⟩
  rw [hkeys, Finset.card_insert_of_notMem fun h => hnew (Finset.mem_of_mem_erase h), Finset.card_erase_of_mem hvictim, hfull]
  omega

/-- Two new counters in a full map take the places of the two that its iteration prefers. -/
theorem forgets_two (hnext : ∀ ks, first ∈ ks → ι.next ks = some first)
    (hnext' : ∀ ks, first ∉ ks → second ∈ ks → ι.next ks = some second) (hfull : counts.keys.toFinset.card = maxCosignCounts)
    (hfirst : first ∈ counts.keys.toFinset) (hsecond : second ∈ counts.keys.toFinset) (hne : first ≠ second)
    (hnew : new ∉ counts.keys.toFinset) (hnew' : new' ∉ counts.keys.toFinset) (hnews : new' ≠ new) :
    first ∉ ([new, new'].foldl (countCosign ι) counts).keys.toFinset ∧
      second ∉ ([new, new'].foldl (countCosign ι) counts).keys.toFinset := by
  have hold : ∀ k ∈ counts.keys.toFinset, k ≠ new ∧ k ≠ new' :=
    fun k hk => ⟨fun heq => hnew (heq ▸ hk), fun heq => hnew' (heq ▸ hk)⟩
  obtain ⟨hkeys, hcard⟩ := countCosign_of_full hnew hfull (hnext _ (List.mem_toFinset.mp hfirst))
  have hgone : first ∉ (countCosign ι counts new).keys.toFinset := by
    rw [hkeys]
    simp [(hold first hfirst).1]
  have hstill : second ∈ (countCosign ι counts new).keys.toFinset := by
    rw [hkeys, Finset.mem_insert, Finset.mem_erase]
    exact .inr ⟨hne.symm, hsecond⟩
  have hfresh : new' ∉ (countCosign ι counts new).keys.toFinset := by
    rw [hkeys, Finset.mem_insert, Finset.mem_erase]
    rintro (h | ⟨-, h⟩)
    · exact hnews h
    · exact hnew' h
  obtain ⟨hkeys', -⟩ := countCosign_of_full hfresh hcard
    (hnext' _ (fun h => hgone (List.mem_toFinset.mpr h)) (List.mem_toFinset.mp hstill))
  simp only [List.foldl_cons, List.foldl_nil, hkeys', Finset.mem_insert, Finset.mem_erase, not_or, not_and]
  exact ⟨⟨(hold first hfirst).2, fun _ => hgone⟩, (hold second hsecond).2, fun h => absurd rfl h⟩

/-- When the map is full, one more authority makes it forget both counters of the first one. -/
theorem Filled.forgotten (h : Filled n 511) : ∀ key ∈ keys 0, key ∉ (n.handle crypto sdk (some cosigner) CoSignSample.programId
      (ask forgetful 512)).1.cosignCounts.keys.toFinset := by
  rw [handle_ask h.cached (h.budget (by omega) (by omega))]
  have hfresh := h.fresh (i := 512) (by omega) (by omega)
  have hfull : n.cosignCounts.keys.toFinset.card = maxCosignCounts := by
    rw [h.counts, card_counters fun i hi => by have := Finset.mem_range.mp hi; omega, Finset.card_range]
    rfl
  have hfirst : ∀ key ∈ keys 0, key ∈ n.cosignCounts.keys.toFinset := by
    intro key hkey
    rw [h.counts, counters, Finset.mem_biUnion]
    exact ⟨0, Finset.mem_range.mpr (by omega), List.mem_toFinset.mpr hkey⟩
  simp only [keys_eq, List.mem_cons, List.not_mem_nil, or_false, forall_eq_or_imp, forall_eq] at hfresh hfirst ⊢
  exact forgets_two (fun _ => forgetful_first) (fun _ => forgetful_second) hfull hfirst.1 hfirst.2
    (fun heq => nullifiers_ne (capKey_inj.mp heq).1) hfresh.1 hfresh.2
    (fun heq => nullifiers_ne (capKey_inj.mp heq).1.symm)

theorem Filled.signs_again (h : Filled n 511) :
    1 ≤ n.signatures crypto sdk (some cosigner) CoSignSample.programId request.nullifiers.1 (authority 0)
      [ask forgetful 512, ask firstKey 0] := by
  have hforgotten := h.forgotten
  have hcached : (n.handle crypto sdk (some cosigner) CoSignSample.programId
      (ask forgetful 512)).1.verifiedTransacts.lookup request.requestId = some request := by
    rw [handle_ask h.cached (h.budget (by omega) (by omega))]
    exact h.cached
  have hbudget : ∀ key ∈ keys 0, cosignCount (n.handle crypto sdk (some cosigner) CoSignSample.programId
      (ask forgetful 512)).1.cosignCounts key < maxCosignsPerSettlement := by
    intro key hkey
    rw [cosignCount_of_notMem (hforgotten key hkey)]
    decide
  have hagain := signsFor_ask hcached hbudget firstKey
  simp only [CoSigner.signatures, hagain, Bool.toNat_true]
  omega

theorem signatures_append {programId : Bytes32} (authority : Bytes32) (xs ys : List CoSignEvent) (n : CoSigner) :
    n.signatures κ δ keypair programId nullifier authority (xs ++ ys) =
      n.signatures κ δ keypair programId nullifier authority xs +
        (n.run κ δ keypair programId xs).signatures κ δ keypair programId nullifier authority
          ys := by
  induction xs generalizing n with
  | nil => simp [CoSigner.signatures]
  | cons e xs ih =>
    rw [List.cons_append, CoSigner.signatures, CoSigner.signatures, CoSigner.run_cons, ih]
    omega

end BudgetAux

open BudgetAux BudgetSample
open ApprovalSample (cosigner request)
open CoSignSample (crypto payload)

/-- The first authority gets a fifth signature for the same nullifier, after 512 others have asked. -/
theorem cosign_budget_exceeded :
    maxCosignsPerSettlement < CoSigner.new.signatures CoSignSample.crypto BudgetSample.sdk (some ApprovalSample.cosigner)
      CoSignSample.programId ApprovalSample.request.nullifiers.1 (BudgetSample.authority 0) BudgetSample.events := by
  have hopening : CoSigner.new.signatures crypto sdk (some cosigner)
      CoSignSample.programId request.nullifiers.1 (authority 0) opening = 4 := by
    decide +kernel
  have hfilled : Filled (CoSigner.new.run crypto sdk (some cosigner)
      CoSignSample.programId opening) 0 := ⟨by decide +kernel, by decide +kernel⟩
  have hagain := (hfilled.others (j := 511) le_rfl).signs_again
  rw [← CoSigner.run_append] at hagain
  unfold events
  rw [signatures_append, signatures_append, hopening]
  unfold maxCosignsPerSettlement
  omega

end Paraloom.OffChain
