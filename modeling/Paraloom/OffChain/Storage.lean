import Paraloom.Field
import Paraloom.Lib.KeyValue
import Paraloom.Lib.Table

/-!
# The node's privacy storage

Three RocksDB column families: the leaves of the commitment tree under their index, the revealed nullifiers, and the pool state
with the supplies and the cached root. A write takes effect or fails without one, and which of the two happens is an argument.
-/

namespace Paraloom.OffChain

/-- A key or a value of the database. -/
abbrev Bytes : Type := List UInt8

/-- `AssetId`: native SOL is the all-zero id. -/
abbrev AssetId : Type := Bytes32

def nativeSolAsset : AssetId := zero32

/-- A byte string of 32 bytes as a word. -/
def word (bytes : Bytes) (h : bytes.length = 32) : Bytes32 := ⟨bytes, h⟩

/-- What a call of the storage returns an error for. -/
inductive StorageError where
  /-- RocksDB does not acknowledge a write. -/
  | write
  /-- "Invalid commitment size in storage" -/
  | commitmentSize
  /-- "Invalid merkle-tree key length in storage" -/
  | leafKeyLength
  /-- "Invalid nullifier size in storage" -/
  | nullifierSize
  /-- "Invalid total supply size" -/
  | totalSupplySize
  /-- "Invalid asset supply size" -/
  | assetSupplySize
  /-- "Invalid merkle root size" -/
  | merkleRootSize
  deriving DecidableEq

/-- The column families. -/
structure PrivacyStorage where
  merkleTree : Column Bytes Bytes
  nullifierSet : Column Bytes Bytes
  poolState : Column Bytes Bytes

namespace PrivacyStorage

/-- A database just created. -/
def empty : PrivacyStorage := ⟨.empty, .empty, .empty⟩

/-- A write with its result: acknowledged with its effect, or failed without one. -/
def commit (acknowledged : Bool) (written : PrivacyStorage) : Except StorageError PrivacyStorage :=
  if acknowledged then .ok written else .error .write

/-! ## Merkle tree operations -/

/-- `index.to_le_bytes()`, the key of a leaf. -/
def leafKey (index : Nat) : Bytes := LittleEndian.ofNat 8 index

def insertCommitment (s : PrivacyStorage) (acknowledged : Bool) (index : Nat) (commitment : Bytes32) :
    Except StorageError PrivacyStorage :=
  commit acknowledged { s with merkleTree := s.merkleTree.put (leafKey index) commitment.toList }

/-- One write for all of them. -/
def insertCommitmentsBatch (s : PrivacyStorage) (acknowledged : Bool) (startIndex : Nat) (commitments : List Bytes32) :
    Except StorageError PrivacyStorage :=
  let batch := commitments.zipIdx.map fun c => (leafKey (startIndex + c.2), c.1.toList)
  commit acknowledged { s with merkleTree := s.merkleTree.putAll batch }

def decodeLeaf (entry : Bytes × Bytes) : Except StorageError (Nat × Bytes32) :=
  if hvalue : entry.2.length = 32 then
    if entry.1.length = 8 then .ok (LittleEndian.toNat entry.1, word entry.2 hvalue) else .error .leafKeyLength
  else .error .commitmentSize

/-- The order of the keys is not the order of the indices, so the decoded leaves are sorted. -/
def getAllCommitments (s : PrivacyStorage) : Except StorageError (List Bytes32) := do
  let indexed ← s.merkleTree.entries.mapM decodeLeaf
  pure ((indexed.insertionSort fun a b => a.1 ≤ b.1).map Prod.snd)

/-! ## Nullifier set operations -/

/-- The key is the nullifier and the value is empty. -/
def insertNullifier (s : PrivacyStorage) (acknowledged : Bool) (nullifier : Bytes32) : Except StorageError PrivacyStorage :=
  commit acknowledged { s with nullifierSet := s.nullifierSet.put nullifier.toList [] }

def getAllNullifiers (s : PrivacyStorage) : Except StorageError (List Bytes32) :=
  s.nullifierSet.entries.mapM fun entry => if h : entry.1.length = 32 then .ok (word entry.1 h) else .error .nullifierSize

/-! ## Pool state operations -/

/-- `b"total_supply"`. -/
def totalSupplyKey : Bytes := [116, 111, 116, 97, 108, 95, 115, 117, 112, 112, 108, 121]

/-- `SUPPLY_PREFIX`, `b"supply:"`. -/
def supplyPrefix : Bytes := [115, 117, 112, 112, 108, 121, 58]

/-- `b"merkle_root"`. -/
def merkleRootKey : Bytes := [109, 101, 114, 107, 108, 101, 95, 114, 111, 111, 116]

def assetSupplyKey (assetId : AssetId) : Bytes := supplyPrefix ++ assetId.toList

/-- `supply.to_le_bytes()`. -/
def supplyBytes (supply : UInt64) : Bytes := LittleEndian.ofNat 8 supply.toNat

/-- `u64::from_le_bytes`. -/
def supplyOfBytes (bytes : Bytes) : UInt64 := UInt64.ofNat (LittleEndian.toNat bytes)

def putPoolState (s : PrivacyStorage) (acknowledged : Bool) (key value : Bytes) : Except StorageError PrivacyStorage :=
  commit acknowledged { s with poolState := s.poolState.put key value }

def readSupply (s : PrivacyStorage) (key : Bytes) (e : StorageError) : Except StorageError UInt64 :=
  match s.poolState.get key with
  | some bytes => if bytes.length ≠ 8 then .error e else .ok (supplyOfBytes bytes)
  | none => .ok 0

def setTotalSupply (s : PrivacyStorage) (acknowledged : Bool) (supply : UInt64) : Except StorageError PrivacyStorage :=
  s.putPoolState acknowledged totalSupplyKey (supplyBytes supply)

def getTotalSupply (s : PrivacyStorage) : Except StorageError UInt64 := s.readSupply totalSupplyKey .totalSupplySize

/-- Native SOL keeps the key it had before there were other assets. -/
def setAssetSupply (s : PrivacyStorage) (acknowledged : Bool) (assetId : AssetId) (supply : UInt64) :
    Except StorageError PrivacyStorage :=
  if assetId = nativeSolAsset then s.setTotalSupply acknowledged supply
  else s.putPoolState acknowledged (assetSupplyKey assetId) (supplyBytes supply)

def getAssetSupply (s : PrivacyStorage) (assetId : AssetId) : Except StorageError UInt64 :=
  if assetId = nativeSolAsset then s.getTotalSupply else s.readSupply (assetSupplyKey assetId) .assetSupplySize

/-- One entry of the scan of `get_all_asset_supplies`: a malformed entry is skipped, and so is a zero supply. -/
def collectSupply (supplies : Table AssetId UInt64) (entry : Bytes × Bytes) : Table AssetId UInt64 :=
  let idBytes := entry.1.drop supplyPrefix.length
  if hid : idBytes.length = 32 then
    if entry.2.length ≠ 8 then supplies
    else if supplyOfBytes entry.2 > 0 then supplies.insert (word idBytes hid) (supplyOfBytes entry.2) else supplies
  else supplies

/-- Native SOL from its own key, the others from the entries under the prefix. -/
def getAllAssetSupplies (s : PrivacyStorage) : Except StorageError (Table AssetId UInt64) := do
  let native ← s.getTotalSupply
  let supplies : Table AssetId UInt64 := if native > 0 then AList.insert nativeSolAsset native ∅ else ∅
  pure ((s.poolState.scanPrefix supplyPrefix).foldl collectSupply supplies)

def setMerkleRoot (s : PrivacyStorage) (acknowledged : Bool) (root : Bytes32) : Except StorageError PrivacyStorage :=
  s.putPoolState acknowledged merkleRootKey root.toList

def getMerkleRoot (s : PrivacyStorage) : Except StorageError (Option Bytes32) :=
  match s.poolState.get merkleRootKey with
  | some bytes => if h : bytes.length = 32 then .ok (some (word bytes h)) else .error .merkleRootSize
  | none => .ok none

end PrivacyStorage

end Paraloom.OffChain
