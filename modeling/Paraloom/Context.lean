import Paraloom.Field

/-!
# Addresses and the context of the program

Addresses of accounts, and what the program takes from outside: the hashes, the pairing check, rent and token fees.
-/

namespace Paraloom

/-- An account address. The program-derived addresses of the program stand for themselves, under the seeds they are derived
from, so distinct seeds give distinct addresses; every other address is its 32 bytes. -/
inductive Pubkey where
  | key (bytes : Bytes32)
  | bridgeState
  | bridgeVault
  | merkleTree
  | validatorRegistry
  | stakeTokenVault
  | stakeVaultAuthority
  | assetVaultAuthority
  | slashedFundsVault
  | validator (wallet : Pubkey)
  | nullifier (bytes : Bytes32)
  | assetVault (mint : Pubkey)
  | assetConfig (mint : Pubkey)
  deriving DecidableEq

/-- A wallet that signs a transaction. A program-derived address has no key and never signs one. -/
abbrev Signer : Type := Bytes32

def programId : Pubkey := .key
  ⟨[114, 25, 81, 135, 203, 105, 61, 30, 20, 238, 159, 213, 206, 216, 186, 93, 44, 129, 255, 169, 217, 199, 244, 242, 76, 132,
    55, 227, 218, 88, 6, 196], rfl⟩

/-- The system program, which owns every account that is not created for another program. -/
def systemProgram : Pubkey := .key zero32

def tokenProgram : Pubkey := .key
  ⟨[6, 221, 246, 225, 215, 101, 161, 147, 217, 203, 225, 70, 206, 235, 121, 172, 28, 180, 133, 237, 95, 91, 55, 145, 58, 140,
    245, 133, 126, 255, 0, 169], rfl⟩

/-- `bpf_loader_upgradeable::id()`. -/
def bpfLoaderUpgradeable : Pubkey := .key
  ⟨[2, 168, 246, 145, 78, 136, 161, 176, 226, 16, 21, 62, 247, 99, 174, 43, 0, 194, 185, 61, 22, 193, 36, 210, 192, 83, 122,
    16, 4, 128, 0, 0], rfl⟩

/-- What the program calls and does not compute itself. -/
structure Ctx where
  /-- The Poseidon syscall over little-endian words, which rejects what it cannot hash. -/
  solPoseidon : List Bytes32 → Option Bytes32
  /-- `Groth16Verifier::verify` under the embedded verifying key: proof points `a`, `b`, `c` and the public inputs. -/
  groth16 : (a b c : List UInt8) → (publicInputs : List Fr) → Bool
  /-- SHA-256. -/
  sha256 : List UInt8 → Bytes32
  /-- The bytes of a program-derived address. -/
  pdaBytes : Pubkey → Bytes32
  /-- `Rent::minimum_balance` of a data length. -/
  minimumBalance : Nat → Nat
  /-- What the token program withholds from a transfer of a mint that carries a transfer fee. -/
  transferFee : (mint : Pubkey) → (amount : Nat) → Nat

/-- The bytes of an address. -/
def Ctx.toBytes (Γ : Ctx) : Pubkey → Bytes32
  | .key bytes => bytes
  | pda => Γ.pdaBytes pda

end Paraloom
