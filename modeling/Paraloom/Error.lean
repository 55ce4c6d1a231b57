import Paraloom.Lib.Checked

/-!
# Errors of the program

An instruction stops at its first failed check. The check may be one of the program's own (`BridgeError`), one that Anchor
makes on the accounts before the body runs, one of the system or token program it calls, or an arithmetic panic.
-/

namespace Paraloom

/-- The program's own error codes. -/
inductive BridgeError where
  | bridgePaused
  | invalidAmount
  | invalidProof
  | proofTooLarge
  | insufficientFunds
  | nullifierAlreadyUsed
  | insufficientStake
  | validatorNotActive
  | invalidValidator
  | withdrawalExpired
  | duplicateNullifier
  | nonCanonicalNullifier
  | nonCanonicalFieldElement
  | unauthorizedInit
  | quorumNotMet
  | unbondingNotElapsed
  | nothingUnbonding
  | pendingRewardsUnclaimed
  | unknownMerkleRoot
  | depositCapExceeded
  | insufficientTokenStake
  | registryResetCountMismatch
  deriving DecidableEq

/-- The checks Anchor makes when it loads the accounts of an instruction. -/
inductive AnchorError where
  /-- The account is not owned by the program. -/
  | accountNotInitialized
  /-- The account's data is shorter than the struct it is read as. -/
  | accountDidNotDeserialize
  /-- A `has_one` or `constraint` on the account fails. -/
  | constraint
  /-- The account is not at the address its seeds give. -/
  | constraintSeeds
  /-- `init` on an address that is already in use. -/
  | accountAlreadyInUse
  /-- A `SystemAccount` that the system program does not own. -/
  | accountNotSystemOwned
  deriving DecidableEq

/-- What stops an instruction. -/
inductive ProgramError where
  | bridge (e : BridgeError)
  | anchor (e : AnchorError)
  /-- A transfer of the system program fails. -/
  | system
  /-- A transfer or burn of the token program fails. -/
  | token
  /-- Checked arithmetic of the program panics. -/
  | arithmetic
  deriving DecidableEq

/-- `Result<T>` of the program. -/
abbrev Result (α : Type) : Type := Except ProgramError α

/-- The `require!` of the program, with one of its own error codes. -/
def require (c : Prop) [Decidable c] (e : BridgeError) : Result Unit := Checked.require c (.bridge e)

/-- A condition Anchor checks on the accounts. -/
def constraint (c : Prop) [Decidable c] (e : AnchorError) : Result Unit := Checked.require c (.anchor e)

/-- `ok_or(e)?` on an option. -/
def okOr {α : Type} (x : Option α) (e : BridgeError) : Result α := Checked.okOr x (.bridge e)

@[simp] theorem require_ok_iff [Decidable c] : require c e = .ok u ↔ c :=
  Checked.require_ok_iff

@[simp] theorem constraint_ok_iff [Decidable c] : constraint c e = .ok u ↔ c :=
  Checked.require_ok_iff

@[simp] theorem okOr_ok_iff : okOr x e = .ok a ↔ x = some a :=
  Checked.okOr_ok_iff

end Paraloom
