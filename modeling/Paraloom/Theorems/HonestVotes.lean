import Paraloom.OffChain.Voting
import Paraloom.Theorems.NoFraming
import Paraloom.Theorems.VerificationAgreement
import Paraloom.Theorems.VoteBinding

/-!
# Whether a node votes one way

A node that cannot read the verifying key votes against the request. A later check of the same request that can read it ends in
a valid vote, and the node has equivocated. Where all reads give one key, its votes on a request agree.
-/

namespace Paraloom.OffChain

open VerificationAux VoteBindingAux

variable {S : ProofSystem}

def VoterEvent.subject : VoterEvent S → Option TransactVerificationRequest
  | .request _ _ _ _ r | .initiate _ _ _ _ _ r => some r
  | _ => none

/-- A check that has to read the key reads this one. -/
def Voter.Reads (key : S.VerifyingKey) (v : Voter S) (read : Except String S.VerifyingKey) (r : TransactVerificationRequest) :
    Prop :=
  v.transactVerifyingKey = none → r.WellEncoded → r.Decodable (S.withKey (.ok key)) → read = .ok key

def VoterEvent.ReadsKey (key : S.VerifyingKey) (v : Voter S) : VoterEvent S → Prop
  | .request _ _ read _ r | .initiate _ _ read _ _ r => v.Reads key read r
  | _ => True

/-- Every check of a run that has to read the key reads this one. -/
def KeyRead (κ : Crypto) (σ : NodeSettings) (poseidon : List Fr → Fr) (runsBridge : Bool) (key : S.VerifyingKey)
    (v : Voter S) : List (VoterEvent S) → Prop
  | [] => True
  | e :: events => e.ReadsKey key v ∧ KeyRead κ σ poseidon runsBridge key (v.handle κ σ poseidon runsBridge e).1 events

/-- No two requests of a run collide in their hash, and the length of a proof fits eight bytes. -/
structure NoCollision (κ : Crypto) (events : List (VoterEvent S)) : Prop where
  fits : ∀ e ∈ events, ∀ r ∈ e.subject, r.proof.length < 2 ^ 64
  apart : ∀ e ∈ events, ∀ e' ∈ events, ∀ r ∈ e.subject, ∀ r' ∈ e'.subject,
    κ.sha256 r.canonicalBytes = κ.sha256 r'.canonicalBytes → r.canonicalBytes = r'.canonicalBytes

namespace HonestVotesAux

variable {κ : Crypto} {σ : NodeSettings} {poseidon : List Fr → Fr} {runsBridge : Bool} {key : S.VerifyingKey} {v : Voter S}
  {R : Set TransactVerificationRequest} {r r' : TransactVerificationRequest} {read : Except String S.VerifyingKey}

/-- The answer of the check with the key. -/
def accepts (κ : Crypto) (poseidon : List Fr → Fr) (key : S.VerifyingKey) (r : TransactVerificationRequest) : Bool :=
  verifyTransactProof none (S.withKey (.ok key)) κ poseidon r

theorem accepts_congr (h : r.SameSettlement r') : accepts κ poseidon key r = accepts κ poseidon key r' := by
  cases r
  cases r'
  obtain ⟨rfl, rfl, rfl, rfl, rfl, rfl, rfl⟩ := h
  rfl

/-- What holds of a node that has read no other key, for requests in a set. -/
structure Consistent (κ : Crypto) (poseidon : List Fr → Fr) (key : S.VerifyingKey) (R : Set TransactVerificationRequest)
    (v : Voter S) : Prop where
  read : v.transactVerifyingKey = none ∨ v.transactVerifyingKey = some key
  pool : v.transactCoordinator.isSome → v.shieldedPool = true
  verified : ∀ id r, v.verifiedTransacts.lookup id = some r →
    r ∈ R ∧ id = r.canonicalId κ ∧ accepts κ poseidon key r = true

theorem consistent_new : Consistent κ poseidon key R (Voter.new (S := S) σ runsBridge file) := by
  refine ⟨.inl rfl, fun h => ?_, fun id r h => by cases h⟩
  cases runsBridge
  · cases h
  · rfl

theorem asks_of_equation (h : r.equation (S.withKey answer) κ poseidon = .ok checked) :
    r.WellEncoded ∧ r.Decodable (S.withKey (.ok key)) := by
  obtain ⟨hencoded, ⟨body, hsplit, hbody⟩, -, -⟩ := equation_ok_iff.mp h
  exact ⟨hencoded, body, _, key, hsplit, hbody, rfl⟩

/-- A check answers as with the key, and keeps no other. -/
theorem verify_spec (hv : Consistent κ poseidon key R v) (hread : v.Reads key read r) :
    (v.verify κ poseidon read r).1 = accepts κ poseidon key r ∧
      Consistent κ poseidon key R (v.verify κ poseidon read r).2 := by
  by_cases hasks : r.WellEncoded ∧ r.Decodable (S.withKey (.ok key))
  · have hload : v.getTransactVerifyingKey read = .ok key := by
      unfold Voter.getTransactVerifyingKey
      rcases hv.read with hnone | hsome
      · rw [hnone]
        exact hread hnone hasks.1 hasks.2
      · rw [hsome]
    simp only [Voter.verify, hload]
    refine ⟨rfl, ?_, hv.pool, hv.verified⟩
    dsimp only
    split
    · rename_i k checked hreached
      obtain ⟨-, -, hk, -⟩ := equation_ok_iff.mp hreached
      exact .inr (congrArg some (Except.ok.inj (hload.symm.trans hk)).symm)
    · exact hv.read
  · -- the check does not come to the key
    have hnever : ∀ answer checked, r.equation (S.withKey answer) κ poseidon ≠ .ok checked :=
      fun _ _ hreached => hasks (asks_of_equation hreached)
    have hrefused : ∀ answer, verifyTransactProof none (S.withKey answer) κ poseidon r = false := by
      intro answer
      rw [Bool.eq_false_iff, ne_eq, verifyTransactProof_iff]
      rintro ⟨k, inputs, proof, hreached, -⟩
      exact hnever answer _ hreached
    refine ⟨(hrefused _).trans (hrefused _).symm, ?_, hv.pool, hv.verified⟩
    simp only [Voter.verify]
    split
    · rename_i hreached
      exact absurd hreached (hnever _ _)
    · exact hv.read

theorem consistent_remember (hv : Consistent κ poseidon key R v) (hr : r ∈ R) (hid : r.requestId = r.canonicalId κ)
    (haccepts : accepts κ poseidon key r = true) : Consistent κ poseidon key R (v.remember ι r) := by
  refine ⟨hv.read, hv.pool, fun id r' h => ?_⟩
  rcases Table.lookup_insert_eq_some.mp h with ⟨rfl, rfl⟩ | ⟨-, hkept⟩
  · exact ⟨hr, hid, haccepts⟩
  · refine hv.verified id r' ?_
    unfold makeRoom at hkept
    split at hkept
    · split at hkept
      · rw [Table.lookup_erase_if] at hkept
        split at hkept
        · cases hkept
        · exact hkept
      · exact hkept
    · exact hkept

/-- A vote says what the check of its request answers. -/
def Voted (κ : Crypto) (poseidon : List Fr → Fr) (key : S.VerifyingKey) (R : Set TransactVerificationRequest)
    (result : TransactVerificationResult) : Prop :=
  ∃ r ∈ R, result.requestId = r.canonicalId κ ∧ result.vote.isValid = accepts κ poseidon key r

/-- What a call ends with: a node of which the same holds, and a vote that says what the check answers, if any. -/
def Answers (κ : Crypto) (poseidon : List Fr → Fr) (key : S.VerifyingKey) (R : Set TransactVerificationRequest)
    (answer : Voter S × Option TransactVerificationResult) : Prop :=
  Consistent κ poseidon key R answer.1 ∧ ∀ result ∈ answer.2, Voted κ poseidon key R result

theorem voted_signedVote (hr : r ∈ R) (hid : r.requestId = r.canonicalId κ) (now : Nat)
    (hvote : accepts κ poseidon key r = vote.isValid) :
    ∀ result ∈ σ.signedVote κ now r.requestId vote, Voted κ poseidon key R result := by
  intro result hresult
  obtain ⟨wallet, -, rfl⟩ := Option.map_eq_some_iff.mp hresult
  exact ⟨r, hr, hid, hvote.symm⟩

section Spec

variable (hv : Consistent κ poseidon key R v)
include hv

theorem handleRequest_spec (hsame : ∀ r ∈ R, ∀ r' ∈ R, r.canonicalId κ = r'.canonicalId κ → r.SameSettlement r') (hr : r ∈ R)
    (hread : v.Reads key read r) : Answers κ poseidon key R (v.handleRequest κ σ poseidon ι now read source r) := by
  unfold Voter.handleRequest
  split
  · exact ⟨hv, nofun⟩
  rename_i hid
  rw [not_not] at hid
  split
  · exact ⟨hv, nofun⟩
  rename_i hsource
  by_cases hcached : r.requestId ∈ v.verifiedTransacts
  · -- the request in the map settles the same
    obtain ⟨r', hr'⟩ := Option.isSome_iff_exists.mp (AList.lookup_isSome.mpr hcached)
    obtain ⟨hmem, hid', haccepts⟩ := hv.verified _ r' hr'
    rw [accepts_congr (hsame r' hmem r hr (hid'.symm.trans hid))] at haccepts
    simp only [if_pos hcached]
    exact ⟨consistent_remember hv hr hid haccepts, voted_signedVote hr hid now haccepts⟩
  · have hpool : v.shieldedPool = true := by
      refine hv.pool ?_
      cases hc : v.transactCoordinator with
      | none => simp [hc] at hsource
      | some n => rfl
    obtain ⟨hanswer, hkept⟩ := verify_spec hv hread
    simp only [if_neg hcached, hpool, if_true, hanswer]
    cases haccepts : accepts κ poseidon key r with
    | true => exact ⟨consistent_remember hkept hr hid haccepts, voted_signedVote hr hid now haccepts⟩
    | false => exact ⟨hkept, voted_signedVote hr hid now haccepts⟩

theorem selfVote_spec (hpool : v.shieldedPool = true) (hr : r ∈ R) (hid : r.requestId = r.canonicalId κ)
    (hvote : accepts κ poseidon key r = vote.isValid) :
    Answers κ poseidon key R (v.selfVote κ σ n now received written r.requestId vote) := by
  have hvoted := voted_signedVote (σ := σ) hr hid now hvote
  unfold Voter.selfVote
  split
  · rename_i result hsigned
    rw [hsigned] at hvoted
    exact ⟨⟨hv.read, fun _ => hpool, hv.verified⟩, hvoted⟩
  · exact ⟨⟨hv.read, fun _ => hpool, hv.verified⟩, nofun⟩

theorem initiate_spec (hr : r ∈ R) (hread : v.Reads key read r) :
    Answers κ poseidon key R (v.initiateTransactVerification κ σ poseidon ι now read received written r) := by
  unfold Voter.initiateTransactVerification
  cases hn : v.transactCoordinator with
  | none => exact ⟨hv, nofun⟩
  | some n =>
    have hpool : v.shieldedPool = true := hv.pool (by rw [hn]; rfl)
    dsimp only
    split
    · exact ⟨⟨hv.read, fun _ => hpool, hv.verified⟩, nofun⟩
    · rename_i requestId coordinator hstarted
      obtain ⟨hid, hstart⟩ := ConsensusAux.startVerification_ok hstarted
      obtain rfl : requestId = r.requestId := congrArg Prod.fst hstart
      obtain ⟨hanswer, hkept⟩ := verify_spec hv hread
      rw [hanswer]
      cases haccepts : accepts κ poseidon key r with
      | true =>
        refine selfVote_spec (consistent_remember hkept hr hid haccepts) hpool hr hid ?_
        exact haccepts
      | false =>
        refine selfVote_spec hkept hpool hr hid ?_
        exact haccepts

theorem handle_spec (hsame : ∀ r ∈ R, ∀ r' ∈ R, r.canonicalId κ = r'.canonicalId κ → r.SameSettlement r')
    (hR : ∀ r ∈ e.subject, r ∈ R) (hread : e.ReadsKey key v) : Answers κ poseidon key R (v.handle κ σ poseidon runsBridge e) := by
  cases e with
  | request ι now read source r => exact handleRequest_spec hv hsame (hR r rfl) hread
  | initiate ι now read received written r => exact initiate_spec hv (hR r rfl) hread
  | coordinated n => exact ⟨⟨hv.read, fun h => hv.pool (by simpa [Voter.handle] using h), hv.verified⟩, nofun⟩
  | restart => exact ⟨consistent_new, nofun⟩

end Spec

/-- Every vote of a run says what the check of its request answers with the key. -/
theorem signed_spec (hsame : ∀ r ∈ R, ∀ r' ∈ R, r.canonicalId κ = r'.canonicalId κ → r.SameSettlement r')
    (hR : ∀ e ∈ events, ∀ r ∈ e.subject, r ∈ R) (hv : Consistent κ poseidon key R v)
    (hread : KeyRead κ σ poseidon runsBridge key v events) :
    ∀ result ∈ v.signed κ σ poseidon runsBridge events, Voted κ poseidon key R result := by
  induction events generalizing v with
  | nil => exact nofun
  | cons e events ih =>
    obtain ⟨hkept, hvoted⟩ := handle_spec hv hsame (hR e (by simp)) hread.1
    intro result hresult
    rcases List.mem_append.mp hresult with hnow | hlater
    · exact hvoted result (Option.mem_toList.mp hnow)
    · exact ih (fun e' he' => hR e' (by simp [he'])) hkept hread.2 result hlater

end HonestVotesAux

open HonestVotesAux

/-- In every run of a node in which each check that has to read the verifying key reads the same one, and no two requests
collide in their hash: the votes that the node signs on a request agree. -/
theorem honest_votes_agree {κ : Crypto} {σ : NodeSettings} {poseidon : List Fr → Fr} (runsBridge : Bool)
    (file : Option (Finset String)) {key : S.VerifyingKey} {events : List (VoterEvent S)}
    (hread : KeyRead κ σ poseidon runsBridge key (.new σ runsBridge file) events) (hids : NoCollision κ events) :
    ∀ result ∈ (Voter.new σ runsBridge file).signed κ σ poseidon runsBridge events,
      ∀ result' ∈ (Voter.new σ runsBridge file).signed κ σ poseidon runsBridge events,
        result.requestId = result'.requestId → result.vote.isValid = result'.vote.isValid := by
  have hsame : ∀ r ∈ {r | ∃ e ∈ events, r ∈ e.subject}, ∀ r' ∈ {r | ∃ e ∈ events, r ∈ e.subject},
      r.canonicalId κ = r'.canonicalId κ → r.SameSettlement r' := by
    rintro r ⟨e, he, hr⟩ r' ⟨e', he', hr'⟩ hid
    exact sameSettlement_of_canonicalBytes (hids.fits e he r hr) (hids.fits e' he' r' hr')
      (hids.apart e he e' he' r hr r' hr' (canonicalId_inj hid))
  have hvoted := signed_spec hsame (fun e he r hr => ⟨e, he, hr⟩) (consistent_new) hread
  intro result hresult result' hresult' hid
  obtain ⟨r, hr, hrequest, hvote⟩ := hvoted result hresult
  obtain ⟨r', hr', hrequest', hvote'⟩ := hvoted result' hresult'
  rw [hvote, hvote', accepts_congr (hsame r hr r' hr' (hrequest.symm.trans (hid.trans hrequest')))]

namespace HonestSample

open FramingSample CoSignSample

/-- A library that decodes every proof and accepts it. -/
def proofSystem : ProofSystem where
  Proof := Bytes
  VerifyingKey := Unit
  deserializeCompressed := .ok
  getTransactVerifyingKey := .ok ()
  verify _ _ _ := .ok true

/-- A withdrawal with a tagged proof, under its canonical id. -/
def tagged : TransactVerificationRequest :=
  let request := { ApprovalSample.request with proof := 1 :: .replicate 128 0 }
  { request with requestId := request.canonicalId anyVote }

def initiated (now : Nat) (read : Except String Unit) : VoterEvent proofSystem :=
  .initiate firstKey now read true .done tagged

/-- The node starts the request, restarts, and is asked about it by a peer. -/
def restarted : List (VoterEvent proofSystem) :=
  [initiated 1700000001 (.ok ()), .restart, .request firstKey 1700000002 (.ok ()) [2] tagged]

/-- The node starts the request twice, before and after the file of the key is there. -/
def recovered : List (VoterEvent proofSystem) :=
  [initiated 1700000001 (.error "not found"), initiated 1700000002 (.ok ())]

end HonestSample

open FramingSample HonestSample in
/-- The node votes for the request before and after a restart. -/
theorem honest_votes_agree_restarted : (Voter.new lone true none).signed anyVote lone (fun _ => 0) true restarted ≠ [] ∧
    ∀ result ∈ (Voter.new lone true none).signed anyVote lone (fun _ => 0) true restarted,
      ∀ result' ∈ (Voter.new lone true none).signed anyVote lone (fun _ => 0) true restarted,
        result.requestId = result'.requestId → result.vote.isValid = result'.vote.isValid := by
  have hread : KeyRead (S := proofSystem) anyVote lone (fun _ => 0) true () (.new lone true none) restarted :=
    ⟨fun _ _ _ => rfl, trivial, fun _ _ _ => rfl, trivial⟩
  refine ⟨by decide +kernel, honest_votes_agree true none hread ⟨?_, ?_⟩⟩
  · simp [restarted, initiated, VoterEvent.subject, tagged]
  · simp [restarted, initiated, VoterEvent.subject]

open FramingSample HonestSample in
/-- The node has signed both ways on one request, and has banned itself on its own disk. -/
theorem honest_voter_bans_itself :
    ((Voter.new lone true none).signed anyVote lone (fun _ => 0) true recovered).map (fun r => (r.requestId, r.vote.isValid)) =
      [(tagged.requestId, false), (tagged.requestId, true)] ∧
    (((Voter.new lone true none).run anyVote lone (fun _ => 0) true recovered).transactCoordinator.bind (·.equivocatorsFile)) =
      some {walletName ApprovalSample.operator} := by
  decide +kernel

end Paraloom.OffChain
