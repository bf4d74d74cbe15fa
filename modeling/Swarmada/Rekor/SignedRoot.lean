import Swarmada.Rekor.Inclusion

namespace Swarmada.Rekor

open Hash

variable {δ κ : Type} [DecidableEq δ] {lib : Primitives δ κ} {entry : LogEntry} {hash : String} {logKey : LogKey κ}

def Verified (lib : Primitives δ κ) (entry : LogEntry) (hash : String) (logKey : LogKey κ) : Prop :=
  ∃ fuel, verifyEntry lib fuel entry hash logKey = some (.ok ())

theorem verified_iff : Verified lib entry hash logKey ↔
    entryCoversArtifact lib entry hash = .ok () ∧ Accepts lib entry ∧ verifySET lib entry logKey = .ok () := by
  constructor
  · rintro ⟨fuel, verified⟩
    rw [verifyEntry] at verified
    split at verified
    · cases verified
    rename_i covers
    split at verified
    · cases verified
    · cases verified
    next included =>
      exact ⟨covers, ⟨fuel, included⟩, Option.some.inj verified⟩
  · rintro ⟨covers, ⟨fuel, included⟩, signed⟩
    refine ⟨fuel, ?_⟩
    simp only [verifyEntry, covers, included, signed]

def LogEntry.withProof (entry : LogEntry) (proof : InclusionProof) : LogEntry :=
  { entry with inclusionProof := proof }

def alone (lib : Primitives δ κ) (value : Bytes) : InclusionProof where
  logIndex := 0
  rootHash := lib.hexDigest (lib.hash.leaf value)
  treeSize := 1

/-- The entry as the first of two leaves, the other one unknown. -/
def paired (lib : Primitives δ κ) (value : Bytes) (sibling : δ) : InclusionProof where
  hashes := [lib.hexDigest sibling]
  logIndex := 0
  rootHash := lib.hexDigest (lib.hash.node (lib.hash.leaf value) sibling)
  treeSize := 2

section

variable {value : Bytes} (hex : ∀ digest, lib.decodeDigest (lib.hexDigest digest) = some digest)
include hex

theorem accepts_alone (decoded : lib.decodeBase64 entry.body = .ok value) :
    Accepts lib (entry.withProof (alone lib value)) :=
  (accepts_iff rfl rfl (by decide : 0 < 1)).2 ⟨value, [], [], decoded, rfl, .done 0 1, rfl, hex _⟩

theorem accepts_paired (decoded : lib.decodeBase64 entry.body = .ok value) (sibling : δ) :
    Accepts lib (entry.withProof (paired lib value sibling)) := by
  refine (accepts_iff rfl rfl (by decide : 0 < 2)).2 ⟨value, [sibling], [false], decoded, ?_, ?_, rfl, hex _⟩
  · exact congrArg (fun first => [first]) (hex sibling)
  · exact .right (by decide) (by decide) (.done _ _)

/-- A server with one signed answer picks the root: the answers of one signed entry agree on it
only when there is none that is accepted. -/
theorem root_bound_iff (entry : LogEntry) (hash : String) (logKey : LogKey κ) :
    (∀ proof proof', Verified lib (entry.withProof proof) hash logKey →
      Verified lib (entry.withProof proof') hash logKey →
      proof.rootHash = proof'.rootHash ∧ proof.treeSize = proof'.treeSize) ↔
    ¬ (entryCoversArtifact lib entry hash = .ok () ∧ verifySET lib entry logKey = .ok ()) := by
  constructor
  · rintro bound ⟨covers, signed⟩
    have body : ∃ value, lib.decodeBase64 entry.body = .ok value := by
      rw [entryCoversArtifact] at covers
      split at covers
      · cases covers
      next decoded =>
        exact ⟨_, decoded⟩
    obtain ⟨value, decoded⟩ := body
    have one : Verified lib (entry.withProof (alone lib value)) hash logKey :=
      verified_iff.2 ⟨covers, accepts_alone hex decoded, signed⟩
    have two : Verified lib (entry.withProof (paired lib value (lib.hash.leaf value))) hash logKey :=
      verified_iff.2 ⟨covers, accepts_paired hex decoded _, signed⟩
    exact absurd (bound _ _ one two).2 (by decide : (1 : Int) ≠ 2)
  · intro unsigned proof proof' verified _
    obtain ⟨covers, _, signed⟩ := verified_iff.1 verified
    exact absurd ⟨covers, signed⟩ unsigned

end

def signedOnce : LogEntry where
  body := "a"
  integratedTime := 7
  logID := "log"
  logIndex := 0
  signedEntryTimestamp := "s"
  inclusionProof := alone unary [97]

def signer : Primitives Nat Unit :=
  { unary with ed25519Verify := fun _ payload _ => payload == canonicalSETPayload unary signedOnce }

theorem signer_digest (digest : Nat) : signer.decodeDigest (signer.hexDigest digest) = some digest := unary_digest digest

theorem signedOnce_decoded : signer.decodeBase64 signedOnce.body = .ok [97] := unary_base64 [97]

theorem signedOnce_covers : entryCoversArtifact signer signedOnce "sha256:a" = .ok () := by
  have want : signer.toLower (trimSha256 "sha256:a") = "a" := by decide +kernel
  have text : signer.toLower (signer.text [97]) = "a" := by decide +kernel
  simp [entryCoversArtifact, signedOnce_decoded, want, text]

theorem signedOnce_signed : verifySET signer signedOnce ⟨.ed25519, ()⟩ = .ok () := by
  have decoded : signer.decodeBase64 signedOnce.signedEntryTimestamp = .ok [115] := unary_base64 [115]
  have same : canonicalSETPayload signer signedOnce = canonicalSETPayload unary signedOnce := rfl
  have verifies : signer.ed25519Verify () (canonicalSETPayload signer signedOnce) [115] = true := beq_iff_eq.2 same
  rw [verifySET, if_neg (by decide : signedOnce.signedEntryTimestamp ≠ "")]
  simp only [decoded, verifies, if_true]

theorem root_bound_unsigned : verifySET signer { signedOnce with signedEntryTimestamp := "" } ⟨.ed25519, ()⟩ ≠ .ok () ∧
    ∀ proof proof', Verified signer ({ signedOnce with signedEntryTimestamp := "" }.withProof proof) "sha256:a" ⟨.ed25519, ()⟩ →
      Verified signer ({ signedOnce with signedEntryTimestamp := "" }.withProof proof') "sha256:a" ⟨.ed25519, ()⟩ →
      proof.rootHash = proof'.rootHash ∧ proof.treeSize = proof'.treeSize :=
  ⟨by simp [verifySET], (root_bound_iff signer_digest _ _ _).2 fun both => by simp [verifySET] at both⟩

/-- One signed entry, accepted under two roots of two tree sizes. -/
theorem two_roots : Verified signer (signedOnce.withProof (alone signer [97])) "sha256:a" ⟨.ed25519, ()⟩ ∧
      Verified signer (signedOnce.withProof (paired signer [97] 5)) "sha256:a" ⟨.ed25519, ()⟩ ∧
      (alone signer [97]).rootHash ≠ (paired signer [97] 5).rootHash := by
  refine ⟨verified_iff.2 ⟨signedOnce_covers, accepts_alone signer_digest signedOnce_decoded, signedOnce_signed⟩,
    verified_iff.2 ⟨signedOnce_covers, accepts_paired signer_digest signedOnce_decoded 5, signedOnce_signed⟩, ?_⟩
  intro same
  have roots := congrArg signer.decodeDigest same
  exact unary_free.disjoint _ _ _ (Option.some.inj ((signer_digest _).symm.trans (roots.trans (signer_digest _))))

end Swarmada.Rekor
