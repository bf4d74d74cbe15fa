import Mathlib.Data.List.Infix
import Swarmada.Estopscope.Holder
import Swarmada.Hash.Merkle

/-! # Transparency-log entries

The check of a log entry that a server returns for an artifact: the entry covers the artifact,
its inclusion proof reaches the root it claims, and the pinned key signed it.
-/

namespace Swarmada.Rekor

open Estopscope Hash

abbrev Bytes := List UInt8

structure InclusionProof where
  hashes : List String := []
  logIndex : Int
  rootHash : String
  treeSize : Int
deriving DecidableEq, Repr

structure LogEntry where
  body : String
  integratedTime : Int := 0
  logID : String := ""
  logIndex : Int := 0
  signedEntryTimestamp : String := ""
  inclusionProof : InclusionProof
deriving DecidableEq, Repr

inductive KeyType where
  | ecdsa | ed25519 | rsa
  | other (name : String)
deriving DecidableEq, Repr

structure LogKey (κ : Type) where
  type : KeyType
  key : κ

/-- What the check takes from the libraries.  A digest `δ` is what 32 bytes of hex stand for,
and `hash` is SHA-256 behind the leaf or the node byte of RFC 6962. -/
structure Primitives (δ κ : Type) where
  decodeBase64 : String → Except String Bytes
  decodeDigest : String → Option δ
  hexDigest : δ → String
  hash : TreeHash Bytes δ
  text : Bytes → String
  toLower : String → String
  jsonString : String → String
  sum256 : String → Bytes
  verifyASN1 : κ → Bytes → Bytes → Bool
  ed25519Verify : κ → String → Bytes → Bool
  verifyPKCS1v15 : κ → Bytes → Bytes → Option String

variable {δ κ : Type} (lib : Primitives δ κ)

def shift : Nat → Nat → Nat → Option (Nat × Nat)
  | 0, index, size => if index % 2 = 0 then none else some (index, size)
  | fuel + 1, index, size => if index % 2 = 0 then shift fuel (index / 2) (size / 2) else some (index, size)

def recompute (fuel : Nat) : List String → δ → Nat → Nat → Option (Except String δ)
  | [], computed, _, _ => some (.ok computed)
  | text :: rest, computed, index, size =>
    match lib.decodeDigest text with
    | none => some (.error ("inclusion proof contains a malformed sibling hash " ++ quote text))
    | some sibling =>
      if size = 0 then some (.error "inclusion proof is longer than the tree depth allows")
      else if index % 2 = 1 ∨ index + 1 = size then
        match shift fuel index size with
        | none => none
        | some (index, size) => recompute fuel rest (lib.hash.node sibling computed) (index / 2) (size / 2)
      else recompute fuel rest (lib.hash.node computed sibling) (index / 2) (size / 2)

variable [DecidableEq δ]

def verifyInclusionProof (fuel : Nat) (entry : LogEntry) : Option (Except String Unit) :=
  let proof := entry.inclusionProof
  if proof.treeSize ≤ 0 ∨ proof.logIndex < 0 ∨ proof.treeSize ≤ proof.logIndex then
    some (.error ("inclusion proof has an out-of-range index " ++ toString proof.logIndex ++ " for tree size " ++
      toString proof.treeSize))
  else
    match lib.decodeDigest proof.rootHash with
    | none => some (.error ("inclusion proof rootHash " ++ quote proof.rootHash ++ " is not a sha256 hex digest"))
    | some root =>
      match lib.decodeBase64 entry.body with
      | .error error => some (.error ("entry body is not valid base64: " ++ error))
      | .ok leafBytes =>
        match recompute lib fuel proof.hashes (lib.hash.leaf leafBytes) proof.logIndex.toNat proof.treeSize.toNat with
        | none => none
        | some (.error error) => some (.error error)
        | some (.ok computed) =>
          if computed = root then some (.ok ())
          else some (.error ("inclusion proof does not reach the claimed root (computed " ++
            lib.hexDigest computed ++ ", claimed " ++ proof.rootHash ++ ")"))

omit [DecidableEq δ] in
def trimSha256 (hash : String) : String :=
  if "sha256:".toList.isPrefixOf hash.toList then String.ofList (hash.toList.drop 7) else hash

omit [DecidableEq δ] in
def entryCoversArtifact (entry : LogEntry) (hash : String) : Except String Unit :=
  match lib.decodeBase64 entry.body with
  | .error error => .error ("entry body is not valid base64: " ++ error)
  | .ok raw =>
    let want := lib.toLower (trimSha256 hash)
    if want = "" ∨ ¬ want.toList <:+: (lib.toLower (lib.text raw)).toList then
      .error ("entry does not reference artifact digest " ++ hash)
    else .ok ()

def canonicalSETPayload (entry : LogEntry) : String :=
  "\x7b" ++ lib.jsonString "body" ++ ":" ++ lib.jsonString entry.body ++ "," ++
    lib.jsonString "integratedTime" ++ ":" ++ toString entry.integratedTime ++ "," ++
    lib.jsonString "logID" ++ ":" ++ lib.jsonString entry.logID ++ "," ++
    lib.jsonString "logIndex" ++ ":" ++ toString entry.logIndex ++ "\x7d"

def verifySET (entry : LogEntry) (logKey : LogKey κ) : Except String Unit :=
  if entry.signedEntryTimestamp = "" then .error "entry carries no signedEntryTimestamp"
  else
    match lib.decodeBase64 entry.signedEntryTimestamp with
    | .error error => .error ("signedEntryTimestamp is not valid base64: " ++ error)
    | .ok signature =>
      let payload := canonicalSETPayload lib entry
      let unverified := "signedEntryTimestamp does not verify against the pinned log key"
      match logKey.type with
      | .ecdsa =>
        if lib.verifyASN1 logKey.key (lib.sum256 payload) signature then .ok () else .error unverified
      | .ed25519 => if lib.ed25519Verify logKey.key payload signature then .ok () else .error unverified
      | .rsa =>
        match lib.verifyPKCS1v15 logKey.key (lib.sum256 payload) signature with
        | none => .ok ()
        | some error => .error (unverified ++ ": " ++ error)
      | .other name => .error ("unsupported rekorPublicKey type " ++ name)

def verifyEntry (fuel : Nat) (entry : LogEntry) (hash : String) (logKey : LogKey κ) : Option (Except String Unit) :=
  match entryCoversArtifact lib entry hash with
  | .error error => some (.error error)
  | .ok () =>
    match verifyInclusionProof lib fuel entry with
    | none => none
    | some (.error error) => some (.error error)
    | some (.ok ()) => some (verifySET lib entry logKey)

end Swarmada.Rekor
