/-
The content-addressed store of artifacts.  The name of an artifact, the digest
in its manifest and the name of its blob are three places for one hash, and each
operation trusts the place that it reads.  On any contents of the directory the
store keeps its promises exactly where these places agree.
-/
import Mathlib.Data.Set.Function
import HermesPipeline.Contracts
import HermesPipeline.DateTimes
import HermesPipeline.Lib.Keyed

namespace HermesPipeline

open Lib

namespace LocalCas

/-- `_HEX_DIGEST.fullmatch`. -/
def isHexDigest (text : String) : Bool :=
  text.toList.length = 64 &&
    text.toList.all fun c => c.isDigit || ('a' ≤ c && c ≤ 'f')

/-- `hashlib.sha256(payload).hexdigest()`. -/
structure Sha256 where
  hexdigest : List UInt8 → String
  isHex : ∀ payload, isHexDigest (hexdigest payload) = true

/-- What is read from a manifest file. -/
inductive ManifestFile
  | document (value : Json)
  /-- A `UnicodeDecodeError` or a `JSONDecodeError`. -/
  | undecodable
  /-- Any other exception of the parser, for a document that is nested too deep
  or a number with too many digits. -/
  | unparsable

/-- The regular files of the two folders by their names. -/
structure Disk where
  blobs : Dict String (List UInt8)
  manifests : Dict String ManifestFile

inductive CasError
  | artifactNotFound (artifactId : String)
  | osError
  | attributeError
  | parserError
  | validationError
deriving DecidableEq

/-- The longest name of a file. -/
def nameMax : Nat := 255

/-- `_manifest_path`. -/
def manifestName (artifactId : String) : String := artifactId ++ ".json"

/-- `document.get("content_digest")` up to the hash in it. -/
def contentDigest (members : List (String × Json)) : Option String :=
  match Json.member? members "content_digest" with
  | some (.str text) =>
      if "sha256:".toList.isPrefixOf text.toList then
        let hexDigest := String.ofList (text.toList.drop 7)
        if isHexDigest hexDigest then some hexDigest else none
      else none
  | _ => none

/-- `_resolve_blob`, with the name of the blob. -/
def resolveBlob (disk : Disk) (artifactId : String) : Except CasError (Option String) :=
  if !matchesScope "art_" artifactId then .ok none
  else if (manifestName artifactId).length > nameMax then .error .osError
  else
    match disk.manifests.get? (manifestName artifactId) with
    | none => .ok none
    | some .undecodable => .ok none
    | some .unparsable => .error .parserError
    | some (.document (.obj members)) => .ok (contentDigest members)
    | some (.document _) => .error .attributeError

variable (sha256 : Sha256)

/-- `_blob_matches`. -/
def blobMatches (disk : Disk) (digest : String) : Bool :=
  match disk.blobs.get? digest with
  | none => false
  | some bytes => sha256.hexdigest bytes = digest

/-- `LocalCasArtifacts.open`. -/
def openArtifact (disk : Disk) (artifactId : String) : Except CasError (List UInt8) :=
  match resolveBlob disk artifactId with
  | .error error => .error error
  | .ok none => .error (.artifactNotFound artifactId)
  | .ok (some digest) =>
      match disk.blobs.get? digest with
      | none => .error (.artifactNotFound artifactId)
      | some bytes => .ok bytes

/-- `LocalCasArtifacts.verify`. -/
def verify (disk : Disk) (artifactId : String) : Except CasError Bool :=
  match resolveBlob disk artifactId with
  | .error error => .error error
  | .ok none => .ok false
  | .ok (some digest) => .ok (blobMatches sha256 disk digest)

def artifactId (digest : String) : String := "art_" ++ digest

/-- `_manifest_bytes`, without the members that are the same in every manifest
and without the hash of the manifest itself. -/
def manifestFile (digest : String) (byteSize : Nat) (createdAt : String) :
    ManifestFile :=
  .document (.obj
    [("artifact_id", .str (artifactId digest)),
      ("byte_size", .int byteSize),
      ("content_digest", .str ("sha256:" ++ digest)),
      ("created_at", .str createdAt)])

structure ArtifactRecord where
  artifactId : String
  digest : String
deriving DecidableEq

/-- `LocalCasArtifacts.put` with the store's time of creation, or the present
one.  The time is looked at only for a new manifest, when the blob is written. -/
def put (disk : Disk) (payload : List UInt8) (createdAt : String) :
    Except CasError ArtifactRecord × Disk :=
  let digest := sha256.hexdigest payload
  let name := manifestName (artifactId digest)
  let disk :=
    if blobMatches sha256 disk digest then disk
    else { disk with blobs := disk.blobs.set digest payload }
  if (disk.manifests.get? name).isSome then (.ok ⟨artifactId digest, digest⟩, disk)
  else
    match DateTimes.validateUtcTimestamp createdAt with
    | none => (.error .validationError, disk)
    | some createdAt =>
        (.ok ⟨artifactId digest, digest⟩,
          { disk with
            manifests := disk.manifests.set name
              (manifestFile digest payload.length createdAt) })

/-- The operations of the store. -/
inductive Op
  | put (payload : List UInt8) (createdAt : String)
  | openArtifact (artifactId : String)
  | verify (artifactId : String)

def step (disk : Disk) : Op → Disk
  | .put payload createdAt => (put sha256 disk payload createdAt).2
  | .openArtifact _ => disk
  | .verify _ => disk

/-- A result, or `ArtifactNotFound`. -/
def Settles {α : Type} (artifactId : String) (outcome : Except CasError α) : Prop :=
  (∃ value, outcome = .ok value) ∨ outcome = .error (.artifactNotFound artifactId)

/-- What is promised of one operation. -/
def StepSound (disk : Disk) : Op → Prop
  | .put payload createdAt =>
      let after := (put sha256 disk payload createdAt).2
      (∀ record, (put sha256 disk payload createdAt).1 = .ok record →
        verify sha256 after record.artifactId = .ok true ∧
          openArtifact after record.artifactId = .ok payload) ∧
        ∀ other, other ≠ artifactId (sha256.hexdigest payload) →
          openArtifact after other = openArtifact disk other
  | .openArtifact id => Settles id (openArtifact disk id)
  | .verify id =>
      Settles id (verify sha256 disk id) ∧
        ∀ h, isHexDigest h = true → id = artifactId h →
          verify sha256 disk id = .ok true →
            ∃ bytes, openArtifact disk id = .ok bytes ∧ sha256.hexdigest bytes = h

/-- The manifest of the artifact names the blob. -/
def Names (disk : Disk) (id digest : String) : Prop :=
  resolveBlob disk id = .ok (some digest)

/-- The name of the manifest is short enough for a file, and a manifest that is
there parses to an object or is reported as undecodable. -/
def Readable (disk : Disk) (id : String) : Prop :=
  matchesScope "art_" id = true →
    (manifestName id).length ≤ nameMax ∧
      ∀ file, disk.manifests.get? (manifestName id) = some file →
        file = .undecodable ∨ ∃ members, file = .document (.obj members)

/-- The three places agree as far as the operation reads them. -/
def Agrees (disk : Disk) : Op → Prop
  | .put payload _ =>
      let digest := sha256.hexdigest payload
      (disk.manifests.get? (manifestName (artifactId digest)) ≠ none →
        Names disk (artifactId digest) digest) ∧
      (blobMatches sha256 disk digest = true ∨
        ∀ other, other ≠ artifactId digest → ¬ Names disk other digest)
  | .openArtifact id => Readable disk id
  | .verify id =>
      Readable disk id ∧
        ∀ h, isHexDigest h = true → id = artifactId h →
          ∀ digest, Names disk id digest → blobMatches sha256 disk digest = true →
            digest = h

section Names

/-- The id of a digest passes the pattern, and its manifest has a short name. -/
theorem artifactId_matches {digest : String} (hhex : isHexDigest digest = true) :
    matchesScope "art_" (artifactId digest) = true := by
  rw [isHexDigest, Bool.and_eq_true, decide_eq_true_eq, List.all_eq_true] at hhex
  obtain ⟨hlength, hchars⟩ := hhex
  apply matchesScope_of_mem digest.toList
  · rw [artifactId, String.toList_append]
  · intro hnil
    rw [hnil] at hlength
    simp at hlength
  · intro c hc
    have hclass := hchars c hc
    rw [Bool.or_eq_true, Bool.and_eq_true, decide_eq_true_eq, decide_eq_true_eq]
      at hclass
    rcases hclass with hdigit | ⟨hlow, hhigh⟩
    · simp [isIdentChar, Char.isAlphanum, hdigit]
    · have htop : c ≤ 'z' := hhigh.trans (by decide)
      have hlower : c.isLower = true :=
        Bool.and_eq_true_iff.mpr ⟨decide_eq_true hlow, decide_eq_true htop⟩
      have halpha : c.isAlpha = true := Bool.or_eq_true_iff.mpr (.inr hlower)
      simp [isIdentChar, Char.isAlphanum, halpha]

theorem manifestName_short {digest : String} (hhex : isHexDigest digest = true) :
    (manifestName (artifactId digest)).length ≤ nameMax := by
  rw [isHexDigest, Bool.and_eq_true, decide_eq_true_eq] at hhex
  have hlength : digest.length = 64 := hhex.1
  have hart : "art_".length = 4 := rfl
  have hjson : ".json".length = 5 := rfl
  rw [manifestName, artifactId, String.length_append, String.length_append, hlength,
    hart, hjson, nameMax]
  omega

theorem manifestName_injective {id other : String}
    (hsame : manifestName id = manifestName other) : id = other := by
  apply String.toList_injective
  have hchars := congrArg String.toList hsame
  rw [manifestName, manifestName, String.toList_append, String.toList_append] at hchars
  exact List.append_cancel_right hchars

/-- The manifest that a put writes names the digest. -/
theorem contentDigest_manifestFile {digest : String} (hhex : isHexDigest digest = true)
    (byteSize : Nat) (createdAt : String) :
    ∃ members, manifestFile digest byteSize createdAt = .document (.obj members) ∧
      contentDigest members = some digest := by
  refine ⟨_, rfl, ?_⟩
  simp [contentDigest, Json.member?, hhex]

end Names

section Resolve

variable {disk disk' : Disk} {id : String}

/-- An id is resolved through its own manifest file only. -/
theorem resolveBlob_congr
    (hsame : disk'.manifests.get? (manifestName id) =
      disk.manifests.get? (manifestName id)) :
    resolveBlob disk' id = resolveBlob disk id := by
  rw [resolveBlob, resolveBlob, hsame]

theorem openArtifact_of_names {digest : String} (hnames : Names disk id digest) :
    openArtifact disk id =
      match disk.blobs.get? digest with
      | none => .error (.artifactNotFound id)
      | some bytes => .ok bytes := by
  rw [openArtifact, hnames]

theorem verify_of_names {digest : String} (hnames : Names disk id digest) :
    verify sha256 disk id = .ok (blobMatches sha256 disk digest) := by
  rw [verify, hnames]

theorem blobMatches_iff {digest : String} :
    blobMatches sha256 disk digest = true ↔
      ∃ bytes, disk.blobs.get? digest = some bytes ∧
        sha256.hexdigest bytes = digest := by
  rw [blobMatches]
  cases disk.blobs.get? digest with
  | none => simp
  | some bytes => simp

theorem names_of_verify (hverify : verify sha256 disk id = .ok true) :
    ∃ digest, Names disk id digest ∧ blobMatches sha256 disk digest = true := by
  rw [verify] at hverify
  split at hverify
  · simp at hverify
  · simp at hverify
  · rename_i digest hnames
    exact ⟨digest, hnames, Except.ok.inj hverify⟩

end Resolve

section Put

variable (disk : Disk) (payload : List UInt8) (createdAt : String)

theorem put_blobs :
    (put sha256 disk payload createdAt).2.blobs =
      if blobMatches sha256 disk (sha256.hexdigest payload) then disk.blobs
      else disk.blobs.set (sha256.hexdigest payload) payload := by
  rw [put, ← apply_ite Disk.blobs (blobMatches sha256 disk (sha256.hexdigest payload) = true)
    disk { disk with blobs := disk.blobs.set (sha256.hexdigest payload) payload }]
  generalize (if blobMatches sha256 disk (sha256.hexdigest payload) then disk
    else { disk with blobs := disk.blobs.set (sha256.hexdigest payload) payload }) = written
  split
  · rfl
  · cases DateTimes.validateUtcTimestamp createdAt with
    | none => rfl
    | some stamp => rfl

/-- How a put ends: a manifest that is there stays, a missing one is written
unless its time is refused. -/
theorem put_cases :
    (∃ file,
      disk.manifests.get? (manifestName (artifactId (sha256.hexdigest payload))) =
        some file ∧
      (put sha256 disk payload createdAt).1 =
        .ok ⟨artifactId (sha256.hexdigest payload), sha256.hexdigest payload⟩ ∧
      (put sha256 disk payload createdAt).2.manifests = disk.manifests) ∨
    disk.manifests.get? (manifestName (artifactId (sha256.hexdigest payload))) = none ∧
      ((put sha256 disk payload createdAt).1 = .error .validationError ∧
          (put sha256 disk payload createdAt).2.manifests = disk.manifests ∨
        ∃ stamp,
          (put sha256 disk payload createdAt).1 =
            .ok ⟨artifactId (sha256.hexdigest payload), sha256.hexdigest payload⟩ ∧
          (put sha256 disk payload createdAt).2.manifests =
            disk.manifests.set (manifestName (artifactId (sha256.hexdigest payload)))
              (manifestFile (sha256.hexdigest payload) payload.length stamp)) := by
  have hkept : (if blobMatches sha256 disk (sha256.hexdigest payload) then disk
      else { disk with
        blobs := disk.blobs.set (sha256.hexdigest payload) payload }).manifests =
      disk.manifests := by
    split <;> rfl
  cases hthere : disk.manifests.get?
      (manifestName (artifactId (sha256.hexdigest payload))) with
  | some file =>
      refine .inl ⟨file, rfl, ?_, ?_⟩
      · simp only [put, hkept, hthere, Option.isSome_some, if_true]
      · simp only [put, hkept, hthere, Option.isSome_some, if_true]
  | none =>
      refine .inr ⟨rfl, ?_⟩
      cases hstamp : DateTimes.validateUtcTimestamp createdAt with
      | none =>
          refine .inl ⟨?_, ?_⟩
          · simp [put, hkept, hthere, hstamp]
          · simp [put, hkept, hthere, hstamp]
      | some stamp =>
          refine .inr ⟨stamp, ?_, ?_⟩
          · simp [put, hkept, hthere, hstamp]
          · simp [put, hkept, hthere, hstamp]

/-- The blob is there after a put; an intact one that was there is kept. -/
theorem put_blob (hfree : ∀ bytes,
      disk.blobs.get? (sha256.hexdigest payload) = some bytes →
        sha256.hexdigest bytes = sha256.hexdigest payload → bytes = payload) :
    (put sha256 disk payload createdAt).2.blobs.get? (sha256.hexdigest payload) =
      some payload := by
  rw [put_blobs]
  split
  · rename_i hmatches
    obtain ⟨bytes, hbytes, hdigest⟩ := (blobMatches_iff sha256).mp hmatches
    rw [hbytes, hfree bytes hbytes hdigest]
  · exact Dict.get?_set_self _ _ _

theorem put_blob_other {name : String} (hne : name ≠ sha256.hexdigest payload) :
    (put sha256 disk payload createdAt).2.blobs.get? name =
      disk.blobs.get? name := by
  rw [put_blobs]
  split
  · rfl
  · exact Dict.get?_set_of_ne _ _ hne

theorem resolveBlob_put_other {id : String}
    (hne : id ≠ artifactId (sha256.hexdigest payload)) :
    resolveBlob (put sha256 disk payload createdAt).2 id = resolveBlob disk id := by
  apply resolveBlob_congr
  rcases put_cases sha256 disk payload createdAt with
    ⟨_, _, _, hkept⟩ | ⟨_, ⟨_, hkept⟩ | ⟨stamp, _, hwritten⟩⟩
  · rw [hkept]
  · rw [hkept]
  · rw [hwritten]
    apply Dict.get?_set_of_ne
    intro hsame
    exact hne (manifestName_injective hsame)

/-- After a put that returns the manifest names the blob if it did so before or
was missing. -/
theorem put_names_iff {record : ArtifactRecord}
    (hput : (put sha256 disk payload createdAt).1 = .ok record) :
    Names (put sha256 disk payload createdAt).2
        (artifactId (sha256.hexdigest payload)) (sha256.hexdigest payload) ↔
      (disk.manifests.get?
          (manifestName (artifactId (sha256.hexdigest payload))) ≠ none →
        Names disk (artifactId (sha256.hexdigest payload))
          (sha256.hexdigest payload)) := by
  rcases put_cases sha256 disk payload createdAt with
    ⟨file, hthere, _, hkept⟩ | ⟨hmissing, ⟨hraised, _⟩ | ⟨stamp, _, hwritten⟩⟩
  · rw [Names, resolveBlob_congr (congrArg (fun manifests : Dict String ManifestFile =>
      manifests.get? _) hkept)]
    simp [Names, hthere]
  · simp [hraised] at hput
  · have hhex := sha256.isHex payload
    obtain ⟨members, hfile, hcontent⟩ :=
      contentDigest_manifestFile hhex payload.length stamp
    rw [hfile] at hwritten
    have hshort := manifestName_short hhex
    have hnames : Names (put sha256 disk payload createdAt).2
        (artifactId (sha256.hexdigest payload)) (sha256.hexdigest payload) := by
      rw [Names, resolveBlob, artifactId_matches hhex, hwritten, Dict.get?_set_self]
      simp [hcontent, Nat.not_lt.mpr hshort]
    simp [hnames, hmissing]

/-- What a put returns is the artifact of its payload; one that raises has found
no manifest. -/
theorem put_outcome :
    (put sha256 disk payload createdAt).1 =
        .ok ⟨artifactId (sha256.hexdigest payload), sha256.hexdigest payload⟩ ∨
      (put sha256 disk payload createdAt).1 = .error .validationError ∧
        disk.manifests.get?
          (manifestName (artifactId (sha256.hexdigest payload))) = none := by
  rcases put_cases sha256 disk payload createdAt with
    ⟨_, _, hreturned, _⟩ | ⟨hmissing, ⟨hraised, _⟩ | ⟨_, hreturned, _⟩⟩
  · exact .inl hreturned
  · exact .inr ⟨hraised, hmissing⟩
  · exact .inl hreturned

end Put

section Step

variable {sha256} (disk : Disk)

/-- A put keeps its promise for its own artifact exactly when the manifest that
it leaves in place names the blob. -/
theorem put_own_iff (payload : List UInt8) (createdAt : String)
    (hfree : ∀ bytes, disk.blobs.get? (sha256.hexdigest payload) = some bytes →
      sha256.hexdigest bytes = sha256.hexdigest payload → bytes = payload) :
    (∀ record, (put sha256 disk payload createdAt).1 = .ok record →
        verify sha256 (put sha256 disk payload createdAt).2 record.artifactId =
            .ok true ∧
          openArtifact (put sha256 disk payload createdAt).2 record.artifactId =
            .ok payload) ↔
      (disk.manifests.get?
          (manifestName (artifactId (sha256.hexdigest payload))) ≠ none →
        Names disk (artifactId (sha256.hexdigest payload))
          (sha256.hexdigest payload)) := by
  have hblob := put_blob sha256 disk payload createdAt hfree
  rcases put_outcome sha256 disk payload createdAt with
    hreturned | ⟨hraised, hmissing⟩
  · rw [← put_names_iff sha256 disk payload createdAt hreturned]
    constructor
    · intro hsound
      obtain ⟨hverify, hopen⟩ := hsound _ hreturned
      obtain ⟨digest, hnamed, hmatches⟩ := names_of_verify sha256 hverify
      obtain ⟨bytes, hbytes, hdigest⟩ := (blobMatches_iff sha256).mp hmatches
      rw [openArtifact_of_names hnamed, hbytes] at hopen
      rw [Except.ok.inj hopen] at hdigest
      rw [← hdigest] at hnamed
      exact hnamed
    · intro hnamed record hrecord
      rw [hreturned] at hrecord
      rw [← Except.ok.inj hrecord]
      refine ⟨?_, ?_⟩
      · rw [verify_of_names sha256 hnamed,
          (blobMatches_iff sha256).mpr ⟨_, hblob, rfl⟩]
      · rw [openArtifact_of_names hnamed, hblob]
  · simp [hraised, hmissing]

/-- A put is sound exactly when the manifest that it leaves in place names the
blob, and no other manifest names a blob that the put replaces. -/
theorem put_sound_iff (payload : List UInt8) (createdAt : String)
    (hfree : ∀ bytes, disk.blobs.get? (sha256.hexdigest payload) = some bytes →
      sha256.hexdigest bytes = sha256.hexdigest payload → bytes = payload) :
    StepSound sha256 disk (.put payload createdAt) ↔
      Agrees sha256 disk (.put payload createdAt) := by
  have hblob := put_blob sha256 disk payload createdAt hfree
  rw [StepSound, Agrees]
  apply and_congr (put_own_iff disk payload createdAt hfree)
  constructor
  · intro hothers
    by_contra hnot
    rw [not_or, not_forall] at hnot
    obtain ⟨hmatches, other, hother⟩ := hnot
    rw [Classical.not_imp, not_not] at hother
    obtain ⟨hne, hnamed⟩ := hother
    have hsame := hothers other hne
    have hafter : Names (put sha256 disk payload createdAt).2 other
        (sha256.hexdigest payload) := by
      rw [Names, resolveBlob_put_other sha256 disk payload createdAt hne]
      exact hnamed
    rw [openArtifact_of_names hafter, hblob, openArtifact_of_names hnamed] at hsame
    apply hmatches
    rw [blobMatches_iff]
    cases hbefore : disk.blobs.get? (sha256.hexdigest payload) with
    | none => simp [hbefore] at hsame
    | some bytes =>
        simp only [hbefore, Except.ok.injEq] at hsame
        exact ⟨bytes, rfl, by rw [← hsame]⟩
  · intro hagrees other hne
    have hresolve := resolveBlob_put_other sha256 disk payload createdAt hne
    cases hresolved : resolveBlob disk other with
    | error error => rw [openArtifact, openArtifact, hresolve, hresolved]
    | ok named =>
        cases named with
        | none => rw [openArtifact, openArtifact, hresolve, hresolved]
        | some digest =>
            rw [openArtifact_of_names hresolved,
              openArtifact_of_names (hresolve.trans hresolved)]
            by_cases hdigest : digest = sha256.hexdigest payload
            · subst hdigest
              rcases hagrees with hmatches | hothers
              · obtain ⟨bytes, hbytes, hsame⟩ := (blobMatches_iff sha256).mp hmatches
                rw [hblob, hbytes, hfree bytes hbytes hsame]
              · exact absurd hresolved (hothers other hne)
            · rw [put_blob_other sha256 disk payload createdAt hdigest]

/-- What ends in another exception is a manifest that cannot be read. -/
theorem resolveBlob_settles_iff (id : String) :
    (∃ named, resolveBlob disk id = .ok named) ↔ Readable disk id := by
  rw [resolveBlob, Readable]
  by_cases hmatch : matchesScope "art_" id = true
  · by_cases hlong : (manifestName id).length > nameMax
    · simp [hmatch, hlong, Nat.not_le.mpr hlong]
    · rw [Nat.not_lt] at hlong
      cases hfile : disk.manifests.get? (manifestName id) with
      | none => simp [hmatch, hlong, Nat.not_lt.mpr hlong]
      | some file =>
          cases file with
          | undecodable => simp [hmatch, hlong, Nat.not_lt.mpr hlong]
          | unparsable => simp [hmatch, hlong, Nat.not_lt.mpr hlong]
          | document value =>
              cases value <;> simp [hmatch, hlong, Nat.not_lt.mpr hlong]
  · simp [hmatch]

theorem resolveBlob_error {id : String} {error : CasError}
    (herror : resolveBlob disk id = .error error) (name : String) :
    error ≠ .artifactNotFound name := by
  rw [resolveBlob] at herror
  rintro rfl
  split at herror
  · simp at herror
  split at herror
  · simp at herror
  split at herror <;> simp at herror

theorem open_settles_iff (id : String) :
    Settles id (openArtifact disk id) ↔ Readable disk id := by
  rw [← resolveBlob_settles_iff]
  constructor
  · intro hsettles
    cases hresolve : resolveBlob disk id with
    | ok named => exact ⟨named, rfl⟩
    | error error =>
        rw [Settles, openArtifact, hresolve] at hsettles
        rcases hsettles with ⟨value, hvalue⟩ | hnotfound
        · simp at hvalue
        · exact absurd (Except.error.inj hnotfound) (resolveBlob_error disk hresolve id)
  · rintro ⟨named, hresolve⟩
    rw [Settles, openArtifact, hresolve]
    cases named with
    | none => exact .inr rfl
    | some digest =>
        simp only
        cases disk.blobs.get? digest with
        | none => exact .inr rfl
        | some bytes => exact .inl ⟨bytes, rfl⟩

theorem verify_settles_iff (id : String) :
    Settles id (verify sha256 disk id) ↔ Readable disk id := by
  rw [← resolveBlob_settles_iff]
  constructor
  · intro hsettles
    cases hresolve : resolveBlob disk id with
    | ok named => exact ⟨named, rfl⟩
    | error error =>
        rw [Settles, verify, hresolve] at hsettles
        rcases hsettles with ⟨value, hvalue⟩ | hnotfound
        · simp at hvalue
        · exact absurd (Except.error.inj hnotfound) (resolveBlob_error disk hresolve id)
  · rintro ⟨named, hresolve⟩
    rw [Settles, verify, hresolve]
    cases named with
    | none => exact .inl ⟨_, rfl⟩
    | some digest => exact .inl ⟨_, rfl⟩

/-- A verified artifact is the content of its id unless its manifest names
another blob. -/
theorem verify_sound_iff (id : String) :
    StepSound sha256 disk (.verify id) ↔ Agrees sha256 disk (.verify id) := by
  rw [StepSound, Agrees, verify_settles_iff]
  apply and_congr_right'
  constructor
  · intro hsound h hhex hid digest hnamed hmatches
    obtain ⟨bytes, hopen, hdigest⟩ := hsound h hhex hid
      (by rw [verify_of_names sha256 hnamed, hmatches])
    obtain ⟨found, hfound, hsame⟩ := (blobMatches_iff sha256).mp hmatches
    rw [openArtifact_of_names hnamed, hfound] at hopen
    rw [← hdigest, ← Except.ok.inj hopen, hsame]
  · intro hagrees h hhex hid hverify
    obtain ⟨digest, hnamed, hmatches⟩ := names_of_verify sha256 hverify
    obtain ⟨bytes, hbytes, hsame⟩ := (blobMatches_iff sha256).mp hmatches
    refine ⟨bytes, ?_, ?_⟩
    · rw [openArtifact_of_names hnamed, hbytes]
    · rw [hsame]
      exact hagrees h hhex hid digest hnamed hmatches

end Step

section Runs

/-- Every operation of a run keeps its promises. -/
def RunSound (sha256 : Sha256) : Disk → List Op → Prop
  | _, [] => True
  | disk, op :: rest =>
      StepSound sha256 disk op ∧ RunSound sha256 (step sha256 disk op) rest

/-- Before every operation of a run the three places agree. -/
def RunAgrees (sha256 : Sha256) : Disk → List Op → Prop
  | _, [] => True
  | disk, op :: rest =>
      Agrees sha256 disk op ∧ RunAgrees sha256 (step sha256 disk op) rest

/-- The contents that a run has to do with. -/
def contents (disk : Disk) (ops : List Op) : Set (List UInt8) :=
  {bytes | (∃ name, disk.blobs.get? name = some bytes) ∨
    ∃ createdAt, Op.put bytes createdAt ∈ ops}

/-- An operation brings nothing new into a run. -/
theorem contents_step (sha256 : Sha256) (disk : Disk) (op : Op) (rest : List Op) :
    contents (step sha256 disk op) rest ⊆ contents disk (op :: rest) := by
  rintro bytes (⟨name, hname⟩ | ⟨createdAt, hput⟩)
  · cases op with
    | put payload createdAt =>
        rw [step, put_blobs] at hname
        split at hname
        · exact .inl ⟨name, hname⟩
        · rw [Dict.get?_set] at hname
          split at hname
          · rw [← Option.some.inj hname]
            exact .inr ⟨createdAt, List.mem_cons_self⟩
          · exact .inl ⟨name, hname⟩
    | openArtifact id => exact .inl ⟨name, hname⟩
    | verify id => exact .inl ⟨name, hname⟩
  · exact .inr ⟨createdAt, List.mem_cons_of_mem _ hput⟩

end Runs

namespace LocalCasWitness

/-- The bytes of `hello`. -/
def hello : List UInt8 := [104, 101, 108, 108, 111]

def helloDigest : String :=
  "2cf24dba5fb0a30e26e83b2ac5b9e29e1b161e5c1fa7425e73043362938b9824"

/-- A digest that is right for the one payload that is used. -/
def digests : Sha256 where
  hexdigest payload :=
    if payload = hello then helloDigest
    else "0000000000000000000000000000000000000000000000000000000000000000"
  isHex payload := by
    split <;> decide +kernel

def run : List Op :=
  [.put hello "2026-08-06T00:00:00Z", .openArtifact (artifactId helloDigest),
    .verify (artifactId helloDigest)]

def empty : Disk := ⟨.empty, .empty⟩

/-- A manifest that someone else has left, and that is a list. -/
def foreign : Disk where
  blobs := .empty
  manifests := Dict.set Keyed.empty (manifestName (artifactId helloDigest))
    (.document (.arr []))

theorem run_has_one_content (disk : Disk) (hblobs : disk.blobs = .empty) :
    (contents disk run).InjOn digests.hexdigest := by
  have hhello : ∀ bytes ∈ contents disk run, bytes = hello := by
    rintro bytes (⟨name, hname⟩ | ⟨createdAt, hput⟩)
    · simp [hblobs] at hname
    · simp only [run, List.mem_cons, Op.put.injEq, reduceCtorEq, List.not_mem_nil,
        or_false] at hput
      exact hput.1
  intro bytes hbytes other hother _
  rw [hhello bytes hbytes, hhello other hother]

end LocalCasWitness

end LocalCas

end HermesPipeline
