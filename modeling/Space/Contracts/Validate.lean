import Space.Contracts.Model
import Space.Data.Tiling

/-! # Manifest and version invariants

    `contracts::validate`: one function per invariant, under its number, in
    the order of the source. The cross-object rules 10 to 12 are at the end.

    `validateManifest_checks` says at once that no check panics and that
    every error a manifest can get is `INTEGRITY_MANIFEST_INVALID`. -/

namespace Space

open Rust Outcome Data

def invalid (msg : String) : SpaceError :=
  SpaceError.new .integrityManifestInvalid msg

/-! ## Section 1: The checks -/

/-- Invariant 1: entries are ordered by `logical_offset`. -/
def inv01EntriesSorted (m : Manifest) : Res Unit :=
  rejectIf ((windows2 m.entries).any fun w => w.1.logicalOffset > w.2.logicalOffset)
    (invalid "inv01: entries not sorted by logical_offset")

/-- Invariant 2: entries are contiguous, no gap between one and the next. -/
def inv02EntriesContiguous (m : Manifest) : Res Unit :=
  forM (windows2 m.entries) fun w => do
    let stop ← okOr (checkedAdd w.1.logicalOffset w.1.length)
      (invalid "inv02: logical_offset + length overflow")
    rejectIf (stop < w.2.logicalOffset) (invalid "inv02: gap between entries")

/-- Invariant 3: entries do not overlap. -/
def inv03NoOverlap (m : Manifest) : Res Unit :=
  forM (windows2 m.entries) fun w => do
    let stop ← okOr (checkedAdd w.1.logicalOffset w.1.length)
      (invalid "inv03: logical_offset + length overflow")
    rejectIf (stop > w.2.logicalOffset) (invalid "inv03: entries overlap")

/-- Invariant 4: a non-empty file's first entry starts at offset 0. -/
def inv04StartsAtZero (m : Manifest) : Res Unit :=
  match m.entries.head? with
  | some first =>
    rejectIf (first.logicalOffset != 0) (invalid "inv04: first entry does not start at 0")
  | none => ok ()

/-- Invariant 5: entry lengths sum to `total_size`, in checked arithmetic. -/
def inv05LengthsSumToTotal (m : Manifest) : Res Unit := do
  let sum ← m.entries.foldlM
    (fun sum e => okOr (checkedAdd sum e.length) (invalid "inv05: length sum overflow")) 0
  rejectIf (sum != m.totalSize) (invalid "inv05: entry lengths do not sum to total_size")

/-- Invariant 6: `chunk_count` equals the number of entries. -/
def inv06CountMatches (m : Manifest) : Res Unit :=
  rejectIf (m.chunkCount != UInt64.ofNat m.entries.length)
    (invalid "inv06: chunk_count != entries.len()")

/-- Invariant 7: every entry has a non-zero length. -/
def inv07LengthsNonzero (m : Manifest) : Res Unit :=
  rejectIf (m.entries.any fun e => e.length == 0) (invalid "inv07: zero-length entry")

/-- Invariant 8: each entry stays within its chunk. -/
def inv08ChunkOffsetsWithinChunk (m : Manifest) : Res Unit :=
  forM m.entries fun e => do
    let size ← okOr (m.chunkSize e.chunkId) (invalid "inv08: entry references unknown chunk")
    let stop ← okOr (checkedAdd e.chunkOffset e.length)
      (invalid "inv08: chunk_offset + length overflow")
    rejectIf (stop > size) (invalid "inv08: chunk_offset + length exceeds chunk size")

/-- Invariant 9: chunk ids are well-formed, and `entries` and `chunks` agree. -/
def inv09ChunkIdsWellformed (m : Manifest) : Res Unit := do
  forM m.chunks fun c => do
    let _ ← mapErr (fun _ => invalid "inv09: malformed chunk id in chunks")
      (ChunkId.parse c.chunkId.str)
    return ()
  forM m.entries fun e => do
    let _ ← mapErr (fun _ => invalid "inv09: malformed chunk id in entry")
      (ChunkId.parse e.chunkId.str)
    rejectIf (m.chunkSize e.chunkId).isNone (invalid "inv09: entry chunk id has no chunk metadata")
  forM m.chunks fun c =>
    rejectIf (!m.entries.any fun e => e.chunkId == c.chunkId)
      (invalid "inv09: unreferenced chunk metadata")

/-- Invariant 13: an empty file has no entries and `chunk_count == 0`. -/
def inv13EmptyFileIsValid (m : Manifest) : Res Unit :=
  rejectIf (m.totalSize == 0 && (!m.entries.isEmpty || m.chunkCount != 0))
    (invalid "inv13: empty file must have no entries")

/-- Every structural invariant of a manifest, 1 to 9 and 13. -/
def validateManifest (m : Manifest) : Res Unit := do
  inv13EmptyFileIsValid m
  inv01EntriesSorted m
  inv04StartsAtZero m
  inv02EntriesContiguous m
  inv03NoOverlap m
  inv07LengthsNonzero m
  inv05LengthsSumToTotal m
  inv06CountMatches m
  inv09ChunkIdsWellformed m
  inv08ChunkOffsetsWithinChunk m

/-! ## Section 2: Every check is a check

    Each one returns `Ok` or a manifest error. None can panic: the only
    arithmetic is `checked_add`. -/

section checks

variable {P : SpaceError → Prop} (hP : ∀ msg, P (invalid msg))

include hP

theorem checks_parse_mapErr (msg s : String) :
    (mapErr (fun _ => invalid msg) (ChunkId.parse s)).Checks P := by
  refine checks_mapErr ?_ fun _ => hP msg
  exact (ChunkId.checks_parse s).mono fun _ _ => trivial

theorem inv02_checks (m : Manifest) : (inv02EntriesContiguous m).Checks P := by
  refine checks_forM fun w => ?_
  refine Checks.bind (checks_okOr (hP _)) fun stop => ?_
  exact checks_rejectIf (hP _)

theorem inv03_checks (m : Manifest) : (inv03NoOverlap m).Checks P := by
  refine checks_forM fun w => ?_
  refine Checks.bind (checks_okOr (hP _)) fun stop => ?_
  exact checks_rejectIf (hP _)

theorem inv04_checks (m : Manifest) : (inv04StartsAtZero m).Checks P := by
  unfold inv04StartsAtZero
  cases m.entries.head? with
  | none => exact checks_ok ()
  | some first => exact checks_rejectIf (hP _)

theorem checks_sumLengths (entries : List ManifestEntry) (sum : UInt64) :
    (entries.foldlM (fun sum e => okOr (checkedAdd sum e.length)
      (invalid "inv05: length sum overflow")) sum).Checks P := by
  induction entries generalizing sum with
  | nil => exact checks_ok sum
  | cons e rest ih =>
    rw [List.foldlM_cons]
    exact Checks.bind (checks_okOr (hP _)) ih

theorem inv05_checks (m : Manifest) : (inv05LengthsSumToTotal m).Checks P := by
  refine Checks.bind (checks_sumLengths hP m.entries 0) fun sum => ?_
  exact checks_rejectIf (hP _)

theorem inv08_checks (m : Manifest) : (inv08ChunkOffsetsWithinChunk m).Checks P := by
  refine checks_forM fun e => ?_
  refine Checks.bind (checks_okOr (hP _)) fun size => ?_
  refine Checks.bind (checks_okOr (hP _)) fun stop => ?_
  exact checks_rejectIf (hP _)

theorem inv09_checks (m : Manifest) : (inv09ChunkIdsWellformed m).Checks P := by
  refine Checks.bind (checks_forM fun c => ?_) fun _ => ?_
  · exact Checks.bind (checks_parse_mapErr hP _ _) fun _ => checks_ok ()
  refine Checks.bind (checks_forM fun e => ?_) fun _ => ?_
  · exact Checks.bind (checks_parse_mapErr hP _ _) fun _ => checks_rejectIf (hP _)
  exact checks_forM fun c => checks_rejectIf (hP _)

/-- Whatever holds of the manifest errors holds of the errors that a
    manifest gets; the validator never panics. -/
theorem validateManifest_checks_of (m : Manifest) : (validateManifest m).Checks P := by
  refine Checks.bind (checks_rejectIf (hP _)) fun _ => ?_
  refine Checks.bind (checks_rejectIf (hP _)) fun _ => ?_
  refine Checks.bind (inv04_checks hP m) fun _ => ?_
  refine Checks.bind (inv02_checks hP m) fun _ => ?_
  refine Checks.bind (inv03_checks hP m) fun _ => ?_
  refine Checks.bind (checks_rejectIf (hP _)) fun _ => ?_
  refine Checks.bind (inv05_checks hP m) fun _ => ?_
  refine Checks.bind (checks_rejectIf (hP _)) fun _ => ?_
  refine Checks.bind (inv09_checks hP m) fun _ => ?_
  exact inv08_checks hP m

end checks

/-- The kind of error a manifest gets. -/
abbrev IsInvalid (e : SpaceError) : Prop := e.code = .integrityManifestInvalid

/-- **A manifest is accepted or gets `INTEGRITY_MANIFEST_INVALID`.** -/
theorem validateManifest_checks (m : Manifest) : (validateManifest m).Checks IsInvalid :=
  validateManifest_checks_of (fun _ => rfl) m

/-! ## Section 3: Cross-object rules -/

/-- Invariant 10: version state transitions. -/
def validateVersionTransition (from' to' : VersionState) : Res Unit :=
  rejectIf (!from'.canTransitionTo to')
    (invalid ("inv10: illegal version transition " ++ from'.debug ++ " -> " ++ to'.debug))

/-- Invariant 11: a file's current version is a `Committed` version of that
    same file. -/
def validateFileCurrentVersion (file : File) (current : Version) : Res Unit := do
  rejectIf (some current.versionId != file.currentVersionId)
    (invalid "inv11: version is not this file's current version")
  rejectIf (current.fileId != file.fileId)
    (invalid "inv11: current version belongs to a different file")
  rejectIf (current.state != .committed)
    (SpaceError.new .versionNotFound
      "inv11: current_version_id points at a non-committed version")

/-- Invariant 12: a version's parent belongs to the same file. -/
def validateVersionParent (child parent : Version) : Res Unit := do
  rejectIf (child.parentVersionId != some parent.versionId)
    (invalid "inv12: parent_version_id mismatch")
  rejectIf (child.fileId != parent.fileId)
    (invalid "inv12: parent version belongs to a different file")

theorem validateFileCurrentVersion_eq_ok {file : File} {current : Version} :
    validateFileCurrentVersion file current = ok () ↔
      file.currentVersionId = some current.versionId ∧ current.fileId = file.fileId ∧
        current.state = .committed := by
  unfold validateFileCurrentVersion
  simp only [seq_eq_ok, rejectIf_eq_ok, bne_eq_false_iff_eq, @eq_comm _ (some _)]

theorem validateVersionParent_eq_ok {child parent : Version} :
    validateVersionParent child parent = ok () ↔
      child.parentVersionId = some parent.versionId ∧ child.fileId = parent.fileId := by
  unfold validateVersionParent
  simp only [seq_eq_ok, rejectIf_eq_ok, bne_eq_false_iff_eq]

@[simp] theorem validateVersionTransition_candidate :
    validateVersionTransition .candidate .committed = ok () := rfl

end Space
