import Space.Cloud.History

/-! # What a commit does

    The current version of a file is determined by the run: it is the
    version of the last `commit_version` call that moved a version of the
    file from `Candidate` to `Committed`. Commits of committed versions,
    replays and failing calls in between leave no trace.

    A commit cannot fail halfway. The manifest of a stored version is stored
    and valid and its file exists, so the checks behind the lookup of the
    version always pass, and the rows it changes are two. -/

namespace Space

open Rust Outcome Data MetaOp

/-! ## Section 1: The publications of a run -/

/-- The state of a version, if it is stored. -/
def Inner.versionState (g : Inner) (v : VersionId) : Option VersionState :=
  (g.versions.lookup v).map Version.state

/-- The version of `fileId` that the call moves from `Candidate` to
    `Committed`. -/
def MetaOp.publication (env : Env) (g : Inner) (fileId : FileId) : MetaOp → Option VersionId
  | .commitVersion v =>
    let g' := ((MetaOp.commitVersion v).exec env g).2
    if (g.versions.lookup v).map Version.fileId = some fileId ∧
        g.versionState v = some .candidate ∧ g'.versionState v = some .committed
    then some v
    else none
  | _ => none

/-- The versions of `fileId` that a run moves from `Candidate` to
    `Committed`, in the order of the calls. -/
def Inner.publications (fileId : FileId) : Inner → List (Env × MetaOp) → List VersionId
  | _, [] => []
  | g, (env, op) :: rest =>
    (op.publication env g fileId).toList ++ Inner.publications fileId (op.exec env g).2 rest

/-- A call that changes nothing publishes nothing. -/
theorem publication_unchanged {env : Env} {g : Inner} {op : MetaOp} (fileId : FileId)
    (h : (op.exec env g).2 = g) : op.publication env g fileId = none := by
  cases op with
  | commitVersion v =>
    unfold publication
    simp only [h]
    apply if_neg
    intro ⟨_, hbefore, hafter⟩
    rw [hbefore] at hafter
    cases hafter
  | _ => rfl

/-- A commit publishes its version, for the file of the version. -/
theorem publication_commit {env : Env} {g : Inner} {v : VersionId} {row : Version}
    (hl : g.versions.lookup v = some row) (hc : row.state = .candidate)
    (h : ((MetaOp.commitVersion v).exec env g).2 = g.commit env v row) (fileId : FileId) :
    (MetaOp.commitVersion v).publication env g fileId =
      if fileId = row.fileId then some v else none := by
  -- the version was a candidate before the call and is committed after it
  have hafter : (g.commit env v row).versionState v = some .committed := by
    unfold Inner.versionState
    rw [Inner.versions_commit, Finmap.lookup_insert]
    rfl
  have hbefore : g.versionState v = some .candidate := by
    unfold Inner.versionState
    rw [hl, Option.map_some, hc]
  have hfile : (g.versions.lookup v).map Version.fileId = some row.fileId := by
    rw [hl]
    rfl
  unfold publication
  simp only [h]
  by_cases hid : fileId = row.fileId
  · rw [if_pos hid]
    apply if_pos
    exact ⟨hfile.trans (congrArg some hid.symm), hbefore, hafter⟩
  · rw [if_neg hid]
    apply if_neg
    intro hpub
    exact hid (Option.some.inj (hpub.1.symm.trans hfile))

theorem current_addFile {g : Inner} {key : String} {file : File} (fileId : FileId) :
    (g.addFile key file).current fileId =
      if fileId = file.fileId then file.currentVersionId else g.current fileId := by
  unfold Inner.current Inner.addFile
  rw [Table.lookup_insert_ite]
  by_cases hid : fileId = file.fileId
  · rw [if_pos hid, if_pos hid]
    rfl
  · rw [if_neg hid, if_neg hid]

/-- **One call**: the current version of a file is what the call published,
    or else what it was before. -/
theorem current_exec {env : Env} {g : Inner} {op : MetaOp} (hinv : MetaInv g)
    (hfresh : op.Fresh env g) (fileId : FileId) :
    (op.exec env g).2.current fileId =
      (op.publication env g fileId).or (g.current fileId) := by
  have hsame : (op.exec env g).2 = g → (op.exec env g).2.current fileId =
      (op.publication env g fileId).or (g.current fileId) := by
    intro h
    rw [publication_unchanged fileId h, h, Option.none_or]
  have hcall := exec_call env g op
  generalize (op.exec env g).1 = r at hcall
  generalize hg' : (op.exec env g).2 = g' at hcall hsame ⊢
  cases hcall with
  | refused e => exact hsame rfl
  | dangling _ => exact hsame rfl
  | found _ => exact hsame rfl
  | wrote hw =>
    cases hw with
    | file hname hkey =>
      rw [current_addFile]
      show _ = g.current fileId
      by_cases hid : fileId = env.newId
      · -- no file had the id of the new one
        have hnew : g.current fileId = none := by
          unfold Inner.current
          rw [hid, hfresh hkey]
          rfl
        rw [hnew]
        exact if_pos hid
      · exact if_neg hid
    | chunk hwf hl => rfl
    | manifest hvalid hreg hl => rfl
    | version hrefs hl => rfl
    | @commit v row hl hc =>
      -- the one write that moves a current version
      rw [publication_commit hl hc hg', current_commit hinv hl]
      by_cases hid : fileId = row.fileId
      · rw [if_pos hid, if_pos hid]
        rfl
      · rw [if_neg hid, if_neg hid]
        rfl

/-- **A whole run**: the last publication, or else what was current before
    the run. -/
theorem current_runCalls {g : Inner} (h : g.Reachable) {calls : List (Env × MetaOp)}
    (hfresh : g.FreshCalls calls) (fileId : FileId) :
    (g.runCalls calls).current fileId =
      (g.publications fileId calls).getLast?.or (g.current fileId) := by
  induction calls generalizing g with
  | nil => rfl
  | cons call rest ih =>
    obtain ⟨env, op⟩ := call
    have hstep := current_exec (reachable_inv h) hfresh.1 fileId
    have hrest := ih (g := (op.exec env g).2) (h.tail ⟨op, _, env, hfresh.1, rfl⟩) hfresh.2
    show ((op.exec env g).2.runCalls rest).current fileId = _
    rw [hrest, hstep, Inner.publications, List.getLast?_append, ← Option.or_assoc]
    congr 1
    cases op.publication env g fileId <;> rfl

/-! ## Section 2: The two rows of a commit -/

/-- The store before and after a commit of `v`: the version is committed,
    its file points at it, and that is all. -/
structure CommitsOnly (env : Env) (g : Inner) (v : VersionId) (row : Version) (file : File)
    (g' : Inner) : Prop where
  version : g'.versions.lookup v = some { row with state := .committed }
  file : g'.files.lookup row.fileId =
    some { file with currentVersionId := some v, modifiedAt := env.now }
  otherVersions : ∀ u, u ≠ v → g'.versions.lookup u = g.versions.lookup u
  otherFiles : ∀ f, f ≠ row.fileId → g'.files.lookup f = g.files.lookup f
  fileIdempotency : g'.fileIdempotency = g.fileIdempotency
  manifests : g'.manifests = g.manifests
  chunks : g'.chunks = g.chunks

theorem commitsOnly_commit {env : Env} {g : Inner} {v : VersionId} {row : Version} {file : File}
    (hf : g.files.lookup row.fileId = some file) :
    CommitsOnly env g v row file (g.commit env v row) := by
  rw [commit_eq hf]
  constructor
  · exact Finmap.lookup_insert _
  · exact Finmap.lookup_insert _
  · exact fun u hu => Finmap.lookup_insert_of_ne _ hu
  · exact fun f hne => Finmap.lookup_insert_of_ne _ hne
  · rfl
  · rfl
  · rfl

/-- A candidate passes every check of a commit. -/
theorem checkCommit_candidate {g : Inner} (hinv : MetaInv g) {v : VersionId} {row : Version}
    (hl : g.versions.lookup v = some row) (hc : row.state = .candidate) :
    g.checkCommit row = ok () := by
  obtain ⟨m, hm⟩ := (hinv.versions v row hl).manifest
  have hvalid := (hinv.manifests _ m hm).valid
  unfold Inner.checkCommit
  rw [hc, validateVersionTransition_candidate, hm]
  exact hvalid

/-- How a commit of `v` ends, by the state of `v`. -/
structure CommitOutcome (env : Env) (g : Inner) (v : VersionId) : Prop where
  /-- An unknown version is the only reason to fail. -/
  unknown : g.versions.lookup v = none →
    g.commitVersion env v = (err (Inner.notFound .versionNotFound "version"), g)
  /-- A committed version is returned as it is. -/
  committed : ∀ row, g.versions.lookup v = some row → row.state = .committed →
    g.commitVersion env v = (ok row, g)
  /-- A candidate passes the checks, and two rows change. -/
  candidate : ∀ row, g.versions.lookup v = some row → row.state = .candidate →
    g.checkCommit row = ok () ∧
    (g.commitVersion env v).1 = ok { row with state := .committed } ∧
    ∃ file, g.files.lookup row.fileId = some file ∧
      CommitsOnly env g v row file (g.commitVersion env v).2

theorem commitOutcome {g : Inner} (hinv : MetaInv g) (env : Env) (v : VersionId) :
    CommitOutcome env g v := by
  constructor
  · intro hl
    simp [Inner.commitVersion, hl]
  · intro row hl hc
    simp [Inner.commitVersion, hl, hc]
  · intro row hl hc
    have hcheck := checkCommit_candidate hinv hl hc
    have hexec : g.commitVersion env v =
        (ok { row with state := .committed }, g.commit env v row) := by
      simp [Inner.commitVersion, hl, hc, hcheck]
    obtain ⟨file, hf⟩ := (hinv.versions v row hl).file
    rw [hexec]
    exact ⟨hcheck, rfl, file, hf, commitsOnly_commit hf⟩

/-- **A file points at the last version that was first-committed**, and a
    commit fails only for an unknown version. -/
theorem current_is_last_publication :
    (∀ calls : List (Env × MetaOp), Inner.new.FreshCalls calls → ∀ fileId : FileId,
      (Inner.new.runCalls calls).current fileId =
        (Inner.new.publications fileId calls).getLast?) ∧
    ∀ g : Inner, g.Reachable → ∀ (env : Env) (v : VersionId), CommitOutcome env g v := by
  constructor
  · intro calls hfresh fileId
    rw [current_runCalls .refl hfresh fileId]
    exact Option.or_none
  · intro g h env v
    exact commitOutcome (reachable_inv h) env v

/-- The sample run publishes `v2`; committing it once more changes nothing. -/
theorem current_is_last_publication_sample :
    (Inner.new.runCalls Sample.calls).current Sample.file =
        (Inner.new.publications Sample.file Sample.calls).getLast? ∧
      Inner.new.publications Sample.file Sample.calls = [Sample.v2] ∧
      CommitOutcome (Env.sample 2 70) (Inner.new.runCalls Sample.calls) Sample.v2 :=
  ⟨current_is_last_publication.1 Sample.calls Sample.calls_fresh Sample.file, by decide,
    current_is_last_publication.2 _ (reachable_runCalls .refl Sample.calls_fresh)
      (Env.sample 2 70) Sample.v2⟩

end Space
