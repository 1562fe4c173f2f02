import Space.Cloud.MetadataSteps
import Space.Effects.Discipline

/-! # The invariant of the metadata store

    Two facts hold of every run, and both are proved by cases on the five
    writes:

    * `Inner.Extends`: the store only grows. A row is never removed, and a
      row that changes keeps everything but a version's state and a file's
      current version (`writes_extends`).
    * `MetaInv`: the rows of the five maps fit together. The conditions on
      one row are upward closed along `Extends`, so a write only has to
      establish them for the row it adds (`writes_inv`). -/

namespace Space

open Rust Outcome Data Effects

/-! ## Section 1: Growth -/

/-- A version may be committed; nothing else about it changes. -/
def Version.Evolves (a b : Version) : Prop :=
  b = a ∨ (a.state = .candidate ∧ b = { a with state := .committed })

/-- A file may be given a new current version, and keeps having one. -/
structure File.Evolves (a b : File) : Prop where
  fileId : b.fileId = a.fileId
  parentId : b.parentId = a.parentId
  name : b.name = a.name
  createdAt : b.createdAt = a.createdAt
  current : a.currentVersionId ≠ none → b.currentVersionId ≠ none

namespace Version.Evolves

variable {a b c : Version}

theorem refl (a : Version) : a.Evolves a := .inl rfl

theorem trans (h₁ : a.Evolves b) (h₂ : b.Evolves c) : a.Evolves c := by
  rcases h₁ with rfl | ⟨ha, rfl⟩
  · exact h₂
  · rcases h₂ with rfl | ⟨hb, rfl⟩
    · exact .inr ⟨ha, rfl⟩
    · exact .inr ⟨ha, rfl⟩

theorem of_committed (h : a.Evolves b) (ha : a.state = .committed) : b = a := by
  rcases h with rfl | ⟨hc, rfl⟩
  · rfl
  · rw [ha] at hc
    cases hc

theorem versionId (h : a.Evolves b) : b.versionId = a.versionId := by
  rcases h with rfl | ⟨_, rfl⟩ <;> rfl

theorem fileId (h : a.Evolves b) : b.fileId = a.fileId := by
  rcases h with rfl | ⟨_, rfl⟩ <;> rfl

theorem parent (h : a.Evolves b) : b.parentVersionId = a.parentVersionId := by
  rcases h with rfl | ⟨_, rfl⟩ <;> rfl

theorem manifestId (h : a.Evolves b) : b.manifestId = a.manifestId := by
  rcases h with rfl | ⟨_, rfl⟩ <;> rfl

end Version.Evolves

namespace File.Evolves

theorem refl (a : File) : a.Evolves a := ⟨rfl, rfl, rfl, rfl, id⟩

theorem trans {a b c : File} (h₁ : a.Evolves b) (h₂ : b.Evolves c) : a.Evolves c where
  fileId := h₂.fileId.trans h₁.fileId
  parentId := h₂.parentId.trans h₁.parentId
  name := h₂.name.trans h₁.name
  createdAt := h₂.createdAt.trans h₁.createdAt
  current := fun h => h₂.current (h₁.current h)

end File.Evolves

/-- The order along which the store moves. -/
structure Inner.Extends (g g' : Inner) : Prop where
  files : Table.Grows File.Evolves g.files g'.files
  fileIdempotency : Table.Grows Eq g.fileIdempotency g'.fileIdempotency
  versions : Table.Grows Version.Evolves g.versions g'.versions
  manifests : Table.Grows Eq g.manifests g'.manifests
  chunks : Table.Grows Eq g.chunks g'.chunks

namespace Inner.Extends

theorem refl (g : Inner) : g.Extends g where
  files := .refl File.Evolves.refl _
  fileIdempotency := .refl Eq.refl _
  versions := .refl Version.Evolves.refl _
  manifests := .refl Eq.refl _
  chunks := .refl Eq.refl _

theorem trans {g₁ g₂ g₃ : Inner} (h₁ : g₁.Extends g₂) (h₂ : g₂.Extends g₃) : g₁.Extends g₃ where
  files := .trans (fun _ _ _ h => h.trans) h₁.files h₂.files
  fileIdempotency := .trans (fun _ _ _ h => h.trans) h₁.fileIdempotency h₂.fileIdempotency
  versions := .trans (fun _ _ _ h => h.trans) h₁.versions h₂.versions
  manifests := .trans (fun _ _ _ h => h.trans) h₁.manifests h₂.manifests
  chunks := .trans (fun _ _ _ h => h.trans) h₁.chunks h₂.chunks

variable {g : Inner}

theorem addFile {key : String} {file : File} (hkey : g.fileIdempotency.lookup key = none)
    (hfile : g.files.lookup file.fileId = none) : g.Extends (g.addFile key file) :=
  { refl g with
    files := .insert_new File.Evolves.refl hfile
    fileIdempotency := .insert_new Eq.refl hkey }

theorem addChunk {chunk : Chunk} (h : g.chunks.lookup chunk.chunkId = none) :
    g.Extends (g.addChunk chunk) :=
  { refl g with chunks := .insert_new Eq.refl h }

theorem addManifest {m : Manifest} (h : g.manifests.lookup m.manifestId = none) :
    g.Extends (g.addManifest m) :=
  { refl g with manifests := .insert_new Eq.refl h }

theorem addVersion {v : Version} (h : g.versions.lookup v.versionId = none) :
    g.Extends (g.addVersion v) :=
  { refl g with versions := .insert_new Version.Evolves.refl h }

theorem setCurrent (now : DateTime) (fileId : FileId) (v : VersionId) :
    g.Extends (g.setCurrent now fileId v) := by
  unfold Inner.setCurrent
  cases hf : g.files.lookup fileId with
  | none => exact refl g
  | some file =>
    refine { refl g with files := .insert File.Evolves.refl fun f₀ h₀ => ?_ }
    rw [hf] at h₀
    cases h₀
    exact ⟨rfl, rfl, rfl, rfl, fun _ => by simp⟩

theorem commit {env : Env} {versionId : VersionId} {version : Version}
    (hl : g.versions.lookup versionId = some version) (hc : version.state = .candidate) :
    g.Extends (g.commit env versionId version) := by
  refine trans ?_ (setCurrent env.now version.fileId versionId)
  refine { refl g with versions := .insert Version.Evolves.refl fun v₀ h₀ => ?_ }
  rw [hl] at h₀
  cases h₀
  exact .inr ⟨hc, rfl⟩

end Inner.Extends

open MetaOp

/-- Every write is growth, when the ids it mints are fresh. -/
theorem writes_extends {env : Env} {g g' : Inner} {op : MetaOp} {a : op.Value}
    (h : Writes env g op a g') (hfresh : op.Fresh env g) : g.Extends g' := by
  cases h with
  | file hname hkey => exact .addFile hkey (hfresh hkey)
  | chunk hwf hl => exact .addChunk hl
  | manifest hvalid hreg hl => exact .addManifest hl
  | version hrefs hl => exact .addVersion hl
  | commit hl hc => exact .commit hl hc

/-! ## Section 2: The invariant -/

/-- What holds of a file row. -/
structure FileOk (g : Inner) (key : FileId) (file : File) : Prop where
  id : file.fileId = key
  /-- The current version is a committed version of this file. -/
  current : ∀ v, file.currentVersionId = some v →
    ∃ row, g.versions.lookup v = some row ∧ validateFileCurrentVersion file row = ok ()

/-- What holds of a version row. -/
structure VersionOk (g : Inner) (key : VersionId) (version : Version) : Prop where
  id : version.versionId = key
  file : ∃ file, g.files.lookup version.fileId = some file
  manifest : ∃ m, g.manifests.lookup version.manifestId = some m
  parent : ∀ p, version.parentVersionId = some p →
    ∃ row, g.versions.lookup p = some row ∧ validateVersionParent version row = ok ()
  /-- The file of a committed version has a current version. -/
  visible : version.state = .committed →
    ∃ file, g.files.lookup version.fileId = some file ∧ file.currentVersionId ≠ none

/-- What holds of a manifest row. -/
structure ManifestOk (g : Inner) (key : ManifestId) (m : Manifest) : Prop where
  id : m.manifestId = key
  valid : validateManifest m = ok ()
  registered : g.Registered m

/-- The invariant of the store. -/
structure MetaInv (g : Inner) : Prop where
  files : Table.AllRows (FileOk g) g.files
  /-- Every idempotency key points at an existing file. -/
  keys : Table.AllRows (fun _ id => ∃ file, g.files.lookup id = some file) g.fileIdempotency
  versions : Table.AllRows (VersionOk g) g.versions
  manifests : Table.AllRows (ManifestOk g) g.manifests
  chunks : Table.AllRows (fun key (chunk : Chunk) => chunk.chunkId = key) g.chunks

theorem metaInv_new : MetaInv Inner.new where
  files := Table.allRows_empty _
  keys := Table.allRows_empty _
  versions := Table.allRows_empty _
  manifests := Table.allRows_empty _
  chunks := Table.allRows_empty _

/-! ## Section 3: The row conditions are upward closed -/

section upward

variable {g g' : Inner}

theorem Inner.Registered.mono (he : g.Extends g') {m : Manifest} (h : g.Registered m) :
    g'.Registered m := by
  intro c hc
  obtain ⟨reg, hreg, hsize⟩ := h c hc
  exact ⟨reg, he.chunks.lookup_eq hreg, hsize⟩

theorem Inner.Refs.mono (he : g.Extends g') {fileId : FileId} {parent : Option VersionId}
    {manifestId : ManifestId} (h : g.Refs fileId parent manifestId) :
    g'.Refs fileId parent manifestId where
  file := he.files.exists h.file
  manifest := he.manifests.exists h.manifest
  parent := fun p hp => by
    obtain ⟨row, hrow, hfile⟩ := h.parent p hp
    obtain ⟨row', hrow', hev⟩ := he.versions p row hrow
    exact ⟨row', hrow', hev.fileId.trans hfile⟩

theorem FileOk.mono (he : g.Extends g') {key : FileId} {file : File} (h : FileOk g key file) :
    FileOk g' key file where
  id := h.id
  current := fun v hv => by
    obtain ⟨row, hrow, hok⟩ := h.current v hv
    obtain ⟨row', hrow', hev⟩ := he.versions v row hrow
    have hcommitted := (validateFileCurrentVersion_eq_ok.mp hok).2.2
    rw [hev.of_committed hcommitted] at hrow'
    exact ⟨row, hrow', hok⟩

theorem VersionOk.mono (he : g.Extends g') {key : VersionId} {version : Version}
    (h : VersionOk g key version) : VersionOk g' key version where
  id := h.id
  file := he.files.exists h.file
  manifest := he.manifests.exists h.manifest
  parent := fun p hp => by
    obtain ⟨row, hrow, hok⟩ := h.parent p hp
    obtain ⟨row', hrow', hev⟩ := he.versions p row hrow
    obtain ⟨hid, hfile⟩ := validateVersionParent_eq_ok.mp hok
    refine ⟨row', hrow', validateVersionParent_eq_ok.mpr ⟨?_, ?_⟩⟩
    · rw [hid, hev.versionId]
    · rw [hfile, hev.fileId]
  visible := fun hc => by
    obtain ⟨file, hfile, hcur⟩ := h.visible hc
    obtain ⟨file', hfile', hev⟩ := he.files _ file hfile
    exact ⟨file', hfile', hev.current hcur⟩

theorem ManifestOk.mono (he : g.Extends g') {key : ManifestId} {m : Manifest}
    (h : ManifestOk g key m) : ManifestOk g' key m where
  id := h.id
  valid := h.valid
  registered := h.registered.mono he

end upward

/-! ## Section 4: Every write preserves the invariant -/

section preservation

variable {g : Inner} {env : Env}

theorem MetaInv.addFile (h : MetaInv g) {parentId : DirectoryId} {name key : String}
    (he : g.Extends (g.addFile key (Inner.freshFile env parentId name))) :
    MetaInv (g.addFile key (Inner.freshFile env parentId name)) where
  files := h.files.insert (fun _ _ _ => FileOk.mono he) ⟨rfl, fun _ hv => by cases hv⟩
  keys := h.keys.insert (fun _ _ _ hid => he.files.exists hid)
    ⟨_, Finmap.lookup_insert _⟩
  versions := h.versions.mono fun _ _ => VersionOk.mono he
  manifests := h.manifests.mono fun _ _ => ManifestOk.mono he
  chunks := h.chunks

theorem MetaInv.addChunk (h : MetaInv g) {chunk : Chunk} (he : g.Extends (g.addChunk chunk)) :
    MetaInv (g.addChunk chunk) where
  files := h.files.mono fun _ _ => FileOk.mono he
  keys := h.keys
  versions := h.versions.mono fun _ _ => VersionOk.mono he
  manifests := h.manifests.mono fun _ _ => ManifestOk.mono he
  chunks := h.chunks.insert (fun _ _ _ hid => hid) rfl

theorem MetaInv.addManifest (h : MetaInv g) {m : Manifest} (hvalid : validateManifest m = ok ())
    (hreg : g.Registered m) (he : g.Extends (g.addManifest m)) : MetaInv (g.addManifest m) where
  files := h.files.mono fun _ _ => FileOk.mono he
  keys := h.keys
  versions := h.versions.mono fun _ _ => VersionOk.mono he
  manifests := h.manifests.insert (fun _ _ _ => ManifestOk.mono he)
    ⟨rfl, hvalid, hreg.mono he⟩
  chunks := h.chunks

theorem versionOk_fresh {fileId : FileId} {versionId : VersionId} {parent : Option VersionId}
    {manifestId : ManifestId} (h : MetaInv g) (hrefs : g.Refs fileId parent manifestId) :
    VersionOk g versionId (Inner.freshVersion env fileId versionId parent manifestId) where
  id := rfl
  file := hrefs.file
  manifest := hrefs.manifest
  parent := fun p hp => by
    obtain ⟨row, hrow, hfile⟩ := hrefs.parent p hp
    refine ⟨row, hrow, validateVersionParent_eq_ok.mpr ⟨?_, hfile.symm⟩⟩
    rw [(h.versions p row hrow).id]
    exact hp
  visible := fun hc => by cases hc

theorem MetaInv.addVersion (h : MetaInv g) {v : Version} (hv : VersionOk g v.versionId v)
    (he : g.Extends (g.addVersion v)) : MetaInv (g.addVersion v) where
  files := h.files.mono fun _ _ => FileOk.mono he
  keys := h.keys
  versions := h.versions.insert (fun _ _ _ => VersionOk.mono he) (hv.mono he)
  manifests := h.manifests.mono fun _ _ => ManifestOk.mono he
  chunks := h.chunks

/-- The two rows a commit changes, when the file exists. -/
theorem commit_eq {versionId : VersionId} {version : Version} {file : File}
    (hf : g.files.lookup version.fileId = some file) : g.commit env versionId version =
      { g with
        versions := g.versions.insert versionId { version with state := .committed }
        files := g.files.insert version.fileId
          { file with currentVersionId := some versionId, modifiedAt := env.now } } := by
  simp only [Inner.commit, Inner.setCurrent, hf]

theorem MetaInv.commit (h : MetaInv g) {versionId : VersionId} {version : Version}
    (hl : g.versions.lookup versionId = some version)
    (he : g.Extends (g.commit env versionId version)) :
    MetaInv (g.commit env versionId version) := by
  have hv := h.versions versionId version hl
  obtain ⟨file, hf⟩ := hv.file
  have hid : file.fileId = version.fileId := (h.files _ _ hf).id
  have hv' := hv.mono he
  rw [commit_eq hf] at he hv' ⊢
  constructor
  · refine h.files.insert (fun _ _ _ => FileOk.mono he) ⟨hid, fun v hcur => ?_⟩
    cases hcur
    refine ⟨_, Finmap.lookup_insert _, validateFileCurrentVersion_eq_ok.mpr ⟨?_, hid.symm, rfl⟩⟩
    exact congrArg some hv.id.symm
  · exact h.keys.mono fun _ _ hk => he.files.exists hk
  · refine h.versions.insert (fun _ _ _ => VersionOk.mono he) ?_
    exact
      { id := hv'.id
        file := hv'.file
        manifest := hv'.manifest
        parent := hv'.parent
        visible := fun _ => ⟨_, Finmap.lookup_insert _, by simp⟩ }
  · exact h.manifests.mono fun _ _ => ManifestOk.mono he
  · exact h.chunks

theorem chunks_commit (env : Env) (g : Inner) (versionId : VersionId) (version : Version) :
    (g.commit env versionId version).chunks = g.chunks := by
  unfold Inner.commit Inner.setCurrent
  dsimp only
  cases g.files.lookup version.fileId <;> rfl

/-- Only `register_chunk` changes the chunk table. -/
theorem writes_chunks {g' : Inner} {op : MetaOp} {a : op.Value} (h : Writes env g op a g') :
    g'.chunks = g.chunks ∨ ∃ id size, op = .registerChunk id size ∧
      g'.chunks = g.chunks.insert id ⟨id, size⟩ := by
  cases h with
  | file _ _ => exact .inl rfl
  | chunk _ _ => exact .inr ⟨_, _, rfl, rfl⟩
  | manifest _ _ _ => exact .inl rfl
  | version _ _ => exact .inl rfl
  | commit _ _ => exact .inl (chunks_commit env g _ _)

/-- **Every write preserves the invariant.** -/
theorem writes_inv {g' : Inner} {op : MetaOp} {a : op.Value} (h : MetaInv g)
    (hw : Writes env g op a g') (hfresh : op.Fresh env g) : MetaInv g' := by
  have he := writes_extends hw hfresh
  cases hw with
  | file hname hkey => exact h.addFile he
  | chunk hwf hl => exact h.addChunk he
  | manifest hvalid hreg hl => exact h.addManifest hvalid hreg he
  | version hrefs hl => exact h.addVersion (versionOk_fresh h hrefs) he
  | commit hl hc => exact h.commit hl he

end preservation

/-! ## Section 5: Runs of the store -/

/-- The interface of the store. -/
abbrev MetaI : Interface := ⟨MetaOp, fun op => Res op.Value⟩

/-- One call, with any environment that mints a fresh id. -/
def MetaOp.Step : Sem MetaI Inner := fun op g r g' =>
  ∃ env, op.Fresh env g ∧ op.exec env g = (r, g')

theorem MetaOp.Step.call {op : MetaOp} {g g' : Inner} {r : Res op.Value}
    (h : MetaOp.Step op g r g') : ∃ env, op.Fresh env g ∧ Call env g op r g' := by
  obtain ⟨env, hfresh, heq⟩ := h
  refine ⟨env, hfresh, ?_⟩
  have := exec_call env g op
  rw [heq] at this
  exact this

/-- **One call**: the invariant is kept and the store has grown. -/
theorem step_inv {op : MetaOp} {g g' : Inner} {r : Res op.Value} (h : MetaInv g)
    (hs : MetaOp.Step op g r g') : MetaInv g' ∧ g.Extends g' := by
  obtain ⟨env, hfresh, hcall⟩ := hs.call
  cases hcall with
  | refused e => exact ⟨h, .refl g⟩
  | dangling _ => exact ⟨h, .refl g⟩
  | found _ => exact ⟨h, .refl g⟩
  | wrote hw => exact ⟨writes_inv h hw hfresh, writes_extends hw hfresh⟩

/-- The states a store passes through, from the empty one. -/
def Inner.Reachable : Inner → Prop :=
  Relation.ReflTransGen (fun g g' => ∃ (op : MetaOp) (r : Res op.Value), MetaOp.Step op g r g')
    Inner.new

theorem reachable_inv {g : Inner} (h : g.Reachable) : MetaInv g := by
  induction h with
  | refl => exact metaInv_new
  | tail _ hstep ih =>
    obtain ⟨op, r, hs⟩ := hstep
    exact (step_inv ih hs).1

/-- Make the calls one after the other, each in its environment. -/
def Inner.runCalls (g : Inner) : List (Env × MetaOp) → Inner
  | [] => g
  | (env, op) :: rest => Inner.runCalls (op.exec env g).2 rest

/-- Every id minted on the way is fresh. -/
def Inner.FreshCalls (g : Inner) : List (Env × MetaOp) → Prop
  | [] => True
  | (env, op) :: rest => op.Fresh env g ∧ Inner.FreshCalls (op.exec env g).2 rest

theorem reachable_runCalls {g : Inner} {calls : List (Env × MetaOp)} (h : g.Reachable)
    (hfresh : g.FreshCalls calls) : (g.runCalls calls).Reachable := by
  induction calls generalizing g with
  | nil => exact h
  | cons call rest ih =>
    obtain ⟨env, op⟩ := call
    exact ih (h.tail ⟨op, _, env, hfresh.1, rfl⟩) hfresh.2

/-- Under the invariant no call panics: the one index is in range. -/
theorem exec_ne_panic {g : Inner} (h : MetaInv g) (env : Env) (op : MetaOp) :
    (op.exec env g).1 ≠ panic := by
  intro hp
  have hcall := exec_call env g op
  rw [hp] at hcall
  generalize (op.exec env g).2 = g' at hcall
  cases hcall with
  | dangling hd =>
    cases op with
    | createFile parentId name key =>
      obtain ⟨id, hkey, hnone⟩ := hd
      obtain ⟨file, hfile⟩ := h.keys key id hkey
      rw [hnone] at hfile
      cases hfile
    | _ => exact hd

/-- **The store keeps its invariant in every run**, and no call of it can
    panic. -/
theorem metadata_invariant {g : Inner} (h : g.Reachable) :
    MetaInv g ∧ ∀ env op, (MetaOp.exec env op g).1 ≠ panic :=
  ⟨reachable_inv h, exec_ne_panic (reachable_inv h)⟩

/-! ### A sample run

    One file with two versions of the same three bytes, the second built on
    the first while both are candidates, and then committed. -/

/-- The hash order is whatever it is; the ids and times are given. -/
noncomputable def Env.sample (id : BitVec 128) (now : Int) : Env where
  newId := ⟨⟨id⟩⟩
  now := ⟨now⟩
  hashOrder := fun files => ⟨Quotient.out files, Quotient.out_eq files⟩

namespace Sample

def file : FileId := ⟨⟨1⟩⟩

def v1 : VersionId := ⟨⟨1⟩⟩

def v2 : VersionId := ⟨⟨2⟩⟩

def manifest : Manifest where
  manifestId := ⟨⟨1⟩⟩
  totalSize := 3
  chunkCount := 1
  entries := [⟨0, 3, chunk, 0⟩]
  chunks := [⟨chunk, 3⟩]

noncomputable def calls : List (Env × MetaOp) :=
  [(Env.sample 1 10, .createFile ⟨⟨7⟩⟩ "a.txt" "k1"),
    (Env.sample 2 20, .registerChunk chunk 3),
    (Env.sample 2 30, .putManifest manifest),
    (Env.sample 2 40, .createVersion file v1 none manifest.manifestId),
    (Env.sample 2 50, .createVersion file v2 (some v1) manifest.manifestId),
    (Env.sample 2 60, .commitVersion v2)]

theorem calls_fresh : Inner.new.FreshCalls calls :=
  ⟨fun _ => rfl, trivial, trivial, trivial, trivial, trivial, trivial⟩

end Sample

/-- The sample run commits its second version, and keeps the invariant. -/
theorem metadata_invariant_sample :
    ((Inner.new.runCalls Sample.calls).versions.lookup Sample.v2).map Version.state =
        some .committed ∧
      MetaInv (Inner.new.runCalls Sample.calls) ∧
        ∀ env op, (MetaOp.exec env op (Inner.new.runCalls Sample.calls)).1 ≠ panic :=
  ⟨by decide, metadata_invariant (reachable_runCalls .refl Sample.calls_fresh)⟩

end Space
