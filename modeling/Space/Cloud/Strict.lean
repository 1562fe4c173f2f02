import Space.Cloud.Router
import Space.Contracts.WellFormed

/-! # Unknown fields

    Which of the documents that are sent to a write route have a field that
    no type defines, and what becomes of such a request.

    The four request types deny unknown fields, so a field at the top level
    is refused wherever the request type is extracted at all. The types of
    the manifest inside `PutManifestRequest` do not, and `commit_version`
    extracts nothing. -/

namespace Space

open Rust Outcome Data Effects

/-! ## Section 1: The fields of the types -/

def Chunk.extra : Json → Bool :=
  Json.extraIn [("chunk_id", Json.hasField), ("size", Json.hasField)]

def ManifestEntry.extra : Json → Bool :=
  Json.extraIn [("logical_offset", Json.hasField), ("length", Json.hasField),
    ("chunk_id", Json.hasField), ("chunk_offset", Json.hasField)]

def Manifest.extra : Json → Bool :=
  Json.extraIn [("manifest_id", Json.hasField), ("total_size", Json.hasField),
    ("chunk_count", Json.hasField), ("entries", Json.extraEach ManifestEntry.extra),
    ("chunks", Json.extraEach Chunk.extra)]

def CreateFileRequest.extra : Json → Bool :=
  Json.extraIn [("parent_id", Json.hasField), ("name", Json.hasField),
    ("idempotency_key", Json.hasField)]

def CreateVersionRequest.extra : Json → Bool :=
  Json.extraIn [("version_id", Json.hasField), ("parent_version_id", Json.hasField),
    ("manifest_id", Json.hasField)]

def CommitVersionRequest.extra : Json → Bool := Json.extraIn []

def PutManifestRequest.extra : Json → Bool := Json.extraIn [("manifest", Manifest.extra)]

/-- The write routes that have a request type, and whether a document has a
    field that the type, or a type inside it, does not define. -/
def HttpRequest.extra (r : HttpRequest) : Option (Json → Bool) :=
  match r.method, endpoint r.path with
  | .post, some .files => some CreateFileRequest.extra
  | .post, some (.versions _) => some CreateVersionRequest.extra
  | .post, some (.commit _) => some CommitVersionRequest.extra
  | .put, some (.manifest _) => some PutManifestRequest.extra
  | _, _ => none

/-! ## Section 2: What the request types refuse -/

/-- A value without fields inside: what a scalar is read from. -/
theorem hasField_of_readString {j : Json} {s : String} (h : Json.readString j = some s) :
    j.hasField = false := by
  cases j with
  | str s => rfl
  | _ => cases h

section strict

variable [UuidCrate]

theorem hasField_of_uuid {α : Type} {mk : Uuid → α} {j : Json} {id : α}
    (h : (Uuid.ofJson j).map mk = some id) : j.hasField = false := by
  cases j with
  | str s => rfl
  | _ => cases h

theorem hasField_of_optional {j : Json} {name : String} {fields : List (String × Json)}
    {o : Option VersionId} (hl : fields.lookup name = some j)
    (h : Json.optional VersionId.ofJson name fields = some o) : j.hasField = false := by
  by_cases hnull : j = .null
  · subst hnull
    rfl
  · rw [Json.optional_value hl hnull] at h
    obtain ⟨id, hid, _⟩ := Option.map_eq_some_iff.mp h
    exact hasField_of_uuid hid

/-- **`CreateFileRequest` has no room for other fields**, at any depth. -/
theorem CreateFileRequest.ofJson_extra {j : Json} (h : CreateFileRequest.extra j = true) :
    CreateFileRequest.ofJson j = none := by
  cases hj : CreateFileRequest.ofJson j with
  | none => rfl
  | some req =>
    simp only [CreateFileRequest.ofJson, Option.bind_eq_bind, Option.bind_eq_some_iff] at hj
    obtain ⟨fields, hfields, parentId, hparent, name, hname, key, hkey, _⟩ := hj
    obtain ⟨p, hp, v, hl, hv⟩ := Json.structFields_strict h hfields rfl (by decide)
    -- every field of the type is a scalar
    simp only [List.mem_cons, List.not_mem_nil, or_false] at hp
    rcases hp with rfl | rfl | rfl
    · rw [Json.required_value hl] at hparent
      exact absurd hv (by simp [hasField_of_uuid hparent])
    · rw [Json.required_value hl] at hname
      exact absurd hv (by simp [hasField_of_readString hname])
    · rw [Json.required_value hl] at hkey
      exact absurd hv (by simp [hasField_of_readString hkey])

/-- **`CreateVersionRequest` has no room for other fields.** -/
theorem CreateVersionRequest.ofJson_extra {j : Json} (h : CreateVersionRequest.extra j = true) :
    CreateVersionRequest.ofJson j = none := by
  cases hj : CreateVersionRequest.ofJson j with
  | none => rfl
  | some req =>
    simp only [CreateVersionRequest.ofJson, Option.bind_eq_bind, Option.bind_eq_some_iff] at hj
    obtain ⟨fields, hfields, versionId, hversion, parent, hparent, manifestId, hmanifest, _⟩ := hj
    obtain ⟨p, hp, v, hl, hv⟩ := Json.structFields_strict h hfields rfl (by decide)
    simp only [List.mem_cons, List.not_mem_nil, or_false] at hp
    rcases hp with rfl | rfl | rfl
    · rw [Json.required_value hl] at hversion
      exact absurd hv (by simp [hasField_of_uuid hversion])
    · exact absurd hv (by simp [hasField_of_optional hl hparent])
    · rw [Json.required_value hl] at hmanifest
      exact absurd hv (by simp [hasField_of_uuid hmanifest])

end strict

/-! ## Section 3: What is read in spite of them

    The types of a manifest ignore the fields that they do not define. What a
    document says beside those is told here field by field. -/

/-- The document has the fields of the chunk, and maybe others. -/
def Chunk.CarriedBy (c : Chunk) (j : Json) : Prop :=
  Json.FieldIs ["chunk_id", "size"] "chunk_id" (.str c.chunkId.str) j ∧
    Json.FieldIs ["chunk_id", "size"] "size" (.uint c.size) j

def ManifestEntry.fieldNames : List String :=
  ["logical_offset", "length", "chunk_id", "chunk_offset"]

structure ManifestEntry.CarriedBy (e : ManifestEntry) (j : Json) : Prop where
  logicalOffset : Json.FieldIs fieldNames "logical_offset" (.uint e.logicalOffset) j
  length : Json.FieldIs fieldNames "length" (.uint e.length) j
  chunkId : Json.FieldIs fieldNames "chunk_id" (.str e.chunkId.str) j
  chunkOffset : Json.FieldIs fieldNames "chunk_offset" (.uint e.chunkOffset) j

def Manifest.fieldNames : List String :=
  ["manifest_id", "total_size", "chunk_count", "entries", "chunks"]

/-- The document has the fields of the manifest, with its entries and chunks,
    and maybe others at any depth. -/
structure Manifest.CarriedBy [UuidCrate] (m : Manifest) (j : Json) : Prop where
  manifestId : ∃ text, UuidCrate.parseStr text = some m.manifestId.uuid ∧
    Json.FieldIs fieldNames "manifest_id" (.str text) j
  totalSize : Json.FieldIs fieldNames "total_size" (.uint m.totalSize) j
  chunkCount : Json.FieldIs fieldNames "chunk_count" (.uint m.chunkCount) j
  entries : ∃ items, List.Forall₂ (fun item e => ManifestEntry.CarriedBy e item) items m.entries ∧
    Json.FieldIs fieldNames "entries" (.arr items) j
  chunks : ∃ items, List.Forall₂ (fun item c => Chunk.CarriedBy c item) items m.chunks ∧
    Json.FieldIs fieldNames "chunks" (.arr items) j

theorem ChunkId.ofJson_eq_some_iff {j : Json} {id : ChunkId} :
    ChunkId.ofJson j = some id ↔ j = .str id.str := by
  obtain ⟨str⟩ := id
  cases j <;> simp [ChunkId.ofJson, Json.readString]

theorem Chunk.ofJson_eq_some_iff {j : Json} {c : Chunk} :
    Chunk.ofJson j = some c ↔ c.CarriedBy j := by
  have hnames : ["chunk_id", "size"].Nodup := by decide
  simp only [Chunk.ofJson, Option.bind_eq_bind, Option.bind_eq_some_iff, Option.pure_def,
    Option.some.injEq]
  constructor
  · rintro ⟨fields, hfields, id, hid, size, hsize, rfl⟩
    obtain ⟨_, hid, hv⟩ := (Json.required_eq_some_iff hfields hnames (by decide)).mp hid
    rw [ChunkId.ofJson_eq_some_iff.mp hv] at hid
    obtain ⟨_, hsize, hv⟩ := (Json.required_eq_some_iff hfields hnames (by decide)).mp hsize
    rw [Json.readU64_eq_some_iff.mp hv] at hsize
    exact ⟨hid, hsize⟩
  · rintro ⟨hid, hsize⟩
    have hall : ∀ name ∈ ["chunk_id", "size"],
        ∃ v, Json.FieldIs ["chunk_id", "size"] name v j := by
      simp only [List.forall_mem_cons]
      exact ⟨⟨_, hid⟩, ⟨_, hsize⟩, fun _ h => by cases h⟩
    obtain ⟨fields, hfields⟩ := Json.structFields_of_fieldIs (by simp) hall
    refine ⟨fields, hfields, c.chunkId, ?_, c.size, ?_, rfl⟩
    · exact (Json.required_eq_some_iff hfields hnames (by decide)).mpr ⟨_, hid, rfl⟩
    · exact (Json.required_eq_some_iff hfields hnames (by decide)).mpr ⟨_, hsize, rfl⟩

theorem ManifestEntry.ofJson_eq_some_iff {j : Json} {e : ManifestEntry} :
    ManifestEntry.ofJson j = some e ↔ e.CarriedBy j := by
  have hnames : fieldNames.Nodup := by decide
  simp only [ManifestEntry.ofJson, Option.bind_eq_bind, Option.bind_eq_some_iff,
    Option.pure_def, Option.some.injEq]
  constructor
  · rintro ⟨fields, hfields, offset, hoffset, length, hlength, id, hid, chunkOffset,
      hchunkOffset, rfl⟩
    obtain ⟨_, hoffset, hv⟩ := (Json.required_eq_some_iff hfields hnames (by decide)).mp hoffset
    rw [Json.readU64_eq_some_iff.mp hv] at hoffset
    obtain ⟨_, hlength, hv⟩ := (Json.required_eq_some_iff hfields hnames (by decide)).mp hlength
    rw [Json.readU64_eq_some_iff.mp hv] at hlength
    obtain ⟨_, hid, hv⟩ := (Json.required_eq_some_iff hfields hnames (by decide)).mp hid
    rw [ChunkId.ofJson_eq_some_iff.mp hv] at hid
    obtain ⟨_, hchunkOffset, hv⟩ :=
      (Json.required_eq_some_iff hfields hnames (by decide)).mp hchunkOffset
    rw [Json.readU64_eq_some_iff.mp hv] at hchunkOffset
    exact ⟨hoffset, hlength, hid, hchunkOffset⟩
  · rintro ⟨hoffset, hlength, hid, hchunkOffset⟩
    have hall : ∀ name ∈ fieldNames, ∃ v, Json.FieldIs fieldNames name v j := by
      simp only [fieldNames, List.forall_mem_cons]
      exact ⟨⟨_, hoffset⟩, ⟨_, hlength⟩, ⟨_, hid⟩, ⟨_, hchunkOffset⟩, fun _ h => by cases h⟩
    obtain ⟨fields, hfields⟩ := Json.structFields_of_fieldIs (by decide) hall
    refine ⟨fields, hfields, e.logicalOffset, ?_, e.length, ?_, e.chunkId, ?_, e.chunkOffset, ?_,
      rfl⟩
    · exact (Json.required_eq_some_iff hfields hnames (by decide)).mpr ⟨_, hoffset, rfl⟩
    · exact (Json.required_eq_some_iff hfields hnames (by decide)).mpr ⟨_, hlength, rfl⟩
    · exact (Json.required_eq_some_iff hfields hnames (by decide)).mpr ⟨_, hid, rfl⟩
    · exact (Json.required_eq_some_iff hfields hnames (by decide)).mpr ⟨_, hchunkOffset, rfl⟩

section strict

variable [UuidCrate]

theorem ManifestId.ofJson_eq_some_iff {j : Json} {id : ManifestId} :
    ManifestId.ofJson j = some id ↔ ∃ text, UuidCrate.parseStr text = some id.uuid ∧
      j = .str text := by
  obtain ⟨uuid⟩ := id
  cases j <;> simp [ManifestId.ofJson, Uuid.ofJson, eq_comm]

/-- **What a manifest is read from**: a document that has its fields, whatever
    others it has. -/
theorem Manifest.ofJson_eq_some_iff {j : Json} {m : Manifest} :
    Manifest.ofJson j = some m ↔ m.CarriedBy j := by
  have hnames : fieldNames.Nodup := by decide
  simp only [Manifest.ofJson, Option.bind_eq_bind, Option.bind_eq_some_iff,
    Option.pure_def, Option.some.injEq]
  constructor
  · rintro ⟨fields, hfields, id, hid, total, htotal, count, hcount, entries, hentries, chunks,
      hchunks, rfl⟩
    obtain ⟨_, hid, hv⟩ := (Json.required_eq_some_iff hfields hnames (by decide)).mp hid
    obtain ⟨text, htext, rfl⟩ := ManifestId.ofJson_eq_some_iff.mp hv
    obtain ⟨_, htotal, hv⟩ := (Json.required_eq_some_iff hfields hnames (by decide)).mp htotal
    rw [Json.readU64_eq_some_iff.mp hv] at htotal
    obtain ⟨_, hcount, hv⟩ := (Json.required_eq_some_iff hfields hnames (by decide)).mp hcount
    rw [Json.readU64_eq_some_iff.mp hv] at hcount
    obtain ⟨_, hentries, hv⟩ := (Json.required_eq_some_iff hfields hnames (by decide)).mp hentries
    obtain ⟨items, rfl, hitems⟩ := Json.readList_eq_some_iff.mp hv
    obtain ⟨_, hchunks, hv⟩ := (Json.required_eq_some_iff hfields hnames (by decide)).mp hchunks
    obtain ⟨rows, rfl, hrows⟩ := Json.readList_eq_some_iff.mp hv
    simp only [ManifestEntry.ofJson_eq_some_iff] at hitems
    simp only [Chunk.ofJson_eq_some_iff] at hrows
    exact ⟨⟨text, htext, hid⟩, htotal, hcount, ⟨items, hitems, hentries⟩, ⟨rows, hrows, hchunks⟩⟩
  · rintro ⟨⟨text, htext, hid⟩, htotal, hcount, ⟨items, hitems, hentries⟩, ⟨rows, hrows, hchunks⟩⟩
    simp only [← ManifestEntry.ofJson_eq_some_iff] at hitems
    simp only [← Chunk.ofJson_eq_some_iff] at hrows
    have hall : ∀ name ∈ fieldNames, ∃ v, Json.FieldIs fieldNames name v j := by
      simp only [fieldNames, List.forall_mem_cons]
      exact ⟨⟨_, hid⟩, ⟨_, htotal⟩, ⟨_, hcount⟩, ⟨_, hentries⟩, ⟨_, hchunks⟩, fun _ h => by cases h⟩
    obtain ⟨fields, hfields⟩ := Json.structFields_of_fieldIs (by decide) hall
    refine ⟨fields, hfields, m.manifestId, ?_, m.totalSize, ?_, m.chunkCount, ?_, m.entries, ?_,
      m.chunks, ?_, rfl⟩
    · exact (Json.required_eq_some_iff hfields hnames (by decide)).mpr
        ⟨_, hid, ManifestId.ofJson_eq_some_iff.mpr ⟨text, htext, rfl⟩⟩
    · exact (Json.required_eq_some_iff hfields hnames (by decide)).mpr ⟨_, htotal, rfl⟩
    · exact (Json.required_eq_some_iff hfields hnames (by decide)).mpr ⟨_, hcount, rfl⟩
    · exact (Json.required_eq_some_iff hfields hnames (by decide)).mpr
        ⟨_, hentries, Json.readList_eq_some_iff.mpr ⟨items, rfl, hitems⟩⟩
    · exact (Json.required_eq_some_iff hfields hnames (by decide)).mpr
        ⟨_, hchunks, Json.readList_eq_some_iff.mpr ⟨rows, rfl, hrows⟩⟩

/-- The document has a manifest `v` at its top level, and nothing else. -/
def PutManifestRequest.Wraps (j v : Json) : Prop := j = .obj [("manifest", v)] ∨ j = .arr [v]

/-- **A `PutManifestRequest` with an extra field is read when all of these are
    inside its manifest**, and only then. -/
theorem PutManifestRequest.ofJson_extra_iff {j : Json} {req : PutManifestRequest}
    (h : PutManifestRequest.extra j = true) : PutManifestRequest.ofJson j = some req ↔
      ∃ v, PutManifestRequest.Wraps j v ∧ Manifest.extra v = true ∧ req.manifest.CarriedBy v := by
  simp only [← Manifest.ofJson_eq_some_iff, PutManifestRequest.ofJson, Option.bind_eq_bind,
    Option.bind_eq_some_iff, Option.pure_def, Option.some.injEq]
  constructor
  · rintro ⟨fields, hfields, manifest, hmanifest, rfl⟩
    obtain ⟨p, hp, v, hl, hv⟩ := Json.structFields_strict h hfields rfl (by decide)
    cases List.mem_singleton.mp hp
    rw [Json.required_value hl] at hmanifest
    exact ⟨v, Json.eq_of_structFields_singleton hfields hl, hv, hmanifest⟩
  · rintro ⟨v, rfl | rfl, _, hmanifest⟩
    · exact ⟨[("manifest", v)], rfl, req.manifest, hmanifest, rfl⟩
    · exact ⟨[("manifest", v)], rfl, req.manifest, hmanifest, rfl⟩

/-! ## Section 4: What is taken in spite of them -/

/-- `commit_version` would succeed: the version exists, and it is committed
    already or has a valid manifest. -/
def Inner.Committable (g : Inner) (v : VersionId) : Prop :=
  ∃ row, g.versions.lookup v = some row ∧ (row.state = .committed ∨
    ∃ m, g.manifests.lookup row.manifestId = some m ∧ m.WellFormed)

/-- `put_manifest` would succeed: the manifest is valid, its chunks are
    registered, and its id is free or stands for the same manifest. -/
def Inner.Admits (g : Inner) (m : Manifest) : Prop :=
  m.WellFormed ∧ g.Registered m ∧
    (g.manifests.lookup m.manifestId = none ∨ g.manifests.lookup m.manifestId = some m)

omit [UuidCrate] in
theorem commitVersion_err_iff {env : Env} {g : Inner} {v : VersionId} :
    (∃ e, (g.commitVersion env v).1 = err e) ↔ ¬ g.Committable v := by
  unfold Inner.commitVersion Inner.Committable
  cases hl : g.versions.lookup v with
  | none => simp
  | some row =>
    by_cases hstate : row.state = .committed
    · simp [hstate]
    · have hcandidate : row.state = .candidate := by
        cases hrow : row.state with
        | candidate => rfl
        | committed => exact absurd hrow hstate
      cases hm : g.manifests.lookup row.manifestId with
      | none => simp [Inner.checkCommit, hcandidate, hm]
      | some m =>
        have hvalid := validateManifest_ok_iff (m := m)
        cases hv : validateManifest m with
        | ok u =>
          cases u
          simp [Inner.checkCommit, hcandidate, hm, hv, hvalid.mp hv]
        | err e =>
          have hno : ¬ m.WellFormed := by
            intro hwf
            rw [hvalid.mpr hwf] at hv
            cases hv
          simp [Inner.checkCommit, hcandidate, hm, hv, hno]
        | panic => exact absurd hv (validateManifest_checks m).ne_panic

omit [UuidCrate] in
theorem putManifest_err_iff {g : Inner} {m : Manifest} :
    (∃ e, (g.putManifest m).1 = err e) ↔ ¬ g.Admits m := by
  have hok := Inner.checkManifest_eq_ok (g := g) (m := m)
  rw [validateManifest_ok_iff] at hok
  unfold Inner.putManifest Inner.Admits
  rw [← hok]
  cases hc : g.checkManifest m with
  | ok u => simp
  | err e => simp
  | panic => exact absurd hc (Inner.checkManifest_checks m).ne_panic

variable [Axum]

/-- The document `j` of the request has an extra field where nothing denies
    it, and nothing else is wrong: in the body of a commit, whose version can
    be committed, or inside the manifest of an upload, which is admitted
    without the field. -/
inductive Lenient (r : HttpRequest) (j : Json) (s : AppState) : Prop where
  | commit {raw text : String} {v : VersionId} :
      r.method = .post → endpoint r.path = some (.commit raw) →
      Axum.percentDecode raw = some text → VersionId.parse text = ok v →
      s.metaStore.Committable v → CommitVersionRequest.extra j = true → Lenient r j s
  | manifest {raw text : String} {v : Json} {m : Manifest} :
      r.method = .put → endpoint r.path = some (.manifest raw) →
      Axum.percentDecode raw = some text → ManifestId.parse text = ok m.manifestId →
      Axum.isJson r.contentType = true → r.body.length ≤ bodyLimit →
      PutManifestRequest.Wraps j v → Manifest.extra v = true → m.CarriedBy v →
      s.metaStore.Admits m → Lenient r j s

variable [Chrono] [SerdeJson] [Blake3] {env : Env} {r : HttpRequest} {s : AppState} {j : Json}

/-- A body that its type does not read is refused. -/
theorem refuses_of_json {T : Type} {ofJson : Json → Option T} {k : T → Except Rejection Routed}
    (hplain : Axum.PlainRejections) (hbody : Axum.readJson r.body = some j)
    (hnone : ofJson j = none) (hroute : route r = jsonBody ofJson r >>= k) :
    Router.Refuses env r s := by
  cases hj : jsonBody ofJson r with
  | error rejection =>
    rw [hj] at hroute
    exact refuses_of_error hplain hroute
  | ok req =>
    have hread := (jsonBody_eq_ok.mp hj).2.2
    rw [hbody] at hread
    rw [show (some j).bind ofJson = ofJson j from rfl, hnone] at hread
    cases hread

/-- A commit is refused exactly when its version cannot be committed; the
    body plays no part. -/
theorem refuses_commit_iff (hplain : Axum.PlainRejections) {raw : String}
    (hmethod : r.method = .post) (hend : endpoint r.path = some (.commit raw))
    (hextra : CommitVersionRequest.extra j = true) :
    Router.Refuses env r s ↔ ¬ Lenient r j s := by
  have hlenient : Lenient r j s ↔ ∃ text v, Axum.percentDecode raw = some text ∧
      VersionId.parse text = ok v ∧ s.metaStore.Committable v := by
    constructor
    · intro h
      cases h with
      | commit _ hend' htext hv hcommit =>
        rw [hend] at hend'
        cases hend'
        exact ⟨_, _, htext, hv, hcommit⟩
      | manifest _ hend' =>
        rw [hend] at hend'
        cases hend'
    · intro ⟨text, v, htext, hv, hcommit⟩
      exact .commit hmethod hend htext hv hcommit hextra
  have hroute : route r = (do
      let versionId ← pathParam raw
      return .stores (.commitVersion versionId)) := by
    simp only [route, hend, Endpoint.extract, hmethod, if_true]
  rw [hlenient]
  cases htext : Axum.percentDecode raw with
  | none =>
    rw [pathParam, htext] at hroute
    simp [refuses_of_error hplain hroute]
  | some text =>
    rw [pathParam, htext] at hroute
    have hcall : Api.metaCall (.commitVersion text) = some (do
      let id ← VersionId.parse text
      return ⟨.commitVersion id, fun version => .version ⟨contractVersion, version⟩⟩) := rfl
    cases hv : VersionId.parse text with
    | ok v =>
      -- the body is never read: what the store says of the id decides
      rw [refuses_metaCall_iff hroute (Api.metaCall_commitVersion hv)]
      show (∃ e, (s.metaStore.commitVersion env v).1 = err e) ↔ _
      rw [commitVersion_err_iff]
      simp [hv]
    | err e =>
      rw [hv] at hcall
      simp [refuses_of_err hroute (serve_metaCall env s hcall), hv]
    | panic => exact absurd hv (checks_parseTagged "v_" VersionId.mk text).ne_panic

/-- A manifest is refused exactly when it cannot be read, or the store does
    not admit what was read. -/
theorem refuses_manifest_iff (hplain : Axum.PlainRejections) {raw : String}
    (hmethod : r.method = .put) (hend : endpoint r.path = some (.manifest raw))
    (hbody : Axum.readJson r.body = some j) (hextra : PutManifestRequest.extra j = true) :
    Router.Refuses env r s ↔ ¬ Lenient r j s := by
  have hlenient : Lenient r j s ↔ ∃ text req, Axum.percentDecode raw = some text ∧
      jsonBody PutManifestRequest.ofJson r = .ok req ∧
        ManifestId.parse text = ok req.manifest.manifestId ∧ s.metaStore.Admits req.manifest := by
    have hread : ∀ req : PutManifestRequest,
        (Axum.readJson r.body).bind PutManifestRequest.ofJson = some req ↔ ∃ v,
          PutManifestRequest.Wraps j v ∧ Manifest.extra v = true ∧ req.manifest.CarriedBy v := by
      intro req
      rw [hbody]
      exact PutManifestRequest.ofJson_extra_iff hextra
    simp only [jsonBody_eq_ok, hread]
    constructor
    · intro h
      cases h with
      | commit _ hend' =>
        rw [hend] at hend'
        cases hend'
      | @manifest _ _ v m _ hend' htext hid hjson hlen hwraps hv hcarried hadmit =>
        rw [hend] at hend'
        cases hend'
        exact ⟨_, ⟨m⟩, htext, ⟨hjson, hlen, v, hwraps, hv, hcarried⟩, hid, hadmit⟩
    · intro ⟨text, req, htext, ⟨hjson, hlen, v, hwraps, hv, hcarried⟩, hid, hadmit⟩
      exact .manifest hmethod hend htext hid hjson hlen hwraps hv hcarried hadmit
  have hroute : route r = (do
      let manifestId ← pathParam raw
      let req ← jsonBody PutManifestRequest.ofJson r
      return .stores (.putManifest manifestId req)) := by
    simp only [route, hend, Endpoint.extract, hmethod, if_true]
  rw [hlenient]
  cases htext : Axum.percentDecode raw with
  | none =>
    rw [pathParam, htext] at hroute
    simp [refuses_of_error hplain hroute]
  | some text =>
    rw [pathParam, htext] at hroute
    cases hreq : jsonBody PutManifestRequest.ofJson r with
    | error rejection =>
      rw [hreq] at hroute
      simp [refuses_of_error hplain hroute]
    | ok req =>
      rw [hreq] at hroute
      have hcall : Api.metaCall (.putManifest text req) = some (do
        let id ← ManifestId.parse text
        rejectIf (req.manifest.manifestId != id)
          (SpaceError.invalidParam "manifest_id in path and body disagree")
        return ⟨.putManifest req.manifest, fun m => .manifest ⟨contractVersion, m⟩⟩) := rfl
      cases hid : ManifestId.parse text with
      | ok id =>
        by_cases hsame : req.manifest.manifestId = id
        · subst hsame
          rw [refuses_metaCall_iff hroute (Api.metaCall_putManifest hid)]
          show (∃ e, (s.metaStore.putManifest req.manifest).1 = err e) ↔ _
          rw [putManifest_err_iff]
          simp [hid]
        · -- the path names another manifest
          have hne : (req.manifest.manifestId != id) = true := by simpa using hsame
          rw [hid, ok_bind, hne, rejectIf_true, err_bind] at hcall
          have hother : id ≠ req.manifest.manifestId := Ne.symm hsame
          simp [refuses_of_err hroute (serve_metaCall env s hcall), hid, hother]
      | err e =>
        rw [hid] at hcall
        simp [refuses_of_err hroute (serve_metaCall env s hcall), hid]
      | panic => exact absurd hid (checks_parseTagged "m_" ManifestId.mk text).ne_panic

omit [UuidCrate] [Axum] [Chrono] [SerdeJson] [Blake3] in
/-- The routes with a request type. -/
theorem HttpRequest.extra_cases {extra : Json → Bool} (h : r.extra = some extra) :
    (r.method = .post ∧ endpoint r.path = some .files ∧ extra = CreateFileRequest.extra) ∨
      (∃ raw, r.method = .post ∧ endpoint r.path = some (.versions raw) ∧
        extra = CreateVersionRequest.extra) ∨
      (∃ raw, r.method = .post ∧ endpoint r.path = some (.commit raw) ∧
        extra = CommitVersionRequest.extra) ∨
      ∃ raw, r.method = .put ∧ endpoint r.path = some (.manifest raw) ∧
        extra = PutManifestRequest.extra := by
  unfold HttpRequest.extra at h
  split at h
  · rename_i hmethod hend
    exact .inl ⟨hmethod, hend, (Option.some.inj h).symm⟩
  · rename_i raw hmethod hend
    exact .inr (.inl ⟨raw, hmethod, hend, (Option.some.inj h).symm⟩)
  · rename_i raw hmethod hend
    exact .inr (.inr (.inl ⟨raw, hmethod, hend, (Option.some.inj h).symm⟩))
  · rename_i raw hmethod hend
    exact .inr (.inr (.inr ⟨raw, hmethod, hend, (Option.some.inj h).symm⟩))
  · cases h

omit [Chrono] [SerdeJson] [Blake3] in
/-- The document of a lenient request has an extra field. -/
theorem extra_of_lenient {extra : Json → Bool} (hroute : r.extra = some extra)
    (h : Lenient r j s) : extra j = true := by
  cases h with
  | commit hmethod hend _ _ _ hextra =>
    rw [HttpRequest.extra, hmethod, hend] at hroute
    cases hroute
    exact hextra
  | @manifest _ _ v _ hmethod hend _ _ _ _ hwraps hextra =>
    rw [HttpRequest.extra, hmethod, hend] at hroute
    cases hroute
    rcases hwraps with rfl | rfl <;>
      simp [PutManifestRequest.extra, Json.extraIn, Json.anyHasField, hextra]

omit [Chrono] [SerdeJson] [Blake3] in
theorem not_lenient_of_endpoint {e : Endpoint} (hend : endpoint r.path = some e)
    (hcommit : ∀ raw, e ≠ .commit raw) (hmanifest : ∀ raw, e ≠ .manifest raw) :
    ¬ Lenient r j s := by
  intro h
  cases h with
  | commit _ hend' =>
    rw [hend] at hend'
    exact hcommit _ (Option.some.inj hend')
  | manifest _ hend' =>
    rw [hend] at hend'
    exact hmanifest _ (Option.some.inj hend')

end strict

/-- **A field that no type defines is refused, but for a lenient request.** The
    document `j` is sent to a write route whose types define the fields that
    `extra` knows. -/
theorem decodes_strictly_iff [UuidCrate] [Chrono] [SerdeJson] [Axum] [Blake3]
    (hplain : Axum.PlainRejections) (env : Env) {r : HttpRequest} {s : AppState}
    {extra : Json → Bool} {j : Json} (hroute : r.extra = some extra)
    (hbody : Axum.readJson r.body = some j) :
    (extra j = true → Router.Refuses env r s) ↔ ¬ Lenient r j s := by
  have hlenient : ¬ Lenient r j s ↔ (extra j = true → ¬ Lenient r j s) :=
    ⟨fun h _ => h, fun h hl => h (extra_of_lenient hroute hl) hl⟩
  rw [hlenient]
  apply imp_congr_right
  intro hextra
  rcases r.extra_cases hroute with ⟨hmethod, hend, rfl⟩ | ⟨raw, hmethod, hend, rfl⟩ |
    ⟨raw, hmethod, hend, rfl⟩ | ⟨raw, hmethod, hend, rfl⟩
  · have hrefuses : Router.Refuses env r s := by
      have hroute : route r = (do
          let req ← jsonBody CreateFileRequest.ofJson r
          return .stores (.createFile req)) := by
        simp only [route, hend, Endpoint.extract, hmethod, if_true]
      exact refuses_of_json hplain hbody (CreateFileRequest.ofJson_extra hextra) hroute
    have hno : ¬ Lenient r j s := not_lenient_of_endpoint hend (by simp) (by simp)
    exact ⟨fun _ => hno, fun _ => hrefuses⟩
  · have hrefuses : Router.Refuses env r s := by
      have hroute : route r = (do
          let fileId ← pathParam raw
          let req ← jsonBody CreateVersionRequest.ofJson r
          return .stores (.createVersion fileId req)) := by
        simp only [route, hend, Endpoint.extract, hmethod, if_true]
      -- refused either way, for its path or for its body
      cases hparam : pathParam raw with
      | error rejection =>
        rw [hparam] at hroute
        exact refuses_of_error hplain hroute
      | ok text =>
        rw [hparam] at hroute
        exact refuses_of_json hplain hbody (CreateVersionRequest.ofJson_extra hextra) hroute
    have hno : ¬ Lenient r j s := not_lenient_of_endpoint hend (by simp) (by simp)
    exact ⟨fun _ => hno, fun _ => hrefuses⟩
  · exact refuses_commit_iff hplain hmethod hend hextra
  · exact refuses_manifest_iff hplain hmethod hend hbody hextra

namespace Sample

/-- What is stored. -/
def emptyManifest : Manifest := ⟨⟨⟨1⟩⟩, 0, 0, [], []⟩

/-- The empty manifest with a field `wat`. -/
def strayFields : Json :=
  .obj [("manifest_id", .str uuidText), ("total_size", .uint 0), ("chunk_count", .uint 0),
    ("entries", .arr []), ("chunks", .arr []), ("wat", .uint 1)]

def strayManifest : Json := .obj [("manifest", strayFields)]

def strayRequest : HttpRequest where
  method := .put
  path := "/v1/manifests/" ++ "m_" ++ uuidText
  contentType := some "application/json"
  range := none
  body := Json.toBytes strayManifest

theorem strayRequest_endpoint :
    endpoint strayRequest.path = some (.manifest ("m_" ++ uuidText)) := by
  decide +kernel

theorem strayRequest_extra : strayRequest.extra = some PutManifestRequest.extra := by
  unfold HttpRequest.extra
  rw [strayRequest_endpoint]
  rfl

theorem strayManifest_within : strayManifest.within 4 = true := by
  simp [strayManifest, strayFields, Json.within, Json.withinFields, Json.withinItems]

theorem strayRequest_body : Json.ofBytes strayRequest.body = some strayManifest := by
  have hbody : strayRequest.body = Json.toBytes strayManifest := by rw [strayRequest]
  rw [hbody]
  exact Json.ofBytes_toBytes strayManifest_within

theorem strayRequest_path :
    letI := hyphenatedUuids
    ManifestId.parse ("m_" ++ uuidText) = ok emptyManifest.manifestId := by
  let := hyphenatedUuids
  have htext : "m_" ++ uuidText = ManifestId.display ⟨⟨1⟩⟩ := by decide +kernel
  rw [htext, ManifestId.parse_display hyphenatedUuids_lawful]
  rfl

end Sample

theorem decodes_strictly_iff_sample :
    letI := Sample.hyphenatedUuids
    letI := Sample.chrono
    letI := Sample.serdeJson
    letI := Sample.axum
    letI := Sample.blake3
    (PutManifestRequest.extra Sample.strayManifest = true →
        Router.Refuses (Env.sample 1 10) Sample.strayRequest AppState.default) ↔
      ¬ Lenient Sample.strayRequest Sample.strayManifest AppState.default :=
  letI := Sample.hyphenatedUuids
  letI := Sample.chrono
  letI := Sample.serdeJson
  letI := Sample.axum
  letI := Sample.blake3
  decodes_strictly_iff Sample.axum_plainRejections (Env.sample 1 10) Sample.strayRequest_extra
    Sample.strayRequest_body

/-- The empty manifest is stored, and its field `wat` is dropped. -/
theorem stray_field_accepted :
    letI := Sample.hyphenatedUuids
    letI := Sample.chrono
    letI := Sample.serdeJson
    letI := Sample.axum
    letI := Sample.blake3
    ¬ ∀ (env : Env) (r : HttpRequest) (s : AppState) (extra : Json → Bool) (j : Json),
      r.extra = some extra → Axum.readJson r.body = some j → extra j = true →
        Router.Refuses env r s := by
  let := Sample.hyphenatedUuids
  let := Sample.chrono
  let := Sample.serdeJson
  let := Sample.axum
  let := Sample.blake3
  intro h
  have hrefuses := h (Env.sample 1 10) Sample.strayRequest AppState.default _ _
    Sample.strayRequest_extra Sample.strayRequest_body (by decide +kernel)
  rw [refuses_manifest_iff Sample.axum_plainRejections rfl Sample.strayRequest_endpoint
    Sample.strayRequest_body (by decide +kernel)] at hrefuses
  apply hrefuses
  have hcarried : Manifest.ofJson Sample.strayFields = some Sample.emptyManifest := by
    decide +kernel
  have hadmit : AppState.default.metaStore.Admits Sample.emptyManifest := by
    refine ⟨validateManifest_ok_iff.mp rfl, fun c hc => ?_, .inl rfl⟩
    cases hc
  have hlen : Sample.strayRequest.body.length ≤ bodyLimit := by decide +kernel
  exact .manifest rfl Sample.strayRequest_endpoint rfl Sample.strayRequest_path rfl hlen (.inl rfl)
    (by decide +kernel) (Manifest.ofJson_eq_some_iff.mp hcarried) hadmit

end Space
