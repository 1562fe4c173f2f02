import Space.Client.Stub
import Space.Client.Config
import Space.Cloud.System
import Space.Cloud.Failures

/-! # How large an upload may be

    Three places say how large a chunk may be, and none of them reads
    another: the configuration bounds the chunk size, the router leaves
    `axum` its limit on bodies, and the client uploads what it is given.

    `uploads_served_iff` compares them. A chunk, or the encoding of a
    manifest, is served exactly when it is within the limit of `axum`, and
    the configuration admits chunks that are not. -/

namespace Space

open Rust Outcome Data

/-! ## Section 1: Requests that are too long -/

namespace ClientCall

section tooLong

variable [UuidCrate] [SerdeJson] [Axum]

omit [UuidCrate] [SerdeJson] [Axum] in
theorem bytesBody_of_gt {r : HttpRequest} (hlong : bodyLimit < r.body.length) :
    bytesBody r = .error .tooLarge := by
  unfold bytesBody
  rw [dif_neg (Nat.not_le.mpr hlong)]

omit [UuidCrate] in
theorem jsonBody_of_gt (haxum : Axum.Lawful) {T : Type} (ofJson : Json → Option T)
    {method : Method} {path : String} {j : Json}
    (hlong : bodyLimit < (json method path j).body.length) :
    jsonBody ofJson (json method path j) = .error .tooLarge := by
  have hjson : Axum.isJson (json method path j).contentType = true := haxum.isJson_json
  unfold jsonBody
  rw [if_pos hjson, bytesBody_of_gt hlong]
  rfl

/-- A chunk that is too long does not reach `put_chunk`. -/
theorem route_chunk_of_gt (haxum : Axum.Lawful) {id : ChunkId} (hwf : id.WellFormed)
    {body : Bytes} (hlong : bodyLimit < body.data.length) :
    route (registerAndPutChunk id body).request = .error .tooLarge := by
  have hmethod : (registerAndPutChunk id body).request.method = .put := rfl
  have hend : endpoint (registerAndPutChunk id body).request.path = some (.chunk id.str) :=
    endpoint_chunk hwf.pathSafe
  have hbody : bytesBody (registerAndPutChunk id body).request = .error .tooLarge :=
    bytesBody_of_gt hlong
  rw [route, hend]
  dsimp only
  rw [Endpoint.extract, if_pos hmethod, pathParam_of_pathSafe hwf.pathSafe haxum, hbody]
  rfl

/-- A manifest whose encoding is too long does not reach `put_manifest`. -/
theorem route_manifest_of_gt (huuid : UuidCrate.Lawful) (haxum : Axum.Lawful) {m : Manifest}
    (hlong : bodyLimit < (putManifest m).request.body.length) :
    route (putManifest m).request = .error .tooLarge := by
  have hsafe : PathSafe m.manifestId.display :=
    pathSafe_tagged huuid m.manifestId.uuid (by decide) (by decide) (by decide)
  have hmethod : (putManifest m).request.method = .put := rfl
  have hend : endpoint (putManifest m).request.path = some (.manifest m.manifestId.display) :=
    endpoint_manifest hsafe
  have hbody : jsonBody PutManifestRequest.ofJson (putManifest m).request = .error .tooLarge :=
    jsonBody_of_gt haxum PutManifestRequest.ofJson hlong
  rw [route, hend]
  dsimp only
  rw [Endpoint.extract, if_pos hmethod, pathParam_of_pathSafe hsafe haxum, hbody]
  rfl

variable [Chrono] [Reqwest] [Blake3]

/-- A request that `axum` refuses is an error of the call, and the server is
    as before. -/
theorem run_of_rejection (hplain : Axum.PlainRejections) (env : Env) {call : ClientCall}
    {rejection : Rejection} (hroute : route call.request = .error rejection) (s : AppState) :
    call.run env s =
      (err (CloudClient.unparseable (Axum.reject rejection).status), s) := by
  have hstatus : ¬ isSuccess (Axum.reject rejection).status = true := by
    simp [not_isSuccess_reject hplain]
  have hbody : ErrorResponse.ofBody (Axum.reject rejection).body = none :=
    ofBody_of_not_json (hplain.body rejection)
  have hsend : ∀ {T : Type} (ofJson : Json → Option T),
      CloudClient.send ofJson (some (Axum.reject rejection)) =
        err (CloudClient.unparseable (Axum.reject rejection).status) := by
    intro T ofJson
    rw [CloudClient.send, if_neg hstatus, hbody]
  unfold run
  rw [answer_of_error env s hroute, call.deliver_request]
  cases call with
  | registerAndPutChunk id body => rw [receive, hsend]
  | _ =>
    rw [receive, hsend]
    rfl

end tooLong

/-! ## Section 2: Calls that are served -/

section served

variable [UuidCrate] [SerdeJson] [Axum] [Chrono] [Reqwest] [Blake3] {env : Env} {s : AppState}

/-- The call reaches its handler and succeeds. -/
def Served (env : Env) (call : ClientCall) (s : AppState) : Prop :=
  route call.request = .ok (.stores call.handled) ∧ ∃ a, (call.run env s).1 = ok a

/-- A call that is refused when it is too long is served when it is short
    enough and the stores accept it. -/
theorem served_iff (huuid : UuidCrate.Lawful) (hchrono : Chrono.Lawful) (hserde : SerdeJson.Lawful)
    (haxum : Axum.Lawful) {call : ClientCall} (hwf : call.WellFormed)
    (hrefused : bodyLimit < call.request.body.length → route call.request = .error .tooLarge) :
    call.Served env s ↔
      call.request.body.length ≤ bodyLimit ∧ ∃ a, (call.direct env s).1 = ok a := by
  constructor
  · intro h
    obtain ⟨hroute, a, hrun⟩ := h
    have hlen : call.request.body.length ≤ bodyLimit := by
      by_contra hlong
      rw [hrefused (Nat.not_le.mp hlong)] at hroute
      cases hroute
    refine ⟨hlen, ?_⟩
    cases hdirect : (call.direct env s).1 with
    | ok a => exact ⟨a, rfl⟩
    | err e =>
      rw [run_of_err huuid hserde haxum env hwf hlen hdirect] at hrun
      cases hrun
    | panic =>
      rw [run_of_panic huuid haxum env hwf hlen hdirect] at hrun
      cases hrun
  · intro h
    obtain ⟨hlen, a, hdirect⟩ := h
    exact ⟨call.route_request huuid haxum hwf hlen, a,
      run_of_ok huuid hchrono hserde haxum env hwf hlen hdirect⟩

omit [UuidCrate] [SerdeJson] [Axum] [Chrono] [Reqwest] in
/-- **What the stores decide about a chunk** under its own id: nothing else
    may be stored under it. -/
theorem direct_chunk_iff (h : AppInv s) (body : Bytes) :
    (∃ a, ((registerAndPutChunk (ChunkId.fromBytes body) body).direct env s).1 = ok a) ↔
      ∀ obj, s.blobs.inner.lookup (ChunkId.fromBytes body) = some obj → obj = body := by
  have hv : (ChunkId.fromBytes body).verify body = true := ChunkId.verify_iff.mpr rfl
  generalize ChunkId.fromBytes body = id at hv ⊢
  constructor
  · intro hok obj hobj
    obtain ⟨a, ha⟩ := hok
    by_contra hne
    have hput : s.blobs.put id body = (err FakeObjectStore.storesDifferent, s.blobs) := by
      simp [FakeObjectStore.put, hv, hobj, hne]
    simp only [direct, StoreOp.exec, BlobOp.exec, hput, tryAt_err] at ha
    cases ha
  · intro hsame
    -- the put succeeds, and the body is there afterwards
    have hput : ∃ blobs, s.blobs.put id body = (ok (), blobs) ∧
        blobs.inner.lookup id = some body := by
      cases hobj : s.blobs.inner.lookup id with
      | none => exact ⟨⟨s.blobs.inner.insert id body⟩, by simp [FakeObjectStore.put, hv, hobj]⟩
      | some obj =>
        rw [hsame obj hobj] at hobj
        exact ⟨s.blobs, by simp [FakeObjectStore.put, hv, hobj]⟩
    obtain ⟨blobs, hput, hstored⟩ := hput
    have hinv : AppInv { s with blobs := blobs } := by
      have hstep : AppInv { s with blobs := (BlobOp.exec (.put id body) s.blobs).2 } :=
        (blobs_step h).1
      rw [BlobOp.exec, hput] at hstep
      exact hstep
    have hregister := registerChunk_stored hinv ⟨body, hstored, rfl⟩ env
    refine ⟨⟨contractVersion, ⟨id, body.len⟩⟩, ?_⟩
    have hexec : StoreOp.exec env (.blobs (.put id body)) s =
        (ok (), { s with blobs := blobs }) := by
      simp only [StoreOp.exec, BlobOp.exec, hput]
    simp only [direct]
    rw [hexec, tryAt_ok]
    dsimp only
    rw [hregister]
    rfl

omit [UuidCrate] [SerdeJson] [Axum] [Chrono] [Reqwest] in
/-- **What the stores decide about a valid manifest** over registered chunks:
    no other manifest may be stored under its id. -/
theorem direct_manifest_iff {m : Manifest} (hvalid : validateManifest m = ok ())
    (hreg : s.metaStore.Registered m) :
    (∃ a, ((putManifest m).direct env s).1 = ok a) ↔
      ∀ m', s.metaStore.manifests.lookup m.manifestId = some m' → m' = m := by
  have hcheck := Inner.checkManifest_eq_ok (g := s.metaStore) (m := m)
  rw [and_iff_right hvalid, and_iff_right hreg] at hcheck
  have hsame : (∀ m', s.metaStore.manifests.lookup m.manifestId = some m' → m' = m) ↔
      s.metaStore.manifests.lookup m.manifestId = none ∨
        s.metaStore.manifests.lookup m.manifestId = some m := by
    cases s.metaStore.manifests.lookup m.manifestId <;> simp
  rw [hsame, ← hcheck]
  show (∃ a, (s.metaStore.putManifest m).1 = ok a) ↔ _
  unfold Inner.putManifest
  cases hc : s.metaStore.checkManifest m with
  | ok u => simp
  | err e => simp
  | panic => exact absurd hc (Inner.checkManifest_checks m).ne_panic

/-- **When a chunk is served** under its own id. -/
theorem served_chunk_iff (huuid : UuidCrate.Lawful) (hchrono : Chrono.Lawful)
    (hserde : SerdeJson.Lawful) (haxum : Axum.Lawful) (h : AppInv s) (body : Bytes) :
    (registerAndPutChunk (ChunkId.fromBytes body) body).Served env s ↔
      body.data.length ≤ bodyLimit ∧
        ∀ obj, s.blobs.inner.lookup (ChunkId.fromBytes body) = some obj → obj = body := by
  have hwf : (ChunkId.fromBytes body).WellFormed := ChunkId.wellFormed_fromBytes body
  rw [← direct_chunk_iff h]
  exact served_iff huuid hchrono hserde haxum hwf (route_chunk_of_gt haxum hwf)

/-- **When a valid manifest is served**, its chunks being registered. -/
theorem served_manifest_iff (huuid : UuidCrate.Lawful) (hchrono : Chrono.Lawful)
    (hserde : SerdeJson.Lawful) (haxum : Axum.Lawful) {m : Manifest}
    (hvalid : validateManifest m = ok ()) (hreg : s.metaStore.Registered m) :
    (putManifest m).Served env s ↔
      (SerdeJson.toVec (PutManifestRequest.toJson ⟨m⟩)).length ≤ bodyLimit ∧
        ∀ m', s.metaStore.manifests.lookup m.manifestId = some m' → m' = m := by
  rw [← direct_manifest_iff hvalid hreg]
  exact served_iff huuid hchrono hserde haxum trivial (route_manifest_of_gt huuid haxum)

end served

end ClientCall

/-! ## Section 3: What the configuration promises -/

/-- A body of `n` zero bytes. -/
def zeroBody (n : Nat) (h : n ≤ isizeMax) : Bytes :=
  ⟨List.replicate n 0, by rw [List.length_replicate]; exact h⟩

section promise

variable [UuidCrate] [SerdeJson] [Axum] [Chrono] [Reqwest] [Blake3] [DebugStr]

/-- **Which uploads are served**: a chunk of an admitted size, when it is
    within the limit on bodies and nothing else has its address; a valid
    manifest over registered chunks, when its encoding is within the limit
    and no other manifest has its id. -/
theorem uploads_served_iff (huuid : UuidCrate.Lawful) (hchrono : Chrono.Lawful)
    (hserde : SerdeJson.Lawful) (haxum : Axum.Lawful) :
    (∀ size, Config.AdmitsChunkSize size → ∀ c : Server, c.Reachable → ∀ (env : Env)
      (body : Bytes), body.data.length ≤ size.toNat →
        ((ClientCall.registerAndPutChunk (ChunkId.fromBytes body) body).Served env c.store ↔
          body.data.length ≤ bodyLimit ∧ ∀ obj,
            c.store.blobs.inner.lookup (ChunkId.fromBytes body) = some obj → obj = body)) ∧
      ∀ c : Server, c.Reachable → ∀ (env : Env) (m : Manifest), validateManifest m = ok () →
        c.store.metaStore.Registered m →
          ((ClientCall.putManifest m).Served env c.store ↔
            (SerdeJson.toVec (PutManifestRequest.toJson ⟨m⟩)).length ≤ bodyLimit ∧ ∀ m',
              c.store.metaStore.manifests.lookup m.manifestId = some m' → m' = m) := by
  constructor
  · intro size _ c h env body _
    exact ClientCall.served_chunk_iff huuid hchrono hserde haxum (sound_reachable h).inv body
  · intro c _ env m hvalid hreg
    exact ClientCall.served_manifest_iff huuid hchrono hserde haxum hvalid hreg

/-- **The chunk sizes for which the configuration keeps its promise**: those
    within the limit of `axum`. -/
theorem chunkSize_served_iff (huuid : UuidCrate.Lawful) (hchrono : Chrono.Lawful)
    (hserde : SerdeJson.Lawful) (haxum : Axum.Lawful) {size : UInt64}
    (hsize : Config.AdmitsChunkSize size) :
    (∀ c : Server, c.Reachable → ∀ (env : Env) (body : Bytes), body.data.length ≤ size.toNat →
      (∀ obj, c.store.blobs.inner.lookup (ChunkId.fromBytes body) = some obj → obj = body) →
        (ClientCall.registerAndPutChunk (ChunkId.fromBytes body) body).Served env c.store) ↔
      size.toNat ≤ bodyLimit := by
  have hbuffer : size.toNat ≤ isizeMax :=
    (Config.admits_iff.mp hsize).2.trans (by decide)
  constructor
  · intro h
    -- a chunk of the full size, sent to a server that has nothing yet
    have hlen : (zeroBody size.toNat hbuffer).data.length = size.toNat :=
      List.length_replicate
    have hserved := h Server.init .refl (Env.sample 1 10) (zeroBody size.toNat hbuffer)
      (Nat.le_of_eq hlen) (fun obj hobj => by cases hobj)
    have hfits := (ClientCall.served_chunk_iff huuid hchrono hserde haxum
      (sound_reachable .refl).inv (zeroBody size.toNat hbuffer)).mp hserved
    rw [hlen] at hfits
    exact hfits.1
  · intro hle c hc env body hbody hsame
    rw [ClientCall.served_chunk_iff huuid hchrono hserde haxum (sound_reachable hc).inv]
    exact ⟨hbody.trans hle, hsame⟩

end promise

namespace Sample

/-- `Debug` of a text without escapes. -/
@[reducible] def debugStr : DebugStr where
  debug := fun s => "\"" ++ s ++ "\""

end Sample

/-- The bytes `abc` and the manifest of an empty file are uploaded to an empty
    server. -/
theorem uploads_served_sample :
    letI := Sample.hyphenatedUuids
    letI := Sample.chrono
    letI := Sample.serdeJson
    letI := Sample.axum
    letI := Sample.reqwest
    letI := Sample.blake3
    (ClientCall.registerAndPutChunk (ChunkId.fromBytes Sample.abc) Sample.abc).Served
      (Env.sample 1 10) AppState.default ∧
    (ClientCall.putManifest ⟨⟨⟨1⟩⟩, 0, 0, [], []⟩).Served (Env.sample 1 10) AppState.default := by
  let := Sample.hyphenatedUuids
  let := Sample.chrono
  let := Sample.serdeJson
  let := Sample.axum
  let := Sample.reqwest
  let := Sample.blake3
  let := Sample.debugStr
  have hadmits : Config.AdmitsChunkSize 33554432 := Config.admits_iff.mpr (by decide)
  obtain ⟨hchunks, hmanifests⟩ := uploads_served_iff Sample.hyphenatedUuids_lawful
    Sample.chrono_lawful Sample.serdeJson_lawful Sample.axum_lawful
  constructor
  · exact (hchunks 33554432 hadmits Server.init .refl (Env.sample 1 10) Sample.abc
      (by decide)).mpr ⟨by decide, fun obj hobj => by cases hobj⟩
  · have hvalid : validateManifest ⟨⟨⟨1⟩⟩, 0, 0, [], []⟩ = ok () := rfl
    have hlen : (Json.toBytes (PutManifestRequest.toJson ⟨⟨⟨⟨1⟩⟩, 0, 0, [], []⟩⟩)).length ≤
        bodyLimit := by decide +kernel
    exact (hmanifests Server.init .refl (Env.sample 1 10) ⟨⟨⟨1⟩⟩, 0, 0, [], []⟩ hvalid nofun).mpr
      ⟨hlen, nofun⟩

/-- The configuration of the example admits chunks of 32 MiB. One of
    2,097,153 bytes is refused, and the client reports a protocol violation. -/
theorem admitted_chunk_refused :
    letI := Sample.hyphenatedUuids
    letI := Sample.chrono
    letI := Sample.serdeJson
    letI := Sample.axum
    letI := Sample.reqwest
    letI := Sample.blake3
    letI := Sample.debugStr
    ¬ ∀ size, Config.AdmitsChunkSize size → ∀ c : Server, c.Reachable → ∀ (env : Env)
      (body : Bytes), body.data.length ≤ size.toNat →
        (ClientCall.registerAndPutChunk (ChunkId.fromBytes body) body).Served env c.store := by
  let := Sample.hyphenatedUuids
  let := Sample.chrono
  let := Sample.serdeJson
  let := Sample.axum
  let := Sample.reqwest
  let := Sample.blake3
  let := Sample.debugStr
  intro h
  have hadmits : Config.AdmitsChunkSize 33554432 :=
    ⟨Sample.host, Sample.config, Config.validate_eq_ok.mpr Sample.config_valid, rfl⟩
  have hbuffer : 2097153 ≤ isizeMax := by decide
  have hlen : (zeroBody 2097153 hbuffer).data.length = 2097153 := List.length_replicate
  obtain ⟨_, a, hrun⟩ := h 33554432 hadmits Server.init .refl (Env.sample 1 10)
    (zeroBody 2097153 hbuffer) (by rw [hlen]; decide)
  have hroute := ClientCall.route_chunk_of_gt Sample.axum_lawful
    (ChunkId.wellFormed_fromBytes (zeroBody 2097153 hbuffer)) (by rw [hlen]; decide)
  rw [ClientCall.run_of_rejection Sample.axum_plainRejections (Env.sample 1 10) hroute] at hrun
  cases hrun

end Space
