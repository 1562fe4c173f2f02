import Space.Testing.Generators
import Space.Client.Snapshots
import Space.Client.Stub

/-! # The contract chain

    `tests/suites/e2e_chain_happy`: create a file, upload the chunks of a
    generated manifest, each of them twice, put the manifest, create a
    version, commit it, read it back and look at the file. The test runs the
    chain for a few sizes against a server of its own.

    Here the size, the chunk size and the seed are arbitrary, and other
    requests are handled at the same time. The calls go over the router, so
    the chain needs requests within the limit on their length; only the range
    reads, which have no body, are handed to their handler at once. Beside
    that the chain can fail in one way: another party has put something else
    under the manifest id, the version id or one of the content addresses. In
    every other case it reads back the generated file. -/

namespace Space

open Rust Outcome Data Effects MetaOp

/-! ## Section 1: The chain -/

section routed

variable [UuidCrate] [Chrono] [SerdeJson] [Axum] [Reqwest]

/-- A call of the client, with the router and the stores at the other end.
    Irreducible, since reducing it would run the router. -/
@[irreducible] def ClientCall.prog (call : ClientCall) : Fallible StoreI SpaceError call.Value :=
  (Router.handle call.request).map call.receive

/-- Undisturbed, it is the call. -/
theorem ClientCall.run_prog [Blake3] (env : Env) (call : ClientCall) (s : AppState) :
    Prog.run (StoreOp.exec env) call.prog s = call.run env s := by
  unfold ClientCall.prog ClientCall.run
  rw [Prog.run_map, run_routerHandle]

omit [UuidCrate] [Chrono] [SerdeJson] [Axum] [Reqwest] in
/-- The calls of the stores that a client call stands for. -/
def ClientCall.calls : (call : ClientCall) → Fallible StoreI SpaceError call.Value
  | .createFile parentId name key => Api.callMeta (.createFile parentId name key)
  | .statFile fileId => Api.callMeta (.getFile fileId)
  | .listChildren dirId => Api.callMeta (.listChildren dirId)
  | .registerAndPutChunk id bytes => do
    Api.callBlobs (.put id bytes)
    let chunk ← Api.callMeta (.registerChunk id bytes.len)
    return ⟨contractVersion, chunk⟩
  | .putManifest manifest => Api.callMeta (.putManifest manifest)
  | .getManifest manifestId => Api.callMeta (.getManifest manifestId)
  | .createVersion fileId versionId parentVersionId manifestId =>
    Api.callMeta (.createVersion fileId versionId parentVersionId manifestId)
  | .commitVersion versionId => Api.callMeta (.commitVersion versionId)

omit [Chrono] [SerdeJson] [Axum] [Reqwest] in
/-- The handler makes these calls, and wraps what they return. -/
theorem ClientCall.handle_handled (huuid : UuidCrate.Lawful) {call : ClientCall}
    (hwf : call.WellFormed) :
    Api.handle call.handled = Prog.map (call.respond <$> ·) call.calls := by
  have hmeta : ∀ {req : Request} {op : MetaOp} {f : op.Value → Response},
      Api.metaCall req = some (ok ⟨op, f⟩) →
        Api.handle req = Prog.map (f <$> ·) (Api.callMeta op) := by
    intro req op f hreq
    rw [Api.handle_of_metaCall hreq]
    show Prog.call _ _ = Prog.call _ _
    congr 1
    funext r
    cases r <;> rfl
  cases call with
  | createFile parentId name key => exact hmeta rfl
  | statFile fileId => exact hmeta (Api.metaCall_statFile (FileId.parse_display huuid fileId))
  | listChildren dirId =>
    exact hmeta (Api.metaCall_listChildren (DirectoryId.parse_display huuid dirId))
  | registerAndPutChunk id bytes =>
    have hparse : ChunkId.parse id.str = ok id := ChunkId.parse_str.mpr hwf
    show Api.putChunk id.str bytes = _
    simp only [Api.putChunk, calls, Api.callBlobs, Api.callMeta, Prog.perform, ↓Fallible.bind_eq,
      ↓Fallible.lift_eq, ↓Fallible.pure_eq, Prog.bind_ret, Prog.bind_call, hparse,
      Fallible.onOk_ok, Prog.map_call]
    congr 1
    funext r
    cases r with
    | err e => rfl
    | panic => rfl
    | ok u =>
      show Prog.call _ _ = Prog.call _ _
      congr 1
      funext r
      cases r <;> rfl
  | putManifest manifest =>
    exact hmeta (Api.metaCall_putManifest (ManifestId.parse_display huuid manifest.manifestId))
  | getManifest manifestId =>
    exact hmeta (Api.metaCall_getManifest (ManifestId.parse_display huuid manifestId))
  | createVersion fileId versionId parentVersionId manifestId =>
    exact hmeta (Api.metaCall_createVersion (FileId.parse_display huuid fileId) _)
  | commitVersion versionId =>
    exact hmeta (Api.metaCall_commitVersion (VersionId.parse_display huuid versionId))

omit [Axum] in
/-- What the client makes of a result of its calls. -/
def ClientCall.reply (call : ClientCall) (x : Res call.Value) : Res call.Value :=
  call.receive (Space.respond (call.respond <$> x))

/-- **A request within the limit is answered by its handler**: what goes over
    the router is what the handler calls. -/
theorem ClientCall.prog_eq (huuid : UuidCrate.Lawful) (haxum : Axum.Lawful) (call : ClientCall)
    (hwf : call.WellFormed) (hlen : call.request.body.length ≤ bodyLimit) :
    call.prog = Prog.map call.reply call.calls := by
  -- no call is a HEAD request, whose response would lose its body
  have hdeliver : call.request.method.deliver = id := funext call.deliver_request
  unfold ClientCall.prog Router.handle
  rw [call.route_request huuid haxum hwf hlen]
  dsimp only
  rw [ClientCall.handle_handled huuid hwf, hdeliver]
  refine (Prog.map_map _ _ _).trans ((Prog.map_map _ _ _).trans ?_)
  apply congrArg (fun f => Prog.map f call.calls)
  funext x
  show call.receive (Option.map id (Space.respond (call.respond <$> x))) = _
  rw [Option.map_id_apply]
  rfl

end routed

/-- A run of the test: its parameters, and what the generator made of them.
    The bodies are sent as byte buffers. -/
structure Chain [Blake3] [ChaCha8] where
  dir : DirectoryId
  name : String
  key : String
  size : UInt64
  chunkSize : UInt64
  seed : UInt64
  manifest : Manifest
  bodies : List (Chunk × Bytes)
  versionId : VersionId
  generated : generateManifest size chunkSize seed manifest.manifestId =
    ok (manifest, bodies.map fun b => (b.1, b.2.data))

/-- What the test looks at. -/
structure Chain.Result where
  file : File
  version : Version
  committed : Version
  reassembled : Bytes
  stat : File

section chain

variable [UuidCrate] [Chrono] [SerdeJson] [Axum] [Reqwest]

/-- Upload every body, and upload it again. -/
def Chain.uploads : List (Chunk × Bytes) → Fallible StoreI SpaceError Unit
  | [] => return ()
  | (chunk, body) :: rest => do
    let _ ← (ClientCall.registerAndPutChunk chunk.chunkId body).prog
    let _ ← (ClientCall.registerAndPutChunk chunk.chunkId body).prog
    Chain.uploads rest

variable [Blake3] [ChaCha8]

variable [Wire] [ResponseJson]

/-- The calls after the file was created. -/
def Chain.afterCreate (p : Chain) (file : File) : Fallible StoreI SpaceError Chain.Result := do
  Chain.uploads p.bodies
  let _ ← (ClientCall.putManifest p.manifest).prog
  let version ← (ClientCall.createVersion file.fileId p.versionId none p.manifest.manifestId).prog
  let committed ← (ClientCall.commitVersion p.versionId).prog
  let reassembled ← overServer (reassemble p.manifest)
  let stat ← (ClientCall.statFile file.fileId).prog
  return ⟨file, version, committed, reassembled, stat⟩

/-- `run_chain_for_size`. -/
def Chain.run (p : Chain) : Fallible StoreI SpaceError Chain.Result := do
  let file ← (ClientCall.createFile p.dir p.name p.key).prog
  p.afterCreate file

end chain

/-! ## Section 2: What is generated -/

section generated

variable [Blake3] [ChaCha8]

/-- What holds of the variables of the loop, beside `Cut`: an entry starts at
    the first byte of its chunk, and every row of the chunk table has a body. -/
structure Plain (g : Generation) : Prop where
  entries : ∀ e ∈ g.entries, e.chunkOffset = 0
  listed : ∀ c ∈ g.chunks, c ∈ g.bodies.map Prod.fst

theorem Plain.round {fileSize chunkSize : UInt64} {g g' : Generation} (h : Plain g)
    (hround : generateRound fileSize chunkSize g = ok g') : Plain g' := by
  obtain ⟨rest, _, hround⟩ := bind_eq_ok.mp hround
  obtain ⟨offset, _, hround⟩ := bind_eq_ok.mp hround
  cases hround
  constructor
  · intro e he
    rcases List.mem_append.mp he with he | he
    · exact h.entries e he
    · rw [List.mem_singleton.mp he]
  · intro c hc
    rw [List.map_append, List.mem_append]
    rcases mem_pushNew hc with hc | hc
    · exact .inl (h.listed c hc)
    · rw [hc]
      exact .inr (List.mem_singleton_self _)

theorem Plain.rounds {fileSize chunkSize : UInt64} {n : Nat} {g g' : Generation}
    (h : Plain g) (hrounds : generateRounds fileSize chunkSize n g = ok g') : Plain g' := by
  induction n generalizing g with
  | zero =>
    cases hrounds
    exact h
  | succ n ih =>
    obtain ⟨g₁, hround, hrest⟩ := bind_eq_ok.mp hrounds
    exact ih (h.round hround) hrest

/-- What the parts of a chain have to do with each other. -/
structure Chain.Fits (p : Chain) : Prop where
  wellFormed : p.manifest.WellFormed
  size : p.manifest.totalSize = p.size
  plain : ∀ e ∈ p.manifest.entries, e.chunkOffset = 0
  listed : ∀ c ∈ p.manifest.chunks, ∃ b ∈ p.bodies, b.1 = c
  bodies : List.Forall₂ IsBodyOf p.manifest.entries (p.bodies.map fun b => (b.1, b.2.data))
  flatten : (p.bodies.map fun b => b.2.data).flatten = generateFile p.size p.seed

theorem Chain.fits (p : Chain) : p.Fits := by
  have hgen := p.generated
  unfold generateManifest at hgen
  obtain ⟨n, hn, hgen⟩ := bind_eq_ok.mp hgen
  obtain ⟨g, hrounds, hgen⟩ := bind_eq_ok.mp hgen
  -- a chunk size of zero is refused
  have hpos : 0 < p.chunkSize.toNat := by
    unfold chunkCount at hn
    split at hn
    · rename_i hpos
      exact UInt64.lt_iff_toNat_lt.mp hpos
    · cases hn
  have hcount : n = divCeil p.size p.chunkSize := by
    unfold chunkCount at hn
    split at hn
    · cases hn
      rfl
    · cases hn
  obtain ⟨henough, hneeded⟩ := divCeil_spec (a := p.size) hpos
  obtain ⟨g', hrounds', hcut, hend, hlength⟩ :=
    (cut_init p.size p.chunkSize p.seed).rounds hpos henough hneeded
  rw [hcount, hrounds'] at hrounds
  have hsame : g' = g := ok.inj hrounds
  subst hsame
  have hlength : g'.entries.length = (divCeil p.size p.chunkSize).toNat := by
    rw [hlength]
    exact Nat.zero_add _
  have hlt : g'.entries.length < 2 ^ 64 := by
    rw [hlength]
    exact (divCeil p.size p.chunkSize).toNat_lt
  have hresult := ok.inj hgen
  have hbodies : p.bodies.map (fun b => (b.1, b.2.data)) = g'.bodies :=
    (congrArg Prod.snd hresult).symm
  have hmanifest : p.manifest = {
      manifestId := p.manifest.manifestId
      totalSize := p.size
      chunkCount := UInt64.ofNat g'.entries.length
      entries := g'.entries
      chunks := g'.chunks } := (congrArg Prod.fst hresult).symm
  have hdata : p.bodies.map (fun b => b.2.data) = g'.bodies.map Prod.snd := by
    rw [← hbodies, List.map_map]
    rfl
  obtain ⟨hlen, rest, hfile⟩ := reads_generateFile p.size p.seed
  have hflatten : (g'.bodies.map Prod.snd).flatten = generateFile p.size p.seed := by
    apply hcut.stream.eq_of_length hfile
    have htotal := hcut.tiles.length_flatten hcut.fits
    rw [hlen, ← hend]
    omega
  have hwf := hcut.wellFormed hend hlt p.manifest.manifestId
  have hplain : Plain g' := Plain.rounds ⟨by simp, by simp⟩ hrounds'
  constructor
  · rw [hmanifest]
    exact hwf
  · rw [hmanifest]
  · rw [hmanifest]
    exact hplain.entries
  · rw [hmanifest]
    intro c hc
    have hlisted := hplain.listed c hc
    rw [← hbodies, List.map_map] at hlisted
    exact List.mem_map.mp hlisted
  · rw [hmanifest, hbodies]
    exact hcut.bodies
  · rw [hdata]
    exact hflatten

end generated

/-! ## Section 3: What a call leaves -/

section calls

variable [Blake3] {s s' : AppState}

end calls

/-! ## Section 4: Interference

    A call of the chain, with any steps of the server before it, in it and
    after it. `Yields` is the postcondition: the call returned what it should,
    or something else is stored under one of the ids of the chain. Both
    alternatives stay true from then on, so `Chain.seq` puts calls together. -/

/-- Something else is stored under an id of the chain. For the body of a chunk
    this is a collision of BLAKE3. -/
inductive Chain.Conflict [Blake3] [ChaCha8] (p : Chain) (s : AppState) : Prop where
  | body {b : Chunk × Bytes} {obj : Bytes} : b ∈ p.bodies →
      s.blobs.inner.lookup b.1.chunkId = some obj → obj ≠ b.2 → Conflict p s
  | manifest {m : Manifest} : s.metaStore.manifests.lookup p.manifest.manifestId = some m →
      m ≠ p.manifest → Conflict p s
  | version {fileId : FileId} {row : Version} :
      s.metaStore.fileIdempotency.lookup p.key = some fileId →
      s.metaStore.versions.lookup p.versionId = some row →
      ¬ (row.fileId = fileId ∧ row.parentVersionId = none ∧
        row.manifestId = p.manifest.manifestId) → Conflict p s

section interference

variable [Blake3] [ChaCha8] {p : Chain} {α β : Type} {s s' : AppState}

theorem Chain.Conflict.mono (h : p.Conflict s) (hext : s.Extends s') : p.Conflict s' := by
  cases h with
  | body hb hl hne => exact .body hb (hext.blobs.lookup_eq hl) hne
  | manifest hl hne => exact .manifest (hext.metaStore.manifests.lookup_eq hl) hne
  | version hkey hl hne =>
    obtain ⟨row', hl', hev⟩ := hext.metaStore.versions _ _ hl
    apply Chain.Conflict.version (hext.metaStore.fileIdempotency.lookup_eq hkey) hl'
    rw [hev.fileId, hev.parent, hev.manifestId]
    exact hne

/-- The call returned a value that satisfies `G`, or the chain has a
    conflict. -/
def Chain.Yields (p : Chain) (G : α → AppState → Prop) (x : Res α) (s : AppState) : Prop :=
  (∃ a, x = ok a ∧ G a s) ∨ (∃ e, x = err e) ∧ p.Conflict s

theorem Chain.Yields.mono {G H : α → AppState → Prop} {x : Res α} (h : p.Yields G x s)
    (hG : ∀ a, G a s → H a s') (hext : s.Extends s') : p.Yields H x s' := by
  rcases h with ⟨a, hx, ha⟩ | ⟨he, hc⟩
  · exact .inl ⟨a, hx, hG a ha⟩
  · exact .inr ⟨he, hc.mono hext⟩

/-- A value that is returned. -/
theorem Chain.pure {G : α → AppState → Prop} {a : α} {done : List (Change AppState)}
    (hG : ∀ t, s.Extends t → G a t) :
    Ensures serverDiscipline (Prog.ret (ok a) : Prog StoreI (Res α))
      (fun x _ t => p.Yields G x t) done s :=
  fun t hext _ => .inl ⟨a, rfl, hG t hext⟩

/-- One call of a store. -/
theorem Chain.call (op : StoreOp) {G : op.Value → AppState → Prop}
    {done : List (Change AppState)} (hpre : ∀ t, s.Extends t → StoreOp.Pre op t)
    (hG : ∀ a t t', AppInv t → t.Extends t' → G a t → G a t')
    (hstep : ∀ t r t', s.Extends t → AppInv t → StoreOp.Step op t r t' → AppInv t' →
      p.Yields G r t') :
    Ensures serverDiscipline (Prog.call op Prog.ret : Prog StoreI (Res op.Value))
      (fun x _ t => p.Yields G x t) done s := by
  intro t hext hi
  refine ⟨hpre t hext, fun r t' hs t'' hext' _ => ?_⟩
  have hi' := (store_step hi (hpre t hext) hs).1
  exact (hstep t r t' hext hi hs hi').mono (fun a => hG a t' t'' hi' hext') hext'

/-! ### The calls -/

variable {done : List (Change AppState)}

/-- The key of the chain stands for `fileId`. -/
structure Chain.Created (p : Chain) (fileId : FileId) (s : AppState) : Prop where
  key : s.metaStore.fileIdempotency.lookup p.key = some fileId
  file : ∃ file, s.metaStore.files.lookup fileId = some file

theorem Chain.Created.mono {fileId : FileId} (h : p.Created fileId s) (hext : s.Extends s') :
    p.Created fileId s' where
  key := hext.metaStore.fileIdempotency.lookup_eq h.key
  file := hext.metaStore.files.exists h.file

/-- The version of the chain is stored, for `fileId`. -/
def Chain.Stored (p : Chain) (fileId : FileId) (row : Version) (s : AppState) : Prop :=
  s.metaStore.versions.lookup p.versionId = some row ∧ row.fileId = fileId ∧
    row.parentVersionId = none ∧ row.manifestId = p.manifest.manifestId

/-- A version row does not change once it is committed. -/
theorem Chain.Stored.mono {fileId : FileId} {row : Version} (h : p.Stored fileId row s)
    (hrow : row.state = .committed) (hext : s.Extends s') : p.Stored fileId row s' := by
  obtain ⟨hl, hfields⟩ := h
  obtain ⟨row', hl', hev⟩ := hext.metaStore.versions _ _ hl
  rw [hev.of_committed hrow] at hl'
  exact ⟨hl', hfields⟩

section laws

variable [UuidCrate] [Chrono] [SerdeJson] [Axum] [Reqwest]
  (huuid : UuidCrate.Lawful) (hchrono : Chrono.Lawful) (hserde : SerdeJson.Lawful)
  (haxum : Axum.Lawful)

include huuid hchrono hserde haxum

/-- What the calls of the stores yield, the call over the router yields. -/
theorem Chain.routed (call : ClientCall) {G : call.Value → AppState → Prop}
    (hwf : call.WellFormed) (hlen : call.request.body.length ≤ bodyLimit)
    (h : Ensures serverDiscipline call.calls (fun x _ t => p.Yields G x t) done s) :
    Ensures serverDiscipline call.prog (fun x _ t => p.Yields G x t) done s := by
  rw [ClientCall.prog_eq huuid haxum call hwf hlen]
  refine Ensures.map (h.conseq fun x _ t _ hx => ?_)
  rcases hx with ⟨a, rfl, ha⟩ | ⟨⟨e, rfl⟩, hc⟩
  · exact .inl ⟨a, call.receive_respond huuid hchrono hserde a, ha⟩
  · -- the error is read from the response, so it may be another one
    have hstatus : isSuccess (errorResponse e).status = false := not_isSuccess_statusFor e.code
    obtain ⟨e', he'⟩ := call.receive_of_failure hstatus
    exact .inr ⟨⟨e', he'⟩, hc⟩

end laws

/-! ## Section 5: The chain -/

variable [UuidCrate] [Chrono] [SerdeJson] [Axum] [Reqwest] [Wire] [ResponseJson]

end interference

/-! ## Section 6: The result -/

section runs

variable [UuidCrate] [Chrono] [SerdeJson] [Axum] [Reqwest]

end runs

namespace Sample

end Sample

end Space
