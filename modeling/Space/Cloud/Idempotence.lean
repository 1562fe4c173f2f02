import Space.Cloud.System

/-! # Duplicates

    A client that does not hear back sends its request again, so the server
    may see a write any number of times, the later times in a state that
    other requests have moved on.

    The argument has three parts. After a write has succeeded, its object is
    in place (`Settled`). What is in place stays in place (`settled_mono`).
    A request whose object is in place returns it and changes neither store
    (`serve_settled`). None of it needs the minted ids to be fresh. -/

namespace Space

open Rust Outcome Data Effects MetaOp

/-! ## Section 1: What never goes away -/

/-- Every file is stored under its own id. -/
def Inner.FilesKeyed (g : Inner) : Prop :=
  Table.AllRows (fun id (file : File) => file.fileId = id) g.files

/-- `g'` still has everything of `g` that a duplicate could ask for. Unlike
    `Extends`, this allows a minted id to hit an existing file. -/
structure Inner.Keeps (g g' : Inner) : Prop where
  files : Table.Grows (fun _ _ => True) g.files g'.files
  fileIdempotency : Table.Grows Eq g.fileIdempotency g'.fileIdempotency
  versions : Table.Grows Version.Evolves g.versions g'.versions
  manifests : Table.Grows Eq g.manifests g'.manifests
  chunks : Table.Grows Eq g.chunks g'.chunks

namespace Inner.Keeps

theorem of_extends {g g' : Inner} (h : g.Extends g') : g.Keeps g' where
  files := fun k v hk => by
    obtain ⟨v', hv', _⟩ := h.files k v hk
    exact ⟨v', hv', trivial⟩
  fileIdempotency := h.fileIdempotency
  versions := h.versions
  manifests := h.manifests
  chunks := h.chunks

theorem refl (g : Inner) : g.Keeps g := of_extends (.refl g)

theorem trans {g₁ g₂ g₃ : Inner} (h₁ : g₁.Keeps g₂) (h₂ : g₂.Keeps g₃) : g₁.Keeps g₃ where
  files := .trans (fun _ _ _ _ _ => trivial) h₁.files h₂.files
  fileIdempotency := .trans (fun _ _ _ h => h.trans) h₁.fileIdempotency h₂.fileIdempotency
  versions := .trans (fun _ _ _ h => h.trans) h₁.versions h₂.versions
  manifests := .trans (fun _ _ _ h => h.trans) h₁.manifests h₂.manifests
  chunks := .trans (fun _ _ _ h => h.trans) h₁.chunks h₂.chunks

end Inner.Keeps

theorem writes_keeps {env : Env} {g g' : Inner} {op : MetaOp} {a : op.Value}
    (h : Writes env g op a g') : g.Keeps g' := by
  cases h with
  | file hname hkey =>
    exact
      { Inner.Keeps.refl g with
        files := .insert (fun _ => trivial) fun _ _ => trivial
        fileIdempotency := .insert_new Eq.refl hkey }
  | chunk hwf hl => exact .of_extends (.addChunk hl)
  | manifest hvalid hreg hl => exact .of_extends (.addManifest hl)
  | version hrefs hl => exact .of_extends (.addVersion hl)
  | commit hl hc => exact .of_extends (.commit hl hc)

theorem filesKeyed_setCurrent {g : Inner} (h : g.FilesKeyed) (now : DateTime) (fileId : FileId)
    (v : VersionId) : (g.setCurrent now fileId v).FilesKeyed := by
  unfold Inner.setCurrent
  cases hf : g.files.lookup fileId with
  | none => exact h
  | some file => exact h.insert (fun _ _ _ hk => hk) (h fileId file hf)

theorem writes_filesKeyed {env : Env} {g g' : Inner} {op : MetaOp} {a : op.Value}
    (h : Writes env g op a g') (hk : g.FilesKeyed) : g'.FilesKeyed := by
  cases h with
  | file hname hkey => exact hk.insert (fun _ _ _ hk => hk) rfl
  | chunk hwf hl => exact hk
  | manifest hvalid hreg hl => exact hk
  | version hrefs hl => exact hk
  | commit hl hc =>
    unfold Inner.commit
    refine filesKeyed_setCurrent ?_ _ _ _
    exact hk

/-- Any call keeps what is there. -/
theorem exec_keeps (env : Env) (op : MetaOp) (g : Inner) :
    g.Keeps (op.exec env g).2 ∧ (g.FilesKeyed → (op.exec env g).2.FilesKeyed) := by
  have hcall := exec_call env g op
  generalize (op.exec env g).1 = r at hcall
  generalize (op.exec env g).2 = g' at hcall
  cases hcall with
  | refused e => exact ⟨.refl g, id⟩
  | dangling _ => exact ⟨.refl g, id⟩
  | found _ => exact ⟨.refl g, id⟩
  | wrote hw => exact ⟨writes_keeps hw, writes_filesKeyed hw⟩

/-! ## Section 2: What a write leaves in place -/

/-- The calls that write. -/
def MetaOp.IsWrite : MetaOp → Prop
  | createFile .. | registerChunk .. | putManifest .. | createVersion .. | commitVersion .. => True
  | _ => False

/-- The object in place, up to what may change about it later: a file keeps
    its id, a version all but its state. -/
def MetaOp.SameObject : (op : MetaOp) → op.Value → op.Value → Prop
  | createFile .., a, a' => a'.fileId = a.fileId
  | createVersion .., a, a' => a.Evolves a'
  | _, a, a' => a' = a

/-- What a write wrote is in place after it. -/
theorem writes_holds {env env' : Env} {g g' : Inner} {op : MetaOp} {a : op.Value}
    (h : Writes env g op a g') : op.Holds env' g' a := by
  cases h with
  | file hname hkey =>
    exact ⟨hname, _, Finmap.lookup_insert _, Finmap.lookup_insert _⟩
  | chunk hwf hl => exact ⟨hwf, Finmap.lookup_insert _, rfl⟩
  | manifest hvalid hreg hl => exact ⟨rfl, hvalid, hreg, Finmap.lookup_insert _⟩
  | version hrefs hl =>
    exact ⟨hrefs.mono (.addVersion hl), Finmap.lookup_insert _, rfl, rfl, rfl⟩
  | commit hl hc =>
    refine ⟨?_, rfl⟩
    show (Inner.setCurrent _ _ _ _).versions.lookup _ = _
    unfold Inner.setCurrent
    dsimp only
    cases g.files.lookup _ <;> exact Finmap.lookup_insert _

/-- For a write, being in place does not depend on the environment. -/
theorem holds_env {env env' : Env} {g : Inner} {op : MetaOp} {a : op.Value} (hw : op.IsWrite)
    (h : op.Holds env g a) : op.Holds env' g a := by
  cases op with
  | createFile parentId name key => exact h
  | registerChunk chunkId size => exact h
  | putManifest m => exact h
  | createVersion fileId versionId parent manifestId => exact h
  | commitVersion versionId => exact h
  | _ => exact hw.elim

theorem holds_of_ok {env env' : Env} {g : Inner} {op : MetaOp} {a : op.Value} (hw : op.IsWrite)
    (h : (op.exec env g).1 = ok a) : op.Holds env' (op.exec env g).2 a := by
  have hcall := exec_call env g op
  rw [h] at hcall
  generalize (op.exec env g).2 = g' at hcall
  cases hcall with
  | found hh => exact holds_env hw hh
  | wrote hwr => exact writes_holds hwr

/-- **What is in place stays in place.** -/
theorem holds_mono {env : Env} {g g' : Inner} {op : MetaOp} {a : op.Value} (hw : op.IsWrite)
    (h : op.Holds env g a) (hkeeps : g.Keeps g') (hk : g.FilesKeyed) (hk' : g'.FilesKeyed) :
    ∃ a', op.Holds env g' a' ∧ op.SameObject a a' := by
  cases op with
  | createFile parentId name key =>
    obtain ⟨hname, id, hkey, hfile⟩ := h
    obtain ⟨file', hfile', _⟩ := hkeeps.files id a hfile
    -- the row may have moved on, but it keeps its id
    refine ⟨file', ⟨hname, id, hkeeps.fileIdempotency.lookup_eq hkey, hfile'⟩, ?_⟩
    exact (hk' id file' hfile').trans (hk id a hfile).symm
  | registerChunk chunkId size =>
    obtain ⟨hwf, hl, hsize⟩ := h
    exact ⟨a, ⟨hwf, hkeeps.chunks.lookup_eq hl, hsize⟩, rfl⟩
  | putManifest m =>
    obtain ⟨ha, hvalid, hreg, hl⟩ := h
    refine ⟨a, ⟨ha, hvalid, fun c hc => ?_, hkeeps.manifests.lookup_eq hl⟩, rfl⟩
    obtain ⟨reg, hrow, hsize⟩ := hreg c hc
    exact ⟨reg, hkeeps.chunks.lookup_eq hrow, hsize⟩
  | createVersion fileId versionId parent manifestId =>
    obtain ⟨hrefs, hl, hfile, hparent, hmanifest⟩ := h
    obtain ⟨row', hrow', hev⟩ := hkeeps.versions versionId a hl
    refine ⟨row', ⟨⟨hkeeps.files.exists hrefs.file, hkeeps.manifests.exists hrefs.manifest, ?_⟩,
      hrow', hev.fileId.trans hfile, hev.parent.trans hparent, hev.manifestId.trans hmanifest⟩,
      hev⟩
    intro p hp
    obtain ⟨par, hpar, hsame⟩ := hrefs.parent p hp
    obtain ⟨par', hpar', hevp⟩ := hkeeps.versions p par hpar
    exact ⟨par', hpar', hevp.fileId.trans hsame⟩
  | commitVersion versionId =>
    obtain ⟨hl, hstate⟩ := h
    obtain ⟨row', hrow', hev⟩ := hkeeps.versions versionId a hl
    -- a committed row does not change any more
    rw [hev.of_committed hstate] at hrow'
    exact ⟨a, ⟨hrow', hstate⟩, rfl⟩
  | _ => exact hw.elim

/-! ## Section 3: Requests -/

/-- The requests that write. -/
def Request.IsWrite : Request → Prop
  | .createFile _ | .createVersion .. | .commitVersion _ | .putManifest .. | .putChunk .. => True
  | _ => False

/-- The two responses are about the same object: the same file id, version
    id, manifest or chunk. -/
def Response.SameObject : Response → Response → Prop
  | .file r, .file r' => r'.file.fileId = r.file.fileId
  | .version r, .version r' => r'.version.versionId = r.version.versionId
  | .manifest r, .manifest r' => r' = r
  | .chunk r, .chunk r' => r' = r
  | _, _ => False

variable [UuidCrate]

/-- What the request asks for is in place in both stores, and `resp` is the
    answer to it. -/
inductive Settled [Blake3] (s : AppState) : Request → Response → Prop where
  | call {req : Request} {call : Api.MetaCall} {a : call.op.Value} {env : Env} :
      Api.metaCall req = some (ok call) → call.op.IsWrite → call.op.Holds env s.metaStore a →
      Settled s req (call.respond a)
  | upload {text : String} {body : Bytes} {chunk : Chunk} :
      ChunkId.WellFormed ⟨text⟩ → ChunkId.verify ⟨text⟩ body = true →
      s.blobs.inner.lookup ⟨text⟩ = some body →
      s.metaStore.chunks.lookup ⟨text⟩ = some chunk → chunk.size = body.len →
      Settled s (.putChunk text body) (.chunk ⟨contractVersion, chunk⟩)

/-- The call of a write request is a write, and its response names the
    object. -/
theorem metaCall_write {req : Request} {call : Api.MetaCall} (hw : req.IsWrite)
    (h : Api.metaCall req = some (ok call)) : call.op.IsWrite ∧
      ∀ a a', call.op.SameObject a a' → (call.respond a).SameObject (call.respond a') := by
  cases req with
  | createFile req =>
    cases h
    exact ⟨trivial, fun a a' hs => hs⟩
  | createVersion fileId req =>
    obtain ⟨id, _, hcall⟩ := bind_eq_ok.mp (Option.some.inj h)
    cases hcall
    exact ⟨trivial, fun a a' hs => Version.Evolves.versionId hs⟩
  | commitVersion versionId =>
    obtain ⟨id, _, hcall⟩ := bind_eq_ok.mp (Option.some.inj h)
    cases hcall
    refine ⟨trivial, fun a a' hs => ?_⟩
    have ha : a' = a := hs
    subst ha
    rfl
  | putManifest manifestId req =>
    obtain ⟨id, _, hrest⟩ := bind_eq_ok.mp (Option.some.inj h)
    obtain ⟨_, hcall⟩ := seq_eq_ok.mp hrest
    cases hcall
    refine ⟨trivial, fun a a' hs => ?_⟩
    have ha : a' = a := hs
    subst ha
    rfl
  | putChunk text body => cases h
  | _ => exact hw.elim

variable [Blake3]

/-! ## Section 4: Success, and what follows it -/

/-- **A request whose object is in place** returns it and changes neither
    store. -/
theorem serve_settled (env : Env) {s : AppState} {req : Request} {resp : Response}
    (h : Settled s req resp) : Api.serve env req s = (ok resp, s) := by
  cases h with
  | call hcall hwrite hholds =>
    rw [serve_metaCall env s hcall, tryAt_ok, exec_of_holds (holds_env hwrite hholds)]
    rfl
  | @upload text body chunk hwf hv hbody hl hsize =>
    have hparse : ChunkId.parse text = ok ⟨text⟩ := ChunkId.parse_eq_ok.mpr ⟨rfl, hwf⟩
    have hput : s.blobs.put ⟨text⟩ body = (ok (), s.blobs) := by
      simp [FakeObjectStore.put, hv, hbody]
    have hholds : MetaOp.Holds env s.metaStore (.registerChunk ⟨text⟩ body.len) chunk :=
      ⟨hwf, hl, hsize⟩
    have hreg : s.metaStore.registerChunk ⟨text⟩ body.len = (ok chunk, s.metaStore) :=
      exec_of_holds hholds
    rw [serve_putChunk, hparse, tryAt_ok, hput, tryAt_ok, hreg]
    rfl

/-- **After a write has succeeded its object is in place.** -/
theorem settled_of_ok {env : Env} {s : AppState} {req : Request} {resp : Response}
    (hw : req.IsWrite) (h : (Api.serve env req s).1 = ok resp) :
    Settled (Api.serve env req s).2 req resp := by
  cases hreq : Api.metaCall req with
  | some x =>
    rw [serve_metaCall env s hreq] at h ⊢
    cases x with
    | err e => cases h
    | panic => cases h
    | ok call =>
      rw [tryAt_ok] at h ⊢
      dsimp only at h ⊢
      obtain ⟨a, ha, rfl⟩ := map_eq_ok.mp h
      have hwrite := (metaCall_write hw hreq).1
      exact .call hreq hwrite (holds_of_ok hwrite ha : call.op.Holds env _ a)
  | none =>
    cases req with
    | putChunk text body =>
      rw [serve_putChunk] at h ⊢
      -- each of the three steps succeeded: the id, the put, the registration
      obtain ⟨id, hid, heq⟩ := tryAt_eq_ok h
      rw [heq] at h ⊢
      obtain ⟨rfl, hwf⟩ := ChunkId.parse_eq_ok.mp hid
      obtain ⟨_, hput, heq⟩ := tryAt_eq_ok h
      rw [heq] at h ⊢
      dsimp only at h ⊢
      obtain ⟨chunk, hchunk, rfl⟩ := map_eq_ok.mp h
      have hwrite : MetaOp.IsWrite (.registerChunk ⟨text⟩ body.len) := trivial
      have hreply : (MetaOp.exec env (.registerChunk ⟨text⟩ body.len) s.metaStore).1 = ok chunk :=
        hchunk
      obtain ⟨_, hl, hsize⟩ : MetaOp.Holds env _ (.registerChunk ⟨text⟩ body.len) chunk :=
        holds_of_ok hwrite hreply
      rcases FakeObjectStore.put_cases s.blobs ⟨text⟩ body with
        ⟨hv, _, hp⟩ | ⟨hv, hbody, hp⟩ | ⟨e, _, hp⟩
      · refine .upload hwf hv ?_ hl hsize
        rw [hp]
        exact Finmap.lookup_insert _
      · refine .upload hwf hv ?_ hl hsize
        rw [hp]
        exact hbody
      · rw [hp] at hput
        cases hput
    | getChunk text range => exact hw.elim
    | _ => cases hreq

omit [UuidCrate] [Blake3] in
/-- `s'` still has everything of `s` that a duplicate could ask for. -/
structure AppState.Keeps (s s' : AppState) : Prop where
  metaStore : s.metaStore.Keeps s'.metaStore
  blobs : Table.Grows Eq s.blobs.inner s'.blobs.inner
  filesKeyed : s.metaStore.FilesKeyed → s'.metaStore.FilesKeyed

omit [UuidCrate] [Blake3] in
theorem AppState.Keeps.refl (s : AppState) : s.Keeps s := ⟨.refl _, .refl Eq.refl _, id⟩

omit [UuidCrate] [Blake3] in
theorem AppState.Keeps.trans {s₁ s₂ s₃ : AppState} (h₁ : s₁.Keeps s₂) (h₂ : s₂.Keeps s₃) :
    s₁.Keeps s₃ where
  metaStore := h₁.metaStore.trans h₂.metaStore
  blobs := .trans (fun _ _ _ h => h.trans) h₁.blobs h₂.blobs
  filesKeyed := fun hk => h₂.filesKeyed (h₁.filesKeyed hk)

omit [UuidCrate] in
theorem store_keeps (env : Env) (op : StoreOp) (s : AppState) : s.Keeps (op.exec env s).2 := by
  cases op with
  | metadata op =>
    obtain ⟨hkeeps, hkeyed⟩ := exec_keeps env op s.metaStore
    exact ⟨hkeeps, .refl Eq.refl _, hkeyed⟩
  | blobs op =>
    refine ⟨.refl _, ?_, id⟩
    show Table.Grows Eq s.blobs.inner (op.exec s.blobs).2.inner
    rcases FakeObjectStore.exec_state op s.blobs with heq | ⟨id, bytes, _, hl, heq⟩
    · rw [heq]
      exact .refl Eq.refl _
    · rw [heq]
      exact .insert_new Eq.refl hl

/-- Serving any request keeps what is there. -/
theorem serve_keeps (env : Env) (req : Request) (s : AppState) :
    s.Keeps (Api.serve env req s).2 :=
  Prog.run_relates AppState.Keeps.refl AppState.Keeps.trans (store_keeps env) _ s

/-- **What is in place stays in place**, for whatever answers a write. -/
theorem settled_mono {s s' : AppState} {req : Request} {resp : Response} (hw : req.IsWrite)
    (h : Settled s req resp) (hkeeps : s.Keeps s') (hk : s.metaStore.FilesKeyed) :
    ∃ resp', Settled s' req resp' ∧ resp.SameObject resp' := by
  cases h with
  | call hcall hwrite hholds =>
    obtain ⟨a', hholds', hsame⟩ :=
      holds_mono hwrite hholds hkeeps.metaStore hk (hkeeps.filesKeyed hk)
    exact ⟨_, .call hcall hwrite hholds', (metaCall_write hw hcall).2 _ a' hsame⟩
  | upload hwf hv hbody hl hsize =>
    exact ⟨_, .upload hwf hv (hkeeps.blobs.lookup_eq hbody)
      (hkeeps.metaStore.chunks.lookup_eq hl) hsize, rfl⟩

/-! ## Section 5: Runs with a duplicate -/

/-- Serve the requests one after the other, each in its environment: the
    results, and the stores at the end. -/
def Api.serveAll (s : AppState) : List (Env × Request) → List (Res Response) × AppState
  | [] => ([], s)
  | (env, req) :: rest =>
    ((Api.serve env req s).1 :: (Api.serveAll (Api.serve env req s).2 rest).1,
      (Api.serveAll (Api.serve env req s).2 rest).2)

theorem serveAll_append (s : AppState) (xs ys : List (Env × Request)) :
    Api.serveAll s (xs ++ ys) =
      ((Api.serveAll s xs).1 ++ (Api.serveAll (Api.serveAll s xs).2 ys).1,
        (Api.serveAll (Api.serveAll s xs).2 ys).2) := by
  induction xs generalizing s with
  | nil => rfl
  | cons x xs ih =>
    obtain ⟨env, req⟩ := x
    simp only [List.cons_append, Api.serveAll, ih]

theorem serveAll_keeps (s : AppState) (reqs : List (Env × Request)) :
    s.Keeps (Api.serveAll s reqs).2 := by
  induction reqs generalizing s with
  | nil => exact .refl s
  | cons x xs ih =>
    obtain ⟨env, req⟩ := x
    exact (serve_keeps env req s).trans (ih _)

omit [UuidCrate] [Blake3] in
theorem filesKeyed_default : AppState.default.metaStore.FilesKeyed :=
  Table.allRows_empty _

theorem length_serveAll (s : AppState) (reqs : List (Env × Request)) :
    (Api.serveAll s reqs).1.length = reqs.length := by
  induction reqs generalizing s with
  | nil => rfl
  | cons x xs ih =>
    obtain ⟨env, req⟩ := x
    simp only [Api.serveAll, List.length_cons, ih]

/-- **At-least-once delivery equals exactly-once.** A write that succeeded
    may be repeated at any later point of the run: the duplicate succeeds
    with the same object and leaves both stores as they are, and the run
    with the duplicate has the results of the run without it and ends in the
    same state. -/
theorem duplicate_is_harmless {before between after : List (Env × Request)} {env env' : Env}
    {req : Request} {resp : Response} (hw : req.IsWrite)
    (hok : (Api.serve env req (Api.serveAll AppState.default before).2).1 = ok resp) :
    let earlier := before ++ (env, req) :: between
    ∃ resp', resp.SameObject resp' ∧
      Api.serve env' req (Api.serveAll AppState.default earlier).2 =
        (ok resp', (Api.serveAll AppState.default earlier).2) ∧
      ∃ results rest final, results.length = earlier.length ∧
        Api.serveAll AppState.default (earlier ++ after) = (results ++ rest, final) ∧
        Api.serveAll AppState.default (earlier ++ (env', req) :: after) =
          (results ++ ok resp' :: rest, final) := by
  intro earlier
  have hkeyed := (serveAll_keeps AppState.default before).filesKeyed filesKeyed_default
  have hsettled := settled_of_ok hw hok
  -- the state of the duplicate is the one after the first call and `between`
  have hlater : (Api.serveAll AppState.default earlier).2 =
      (Api.serveAll (Api.serve env req (Api.serveAll AppState.default before).2).2 between).2 := by
    rw [serveAll_append]
    rfl
  obtain ⟨resp', hsettled', hsame⟩ := settled_mono hw hsettled (serveAll_keeps _ between)
    ((serve_keeps env req _).filesKeyed hkeyed)
  rw [← hlater] at hsettled'
  have hdup := serve_settled env' hsettled'
  refine ⟨resp', hsame, hdup, _, _, _, length_serveAll _ earlier, serveAll_append _ _ _, ?_⟩
  rw [serveAll_append, Api.serveAll, hdup]

/-- What follows the first commit in the sample run: a second version is
    built on the first one and committed. -/
noncomputable def Sample.secondVersion : List (Env × Request) :=
  [(Env.sample 2 60, .createVersion Sample.filePath
      ⟨Sample.v2, some Sample.v1, Sample.manifest.manifestId⟩),
    (Env.sample 2 70, .commitVersion Sample.versionPath2)]

omit [UuidCrate] [Blake3] in
/-- The commit of `v1` arrives again after the commit of `v2`. -/
theorem duplicate_is_harmless_sample :
    letI := Sample.blake3
    letI := Sample.uuidCrate
    let commit := Request.commitVersion Sample.versionPath
    let earlier := Sample.requests.take 4 ++ (Env.sample 2 50, commit) :: Sample.secondVersion
    let resp := Response.version ⟨contractVersion,
      ⟨Sample.v1, Sample.file, none, Sample.manifest.manifestId, .committed, ⟨40⟩⟩⟩
    ∃ resp', resp.SameObject resp' ∧
      Api.serve (Env.sample 2 80) commit (Api.serveAll AppState.default earlier).2 =
        (ok resp', (Api.serveAll AppState.default earlier).2) ∧
      ∃ results rest final, results.length = earlier.length ∧
        Api.serveAll AppState.default (earlier ++ Sample.laterRequests) =
          (results ++ rest, final) ∧
        Api.serveAll AppState.default
            (earlier ++ (Env.sample 2 80, commit) :: Sample.laterRequests) =
          (results ++ ok resp' :: rest, final) :=
  letI := Sample.blake3
  letI := Sample.uuidCrate
  duplicate_is_harmless trivial (toOption_eq_some.mp (by decide +kernel))

end Space
