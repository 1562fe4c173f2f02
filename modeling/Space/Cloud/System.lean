import Space.Cloud.Api
import Space.Effects.Pool

/-! # The server

    Requests from any number of clients are handled at the same time, and
    their handlers interleave at every call of a store. `Server` is the pool
    of `Space.Effects.Pool` for the handlers of the API.

    `AppInv` joins the two stores: every registered chunk has a stored body
    of exactly the registered size. The one call that could break it is
    `register_chunk`, which the discipline allows only when the body is
    stored; `ensures_putChunk` shows that the handler, which stores first
    and registers second, obeys. -/

namespace Space

open Rust Outcome Data Effects

/-! ## Section 1: The invariant of the two stores -/

/-- The order along which the two stores move. -/
structure AppState.Extends (s s' : AppState) : Prop where
  metaStore : s.metaStore.Extends s'.metaStore
  blobs : Table.Grows Eq s.blobs.inner s'.blobs.inner

theorem AppState.Extends.refl (s : AppState) : s.Extends s := ⟨.refl _, .refl Eq.refl _⟩

theorem AppState.Extends.trans {s₁ s₂ s₃ : AppState} (h₁ : s₁.Extends s₂) (h₂ : s₂.Extends s₃) :
    s₁.Extends s₃ where
  metaStore := h₁.metaStore.trans h₂.metaStore
  blobs := .trans (fun _ _ _ h => h.trans) h₁.blobs h₂.blobs

section stores

variable [Blake3]

/-- What holds of the two stores together. -/
structure AppInv (s : AppState) : Prop where
  metaStore : MetaInv s.metaStore
  /-- Every stored body has the hash it is stored under. -/
  verified : Table.AllRows (fun id obj => id.verify obj = true) s.blobs.inner
  /-- Every registered chunk has a stored body of the registered size. -/
  backed : Table.AllRows (fun id (chunk : Chunk) =>
    ∃ obj, s.blobs.inner.lookup id = some obj ∧ obj.len = chunk.size) s.metaStore.chunks

/-- `register_chunk` is called with the size of a body that is stored. The
    other calls have no precondition. -/
def StoreOp.Pre : StoreOp → AppState → Prop
  | metadata (.registerChunk id size), s =>
    ∃ obj, s.blobs.inner.lookup id = some obj ∧ obj.len = size
  | _, _ => True

theorem appInv_default : AppInv AppState.default where
  metaStore := metaInv_new
  verified := Table.allRows_empty _
  backed := Table.allRows_empty _

/-- A call of the object store: the metadata is as before, and the bodies
    that are registered are still stored. -/
theorem blobs_step {op : BlobOp} {s : AppState} (h : AppInv s) :
    AppInv { s with blobs := (op.exec s.blobs).2 } ∧
      s.Extends { s with blobs := (op.exec s.blobs).2 } := by
  rcases FakeObjectStore.exec_state op s.blobs with heq | ⟨id, bytes, hv, hl, heq⟩
  · rw [heq]
    exact ⟨h, .refl s⟩
  · rw [heq]
    have hgrow : Table.Grows Eq s.blobs.inner (s.blobs.inner.insert id bytes) :=
      .insert_new Eq.refl hl
    refine ⟨⟨h.metaStore, h.verified.insert (fun _ _ _ hk => hk) hv, ?_⟩, .refl _, hgrow⟩
    refine h.backed.mono fun key chunk hchunk => ?_
    obtain ⟨obj, hobj, hlen⟩ := hchunk
    exact ⟨obj, hgrow.lookup_eq hobj, hlen⟩

/-- A call of the metadata store: a chunk that it registers has its body. -/
theorem metaStore_step {op : MetaOp} {s : AppState} {g' : Inner} {r : Res op.Value} (h : AppInv s)
    (hpre : StoreOp.Pre (.metadata op) s) (hs : MetaOp.Step op s.metaStore r g') :
    AppInv { s with metaStore := g' } ∧ s.Extends { s with metaStore := g' } := by
  obtain ⟨hinv, hext⟩ := step_inv h.metaStore hs
  refine ⟨⟨hinv, h.verified, ?_⟩, hext, .refl Eq.refl _⟩
  obtain ⟨env, _, hcall⟩ := hs.call
  cases hcall with
  | refused e => exact h.backed
  | dangling _ => exact h.backed
  | found _ => exact h.backed
  | wrote hw =>
    rcases writes_chunks hw with heq | ⟨id, size, rfl, heq⟩
    · show Table.AllRows _ g'.chunks
      rw [heq]
      exact h.backed
    · show Table.AllRows _ g'.chunks
      rw [heq]
      exact h.backed.insert (fun _ _ _ hk => hk) hpre

/-- **One call**: the invariant is kept and both stores have grown. -/
theorem store_step {op : StoreOp} {s s' : AppState} {r : Res op.Value} (h : AppInv s)
    (hpre : op.Pre s) (hs : StoreOp.Step op s r s') : AppInv s' ∧ s.Extends s' := by
  obtain ⟨env, hfresh, heq⟩ := hs
  cases op with
  | metadata op =>
    cases heq
    exact metaStore_step h hpre ⟨env, hfresh, rfl⟩
  | blobs op =>
    cases heq
    exact blobs_step h

/-- How the handlers use the stores. -/
def serverDiscipline : Discipline StoreI AppState where
  step := StoreOp.Step
  Inv := AppInv
  Rely := AppState.Extends
  Pre := StoreOp.Pre
  refl := AppState.Extends.refl
  trans := AppState.Extends.trans
  preserves := store_step

/-- A call that does not return `Ok` changes neither store. -/
theorem store_unchanged {op : StoreOp} {s s' : AppState} {r : Res op.Value}
    (hs : StoreOp.Step op s r s') (hr : r.isOk = false) : s' = s := by
  obtain ⟨env, _, heq⟩ := hs
  cases op with
  | metadata op =>
    cases heq
    show AppState.mk _ _ = s
    rw [exec_unchanged hr]
  | blobs op =>
    cases heq
    show AppState.mk _ _ = s
    rw [FakeObjectStore.exec_unchanged hr]

/-- **A body that is stored can be registered**: the row that may be there
    already has the same size. -/
theorem registerChunk_stored {s : AppState} {id : ChunkId} {size : UInt64} (h : AppInv s)
    (hpre : StoreOp.Pre (.metadata (.registerChunk id size)) s) (env : Env) :
    (StoreOp.exec env (.metadata (.registerChunk id size)) s).1 = ok ⟨id, size⟩ := by
  obtain ⟨obj, hobj, hlen⟩ := hpre
  have hwf : id.WellFormed := by
    rw [ChunkId.verify_iff.mp (h.verified id obj hobj)]
    exact ChunkId.wellFormed_fromBytes obj
  show (s.metaStore.registerChunk id size).1 = _
  unfold Inner.registerChunk
  rw [ChunkId.parse_str.mpr hwf, tryAt_ok]
  cases hl : s.metaStore.chunks.lookup id with
  | none => rfl
  | some existing =>
    obtain ⟨obj', hobj', hsize⟩ := h.backed id existing hl
    rw [hobj] at hobj'
    cases hobj'
    have hid : existing.chunkId = id := h.metaStore.chunks id existing hl
    have hex : existing = ⟨id, size⟩ := by
      cases existing
      cases hid
      cases hlen.symm.trans hsize
      rfl
    simp [hex]

/-! ## Section 2: Every handler keeps to the discipline -/

/-- Nothing was changed. -/
def Quiet (tr : List (Change AppState)) : Prop := ∀ c ∈ tr, c.2 = c.1

/-- What is promised when a request has been answered: a failed one changed
    nothing, and the body of an accepted upload is stored. -/
structure Post (req : Request) (r : Res Response) (tr : List (Change AppState)) (s : AppState) :
    Prop where
  quiet : r.isOk = false → Quiet tr
  stored : ∀ id body resp, req = .putChunk id body → r = ok resp →
    s.blobs.inner.lookup ⟨id⟩ = some body

omit [Blake3] in
theorem quiet_nil : Quiet [] := fun _ hc => by cases hc

omit [Blake3] in
/-- A request that failed, having changed nothing. -/
theorem Post.failed {req : Request} {r : Res Response} {tr : List (Change AppState)} {s : AppState}
    (hr : r.isOk = false) (htr : Quiet tr) : Post req r tr s where
  quiet := fun _ => htr
  stored := fun _ _ _ _ hok => by
    rw [hok] at hr
    cases hr

omit [Blake3] in
/-- A request other than an upload that succeeded. -/
theorem Post.succeeded {req : Request} {resp : Response} {tr : List (Change AppState)}
    {s : AppState} (hreq : ∀ id body, req ≠ .putChunk id body) : Post req (ok resp) tr s where
  quiet := fun h => by cases h
  stored := fun id body _ h _ => absurd h (hreq id body)

omit [Blake3] in
theorem Quiet.append {tr : List (Change AppState)} {s : AppState} (h : Quiet tr) :
    Quiet (tr ++ [(s, s)]) := by
  intro c hc
  rcases List.mem_append.mp hc with hc | hc
  · exact h c hc
  · rw [List.mem_singleton.mp hc]

section handlers

variable {req : Request} {done : List (Change AppState)} {s : AppState}

/-- A call after which the handler returns: whatever it does to the stores,
    it does nothing when it fails. -/
theorem ensures_last {op : StoreOp} {f : op.Value → Response} (hdone : Quiet done)
    (hpre : ∀ s₁, op.Pre s₁) (hreq : ∀ id body, req ≠ .putChunk id body) :
    Ensures serverDiscipline (.call op (Fallible.onOk fun a => .ret (ok (f a)))) (Post req)
      done s := by
  intro s₁ _ _
  refine ⟨hpre s₁, fun r s₂ hs => Ensures.onOk (fun a _ => ?_) fun r' hr hr' s₃ _ _ => ?_⟩
  · exact fun s₃ _ _ => .succeeded hreq
  · rw [store_unchanged hs hr]
    exact .failed hr' hdone.append

/-- A call that only reads, and the rest of the handler after it. -/
theorem ensures_read {op : StoreOp} {k : op.Value → Prog StoreI (Res Response)}
    (hdone : Quiet done) (hpre : ∀ s₁, op.Pre s₁)
    (hread : ∀ s₁ r s₂, StoreOp.Step op s₁ r s₂ → s₂ = s₁)
    (hk : ∀ a done' s', Quiet done' → Ensures serverDiscipline (k a) (Post req) done' s') :
    Ensures serverDiscipline (.call op (Fallible.onOk k)) (Post req) done s := by
  intro s₁ _ _
  refine ⟨hpre s₁, fun r s₂ hs => ?_⟩
  rw [hread s₁ r s₂ hs]
  refine Ensures.onOk (fun a _ => hk a _ s₁ hdone.append) fun r' _ hr' s₃ _ _ => ?_
  exact .failed hr' hdone.append

/-- A computation in front of the first call: it fails before anything has
    changed. -/
theorem ensures_pure {α : Type} {x : Res α} {k : α → Prog StoreI (Res Response)}
    (hdone : Quiet done) (hk : ∀ a, Ensures serverDiscipline (k a) (Post req) done s) :
    Ensures serverDiscipline (Fallible.onOk k x) (Post req) done s :=
  Ensures.onOk (fun a _ => hk a) fun _ _ hr' _ _ _ => .failed hr' hdone

end handlers

/-- **`put_chunk` stores first and registers second**: the registration
    cannot fail, so a failed upload has changed nothing. -/
theorem ensures_putChunk (text : String) (body : Bytes) (s : AppState) :
    Ensures serverDiscipline (Api.putChunk text body) (Post (.putChunk text body)) [] s := by
  simp only [Api.putChunk, Api.callBlobs, Api.callMeta, Prog.perform, ↓Fallible.bind_eq,
    ↓Fallible.lift_eq, ↓Fallible.pure_eq, Prog.bind_ret, Prog.bind_call]
  refine Ensures.onOk (fun id hid => ?_) fun _ _ hr' _ _ _ => .failed hr' quiet_nil
  obtain ⟨rfl, _⟩ := ChunkId.parse_eq_ok.mp hid
  intro s₁ _ hinv₁
  refine ⟨trivial, fun r s₂ hput => ?_⟩
  refine Ensures.onOk (fun _ hok => ?_) fun r' hr hr' s₃ _ _ => ?_
  · -- the body is stored, and stays so until the registration
    subst hok
    have hstored : s₂.blobs.inner.lookup ⟨text⟩ = some body := by
      obtain ⟨env, _, heq⟩ := hput
      have hblobs : (s₁.blobs.put ⟨text⟩ body).2 = s₂.blobs :=
        congrArg (fun p => AppState.blobs p.2) heq
      have hreply : (s₁.blobs.put ⟨text⟩ body).1 = ok () := congrArg Prod.fst heq
      rcases FakeObjectStore.put_cases s₁.blobs ⟨text⟩ body with
        ⟨_, _, hp⟩ | ⟨_, hl, hp⟩ | ⟨e, _, hp⟩
      · rw [← hblobs, hp]
        exact Finmap.lookup_insert _
      · rw [← hblobs, hp]
        exact hl
      · rw [hp] at hreply
        cases hreply
    intro s₃ hext₃ hinv₃
    have hstored₃ := hext₃.blobs.lookup_eq hstored
    have hpre : StoreOp.Pre (.metadata (.registerChunk ⟨text⟩ body.len)) s₃ :=
      ⟨body, hstored₃, rfl⟩
    refine ⟨hpre, fun r s₄ hreg => ?_⟩
    have hreply : r = ok ⟨⟨text⟩, body.len⟩ := by
      obtain ⟨env, _, heq⟩ := hreg
      rw [← registerChunk_stored hinv₃ hpre env, heq]
    subst hreply
    have hext₄ := (store_step hinv₃ hpre hreg).2
    intro s₅ hext₅ _
    refine ⟨(fun h => by cases h), fun id body' resp hreq _ => ?_⟩
    cases hreq
    exact hext₅.blobs.lookup_eq (hext₄.blobs.lookup_eq hstored₃)
  · rw [store_unchanged hput hr]
    exact .failed hr' (quiet_nil.append)

theorem getChunk_reads {op : BlobOp} (hop : ∀ id bytes, op ≠ .put id bytes) {s₁ s₂ : AppState}
    {r : Res op.Value} (hs : StoreOp.Step (.blobs op) s₁ r s₂) : s₂ = s₁ := by
  obtain ⟨env, _, heq⟩ := hs
  cases heq
  cases op with
  | put id bytes => exact absurd rfl (hop id bytes)
  | _ => rfl

theorem ensures_getChunk (text : String) (range : Option HeaderValue) (s : AppState) :
    Ensures serverDiscipline (Api.getChunk text range) (Post (.getChunk text range)) [] s := by
  simp only [Api.getChunk, Api.callBlobs, Prog.perform, ↓Fallible.bind_eq, ↓Fallible.lift_eq,
    Prog.bind_ret, Prog.bind_call]
  refine ensures_pure quiet_nil fun id => ?_
  refine ensures_read quiet_nil (fun _ => trivial) (fun _ _ _ => getChunk_reads (by simp)) ?_
  intro size done' s' hdone'
  cases range with
  | none =>
    simp only [↓Fallible.pure_eq]
    exact ensures_last hdone' (fun _ => trivial) (by simp)
  | some range =>
    simp only [Api.getChunkRange, Api.callBlobs, Prog.perform, ↓Fallible.bind_eq,
      ↓Fallible.lift_eq, ↓Fallible.pure_eq, Prog.bind_call, Prog.bind_ret]
    refine ensures_pure hdone' fun p => ensures_pure hdone' fun n => ?_
    exact ensures_last hdone' (fun _ => trivial) (by simp)

omit [Blake3] in
/-- The call of a request that makes one call: it registers no chunk, and
    mints an id only to create a file. -/
theorem metaCall_op [UuidCrate] {req : Request} {call : Api.MetaCall}
    (h : Api.metaCall req = some (ok call)) :
    (∀ id size, call.op ≠ .registerChunk id size) ∧
      ((∃ r, req = .createFile r) ∨ ∀ env g, call.op.Fresh env g) := by
  cases req with
  | createFile req =>
    cases h
    exact ⟨by simp, .inl ⟨req, rfl⟩⟩
  | putChunk text body => cases h
  | getChunk text range => cases h
  | putManifest text req =>
    obtain ⟨id, _, hrest⟩ := bind_eq_ok.mp (Option.some.inj h)
    obtain ⟨_, hcall⟩ := seq_eq_ok.mp hrest
    cases hcall
    exact ⟨by simp, .inr fun _ _ => trivial⟩
  | _ =>
    obtain ⟨id, _, hcall⟩ := bind_eq_ok.mp (Option.some.inj h)
    cases hcall
    exact ⟨by simp, .inr fun _ _ => trivial⟩

omit [Blake3] in
theorem pre_of_ne {op : MetaOp} (h : ∀ id size, op ≠ .registerChunk id size) (s : AppState) :
    StoreOp.Pre (.metadata op) s := by
  cases op with
  | registerChunk id size => exact absurd rfl (h id size)
  | _ => exact trivial

/-- **Every handler keeps to the discipline.** -/
theorem ensures_handle [UuidCrate] (req : Request) (s : AppState) :
    Ensures serverDiscipline (Api.handle req) (Post req) [] s := by
  cases hreq : Api.metaCall req with
  | some x =>
    rw [Api.handle_of_metaCall hreq]
    refine Ensures.onOk (fun call hx => ?_) fun _ _ hr' _ _ _ => .failed hr' quiet_nil
    subst hx
    -- one call, and none that needs a stored body
    have hop := (metaCall_op hreq).1
    refine ensures_last quiet_nil (pre_of_ne hop) ?_
    rintro id body rfl
    cases hreq
  | none =>
    cases req with
    | putChunk text body => exact ensures_putChunk text body s
    | getChunk text range => exact ensures_getChunk text range s
    | _ => cases hreq

/-! ## Section 3: Runs of the server -/

/-- The stores and every request that has arrived. -/
abbrev Server := Pool StoreI AppState Request (Res Response)

/-- The empty `AppState`, before the first request. -/
def Server.init : Server := ⟨AppState.default, []⟩

/-- Any number of requests, interleaved at the calls of the stores. -/
abbrev Server.Steps [UuidCrate] (c c' : Server) : Prop :=
  Pool.Steps Api.handle StoreOp.Step c c'

/-- The states a server passes through. -/
abbrev Server.Reachable [UuidCrate] (c : Server) : Prop := Server.Steps .init c

theorem follows_onOk {α : Type} {exec : (op : StoreOp) → AppState → Res op.Value × AppState}
    {f : α → Prog StoreI (Res Response)} {x : Res α} {s : AppState}
    (h : ∀ a, Pool.Follows StoreOp.Step exec (f a) s) :
    Pool.Follows StoreOp.Step exec (Fallible.onOk f x) s := by
  cases x with
  | ok a => exact h a
  | err e => exact trivial
  | panic => exact trivial

omit [Blake3] in
/-- The id that creating a file would mint is unused. -/
def Request.MintsUnused (env : Env) (s : AppState) : Request → Prop
  | .createFile _ => s.metaStore.files.lookup env.newId = none
  | _ => True

/-- Every handler can be served at once. -/
theorem follows_handle [UuidCrate] {env : Env} {req : Request} {s : AppState}
    (hfresh : req.MintsUnused env s) :
    Pool.Follows StoreOp.Step (StoreOp.exec env) (Api.handle req) s := by
  cases hreq : Api.metaCall req with
  | some x =>
    rw [Api.handle_of_metaCall hreq]
    cases x with
    | err e => exact trivial
    | panic => exact trivial
    | ok call =>
      have hop : call.op.Fresh env s.metaStore := by
        rcases (metaCall_op hreq).2 with ⟨r, rfl⟩ | hall
        · cases hreq
          exact fun _ => hfresh
        · exact hall env s.metaStore
      exact ⟨⟨env, hop, rfl⟩, follows_onOk fun _ => trivial⟩
  | none =>
    cases req with
    | putChunk text body =>
      simp only [Api.handle, Api.putChunk, Api.callBlobs, Api.callMeta, Prog.perform,
        ↓Fallible.bind_eq, ↓Fallible.lift_eq, ↓Fallible.pure_eq, Prog.bind_ret, Prog.bind_call]
      refine follows_onOk fun id => ⟨⟨env, trivial, rfl⟩, follows_onOk fun _ => ?_⟩
      exact ⟨⟨env, trivial, rfl⟩, follows_onOk fun _ => trivial⟩
    | getChunk text range =>
      simp only [Api.handle, Api.getChunk, Api.getChunkRange, Api.callBlobs, Prog.perform,
        ↓Fallible.bind_eq, ↓Fallible.lift_eq, Prog.bind_ret, Prog.bind_call]
      refine follows_onOk fun id => ⟨⟨env, trivial, rfl⟩, follows_onOk fun size => ?_⟩
      cases range with
      | none => exact ⟨⟨env, trivial, rfl⟩, follows_onOk fun _ => trivial⟩
      | some range =>
        refine follows_onOk fun p => follows_onOk fun n => ?_
        exact ⟨⟨env, trivial, rfl⟩, follows_onOk fun _ => trivial⟩
    | _ => cases hreq

/-- Serve the requests one after the other, each in its environment. -/
def Server.serveAll [UuidCrate] (c : Server) : List (Env × Request) → Server
  | [] => c
  | (env, req) :: rest => Server.serveAll (c.serve Api.handle (StoreOp.exec env) req) rest

/-- Every id minted on the way is unused. -/
def Server.FreshRequests [UuidCrate] (c : Server) : List (Env × Request) → Prop
  | [] => True
  | (env, req) :: rest => req.MintsUnused env c.store ∧
      Server.FreshRequests (c.serve Api.handle (StoreOp.exec env) req) rest

theorem steps_serveAll [UuidCrate] {c : Server} {reqs : List (Env × Request)}
    (h : c.FreshRequests reqs) : c.Steps (c.serveAll reqs) := by
  induction reqs generalizing c with
  | nil => exact .refl
  | cons call rest ih =>
    obtain ⟨env, req⟩ := call
    exact (Pool.steps_serve c req (follows_handle h.1)).trans (ih h.2)

theorem sound_init : Pool.Sound serverDiscipline Post Server.init where
  inv := appInv_default
  threads := fun t ht => by cases ht

theorem sound_reachable [UuidCrate] {c : Server} (h : c.Reachable) :
    Pool.Sound serverDiscipline Post c :=
  (sound_init.steps (fun req s _ => ensures_handle req s) h).1

theorem steps_extends [UuidCrate] {c c' : Server} (h : c.Reachable) (hs : c.Steps c') :
    c.store.Extends c'.store :=
  ((sound_reachable h).steps (fun req s _ => ensures_handle req s) hs).2

end stores

/-! ### A sample run

    One client uploads `abc`, creates a file and commits a version of it.
    Later it uploads other bytes under the same id, which fails. -/

namespace Sample

def filePath : String := "f_" ++ uuidText

def versionPath : String := "v_" ++ uuidText

def versionPath2 : String := "v_" ++ uuidText2

def manifestPath : String := "m_" ++ uuidText

noncomputable def requests : List (Env × Request) :=
  [(Env.sample 1 10, .putChunk chunk.str abc),
    (Env.sample 1 20, .createFile ⟨⟨⟨7⟩⟩, "a.txt", "k1"⟩),
    (Env.sample 2 30, .putManifest manifestPath ⟨manifest⟩),
    (Env.sample 2 40, .createVersion filePath ⟨v1, none, manifest.manifestId⟩),
    (Env.sample 2 50, .commitVersion versionPath)]

noncomputable def laterRequests : List (Env × Request) :=
  [(Env.sample 2 60, .putChunk chunk.str Bytes.empty)]

noncomputable def server : Server :=
  letI := blake3
  letI := uuidCrate
  Server.init.serveAll requests

noncomputable def laterServer : Server :=
  letI := blake3
  letI := uuidCrate
  server.serveAll laterRequests

theorem server_reachable :
    letI := blake3
    letI := uuidCrate
    server.Reachable := by
  let := blake3
  let := uuidCrate
  refine steps_serveAll ⟨trivial, ?_, trivial, trivial, trivial, trivial⟩
  show Finmap.lookup _ _ = none
  decide +kernel

theorem server_manifest : server.store.metaStore.manifests.lookup ⟨⟨1⟩⟩ = some manifest := by
  decide +kernel

theorem server_later :
    letI := blake3
    letI := uuidCrate
    server.Steps laterServer := by
  let := blake3
  let := uuidCrate
  exact steps_serveAll ⟨trivial, trivial⟩

end Sample

/-! ### What holds in every interleaving -/

/-- **Failed requests leave no trace**, in any interleaving; and a body that
    was stored is registered without fail. -/
theorem failed_leaves_no_trace [UuidCrate] [Blake3] {c : Server} (h : c.Reachable) :
    (∀ t ∈ c.threads, ∀ r, t.prog = .ret r → r.isOk = false → ∀ ch ∈ t.done, ch.2 = ch.1) ∧
      ∀ t ∈ c.threads, ∀ id size k,
        t.prog = .call (StoreOp.metadata (.registerChunk id size)) k →
          ∀ env, (StoreOp.exec env (.metadata (.registerChunk id size)) c.store).1 =
            ok ⟨id, size⟩ := by
  have hsound := sound_reachable h
  constructor
  · intro t ht r hret hr
    have hpost := hsound.threads t ht
    rw [hret] at hpost
    exact (hpost.returned hsound.inv).quiet hr
  · intro t ht id size k hprog env
    have hpost := hsound.threads t ht
    rw [hprog] at hpost
    exact registerChunk_stored hsound.inv (hpost.pre hsound.inv) env

/-- In the sample run the last upload has failed. -/
theorem failed_leaves_no_trace_sample :
    letI := Sample.blake3
    letI := Sample.uuidCrate
    (∀ t ∈ Sample.laterServer.threads, ∀ r, t.prog = .ret r → r.isOk = false →
        ∀ ch ∈ t.done, ch.2 = ch.1) ∧
      ∀ t ∈ Sample.laterServer.threads, ∀ id size k,
        t.prog = .call (StoreOp.metadata (.registerChunk id size)) k →
          ∀ env, (StoreOp.exec env (.metadata (.registerChunk id size))
            Sample.laterServer.store).1 = ok ⟨id, size⟩ :=
  letI := Sample.blake3
  letI := Sample.uuidCrate
  failed_leaves_no_trace (Sample.server_reachable.trans Sample.server_later)

/-- **Committed content is immutable**: whatever requests follow, the
    version, its manifest, the chunk rows the manifest names and their
    bodies are what they were. -/
theorem committed_is_immutable [UuidCrate] [Blake3] {c c' : Server} (h : c.Reachable)
    (hs : c.Steps c') {v : VersionId} {version : Version}
    (hv : c.store.metaStore.getCurrentVersion v = ok version) :
    c'.store.metaStore.getCurrentVersion v = ok version ∧
      ∃ m, c.store.metaStore.manifests.lookup version.manifestId = some m ∧
        c'.store.metaStore.manifests.lookup version.manifestId = some m ∧
          ∀ row ∈ m.chunks, ∃ reg body, reg.size = row.size ∧
            c.store.metaStore.chunks.lookup row.chunkId = some reg ∧
            c'.store.metaStore.chunks.lookup row.chunkId = some reg ∧
            c.store.blobs.inner.lookup row.chunkId = some body ∧
            c'.store.blobs.inner.lookup row.chunkId = some body := by
  have hinv := (sound_reachable h).inv
  have hext := steps_extends h hs
  obtain ⟨hl, hstate⟩ := getCurrentVersion_eq_ok.mp hv
  constructor
  · obtain ⟨row', hrow', hev⟩ := hext.metaStore.versions v version hl
    rw [hev.of_committed hstate] at hrow'
    exact getCurrentVersion_eq_ok.mpr ⟨hrow', hstate⟩
  · obtain ⟨m, hm⟩ := (hinv.metaStore.versions v version hl).manifest
    refine ⟨m, hm, hext.metaStore.manifests.lookup_eq hm, fun row hrow => ?_⟩
    have hok := hinv.metaStore.manifests _ m hm
    obtain ⟨reg, hreg, hsize⟩ := hok.registered row hrow
    obtain ⟨body, hbody, _⟩ := hinv.backed _ reg hreg
    exact ⟨reg, body, hsize, hreg, hext.metaStore.chunks.lookup_eq hreg, hbody,
      hext.blobs.lookup_eq hbody⟩

/-- The version that the sample run commits. -/
theorem committed_is_immutable_sample :
    letI := Sample.blake3
    letI := Sample.uuidCrate
    Sample.laterServer.store.metaStore.getCurrentVersion Sample.v1 =
        ok ⟨Sample.v1, Sample.file, none, ⟨⟨1⟩⟩, .committed, ⟨40⟩⟩ ∧
      ∃ m, Sample.server.store.metaStore.manifests.lookup ⟨⟨1⟩⟩ = some m ∧
        Sample.laterServer.store.metaStore.manifests.lookup ⟨⟨1⟩⟩ = some m ∧
          ∀ row ∈ m.chunks, ∃ reg body, reg.size = row.size ∧
            Sample.server.store.metaStore.chunks.lookup row.chunkId = some reg ∧
            Sample.laterServer.store.metaStore.chunks.lookup row.chunkId = some reg ∧
            Sample.server.store.blobs.inner.lookup row.chunkId = some body ∧
            Sample.laterServer.store.blobs.inner.lookup row.chunkId = some body :=
  letI := Sample.blake3
  letI := Sample.uuidCrate
  committed_is_immutable Sample.server_reachable Sample.server_later
    (getCurrentVersion_eq_ok.mpr ⟨by decide +kernel, rfl⟩)

end Space
