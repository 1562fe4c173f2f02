import Space.Cloud.System

/-! # Uploads

    A chunk that is registered was uploaded: some `put_chunk` has answered
    with success for it. This is a fact about the history of a run, so it is
    an invariant of the pool and not of the stores. Only a thread that
    handles an upload can be about to register a chunk, and it returns at
    once when that succeeds.

    The other half is in `Post.stored`: the body of an answered upload is
    the one that is stored. -/

namespace Space

open Rust Outcome Data Effects

/-! ## Section 1: Reads of one chunk -/

/-- The calls that read the object `id`. -/
def StoreOp.ReadsChunk (id : ChunkId) : StoreOp → Prop
  | .blobs (.get id') => id' = id
  | .blobs (.getRange id' _ _) => id' = id
  | .blobs (.head id') => id' = id
  | _ => False

theorem StoreOp.ReadsChunk.fresh {op : StoreOp} {id : ChunkId} (h : op.ReadsChunk id) (env : Env)
    (s : AppState) : op.Fresh env s := by
  cases op with
  | metadata op => exact h.elim
  | blobs op => exact trivial

theorem StoreOp.ReadsChunk.pre {op : StoreOp} {id : ChunkId} (h : op.ReadsChunk id)
    (s : AppState) : op.Pre s := by
  cases op with
  | metadata op => exact h.elim
  | blobs op => exact trivial

section uploads

variable [Blake3]

/-- A read of a stored object returns the same for as long as the object is
    stored. -/
theorem StoreOp.ReadsChunk.exec_eq {op : StoreOp} {id : ChunkId} {s s' : AppState} {obj : Bytes}
    (h : op.ReadsChunk id) (hs : s.blobs.inner.lookup id = some obj)
    (hs' : s'.blobs.inner.lookup id = some obj) (env env' : Env) :
    (op.exec env' s').1 = (op.exec env s).1 := by
  have hsame : s'.blobs.inner.lookup id = s.blobs.inner.lookup id := hs'.trans hs.symm
  cases op with
  | metadata op => exact h.elim
  | blobs op =>
    cases op with
    | put _ _ => exact h.elim
    | «exists» _ => exact h.elim
    | get id' =>
      cases h
      simp only [StoreOp.exec, BlobOp.exec, FakeObjectStore.get, hsame]
    | getRange id' offset length =>
      cases h
      simp only [StoreOp.exec, BlobOp.exec, FakeObjectStore.getRange, hsame]
    | head id' =>
      cases h
      simp only [StoreOp.exec, BlobOp.exec, FakeObjectStore.head, hsame]

theorem StoreOp.ReadsChunk.exec_state {op : StoreOp} {id : ChunkId} (h : op.ReadsChunk id)
    (env : Env) (s : AppState) : (op.exec env s).2 = s := by
  cases op with
  | metadata op => exact h.elim
  | blobs op =>
    cases op with
    | put _ _ => exact h.elim
    | _ => rfl

omit [Blake3] in
/-- `get_chunk` only reads, and only the chunk it is asked for. -/
theorem getChunk_only [UuidCrate] (text : String) (range : Option HeaderValue) :
    (Api.handle (.getChunk text range)).Only (StoreOp.ReadsChunk ⟨text⟩) := by
  simp only [Api.handle, Api.getChunk, Api.getChunkRange, Api.callBlobs, Prog.perform,
    ↓Fallible.bind_eq, ↓Fallible.lift_eq, Prog.bind_ret, Prog.bind_call]
  refine Fallible.only_onOk fun id hid => ?_
  obtain ⟨rfl, _⟩ := ChunkId.parse_eq_ok.mp hid
  refine ⟨rfl, fun r => Fallible.only_onOk fun size _ => ?_⟩
  cases range with
  | none => exact ⟨rfl, fun r => Fallible.only_onOk fun _ _ => trivial⟩
  | some range =>
    refine Fallible.only_onOk fun p _ => Fallible.only_onOk fun n _ => ?_
    exact ⟨rfl, fun r => Fallible.only_onOk fun _ _ => trivial⟩

/-! ## Section 2: Who registers a chunk -/

/-- The rest of `put_chunk` after the registration. -/
def Api.registered : Res Chunk → Prog StoreI (Res Response) :=
  Fallible.onOk fun chunk => .ret (ok (.chunk ⟨contractVersion, chunk⟩))

omit [Blake3] in
theorem residual_onOk_ret {α : Type} {f : α → Response} {x : Res α}
    {q : Prog StoreI (Res Response)}
    (h : Prog.Residual (Fallible.onOk (fun a => .ret (ok (f a))) x) q) : ∃ r, q = .ret r := by
  cases x <;> exact ⟨_, Prog.residual_ret.mp h⟩

omit [Blake3] in
/-- **Only an upload registers a chunk**, and it returns after that. -/
theorem register_residual [UuidCrate] {req : Request} {id : ChunkId} {size : UInt64}
    {k : Res Chunk → Prog StoreI (Res Response)}
    (h : (Api.handle req).Residual (.call (.metadata (.registerChunk id size)) k)) :
    (∃ body, req = .putChunk id.str body) ∧ k = Api.registered := by
  cases hreq : Api.metaCall req with
  -- a request with one metadata call does not register
  | some x =>
    rw [Api.handle_of_metaCall hreq] at h
    cases x with
    | err e => cases Prog.residual_ret.mp h
    | panic => cases Prog.residual_ret.mp h
    | ok call =>
      rcases Prog.residual_call.mp h with heq | ⟨r, h⟩
      · injection heq with hop _
        injection hop with hop
        exact absurd hop.symm ((metaCall_op hreq).1 id size)
      · obtain ⟨_, hret⟩ := residual_onOk_ret h
        cases hret
  | none =>
    cases req with
    | getChunk text range => exact ((getChunk_only text range).residual h).1.elim
    | putChunk text body =>
      simp only [Api.handle, Api.putChunk, Api.callBlobs, Api.callMeta, Prog.perform,
        ↓Fallible.bind_eq, ↓Fallible.lift_eq, ↓Fallible.pure_eq, Prog.bind_ret,
        Prog.bind_call] at h
      cases hid : ChunkId.parse text with
      | err e =>
        rw [hid] at h
        cases Prog.residual_ret.mp h
      | panic =>
        rw [hid] at h
        cases Prog.residual_ret.mp h
      | ok id' =>
        obtain ⟨rfl, _⟩ := ChunkId.parse_eq_ok.mp hid
        rw [hid] at h
        -- the put comes first, and the registration after it only if it succeeds
        rcases Prog.residual_call.mp h with heq | ⟨r, h⟩
        · cases heq
        · cases r with
          | err e => cases Prog.residual_ret.mp h
          | panic => cases Prog.residual_ret.mp h
          | ok _ =>
            rcases Prog.residual_call.mp h with heq | ⟨r, h⟩
            · cases heq
              exact ⟨⟨body, rfl⟩, rfl⟩
            · obtain ⟨_, hret⟩ := residual_onOk_ret h
              cases hret
    | _ => cases hreq

/-- The chunk rows after a call: only a registration that succeeds adds one. -/
theorem chunks_step {op : StoreOp} {s s' : AppState} {r : Res op.Value}
    (hs : StoreOp.Step op s r s') : s'.metaStore.chunks = s.metaStore.chunks ∨
      ∃ id size, op = .metadata (.registerChunk id size) ∧ r.isOk = true ∧
        s'.metaStore.chunks = s.metaStore.chunks.insert id ⟨id, size⟩ := by
  obtain ⟨env, _, heq⟩ := hs
  cases op with
  | blobs op =>
    cases heq
    exact .inl rfl
  | metadata op =>
    cases heq
    have hcall := exec_call env s.metaStore op
    simp only
    generalize (op.exec env s.metaStore).1 = r at hcall ⊢
    generalize (op.exec env s.metaStore).2 = g' at hcall ⊢
    cases hcall with
    | refused e => exact .inl rfl
    | dangling _ => exact .inl rfl
    | found _ => exact .inl rfl
    | wrote hw =>
      rcases writes_chunks hw with heq | ⟨id, size, rfl, heq⟩
      · exact .inl heq
      · exact .inr ⟨id, size, rfl, rfl, heq⟩

/-! ## Section 3: Registered chunks were uploaded -/

omit [Blake3] in
/-- `body` was successfully PUT under `id`. -/
def Uploaded (c : Server) (id : ChunkId) (body : Bytes) : Prop :=
  ∃ resp, c.Answered (.putChunk id.str body) (ok resp)

omit [Blake3] in
/-- Every registered chunk was uploaded. -/
def Recorded (c : Server) : Prop :=
  Table.AllRows (fun id _ => ∃ body, Uploaded c id body) c.store.metaStore.chunks

variable [UuidCrate]

/-- **One step keeps the record**: the thread that registers a chunk returns
    in the same step. The chunks of which `P` holds need no upload. -/
theorem recorded_step {P : ChunkId → Chunk → Prop} {c c' : Server}
    (htrack : c.OnTrack Api.handle)
    (h : Table.AllRows (fun id chunk => P id chunk ∨ ∃ body, Uploaded c id body)
      c.store.metaStore.chunks)
    (hs : Pool.Step Api.handle StoreOp.Step c c') :
    Table.AllRows (fun id chunk => P id chunk ∨ ∃ body, Uploaded c' id body)
      c'.store.metaStore.chunks := by
  have hold : Table.AllRows (fun id chunk => P id chunk ∨ ∃ body, Uploaded c' id body)
      c.store.metaStore.chunks :=
    h.mono fun id _ hrow => hrow.imp_right fun ⟨body, resp, hu⟩ => ⟨body, resp, hu.step hs⟩
  cases hs with
  | arrive req => exact hold
  | call i t op k r s' hi hp hstep =>
    rcases chunks_step hstep with heq | ⟨id, size, rfl, hr, heq⟩
    · show Table.AllRows _ s'.metaStore.chunks
      rw [heq]
      exact hold
    · show Table.AllRows _ s'.metaStore.chunks
      rw [heq]
      refine hold.insert (fun _ _ _ hk => hk) ?_
      have hresidual := htrack t (List.mem_of_getElem? hi)
      rw [hp] at hresidual
      -- what is left of the handler after the call returns the answer
      obtain ⟨⟨body, hreq⟩, rfl⟩ := register_residual hresidual
      cases r with
      | err e => cases hr
      | panic => cases hr
      | ok chunk =>
        refine .inr ⟨body, _, ⟨t.req, _, _⟩, List.mem_set ?_ _, hreq, rfl⟩
        exact (List.getElem?_eq_some_iff.mp hi).1

theorem Recorded.step {c c' : Server} (htrack : c.OnTrack Api.handle) (h : Recorded c)
    (hs : Pool.Step Api.handle StoreOp.Step c c') : Recorded c' := by
  have hrecord := recorded_step (P := fun _ _ => False) htrack (h.mono fun _ _ hu => .inr hu) hs
  exact hrecord.mono fun _ _ hu => hu.resolve_left id

/-- **Every registered chunk was uploaded**, in every run. -/
theorem recorded_reachable {c : Server} (h : c.Reachable) : Recorded c := by
  have hboth : c.OnTrack Api.handle ∧ Recorded c := by
    induction h with
    | refl => exact ⟨fun _ ht => absurd ht List.not_mem_nil, Table.allRows_empty _⟩
    | tail _ hs ih => exact ⟨ih.1.step hs, ih.2.step ih.1 hs⟩
  exact hboth.2

/-- The body of a successful upload is stored. -/
theorem Uploaded.stored {c : Server} (h : c.Reachable) {id : ChunkId} {body : Bytes}
    (hu : Uploaded c id body) : c.store.blobs.inner.lookup id = some body := by
  obtain ⟨resp, hu⟩ := hu
  obtain ⟨tr, hpost⟩ := (sound_reachable h).answered hu
  exact hpost.stored id.str body resp rfl rfl

/-- **The body of a registered chunk** is stored, is the one that was
    uploaded, and no other was. -/
theorem uploaded_iff {c : Server} (h : c.Reachable) {id : ChunkId} {chunk : Chunk} {obj : Bytes}
    (hchunk : c.store.metaStore.chunks.lookup id = some chunk)
    (hobj : c.store.blobs.inner.lookup id = some obj) (body : Bytes) :
    Uploaded c id body ↔ body = obj := by
  constructor
  · intro hu
    have hstored := hu.stored h
    rw [hobj] at hstored
    exact (Option.some.inj hstored).symm
  · rintro rfl
    obtain ⟨body', hu⟩ := recorded_reachable h id chunk hchunk
    have hstored := hu.stored h
    rw [hobj] at hstored
    cases hstored
    exact hu

end uploads

end Space
