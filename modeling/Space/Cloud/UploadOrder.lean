import Space.Cloud.Uploads

/-! # Uploads in any order

    Chunk uploads may arrive in any order and interleave between the two
    calls that each of them makes. When no two bodies share a hash, the
    bodies, the registrations and the answers come out the same.

    No pair of steps has to be swapped for that. The answer to an upload
    depends on the upload alone (`uploadAnswer`), an answered upload has left
    its body and its row (`ensures_upload`), and nothing else leaves a body
    or a row (`Provenance`). So two complete runs of the same uploads hold
    the same objects. -/

namespace Space

open Rust Outcome Data Effects

section uploads

variable [Blake3]

/-! ## Section 1: The answer to an upload -/

/-- What an upload is answered with, unless other bytes are stored under its
    id. -/
def Api.uploadAnswer (text : String) (body : Bytes) : Res Response := do
  let id ← ChunkId.parse text
  rejectIf (!id.verify body) FakeObjectStore.notAddressed
  return .chunk ⟨contractVersion, ⟨id, body.len⟩⟩

/-- The id of the upload is well-formed and addresses the body. -/
def Addresses (text : String) (body : Bytes) : Prop :=
  ChunkId.WellFormed ⟨text⟩ ∧ (⟨text⟩ : ChunkId).verify body = true

/-- The body of the upload is stored and registered. -/
structure Landed (text : String) (body : Bytes) (s : AppState) : Prop where
  stored : s.blobs.inner.lookup ⟨text⟩ = some body
  registered : s.metaStore.chunks.lookup ⟨text⟩ = some ⟨⟨text⟩, body.len⟩

/-- Other bytes are stored under the id of the upload. -/
def Collides (text : String) (body : Bytes) (s : AppState) : Prop :=
  Addresses text body ∧ ∃ obj, obj ≠ body ∧ s.blobs.inner.lookup ⟨text⟩ = some obj

/-- What is promised when an upload has been answered. -/
def UploadPost : Request → Res Response → List (Change AppState) → AppState → Prop
  | .putChunk text body, a, _, s => Collides text body s ∨
      (a = Api.uploadAnswer text body ∧ (Addresses text body → Landed text body s))
  | _, _, _, _ => True

theorem uploadAnswer_of_addresses {text : String} {body : Bytes} (h : Addresses text body) :
    Api.uploadAnswer text body = ok (.chunk ⟨contractVersion, ⟨⟨text⟩, body.len⟩⟩) := by
  unfold Api.uploadAnswer
  rw [ChunkId.parse_eq_ok.mpr ⟨rfl, h.1⟩, ok_bind, h.2]
  rfl

theorem addresses_of_uploadAnswer {text : String} {body : Bytes} {resp : Response}
    (h : Api.uploadAnswer text body = ok resp) : Addresses text body := by
  unfold Api.uploadAnswer at h
  obtain ⟨id, hid, hrest⟩ := bind_eq_ok.mp h
  obtain ⟨rfl, hwf⟩ := ChunkId.parse_eq_ok.mp hid
  obtain ⟨hv, _⟩ := seq_eq_ok.mp hrest
  exact ⟨hwf, by simpa using hv⟩

omit [Blake3] in
theorem Landed.mono {text : String} {body : Bytes} {s s' : AppState} (h : Landed text body s)
    (hext : s.Extends s') : Landed text body s' where
  stored := hext.blobs.lookup_eq h.stored
  registered := hext.metaStore.chunks.lookup_eq h.registered

/-- What a put of an upload finds or leaves in the store. -/
theorem put_upload {text : String} {body : Bytes} {s s' : AppState} {r : Res Unit}
    (hv : (⟨text⟩ : ChunkId).verify body = true)
    (hs : StoreOp.Step (.blobs (.put ⟨text⟩ body)) s r s') :
    (r = ok () ∧ s'.blobs.inner.lookup ⟨text⟩ = some body) ∨
      (r = err FakeObjectStore.storesDifferent ∧
        ∃ obj, obj ≠ body ∧ s'.blobs.inner.lookup ⟨text⟩ = some obj) := by
  obtain ⟨env, _, heq⟩ := hs
  have hblobs : (s.blobs.put ⟨text⟩ body).2 = s'.blobs :=
    congrArg (fun p => AppState.blobs p.2) heq
  have hreply : (s.blobs.put ⟨text⟩ body).1 = r := congrArg Prod.fst heq
  rw [← hblobs, ← hreply]
  unfold FakeObjectStore.put
  rw [hv]
  cases hl : s.blobs.inner.lookup ⟨text⟩ with
  | none => exact .inl ⟨rfl, Finmap.lookup_insert _⟩
  | some existing =>
    -- a second put is accepted only with the same bytes
    by_cases hsame : existing = body
    · subst hsame
      left
      simp [hl]
    · right
      refine ⟨?_, existing, hsame, ?_⟩
      · simp [hsame]
      · simp [hsame, hl]

/-- A registration that succeeds leaves the row that it returns. -/
theorem register_lands {s s' : AppState} {id : ChunkId} {size : UInt64} {chunk : Chunk}
    {r : Res (MetaOp.registerChunk id size).Value}
    (hs : StoreOp.Step (.metadata (.registerChunk id size)) s r s') (hr : r = ok chunk) :
    s'.metaStore.chunks.lookup id = some chunk := by
  obtain ⟨env, _, heq⟩ := hs
  have hmeta : ((MetaOp.registerChunk id size).exec env s.metaStore).2 = s'.metaStore :=
    congrArg (fun p => AppState.metaStore p.2) heq
  have hreply : ((MetaOp.registerChunk id size).exec env s.metaStore).1 = r :=
    congrArg Prod.fst heq
  have hcall := exec_call env s.metaStore (.registerChunk id size)
  rw [hmeta, hreply] at hcall
  generalize s'.metaStore = g' at hcall ⊢
  cases hcall with
  | refused e => cases hr
  | dangling _ => cases hr
  -- the chunk is registered already, and its row is returned
  | found hholds =>
    cases hr
    exact hholds.2.1
  | wrote hw =>
    cases hr
    cases hw with
    | chunk hwf hl => exact Finmap.lookup_insert _

/-- **One upload**, whatever interleaves with it. -/
theorem ensures_upload (text : String) (body : Bytes) (s : AppState) :
    Ensures serverDiscipline (Api.putChunk text body) (UploadPost (.putChunk text body)) [] s := by
  simp only [Api.putChunk, Api.callBlobs, Api.callMeta, Prog.perform, ↓Fallible.bind_eq,
    ↓Fallible.lift_eq, ↓Fallible.pure_eq, Prog.bind_ret, Prog.bind_call]
  cases hid : ChunkId.parse text with
  | panic => exact absurd hid (ChunkId.checks_parse text).ne_panic
  -- nothing is called: the upload is not addressed by its bytes
  | err e =>
    intro s₁ _ _
    right
    constructor
    · unfold Api.uploadAnswer
      rw [hid]
      rfl
    · intro haddr
      rw [ChunkId.parse_eq_ok.mpr ⟨rfl, haddr.1⟩] at hid
      cases hid
  | ok id =>
    obtain ⟨rfl, hwf⟩ := ChunkId.parse_eq_ok.mp hid
    intro s₁ _ hinv₁
    refine ⟨trivial, fun r s₂ hput => ?_⟩
    cases hv : (⟨text⟩ : ChunkId).verify body with
    | false =>
      -- the put is refused, and the handler returns
      have hr : r = err FakeObjectStore.notAddressed := by
        obtain ⟨env, _, heq⟩ := hput
        have hreply : (s₁.blobs.put ⟨text⟩ body).1 = r := congrArg Prod.fst heq
        rw [← hreply]
        unfold FakeObjectStore.put
        rw [hv]
        rfl
      subst hr
      intro s₃ _ _
      right
      constructor
      · unfold Api.uploadAnswer
        rw [hid, ok_bind, hv]
        rfl
      · intro haddr
        rw [haddr.2] at hv
        cases hv
    | true =>
      have haddr : Addresses text body := ⟨hwf, hv⟩
      rcases put_upload hv hput with ⟨rfl, hstored⟩ | ⟨rfl, obj, hne, hl⟩
      · -- the body is stored, and stays so until the registration
        intro s₃ hext₃ hinv₃
        have hstored₃ := hext₃.blobs.lookup_eq hstored
        have hpre : StoreOp.Pre (.metadata (.registerChunk ⟨text⟩ body.len)) s₃ :=
          ⟨body, hstored₃, rfl⟩
        refine ⟨hpre, fun r s₄ hreg => ?_⟩
        have hreply : r = ok ⟨⟨text⟩, body.len⟩ := by
          obtain ⟨env, _, heq⟩ := hreg
          rw [← registerChunk_stored hinv₃ hpre env, heq]
        subst hreply
        have hlanded : Landed text body s₄ :=
          ⟨(store_step hinv₃ hpre hreg).2.blobs.lookup_eq hstored₃, register_lands hreg rfl⟩
        intro s₅ hext₅ _
        exact .inr ⟨(uploadAnswer_of_addresses haddr).symm, fun _ => hlanded.mono hext₅⟩
      · -- other bytes under this id: the upload collides with them
        intro s₃ hext₃ _
        exact .inl ⟨haddr, obj, hne, hext₃.blobs.lookup_eq hl⟩

/-! ## Section 2: Where the bodies and the rows come from -/

variable [UuidCrate]

omit [Blake3] in
/-- **Only an upload stores a body.** -/
theorem put_residual {req : Request} {id : ChunkId} {bytes : Bytes}
    {k : Res Unit → Prog StoreI (Res Response)}
    (h : (Api.handle req).Residual (.call (.blobs (.put id bytes)) k)) :
    req = .putChunk id.str bytes := by
  cases hreq : Api.metaCall req with
  -- a request with one metadata call never puts
  | some x =>
    rw [Api.handle_of_metaCall hreq] at h
    cases x with
    | err e => cases Prog.residual_ret.mp h
    | panic => cases Prog.residual_ret.mp h
    | ok call =>
      rcases Prog.residual_call.mp h with heq | ⟨r, h⟩
      · cases heq
      · obtain ⟨_, hret⟩ := residual_onOk_ret h
        cases hret
  | none =>
    cases req with
    | getChunk text range => exact ((getChunk_only text range).residual h).1.elim
    | putChunk text body =>
      simp only [Api.handle, Api.putChunk, Api.callBlobs, Api.callMeta, Prog.perform,
        ↓Fallible.bind_eq, ↓Fallible.lift_eq, ↓Fallible.pure_eq, Prog.bind_ret,
        Prog.bind_call] at h
      cases hid : ChunkId.parse text with
      | err e =>
        rw [hid] at h
        cases Prog.residual_ret.mp h
      | panic =>
        rw [hid] at h
        cases Prog.residual_ret.mp h
      | ok id' =>
        -- the put is the first call of the handler, and the other one registers
        obtain ⟨rfl, _⟩ := ChunkId.parse_eq_ok.mp hid
        rw [hid] at h
        rcases Prog.residual_call.mp h with heq | ⟨r, h⟩
        · cases heq
          rfl
        · cases r with
          | err e => cases Prog.residual_ret.mp h
          | panic => cases Prog.residual_ret.mp h
          | ok _ =>
            rcases Prog.residual_call.mp h with heq | ⟨r, h⟩
            · cases heq
            · obtain ⟨_, hret⟩ := residual_onOk_ret h
              cases hret
    | _ => cases hreq

omit [UuidCrate] in
/-- The bodies after a call: only a put adds one. -/
theorem bodies_step {op : StoreOp} {s s' : AppState} {r : Res op.Value}
    (hs : StoreOp.Step op s r s') : s'.blobs.inner = s.blobs.inner ∨
      ∃ id bytes, op = .blobs (.put id bytes) ∧
        s'.blobs.inner = s.blobs.inner.insert id bytes := by
  obtain ⟨env, _, heq⟩ := hs
  cases op with
  | metadata op =>
    cases heq
    exact .inl rfl
  | blobs op =>
    cases heq
    cases op with
    | put id bytes =>
      simp only [BlobOp.exec]
      rcases FakeObjectStore.put_cases s.blobs id bytes with ⟨_, _, hp⟩ | ⟨_, _, hp⟩ | ⟨e, _, hp⟩
      · rw [hp]
        exact .inr ⟨id, bytes, rfl, rfl⟩
      · rw [hp]
        exact .inl rfl
      · rw [hp]
        exact .inl rfl
    | _ => exact .inl rfl

/-- Every body and every row was there at the start or came with an upload. -/
structure Provenance (s : AppState) (c : Server) : Prop where
  track : c.OnTrack Api.handle
  bodies : Table.AllRows (fun id obj => s.blobs.inner.lookup id = some obj ∨
    ∃ t ∈ c.threads, t.req = .putChunk id.str obj) c.store.blobs.inner
  rows : Table.AllRows (fun id chunk => s.metaStore.chunks.lookup id = some chunk ∨
    ∃ body, Uploaded c id body) c.store.metaStore.chunks

omit [Blake3] in
theorem Provenance.start (s : AppState) : Provenance s ⟨s, []⟩ where
  track := fun _ ht => absurd ht List.not_mem_nil
  bodies := fun _ _ hl => .inl hl
  rows := fun _ _ hl => .inl hl

/-- **One step**: the thread that stores a body is handling its upload. -/
theorem Provenance.step {s : AppState} {c c' : Server} (h : Provenance s c)
    (hs : Pool.Step Api.handle StoreOp.Step c c') : Provenance s c' where
  track := h.track.step hs
  rows := recorded_step h.track h.rows hs
  bodies := by
    have hold : Table.AllRows (fun id obj => s.blobs.inner.lookup id = some obj ∨
        ∃ t ∈ c'.threads, t.req = .putChunk id.str obj) c.store.blobs.inner :=
      h.bodies.mono fun id obj hrow => hrow.imp_right hs.request
    have htrack' := h.track.step hs
    cases hs with
    | arrive req => exact hold
    | call i t op k r s' hi hp hstep =>
      show Table.AllRows _ s'.blobs.inner
      rcases bodies_step hstep with heq | ⟨id, bytes, rfl, heq⟩
      · rw [heq]
        exact hold
      · rw [heq]
        apply hold.insert (fun _ _ _ hk => hk)
        -- the thread that made the call says what it was asked
        have hresidual := h.track t (List.mem_of_getElem? hi)
        rw [hp] at hresidual
        have hreq := put_residual hresidual
        exact .inr ⟨_, List.mem_set (List.getElem?_eq_some_iff.mp hi).1 _, hreq⟩

theorem Provenance.steps {s : AppState} {c : Server} (h : Server.Steps ⟨s, []⟩ c) :
    Provenance s c := by
  induction h with
  | refl => exact .start s
  | tail _ hs ih => exact ih.step hs

/-! ## Section 3: Complete runs -/

/-- A run from the stores `s` that receives these uploads, in any order, and
    nothing else, and has answered all of them. -/
structure CompleteRun (s : AppState) (uploads : List (String × Bytes)) (c : Server) : Prop where
  steps : Server.Steps ⟨s, []⟩ c
  requests : (c.threads.map Thread.req).Perm (uploads.map fun u => .putChunk u.1 u.2)
  finished : ∀ t ∈ c.threads, ∃ a, t.prog = .ret a

/-- The bodies that the uploads meet. -/
def Involved (s : AppState) (uploads : List (String × Bytes)) : Set Bytes :=
  {b | (∃ u ∈ uploads, u.2 = b) ∨ ∃ id, s.blobs.inner.lookup id = some b}

/-- Uploads served one after the other are a complete run. -/
theorem completeRun_serveAll (s : AppState) (calls : List (Env × String × Bytes)) :
    CompleteRun s (calls.map Prod.snd)
      (Server.serveAll ⟨s, []⟩ (calls.map fun p => (p.1, .putChunk p.2.1 p.2.2))) where
  steps := by
    apply steps_serveAll
    generalize (⟨s, []⟩ : Server) = c
    induction calls generalizing c with
    | nil => exact trivial
    | cons p rest ih => exact ⟨trivial, ih _⟩
  requests := by
    have hreqs : ∀ c : Server,
        ((c.serveAll (calls.map fun p => (p.1, .putChunk p.2.1 p.2.2))).threads.map Thread.req) =
          c.threads.map Thread.req ++ calls.map fun p => .putChunk p.2.1 p.2.2 := by
      induction calls with
      | nil => simp [Server.serveAll]
      | cons p rest ih =>
        intro c
        rw [List.map_cons, Server.serveAll, ih]
        simp [Pool.serve]
    rw [hreqs]
    simp [List.map_map, Function.comp_def]
  finished := by
    -- the threads of the requests before have returned, and so has the new one
    have hret : ∀ c : Server, (∀ t ∈ c.threads, ∃ a, t.prog = .ret a) →
        ∀ t ∈ (c.serveAll (calls.map fun p => (p.1, .putChunk p.2.1 p.2.2))).threads,
          ∃ a, t.prog = .ret a := by
      induction calls with
      | nil => exact fun _ h => h
      | cons p rest ih =>
        intro c h
        apply ih
        intro t ht
        rcases List.mem_append.mp ht with ht | ht
        · exact h t ht
        · rw [List.mem_singleton.mp ht]
          exact ⟨_, rfl⟩
    exact hret _ fun t ht => by cases ht

theorem CompleteRun.perm {s : AppState} {uploads uploads' : List (String × Bytes)} {c : Server}
    (h : CompleteRun s uploads c) (hperm : uploads.Perm uploads') : CompleteRun s uploads' c where
  steps := h.steps
  requests := h.requests.trans (hperm.map _)
  finished := h.finished

section complete

variable {s : AppState} {uploads : List (String × Bytes)} {c : Server}

/-- The threads of the run, verified with `UploadPost`. -/
theorem CompleteRun.sound (h : CompleteRun s uploads c) (hinv : AppInv s) :
    Pool.Sound serverDiscipline UploadPost c ∧ s.Extends c.store := by
  have hstart : Pool.Sound serverDiscipline UploadPost (⟨s, []⟩ : Server) :=
    ⟨hinv, fun t ht => by cases ht⟩
  apply hstart.steps (fun req s' _ => ?_) h.steps
  -- the rule asks about every request, though only uploads arrive
  by_cases hreq : ∃ text body, req = .putChunk text body
  · obtain ⟨text, body, rfl⟩ := hreq
    exact ensures_upload text body s'
  · apply (ensures_handle req s').conseq
    intro a tr s'' _
    cases req with
    | putChunk text body => exact absurd ⟨text, body, rfl⟩ hreq
    | _ => exact fun _ => trivial

theorem CompleteRun.mem_uploads (h : CompleteRun s uploads c)
    {text : String} {body : Bytes}
    (ht : ∃ t ∈ c.threads, t.req = .putChunk text body) : (text, body) ∈ uploads := by
  obtain ⟨t, ht, hreq⟩ := ht
  have hmem := h.requests.subset (List.mem_map_of_mem ht)
  rw [hreq] at hmem
  obtain ⟨u, hu, heq⟩ := List.mem_map.mp hmem
  cases heq
  exact hu

/-- Every upload has been answered. -/
theorem CompleteRun.answered (h : CompleteRun s uploads c) {u : String × Bytes}
    (hu : u ∈ uploads) : ∃ a, c.Answered (.putChunk u.1 u.2) a := by
  have hmem : Request.putChunk u.1 u.2 ∈ c.threads.map Thread.req :=
    h.requests.symm.subset (List.mem_map_of_mem hu)
  obtain ⟨t, ht, hreq⟩ := List.mem_map.mp hmem
  obtain ⟨a, ha⟩ := h.finished t ht
  exact ⟨a, t, ht, hreq, ha⟩

/-- **No upload of the run collides**: the bytes stored under its id are
    among the bodies involved. -/
theorem CompleteRun.not_collides (h : CompleteRun s uploads c) (hinv : AppInv s)
    (hfree : Blake3.CollisionFree (Involved s uploads)) {u : String × Bytes} (hu : u ∈ uploads) :
    ¬ Collides u.1 u.2 c.store := by
  intro ⟨haddr, obj, hne, hl⟩
  have hobj : obj ∈ Involved s uploads := by
    rcases (Provenance.steps h.steps).bodies _ obj hl with hold | hthread
    · exact .inr ⟨_, hold⟩
    · exact .inl ⟨_, h.mem_uploads hthread, rfl⟩
  -- both bodies hash to the id
  have hverify := (h.sound hinv).1.inv.verified _ obj hl
  exact hne (hfree.eq hobj (.inl ⟨u, hu, rfl⟩) hverify haddr.2)

/-- **What an answered upload means**: its answer, and what it has left. -/
theorem CompleteRun.settled (h : CompleteRun s uploads c) (hinv : AppInv s)
    (hfree : Blake3.CollisionFree (Involved s uploads)) {u : String × Bytes} (hu : u ∈ uploads)
    {a : Res Response} (ha : c.Answered (.putChunk u.1 u.2) a) :
    a = Api.uploadAnswer u.1 u.2 ∧ (Addresses u.1 u.2 → Landed u.1 u.2 c.store) := by
  obtain ⟨tr, hpost⟩ := (h.sound hinv).1.answered ha
  exact hpost.resolve_left (h.not_collides hinv hfree hu)

theorem CompleteRun.answered_iff (h : CompleteRun s uploads c) (hinv : AppInv s)
    (hfree : Blake3.CollisionFree (Involved s uploads)) {u : String × Bytes} (hu : u ∈ uploads)
    (a : Res Response) : c.Answered (.putChunk u.1 u.2) a ↔ a = Api.uploadAnswer u.1 u.2 := by
  constructor
  · intro ha
    exact (h.settled hinv hfree hu ha).1
  · rintro rfl
    obtain ⟨a, ha⟩ := h.answered hu
    rw [← (h.settled hinv hfree hu ha).1]
    exact ha

theorem CompleteRun.landed (h : CompleteRun s uploads c) (hinv : AppInv s)
    (hfree : Blake3.CollisionFree (Involved s uploads)) {u : String × Bytes} (hu : u ∈ uploads)
    (haddr : Addresses u.1 u.2) : Landed u.1 u.2 c.store := by
  obtain ⟨a, ha⟩ := h.answered hu
  exact (h.settled hinv hfree hu ha).2 haddr

/-- What one complete run stores, every other one stores too. -/
theorem CompleteRun.bodies_grow {c' : Server} (h : CompleteRun s uploads c)
    (h' : CompleteRun s uploads c') (hinv : AppInv s)
    (hfree : Blake3.CollisionFree (Involved s uploads)) :
    Table.Grows Eq c.store.blobs.inner c'.store.blobs.inner := by
  intro id obj hl
  refine ⟨obj, ?_, rfl⟩
  rcases (Provenance.steps h.steps).bodies id obj hl with hold | hthread
  · exact (h'.sound hinv).2.blobs.lookup_eq hold
  · -- some upload of the run stored it, and in the other run that upload landed too
    have hverify := (h.sound hinv).1.inv.verified id obj hl
    have hwf : id.WellFormed := by
      rw [ChunkId.verify_iff.mp hverify]
      exact ChunkId.wellFormed_fromBytes obj
    exact (h'.landed hinv hfree (h.mem_uploads hthread) ⟨hwf, hverify⟩).stored

/-- What one complete run registers, every other one registers too. -/
theorem CompleteRun.rows_grow {c' : Server} (h : CompleteRun s uploads c)
    (h' : CompleteRun s uploads c') (hinv : AppInv s)
    (hfree : Blake3.CollisionFree (Involved s uploads)) :
    Table.Grows Eq c.store.metaStore.chunks c'.store.metaStore.chunks := by
  intro id chunk hl
  refine ⟨chunk, ?_, rfl⟩
  rcases (Provenance.steps h.steps).rows id chunk hl with hold | ⟨body, resp, ha⟩
  · exact (h'.sound hinv).2.metaStore.chunks.lookup_eq hold
  · have hthread : ∃ t ∈ c.threads, t.req = .putChunk id.str body := by
      obtain ⟨t, ht, hreq, _⟩ := ha
      exact ⟨t, ht, hreq⟩
    have hu := h.mem_uploads hthread
    have hanswer := (h.settled hinv hfree hu ha).1
    -- the upload was answered with success, so it is addressed by its bytes
    have haddr := addresses_of_uploadAnswer hanswer.symm
    have hrow := (h.landed hinv hfree hu haddr).registered
    have hrow' := (h'.landed hinv hfree hu haddr).registered
    rw [hl] at hrow
    rw [hrow]
    exact hrow'

end complete

end uploads

namespace Sample

/-- The bytes `abc` and the empty body, uploaded under one id. -/
def uploads : List (String × Bytes) := [(chunk.str, abc), (chunk.str, Bytes.empty)]

noncomputable def uploadCalls : List (Env × String × Bytes) :=
  uploads.map fun u => (Env.sample 1 10, u)

theorem uploads_free :
    letI := blake3
    Blake3.CollisionFree (Involved AppState.default uploads) := by
  let := blake3
  have hmem : ∀ b ∈ Involved AppState.default uploads, b = abc ∨ b = Bytes.empty := by
    intro b hb
    rcases hb with ⟨u, hu, rfl⟩ | ⟨id, hl⟩
    · simp only [uploads, List.mem_cons, List.not_mem_nil, or_false] at hu
      rcases hu with rfl | rfl
      · exact .inl rfl
      · exact .inr rfl
    · cases (Finmap.lookup_empty id).symm.trans hl
  have hdiff : Blake3.hash abc.data ≠ Blake3.hash Bytes.empty.data := by decide
  intro a ha b hb hash
  rcases hmem a ha with rfl | rfl
  · rcases hmem b hb with rfl | rfl
    · rfl
    · exact absurd hash hdiff
  · rcases hmem b hb with rfl | rfl
    · exact absurd hash.symm hdiff
    · rfl

end Sample

/-- **Uploads commute.** From a state that the server reaches, two complete
    runs of the same uploads, whatever their order and interleaving, end with
    the same bodies and the same registrations, and answer each upload the
    same. -/
theorem uploads_commute [UuidCrate] [Blake3] {c : Server} (h : c.Reachable)
    {uploads : List (String × Bytes)}
    (hfree : Blake3.CollisionFree (Involved c.store uploads)) {c₁ c₂ : Server}
    (h₁ : CompleteRun c.store uploads c₁) (h₂ : CompleteRun c.store uploads c₂) :
    c₁.store.blobs = c₂.store.blobs ∧
      c₁.store.metaStore.chunks = c₂.store.metaStore.chunks ∧
      ∀ u ∈ uploads, ∃ a, (∀ a', c₁.Answered (.putChunk u.1 u.2) a' ↔ a' = a) ∧
        ∀ a', c₂.Answered (.putChunk u.1 u.2) a' ↔ a' = a := by
  have hinv := (sound_reachable h).inv
  -- each run has what the other one has
  have hbodies : c₁.store.blobs.inner = c₂.store.blobs.inner :=
    (h₁.bodies_grow h₂ hinv hfree).antisymm (h₂.bodies_grow h₁ hinv hfree)
  refine ⟨congrArg FakeObjectStore.mk hbodies, ?_, fun u hu => ?_⟩
  · exact (h₁.rows_grow h₂ hinv hfree).antisymm (h₂.rows_grow h₁ hinv hfree)
  · exact ⟨Api.uploadAnswer u.1 u.2, h₁.answered_iff hinv hfree hu, h₂.answered_iff hinv hfree hu⟩

/-- Two uploads that contend for one id, in both orders. -/
theorem uploads_commute_sample :
    letI := Sample.blake3
    letI := Sample.uuidCrate
    ∃ c₁ c₂ : Server, CompleteRun AppState.default Sample.uploads c₁ ∧
      CompleteRun AppState.default Sample.uploads c₂ ∧
      c₁.store.blobs = c₂.store.blobs ∧
      c₁.store.metaStore.chunks = c₂.store.metaStore.chunks ∧
      ∀ u ∈ Sample.uploads, ∃ a, (∀ a', c₁.Answered (.putChunk u.1 u.2) a' ↔ a' = a) ∧
        ∀ a', c₂.Answered (.putChunk u.1 u.2) a' ↔ a' = a := by
  let := Sample.blake3
  let := Sample.uuidCrate
  have hcalls : Sample.uploadCalls.map Prod.snd = Sample.uploads := by
    simp [Sample.uploadCalls, Function.comp_def]
  have hperm : (Sample.uploadCalls.reverse.map Prod.snd).Perm Sample.uploads := by
    rw [← hcalls]
    exact (List.reverse_perm _).map _
  have h₁ := (completeRun_serveAll AppState.default Sample.uploadCalls).perm (.of_eq hcalls)
  have h₂ := (completeRun_serveAll AppState.default Sample.uploadCalls.reverse).perm hperm
  exact ⟨_, _, h₁, h₂, uploads_commute (c := Server.init) .refl Sample.uploads_free h₁ h₂⟩

end Space
