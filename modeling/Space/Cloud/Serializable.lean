import Space.Cloud.UploadOrder
import Space.Effects.Serial

/-! # Serializability

    When all requests have been answered, some serial run of the same
    requests gives the same answers and leaves the same stores.

    A handler that calls the metadata store once is placed at that call. An
    upload makes two calls. It is placed at the second, where its row
    appears; until then the serial run has not seen its body, and `Lags`
    says that this is the only difference. A read that found the body may
    have been answered before the row appeared, so it cannot be placed where
    it was performed: it goes to the end, where every body is stored. The
    order is therefore not the order in which the answers were sent. -/

namespace Space

open Rust Outcome Data Effects

/-! ## Section 1: The first call of a handler -/

/-- What `get_chunk` does once it knows the size of the object. -/
def Api.fetch (id : ChunkId) (range : Option HeaderValue) (size : UInt64) :
    Prog StoreI (Res Response) :=
  match range with
  | none => .call (.blobs (.get id)) (Fallible.onOk fun bytes => .ret (ok (.body bytes)))
  | some range => Api.getChunkRange id size range

/-- What `put_chunk` does once its body is stored. -/
def Api.register (id : ChunkId) (body : Bytes) : Prog StoreI (Res Response) :=
  .call (.metadata (.registerChunk id body.len)) Api.registered

theorem Api.handle_putChunk [UuidCrate] (text : String) (body : Bytes) :
    Api.handle (.putChunk text body) = Fallible.onOk (fun id =>
      .call (StoreOp.blobs (.put id body)) (Fallible.onOk fun _ => Api.register id body))
        (ChunkId.parse text) := by
  simp only [Api.handle, Api.putChunk, Api.callBlobs, Api.callMeta, Prog.perform,
    ↓Fallible.bind_eq, ↓Fallible.lift_eq, ↓Fallible.pure_eq, Prog.bind_ret, Prog.bind_call]
  rfl

theorem Api.handle_getChunk [UuidCrate] (text : String) (range : Option HeaderValue) :
    Api.handle (.getChunk text range) = Fallible.onOk (fun id =>
      .call (StoreOp.blobs (.head id)) (Fallible.onOk (Api.fetch id range)))
        (ChunkId.parse text) := by
  simp only [Api.handle, Api.getChunk, Api.callBlobs, Prog.perform, ↓Fallible.bind_eq,
    ↓Fallible.lift_eq, Prog.bind_ret, Prog.bind_call]
  cases range <;> rfl

section serializable

variable [Blake3]

/-! ## Section 2: Calls that can be made again -/

omit [Blake3] in
/-- What is left of `p` is about to register `id`. -/
def Registers (p : Prog StoreI (Res Response)) (id : ChunkId) : Prop :=
  ∃ size k, p = .call (.metadata (.registerChunk id size)) k

/-- A call of the metadata store is answered from the metadata alone. -/
theorem metadata_elsewhere {op : MetaOp} {s s' u : AppState} {r : Res op.Value}
    (hs : StoreOp.Step (.metadata op) s r s') (hu : u.metaStore = s.metaStore) :
    s'.blobs = s.blobs ∧ StoreOp.Step (.metadata op) u r { u with metaStore := s'.metaStore } := by
  obtain ⟨env, hfresh, heq⟩ := hs
  cases heq
  refine ⟨rfl, env, ?_, ?_⟩
  · show op.Fresh env u.metaStore
    rw [hu]
    exact hfresh
  · show ((op.exec env u.metaStore).1, _) = _
    rw [hu]

/-- A read of a stored object can be made again for as long as the object is
    stored. -/
theorem StoreOp.ReadsChunk.again {op : StoreOp} {id : ChunkId} {obj : Bytes} {s s' u : AppState}
    {r : Res op.Value} (h : op.ReadsChunk id) (hs : StoreOp.Step op s r s')
    (hobj : s.blobs.inner.lookup id = some obj) (hu : u.blobs.inner.lookup id = some obj) :
    StoreOp.Step op u r u := by
  obtain ⟨env, _, heq⟩ := hs
  refine ⟨env, h.fresh env u, Prod.ext ?_ (h.exec_state env u)⟩
  rw [h.exec_eq hobj hu env env, heq]

theorem put_step {id : ChunkId} {bytes : Bytes} {u : AppState} {r : Res Unit} {b : FakeObjectStore}
    (env : Env) (h : u.blobs.put id bytes = (r, b)) :
    StoreOp.Step (.blobs (.put id bytes)) u r ⟨u.metaStore, b⟩ := by
  refine ⟨env, trivial, ?_⟩
  show ((u.blobs.put id bytes).1, AppState.mk u.metaStore (u.blobs.put id bytes).2) = _
  rw [h]

/-- A put that was refused is refused again, for as long as nothing is
    removed. -/
theorem put_refused_again {id : ChunkId} {bytes : Bytes} {s s' u : AppState} {e : SpaceError}
    (hs : StoreOp.Step (.blobs (.put id bytes)) s (err e) s') (hu : s.Extends u) :
    StoreOp.Step (.blobs (.put id bytes)) u (err e) u := by
  obtain ⟨env, _, heq⟩ := hs
  have hreply : (s.blobs.put id bytes).1 = err e := congrArg Prod.fst heq
  apply put_step env
  unfold FakeObjectStore.put at hreply ⊢
  by_cases hv : id.verify bytes = true
  · rw [hv, Bool.not_true, if_neg Bool.false_ne_true] at hreply ⊢
    cases hl : s.blobs.inner.lookup id with
    | none =>
      rw [hl] at hreply
      cases hreply
    | some existing =>
      -- the other bytes are still there
      rw [hl] at hreply
      rw [hu.blobs.lookup_eq hl]
      by_cases hsame : existing = bytes
      · simp [hsame] at hreply
      · simp only [if_neg hsame] at hreply ⊢
        cases hreply
        rfl
  · rw [Bool.not_eq_true] at hv
    rw [hv] at hreply ⊢
    cases hreply
    rfl

/-- A put that was accepted has left the body, and nothing else. -/
theorem put_stored {id : ChunkId} {bytes : Bytes} {s s' : AppState}
    (hs : StoreOp.Step (.blobs (.put id bytes)) s (ok ()) s') :
    s'.metaStore = s.metaStore ∧ s'.blobs.inner.lookup id = some bytes ∧
      ∀ key, key ≠ id → s'.blobs.inner.lookup key = s.blobs.inner.lookup key := by
  obtain ⟨env, _, heq⟩ := hs
  have hstate : s' = ⟨s.metaStore, (s.blobs.put id bytes).2⟩ := (congrArg Prod.snd heq).symm
  have hreply : (s.blobs.put id bytes).1 = ok () := congrArg Prod.fst heq
  subst hstate
  rcases FakeObjectStore.put_cases s.blobs id bytes with ⟨_, _, hp⟩ | ⟨_, hl, hp⟩ | ⟨e, _, hp⟩
  · rw [hp]
    exact ⟨rfl, Finmap.lookup_insert _, fun key hkey => Finmap.lookup_insert_of_ne _ hkey⟩
  · rw [hp]
    exact ⟨rfl, hl, fun _ _ => rfl⟩
  · rw [hp] at hreply
    cases hreply

/-- A put of a body whose address it is, on a store that holds nothing else
    there. -/
theorem put_accepted {id : ChunkId} {bytes : Bytes} (hv : id.verify bytes = true) (env : Env)
    {u : AppState} (hu : ∀ obj, u.blobs.inner.lookup id = some obj → obj = bytes) :
    ∃ b, StoreOp.Step (.blobs (.put id bytes)) u (ok ()) ⟨u.metaStore, b⟩ ∧
      b.inner.lookup id = some bytes ∧
      ∀ key, key ≠ id → b.inner.lookup key = u.blobs.inner.lookup key := by
  rcases FakeObjectStore.put_cases u.blobs id bytes with ⟨_, _, hp⟩ | ⟨_, hl, hp⟩ | ⟨e, _, hp⟩
  · refine ⟨_, put_step env hp, Finmap.lookup_insert _, fun key hkey => ?_⟩
    exact Finmap.lookup_insert_of_ne _ hkey
  · exact ⟨u.blobs, put_step env hp, hl, fun _ _ => rfl⟩
  · -- the only refusal left is for other bytes
    exfalso
    unfold FakeObjectStore.put at hp
    rw [hv, Bool.not_true, if_neg Bool.false_ne_true] at hp
    cases hl : u.blobs.inner.lookup id with
    | none =>
      rw [hl] at hp
      cases hp
    | some existing =>
      rw [hl] at hp
      simp [hu existing hl] at hp

/-! ## Section 3: Where a thread can be -/

variable [UuidCrate]

/-- The request can be handled alone in any later state, with this answer and
    no effect. -/
def Late (s : AppState) (req : Request) (a : Res Response) : Prop :=
  ∀ u, s.Extends u → AppInv u → Solo StoreOp.Step (Api.handle req) u a u

/-- A thread that has not returned: before its only call, before the first of
    two, or between two. -/
inductive Phase (s : AppState) : Request → Prog StoreI (Res Response) → Prop where
  | metadata {req : Request} {call : Api.MetaCall} : Api.metaCall req = some (ok call) →
      Phase s req (.call (.metadata call.op) (Fallible.onOk fun a => .ret (ok (call.respond a))))
  | put {text : String} {body : Bytes} : ChunkId.WellFormed ⟨text⟩ →
      Phase s (.putChunk text body)
        (.call (.blobs (.put ⟨text⟩ body)) (Fallible.onOk fun _ => Api.register ⟨text⟩ body))
  | head {text : String} {range : Option HeaderValue} : ChunkId.WellFormed ⟨text⟩ →
      Phase s (.getChunk text range)
        (.call (.blobs (.head ⟨text⟩)) (Fallible.onOk (Api.fetch ⟨text⟩ range)))
  | reading {text : String} {range : Option HeaderValue} {p : Prog StoreI (Res Response)}
      {obj : Bytes} : s.blobs.inner.lookup ⟨text⟩ = some obj →
      p.Only (StoreOp.ReadsChunk ⟨text⟩) →
      CatchesUp serverDiscipline (Api.handle (.getChunk text range)) p s →
      Phase s (.getChunk text range) p
  | registering {text : String} {body : Bytes} : Addresses text body →
      s.blobs.inner.lookup ⟨text⟩ = some body →
      Phase s (.putChunk text body) (Api.register ⟨text⟩ body)

/-- A request that arrives is refused at once, or its handler waits for its
    first call. -/
theorem handle_phase (req : Request) (s : AppState) :
    (∃ a, Api.handle req = .ret a) ∨ Phase s req (Api.handle req) := by
  cases hreq : Api.metaCall req with
  | some x =>
    rw [Api.handle_of_metaCall hreq]
    cases x with
    | ok call => exact .inr (.metadata hreq)
    | err e => exact .inl ⟨_, rfl⟩
    | panic => exact .inl ⟨_, rfl⟩
  | none =>
    cases req with
    | putChunk text body =>
      rw [Api.handle_putChunk]
      cases hid : ChunkId.parse text with
      | ok id =>
        obtain ⟨rfl, hwf⟩ := ChunkId.parse_eq_ok.mp hid
        exact .inr (.put hwf)
      | err e => exact .inl ⟨_, rfl⟩
      | panic => exact .inl ⟨_, rfl⟩
    | getChunk text range =>
      rw [Api.handle_getChunk]
      cases hid : ChunkId.parse text with
      | ok id =>
        obtain ⟨rfl, hwf⟩ := ChunkId.parse_eq_ok.mp hid
        exact .inr (.head hwf)
      | err e => exact .inl ⟨_, rfl⟩
      | panic => exact .inl ⟨_, rfl⟩
    | _ => cases hreq

omit [Blake3] [UuidCrate] in
theorem registers_call {op : StoreOp} {k : Res op.Value → Prog StoreI (Res Response)}
    {id : ChunkId} :
    Registers (.call op k) id ↔ ∃ size, op = .metadata (.registerChunk id size) := by
  constructor
  · rintro ⟨size, k', heq⟩
    cases heq
    exact ⟨size, rfl⟩
  · rintro ⟨size, rfl⟩
    exact ⟨size, k, rfl⟩

/-- A thread stays where it is when the others act. -/
theorem Phase.mono {s s' : AppState} {req : Request} {p : Prog StoreI (Res Response)}
    (h : Phase s req p) (hext : s.Extends s') : Phase s' req p := by
  cases h with
  | metadata hreq => exact .metadata hreq
  | put hwf => exact .put hwf
  | head hwf => exact .head hwf
  | reading hobj honly hcatch =>
    exact .reading (hext.blobs.lookup_eq hobj) honly (hcatch.weaken hext)
  | registering haddr hobj => exact .registering haddr (hext.blobs.lookup_eq hobj)

theorem Late.mono {s s' : AppState} {req : Request} {a : Res Response} (h : Late s req a)
    (hext : s.Extends s') : Late s' req a :=
  fun u hu hinv => h u (hext.trans hu) hinv

/-! ## Section 4: One step -/

/-- The serial run has reached `u` and the server `s`: only bodies whose
    registration is still owed are missing from `u`. -/
structure Lags (owed : ChunkId → Prop) (u s : AppState) : Prop where
  metaStore : u.metaStore = s.metaStore
  blobs : Table.Grows Eq u.blobs.inner s.blobs.inner
  owed : Table.AllRows (fun id obj => u.blobs.inner.lookup id = some obj ∨ owed id) s.blobs.inner

omit [Blake3] [UuidCrate] in
theorem Lags.mono {owed owed' : ChunkId → Prop} {u s : AppState} (h : Lags owed u s)
    (hle : ∀ id, owed id → owed' id) : Lags owed' u s where
  metaStore := h.metaStore
  blobs := h.blobs
  owed := h.owed.mono fun id _ hrow => hrow.imp_right (hle id)

/-- What is owed after a thread has gone on from `p` to `q`. -/
def OwedAfter (owed : ChunkId → Prop) (p q : Prog StoreI (Res Response)) (id : ChunkId) : Prop :=
  (owed id ∧ ¬ Registers p id) ∨ Registers q id

/-- What a step of a thread means for the serial run: the thread goes on, or
    it has returned and its request can be served later, or its request is
    served now. -/
inductive Served (u : AppState) (s' : AppState) (req : Request) :
    Prog StoreI (Res Response) → AppState → Prop where
  | goesOn {op : StoreOp} {k : Res op.Value → Prog StoreI (Res Response)} :
      Phase s' req (.call op k) → Served u s' req (.call op k) u
  | later {a : Res Response} : Late s' req a → Served u s' req (.ret a) u
  | now {a : Res Response} {u' : AppState} : Solo StoreOp.Step (Api.handle req) u a u' →
      Served u s' req (.ret a) u'

section step

variable {s s' u : AppState} {req : Request} {owed : ChunkId → Prop}

omit [Blake3] [UuidCrate] in
/-- A call that registers nothing and stores nothing new. -/
theorem Lags.after {op : StoreOp} {k : Res op.Value → Prog StoreI (Res Response)}
    {q : Prog StoreI (Res Response)} (h : Lags owed u s)
    (hop : ∀ id size, op ≠ .metadata (.registerChunk id size)) :
    Lags (OwedAfter owed (.call op k) q) u s := by
  apply h.mono
  intro id hid
  refine .inl ⟨hid, fun hreg => ?_⟩
  obtain ⟨size, heq⟩ := registers_call.mp hreg
  exact hop id size heq

/-- The only call of a request that calls the metadata store. -/
theorem step_metadata {call : Api.MetaCall} (hreq : Api.metaCall req = some (ok call))
    {r : Res call.op.Value} (hlag : Lags owed u s)
    (hs : StoreOp.Step (.metadata call.op) s r s') :
    ∃ u', Lags owed u' s' ∧
      Served u s' req (Fallible.onOk (fun a => .ret (ok (call.respond a))) r) u' := by
  obtain ⟨hblobs, hstep⟩ := metadata_elsewhere hs hlag.metaStore
  refine ⟨{ u with metaStore := s'.metaStore }, ⟨rfl, ?_, ?_⟩, ?_⟩
  · rw [hblobs]
    exact hlag.blobs
  · rw [hblobs]
    exact hlag.owed
  · -- the handler has returned, and could have run as a whole in this step
    have hsolo : ∀ a : Res Response,
        (Fallible.onOk (fun a => .ret (ok (call.respond a))) r : Prog StoreI _) = .ret a →
        Solo StoreOp.Step (Api.handle req) u a { u with metaStore := s'.metaStore } := by
      intro a ha
      rw [Api.handle_of_metaCall hreq]
      apply Solo.call hstep
      rw [ha]
      exact .ret a _
    cases r with
    | ok a => exact .now (hsolo _ rfl)
    | err e => exact .now (hsolo _ rfl)
    | panic => exact .now (hsolo _ rfl)

/-- The first call of an upload. -/
theorem step_put {text : String} {body : Bytes} (hwf : ChunkId.WellFormed ⟨text⟩)
    {r : Res Unit} (hlag : Lags owed u s) (hs : StoreOp.Step (.blobs (.put ⟨text⟩ body)) s r s') :
    Lags (fun id => owed id ∨
        Registers (Fallible.onOk (fun _ => Api.register ⟨text⟩ body) r) id) u s' ∧
      Served u s' (.putChunk text body) (Fallible.onOk (fun _ => Api.register ⟨text⟩ body) r)
        u := by
  have hhandle := Api.handle_putChunk text body
  rw [ChunkId.parse_eq_ok.mpr ⟨rfl, hwf⟩, Fallible.onOk_ok] at hhandle
  obtain ⟨env, hfresh, heq⟩ := hs
  have hstate : s' = ⟨s.metaStore, (s.blobs.put ⟨text⟩ body).2⟩ := (congrArg Prod.snd heq).symm
  have hreply : r = (s.blobs.put ⟨text⟩ body).1 := (congrArg Prod.fst heq).symm
  rcases FakeObjectStore.put_cases s.blobs ⟨text⟩ body with
    ⟨hv, hl, hp⟩ | ⟨hv, hl, hp⟩ | ⟨e, _, hp⟩
  · -- a new body, for which a row is owed now
    rw [hp] at hstate hreply
    subst hstate hreply
    refine ⟨⟨hlag.metaStore, hlag.blobs.trans (fun _ _ _ h => h.trans) (.insert_new Eq.refl hl),
      ?_⟩, .goesOn (.registering ⟨hwf, hv⟩ (Finmap.lookup_insert _))⟩
    exact (hlag.owed.mono fun id _ hrow => hrow.imp_right .inl).insert (fun _ _ _ hk => hk)
      (.inr (.inr ⟨_, _, rfl⟩))
  · rw [hp] at hstate hreply
    subst hstate hreply
    exact ⟨hlag.mono fun _ => .inl, .goesOn (.registering ⟨hwf, hv⟩ hl)⟩
  · rw [hp] at hstate hreply
    subst hstate hreply
    refine ⟨hlag.mono fun _ => .inl, .later fun v hv _ => ?_⟩
    rw [hhandle]
    exact .call (put_refused_again ⟨env, hfresh, heq⟩ hv) (.ret _ v)

/-- A read that has caught up: there is more to read, or it has returned. -/
theorem served_reading {text : String} {range : Option HeaderValue} {obj : Bytes}
    {q : Prog StoreI (Res Response)} (hobj : s.blobs.inner.lookup ⟨text⟩ = some obj)
    (honly : q.Only (StoreOp.ReadsChunk ⟨text⟩))
    (hcatch : CatchesUp serverDiscipline (Api.handle (.getChunk text range)) q s) :
    Served u s (.getChunk text range) q u := by
  cases q with
  | ret a => exact .later fun u hu hinv => hcatch.returned hu hinv
  | call op k => exact .goesOn (.reading hobj honly hcatch)

/-- The first call of a chunk read: a chunk that is not found is not found
    by the serial run either. -/
theorem step_head {text : String} {range : Option HeaderValue} (hwf : ChunkId.WellFormed ⟨text⟩)
    {r : Res UInt64} (hlag : Lags owed u s) (hs : StoreOp.Step (.blobs (.head ⟨text⟩)) s r s') :
    s' = s ∧ Served u s (.getChunk text range) (Fallible.onOk (Api.fetch ⟨text⟩ range) r) u := by
  have hhandle := Api.handle_getChunk text range
  rw [ChunkId.parse_eq_ok.mpr ⟨rfl, hwf⟩, Fallible.onOk_ok] at hhandle
  have hreads : StoreOp.ReadsChunk ⟨text⟩ (.blobs (.head ⟨text⟩)) := rfl
  have hstate : s' = s := getChunk_reads (by simp) hs
  refine ⟨hstate, ?_⟩
  cases hl : s.blobs.inner.lookup ⟨text⟩ with
  | none =>
    have hul : u.blobs.inner.lookup ⟨text⟩ = none := by
      cases hu : u.blobs.inner.lookup ⟨text⟩ with
      | none => rfl
      | some obj =>
        have := hlag.blobs.lookup_eq hu
        rw [hl] at this
        cases this
    obtain ⟨env, _, heq⟩ := hs
    have hreply : r = err FakeObjectStore.noSuchChunk := by
      have hhead : s.blobs.head ⟨text⟩ = r := congrArg Prod.fst heq
      rw [← hhead]
      unfold FakeObjectStore.head
      rw [hl]
      rfl
    have hstep : StoreOp.Step (.blobs (.head ⟨text⟩)) u (err FakeObjectStore.noSuchChunk) u := by
      refine ⟨env, trivial, Prod.ext ?_ rfl⟩
      show u.blobs.head ⟨text⟩ = _
      unfold FakeObjectStore.head
      rw [hul]
      rfl
    rw [hreply]
    apply Served.now
    rw [hhandle]
    exact .call hstep (.ret _ u)
  | some obj =>
    have honly := getChunk_only text range
    rw [hhandle] at honly
    apply served_reading hl (honly.2 r)
    rw [hhandle]
    apply CatchesUp.advance .refl
    intro v hv _
    exact hreads.again hs hl (hv.blobs.lookup_eq hl)

/-- A later call of a chunk read. -/
theorem step_reading {text : String} {range : Option HeaderValue} {obj : Bytes} {op : StoreOp}
    {k : Res op.Value → Prog StoreI (Res Response)} {r : Res op.Value}
    (hobj : s.blobs.inner.lookup ⟨text⟩ = some obj)
    (honly : Prog.Only (I := StoreI) (StoreOp.ReadsChunk ⟨text⟩) (.call op k))
    (hcatch : CatchesUp serverDiscipline (Api.handle (.getChunk text range)) (.call op k) s)
    (hs : StoreOp.Step op s r s') : s' = s ∧ Served u s (.getChunk text range) (k r) u := by
  constructor
  · obtain ⟨env, _, heq⟩ := hs
    exact (congrArg Prod.snd heq).symm.trans (honly.1.exec_state env s)
  · apply served_reading hobj (honly.2 r)
    apply hcatch.advance
    intro v hv _
    exact honly.1.again hs hobj (hv.blobs.lookup_eq hobj)

/-- The second call of an upload, where the serial run performs both. -/
theorem step_registering {text : String} {body : Bytes} (haddr : Addresses text body)
    (hobj : s.blobs.inner.lookup ⟨text⟩ = some body) {r : Res Chunk} (hlag : Lags owed u s)
    (hs : StoreOp.Step (.metadata (.registerChunk ⟨text⟩ body.len)) s r s') :
    ∃ u', Lags (fun id => owed id ∧ id ≠ ⟨text⟩) u' s' ∧
      Served u s' (.putChunk text body) (Api.registered r) u' := by
  have hhandle := Api.handle_putChunk text body
  rw [ChunkId.parse_eq_ok.mpr ⟨rfl, haddr.1⟩, Fallible.onOk_ok] at hhandle
  have hu : ∀ obj, u.blobs.inner.lookup ⟨text⟩ = some obj → obj = body := by
    intro obj hl
    have := hlag.blobs.lookup_eq hl
    rw [hobj] at this
    exact (Option.some.inj this).symm
  obtain ⟨b, hput, hb, hother⟩ := put_accepted haddr.2 hs.choose hu
  obtain ⟨hblobs, hreg⟩ := metadata_elsewhere (u := ⟨u.metaStore, b⟩) hs hlag.metaStore
  refine ⟨⟨s'.metaStore, b⟩, ⟨rfl, ?_, ?_⟩, ?_⟩
  · rw [hblobs]
    intro id obj hl
    by_cases hid : id = ⟨text⟩
    · subst hid
      rw [hb] at hl
      cases hl
      exact ⟨_, hobj, rfl⟩
    · rw [hother id hid] at hl
      exact hlag.blobs id obj hl
  · rw [hblobs]
    intro id obj hl
    by_cases hid : id = ⟨text⟩
    · subst hid
      rw [hobj] at hl
      cases hl
      exact .inl hb
    · rw [hother id hid]
      exact (hlag.owed id obj hl).imp_right fun h => ⟨h, hid⟩
  · have hsolo : ∀ a, Api.registered r = Prog.ret a →
        Solo StoreOp.Step (Api.handle (.putChunk text body)) u a ⟨s'.metaStore, b⟩ := by
      intro a ha
      rw [hhandle]
      apply Solo.call hput
      apply Solo.call hreg
      rw [ha]
      exact .ret a _
    cases r with
    | ok a => exact .now (hsolo _ rfl)
    | err e => exact .now (hsolo _ rfl)
    | panic => exact .now (hsolo _ rfl)

/-- **One step of a thread**, and what the serial run does at it. -/
theorem Phase.step {op : StoreOp} {k : Res op.Value → Prog StoreI (Res Response)}
    {r : Res op.Value} (h : Phase s req (.call op k)) (hlag : Lags owed u s)
    (hs : StoreOp.Step op s r s') :
    ∃ u', Lags (OwedAfter owed (.call op k) (k r)) u' s' ∧ Served u s' req (k r) u' := by
  cases h with
  | metadata hreq =>
    obtain ⟨u', hlag', hserved⟩ := step_metadata hreq hlag hs
    refine ⟨u', hlag'.after fun id size heq => ?_, hserved⟩
    injection heq with hop
    exact (metaCall_op hreq).1 id size hop
  | put hwf =>
    obtain ⟨hlag', hserved⟩ := step_put hwf hlag hs
    refine ⟨u, hlag'.mono fun id hid => ?_, hserved⟩
    apply hid.imp_left
    intro hid
    refine ⟨hid, fun hreg => ?_⟩
    obtain ⟨size, heq⟩ := registers_call.mp hreg
    cases heq
  | head hwf =>
    obtain ⟨rfl, hserved⟩ := step_head hwf hlag hs
    exact ⟨u, hlag.after (by simp), hserved⟩
  | reading hobj honly hcatch =>
    obtain ⟨rfl, hserved⟩ := step_reading hobj honly hcatch hs
    refine ⟨u, hlag.after fun id size heq => ?_, hserved⟩
    have hreads := honly.1
    rw [heq] at hreads
    exact hreads
  | registering haddr hobj =>
    obtain ⟨u', hlag', hserved⟩ := step_registering haddr hobj hlag hs
    refine ⟨u', hlag'.mono fun id hid => ?_, hserved⟩
    refine .inl ⟨hid.1, fun hreg => ?_⟩
    obtain ⟨size, heq⟩ := registers_call.mp hreg
    cases heq
    exact hid.2 rfl

end step

/-! ## Section 5: Runs -/

/-- Some thread has stored a body under `id` and not registered it yet. -/
def Owed (c : Server) (id : ChunkId) : Prop := ∃ t ∈ c.threads, Registers t.prog id

/-- The requests answered so far have been put in an order: those of `log`
    make a serial run, from `s₀` to `u`, and those of `rest` come after all
    requests that are still running. -/
structure Ordered (s₀ : AppState) (c : Server) (log rest : List (Request × Res Response))
    (u : AppState) : Prop where
  sound : Pool.Sound serverDiscipline Post c
  serial : Serial Api.handle StoreOp.Step s₀ log u
  lags : Lags (Owed c) u c.store
  late : ∀ p ∈ rest, Late c.store p.1 p.2
  answers : c.answers.Perm (log ++ rest)
  phases : ∀ t ∈ c.threads, (∃ a, t.prog = .ret a) ∨ Phase c.store t.req t.prog

theorem Ordered.start {s₀ : AppState} (hinv : AppInv s₀) : Ordered s₀ ⟨s₀, []⟩ [] [] s₀ where
  sound := ⟨hinv, fun t ht => by cases ht⟩
  serial := .nil s₀
  lags := ⟨rfl, .refl Eq.refl _, fun _ _ hl => .inl hl⟩
  late := fun p hp => by cases hp
  answers := .refl _
  phases := fun t ht => by cases ht

omit [Blake3] [UuidCrate] in
/-- A thread other than the one that steps still owes what it owed. -/
theorem Owed.set {c : Server} {i : Nat} {t t' : Thread StoreI AppState Request (Res Response)}
    (ht : c.threads[i]? = some t) {s' : AppState} {id : ChunkId}
    (h : OwedAfter (Owed c) t.prog t'.prog id) : Owed ⟨s', c.threads.set i t'⟩ id := by
  rcases h with ⟨⟨v, hv, hreg⟩, hnot⟩ | hreg
  · obtain ⟨j, hj⟩ := List.getElem?_of_mem hv
    have hij : i ≠ j := by
      rintro rfl
      rw [ht] at hj
      cases hj
      exact hnot hreg
    refine ⟨v, List.mem_of_getElem? (i := j) ?_, hreg⟩
    rw [List.getElem?_set_ne hij]
    exact hj
  · exact ⟨t', List.mem_set (List.getElem?_eq_some_iff.mp ht).1 _, hreg⟩

section runs

variable {s₀ u : AppState} {c c' : Server} {log rest : List (Request × Res Response)}

/-- A request arrives. One that is refused at once can be served at any
    time. -/
theorem Ordered.arrive (h : Ordered s₀ c log rest u) (req : Request)
    (hsound : Pool.Sound serverDiscipline Post
      (⟨c.store, c.threads ++ [⟨req, Api.handle req, []⟩]⟩ : Server)) :
    ∃ rest', Ordered s₀ ⟨c.store, c.threads ++ [⟨req, Api.handle req, []⟩]⟩ log rest' u := by
  have hlags : Lags (Owed ⟨c.store, c.threads ++ [⟨req, Api.handle req, []⟩]⟩) u c.store := by
    apply h.lags.mono
    intro id hid
    obtain ⟨t, ht, hreg⟩ := hid
    exact ⟨t, List.mem_append_left _ ht, hreg⟩
  cases hp : Api.handle req with
  | ret a =>
    refine ⟨rest ++ [(req, a)], ?_⟩
    rw [← hp]
    refine ⟨hsound, h.serial, hlags, fun p hmem => ?_, ?_, fun t ht => ?_⟩
    · rcases List.mem_append.mp hmem with hmem | hmem
      · exact h.late p hmem
      · rw [List.mem_singleton.mp hmem]
        intro v _ _
        show Solo StoreOp.Step (Api.handle req) v a v
        rw [hp]
        exact .ret a v
    · rw [Pool.answers_arrive, Thread.answer?_ret hp, ← List.append_assoc]
      exact h.answers.append_right _
    · rcases List.mem_append.mp ht with ht | ht
      · exact h.phases t ht
      · rw [List.mem_singleton.mp ht]
        exact .inl ⟨a, hp⟩
  | call op k =>
    refine ⟨rest, ?_⟩
    rw [← hp]
    refine ⟨hsound, h.serial, hlags, h.late, ?_, fun t ht => ?_⟩
    · rw [Pool.answers_arrive, Thread.answer?_call hp, Option.toList_none, List.append_nil]
      exact h.answers
    · rcases List.mem_append.mp ht with ht | ht
      · exact h.phases t ht
      · rw [List.mem_singleton.mp ht]
        exact handle_phase req c.store

/-- **One step of the server**: the order is kept, and extended by the
    request that is answered. -/
theorem Ordered.step (h : Ordered s₀ c log rest u)
    (hs : Pool.Step Api.handle StoreOp.Step c c') :
    ∃ log' rest' u', Ordered s₀ c' log' rest' u' := by
  obtain ⟨hsound, hext⟩ := h.sound.step (fun req s _ => ensures_handle req s) hs
  have hlate : ∀ p ∈ rest, Late c'.store p.1 p.2 := fun p hp => (h.late p hp).mono hext
  cases hs with
  | arrive req =>
    obtain ⟨rest', h'⟩ := h.arrive req hsound
    exact ⟨log, rest', u, h'⟩
  | call i t op k r s' hi hp hstep =>
    have ht := List.mem_of_getElem? hi
    have hphase : Phase c.store t.req (.call op k) := by
      rcases h.phases t ht with ⟨a, ha⟩ | hphase
      · rw [hp] at ha
        cases ha
      · rw [← hp]
        exact hphase
    obtain ⟨u', hlag, hserved⟩ := hphase.step h.lags hstep
    have hlag' : Lags (Owed ⟨s', c.threads.set i ⟨t.req, k r, t.done ++ [(c.store, s')]⟩⟩) u'
        s' := by
      apply hlag.mono
      intro id hid
      apply Owed.set hi
      rw [hp]
      exact hid
    have hanswers := Pool.perm_filterMap_set hi (Thread.answer?_call hp)
      (⟨t.req, k r, t.done ++ [(c.store, s')]⟩ : Thread StoreI AppState Request (Res Response))
    -- the other threads are where they were
    have hphases : ((∃ a, k r = .ret a) ∨ Phase s' t.req (k r)) →
        ∀ v ∈ c.threads.set i ⟨t.req, k r, t.done ++ [(c.store, s')]⟩,
          (∃ a, v.prog = .ret a) ∨ Phase s' v.req v.prog := by
      intro hnew v hv
      rcases List.mem_or_eq_of_mem_set hv with hv | rfl
      · exact (h.phases v hv).imp_right fun hphase => hphase.mono hext
      · exact hnew
    generalize k r = q at *
    cases hserved with
    | goesOn hgo =>
      rw [Thread.answer?_call rfl, Option.toList_none, List.append_nil] at hanswers
      have hperm := hanswers.trans h.answers
      exact ⟨log, rest, u, hsound, h.serial, hlag', hlate, hperm, hphases (.inr hgo)⟩
    | @later a hlater =>
      refine ⟨log, rest ++ [(t.req, a)], u, hsound, h.serial, hlag', ?_, ?_,
        hphases (.inl ⟨a, rfl⟩)⟩
      · intro p hmem
        rcases List.mem_append.mp hmem with hmem | hmem
        · exact hlate p hmem
        · rw [List.mem_singleton.mp hmem]
          exact hlater
      · rw [← List.append_assoc]
        exact hanswers.trans (h.answers.append_right _)
    | @now a _ hnow =>
      refine ⟨log ++ [(t.req, a)], rest, u', hsound, h.serial.snoc hnow, hlag', hlate, ?_,
        hphases (.inl ⟨a, rfl⟩)⟩
      apply hanswers.trans
      rw [List.append_assoc]
      apply (h.answers.append_right _).trans
      rw [List.append_assoc]
      exact List.perm_append_comm.append_left log

theorem Ordered.steps (hinv : AppInv s₀) (hs : Server.Steps ⟨s₀, []⟩ c) :
    ∃ log rest u, Ordered s₀ c log rest u := by
  induction hs with
  | refl => exact ⟨[], [], s₀, .start hinv⟩
  | tail _ hstep ih =>
    obtain ⟨log, rest, u, h⟩ := ih
    exact h.step hstep

/-- When nothing is running any more, nothing is owed. -/
theorem Ordered.caught_up (h : Ordered s₀ c log rest u) (hdone : c.Quiescent) : u = c.store := by
  have hnone : ∀ id, ¬ Owed c id := by
    intro id ⟨t, ht, size, k, hreg⟩
    obtain ⟨a, ha⟩ := hdone t ht
    rw [hreg] at ha
    cases ha
  have hback : Table.Grows Eq c.store.blobs.inner u.blobs.inner := by
    intro id obj hl
    exact ⟨obj, (h.lags.owed id obj hl).resolve_right (hnone id), rfl⟩
  have hblobs : u.blobs.inner = c.store.blobs.inner := h.lags.blobs.antisymm hback
  calc
    u = ⟨u.metaStore, ⟨u.blobs.inner⟩⟩ := rfl
    _ = ⟨c.store.metaStore, ⟨c.store.blobs.inner⟩⟩ := by rw [h.lags.metaStore, hblobs]
    _ = c.store := rfl

/-- The requests that can be served at any time are served last. -/
theorem Ordered.complete (h : Ordered s₀ c log rest u) (hdone : c.Quiescent) :
    Serial Api.handle StoreOp.Step s₀ (log ++ rest) c.store := by
  have hserial := h.serial
  rw [h.caught_up hdone] at hserial
  apply hserial.append
  apply Serial.quiet
  intro p hp
  exact h.late p hp c.store (.refl _) h.sound.inv

end runs

/-! ## Section 6: No orphaned bodies -/

/-- Every stored body is registered. -/
def Matched (s : AppState) : Prop :=
  Table.AllRows (fun id _ => ∃ chunk, s.metaStore.chunks.lookup id = some chunk) s.blobs.inner

omit [Blake3] [UuidCrate] in
theorem Matched.mono {s s' : AppState} (h : Matched s) (hblobs : s'.blobs = s.blobs)
    (hchunks : s'.metaStore.chunks = s.metaStore.chunks) : Matched s' := by
  unfold Matched
  rw [hblobs, hchunks]
  exact h

omit [UuidCrate] in
theorem solo_respond {α : Type} {f : α → Response} {x : Res α} {s s' : AppState}
    {a : Res Response}
    (hs : Solo StoreOp.Step (Fallible.onOk (fun a => .ret (ok (f a))) x) s a s') : s' = s := by
  cases x <;> cases hs <;> rfl

omit [UuidCrate] in
/-- The second call of an upload, made alone: the row of the body appears. -/
theorem register_matched {id : ChunkId} {body : Bytes} {s s' : AppState} {a : Res Response}
    (hinv : AppInv s) (hstored : s.blobs.inner.lookup id = some body)
    (hother : ∀ key obj, key ≠ id → s.blobs.inner.lookup key = some obj →
      ∃ chunk, s.metaStore.chunks.lookup key = some chunk)
    (hs : Solo StoreOp.Step (Api.register id body) s a s') : Matched s' := by
  unfold Api.register at hs
  cases hs with
  | @call _ _ r _ s₁ _ _ hreg hrest =>
    rw [solo_respond hrest]
    have hpre : StoreOp.Pre (.metadata (.registerChunk id body.len)) s := ⟨body, hstored, rfl⟩
    have hreply : r = ok ⟨id, body.len⟩ := by
      obtain ⟨env, _, heq⟩ := hreg
      rw [← registerChunk_stored hinv hpre env, heq]
    have hgrow := (store_step hinv hpre hreg).2.metaStore.chunks
    intro key obj hobj
    by_cases hkey : key = id
    · subst hkey
      exact ⟨_, register_lands hreg hreply⟩
    · rw [(metadata_elsewhere hreg rfl).1] at hobj
      obtain ⟨chunk, hchunk⟩ := hother key obj hkey hobj
      exact ⟨chunk, hgrow.lookup_eq hchunk⟩

/-- A body that a handler has stored is registered when the handler returns,
    if nothing comes in between. -/
theorem solo_matched {s s' : AppState} {req : Request} {a : Res Response} (hinv : AppInv s)
    (h : Matched s) (hs : Solo StoreOp.Step (Api.handle req) s a s') : Matched s' := by
  cases hreq : Api.metaCall req with
  | some x =>
    rw [Api.handle_of_metaCall hreq] at hs
    cases x with
    | err e => cases hs; exact h
    | panic => cases hs; exact h
    | ok call =>
      cases hs with
      | call hstep hrest =>
        rw [solo_respond hrest]
        apply h.mono (metadata_elsewhere hstep rfl).1
        apply (chunks_step hstep).resolve_right
        rintro ⟨id, size, heq, _⟩
        injection heq with hop
        exact (metaCall_op hreq).1 id size hop
  | none =>
    cases req with
    | getChunk text range =>
      rw [hs.unchanged (getChunk_only text range)]
      · exact h
      · intro op s r s' hop hstep
        obtain ⟨env, _, heq⟩ := hstep
        exact (congrArg Prod.snd heq).symm.trans (hop.exec_state env s)
    | putChunk text body =>
      rw [Api.handle_putChunk] at hs
      cases hid : ChunkId.parse text with
      | err e =>
        rw [hid] at hs
        cases hs
        exact h
      | panic =>
        rw [hid] at hs
        cases hs
        exact h
      | ok id =>
        rw [hid] at hs
        cases hs with
        | @call _ _ r _ s₁ _ _ hput hrest =>
          cases r with
          | ok _ =>
            obtain ⟨hmeta, hstored, hother⟩ := put_stored hput
            have hpre : StoreOp.Pre (.blobs (.put id body)) s := trivial
            apply register_matched (store_step hinv hpre hput).1 hstored _ hrest
            intro key obj hkey hobj
            rw [hmeta]
            rw [hother key hkey] at hobj
            exact h key obj hobj
          | err e =>
            rw [store_unchanged hput rfl] at hrest
            cases hrest
            exact h
          | panic =>
            rw [store_unchanged hput rfl] at hrest
            cases hrest
            exact h
    | _ => cases hreq

end serializable

/-! ## Section 7: The results -/

/-- Requests that are served one after the other have all been answered. -/
theorem quiescent_serveAll [UuidCrate] [Blake3] {c : Server} {reqs : List (Env × Request)}
    (h : c.Quiescent) : (c.serveAll reqs).Quiescent := by
  induction reqs generalizing c with
  | nil => exact h
  | cons call rest ih =>
    obtain ⟨env, req⟩ := call
    apply ih
    intro t ht
    rcases List.mem_append.mp ht with ht | ht
    · exact h t ht
    · rw [List.mem_singleton.mp ht]
      exact ⟨_, rfl⟩

/-- **Serializability.** When every request has been answered, some serial
    run of the requests, each handled from start to end before the next one,
    gives the same answers and leaves the same stores. -/
theorem serializable [UuidCrate] [Blake3] {c : Server} (h : c.Reachable) (hdone : c.Quiescent) :
    ∃ log, log.Perm c.answers ∧
      Serial Api.handle StoreOp.Step AppState.default log c.store := by
  obtain ⟨log, rest, u, hordered⟩ := Ordered.steps appInv_default h
  exact ⟨log ++ rest, hordered.answers.symm, hordered.complete hdone⟩

/-- The sample run, at its end. -/
theorem serializable_sample :
    letI := Sample.blake3
    letI := Sample.uuidCrate
    ∃ log, log.Perm Sample.server.answers ∧
      Serial Api.handle StoreOp.Step AppState.default log Sample.server.store :=
  letI := Sample.blake3
  letI := Sample.uuidCrate
  serializable Sample.server_reachable (quiescent_serveAll fun _ ht => by cases ht)

/-- **No orphans.** When every request has been answered, the chunk rows are
    the stored bodies with their sizes: no body is without its row, whatever
    was refused and however the uploads interleaved. -/
theorem no_orphans [UuidCrate] [Blake3] {c : Server} (h : c.Reachable) (hdone : c.Quiescent)
    (id : ChunkId) : c.store.metaStore.chunks.lookup id =
      (c.store.blobs.inner.lookup id).map fun body => ⟨id, body.len⟩ := by
  obtain ⟨log, rest, u, hordered⟩ := Ordered.steps appInv_default h
  have hserial := hordered.complete hdone
  obtain ⟨hinv, hmatched⟩ := hserial.keeps (P := fun s => AppInv s ∧ Matched s)
    (fun req a s s' hs hsolo => ⟨((ensures_handle req s).solo hs.1 hsolo).2.1,
      solo_matched hs.1 hs.2 hsolo⟩) ⟨appInv_default, Table.allRows_empty _⟩
  cases hl : c.store.blobs.inner.lookup id with
  | none =>
    cases hchunk : c.store.metaStore.chunks.lookup id with
    | none => rfl
    | some chunk =>
      obtain ⟨obj, hobj, _⟩ := hinv.backed id chunk hchunk
      rw [hl] at hobj
      cases hobj
  | some body =>
    obtain ⟨chunk, hchunk⟩ := hmatched id body hl
    obtain ⟨obj, hobj, hsize⟩ := hinv.backed id chunk hchunk
    rw [hl] at hobj
    cases hobj
    have hid : chunk.chunkId = id := hinv.metaStore.chunks id chunk hchunk
    rw [hchunk]
    cases chunk
    cases hid
    cases hsize
    rfl

/-- In the sample run, whatever the id. -/
theorem no_orphans_sample :
    letI := Sample.blake3
    letI := Sample.uuidCrate
    Sample.server.store.metaStore.chunks.lookup Sample.chunk =
      (Sample.server.store.blobs.inner.lookup Sample.chunk).map fun body =>
        ⟨Sample.chunk, body.len⟩ :=
  letI := Sample.blake3
  letI := Sample.uuidCrate
  no_orphans Sample.server_reachable (quiescent_serveAll fun _ ht => by cases ht) Sample.chunk

end Space
