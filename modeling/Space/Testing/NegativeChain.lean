import Space.Client.Corruption
import Space.Client.RangeRead
import Space.Client.Snapshots
import Space.Effects.Disturbed

/-! # The contract chain under faults

    `tests/suites/e2e_chain_negative`: a fault is injected into the stored
    chunks of one file, the error of the read is looked at, and then a file
    that was committed before is read back once more, to see that it has
    survived.

    Two results stand for the cases of the test. A read reports the first
    entry that is not what the manifest says, with an error that tells what
    is wrong with it (`reassemble_reports`). And faults do not spread: what a
    committed version needs is only touched by a fault of its own chunks
    (`faults_isolated`). -/

namespace Space

open Rust Outcome Data Effects

/-! ## Section 1: Faults -/

/-- What a test does to a stored object behind the server's back. -/
inductive Fault where
  | damage (d : Damage)
  /-- `ObjectStoreAdmin::delete`. -/
  | delete (id : ChunkId)

/-- The object that the fault is for. -/
def Fault.target : Fault → ChunkId
  | damage (.corrupt id _) => id
  | damage (.truncate id _) => id
  | delete id => id

def AppState.fault [Blake3] (s : AppState) : Fault → AppState
  | .damage d => { s with blobs := s.blobs.damage d }
  | .delete id => { s with blobs := (s.blobs.delete id).2 }

section faults

variable [Blake3] {s : AppState}

theorem metaStore_fault (s : AppState) (d : Fault) : (s.fault d).metaStore = s.metaStore := by
  cases d <;> rfl

/-- A fault leaves every other object alone. -/
theorem lookup_fault {d : Fault} {id : ChunkId} (h : d.target ≠ id) :
    (s.fault d).blobs.inner.lookup id = s.blobs.inner.lookup id := by
  cases d with
  | delete id' =>
    show (s.blobs.inner.erase id').lookup id = _
    rw [Table.lookup_erase_ite]
    exact if_neg (Ne.symm h)
  | damage d =>
    show (s.blobs.damage d).inner.lookup id = _
    rw [FakeObjectStore.lookup_damage]
    have happly : ∀ obj, d.apply id obj = obj := by
      intro obj
      cases d with
      | corrupt id' i => exact if_neg h
      | truncate id' len => exact if_neg h
    simp [happly]

/-! ## Section 2: The invariant that faults leave

    `Safe` is a set of chunks that no fault is for. For these chunks the
    server goes on as if there were no faults: a stored body has its address,
    and a registered one is stored. -/

/-- The invariant of the stores, as far as the safe chunks are concerned. -/
structure SafeInv (Safe : ChunkId → Prop) (s : AppState) : Prop where
  metaStore : MetaInv s.metaStore
  verified : ∀ id obj, Safe id → s.blobs.inner.lookup id = some obj → id.verify obj = true
  backed : ∀ id chunk, Safe id → s.metaStore.chunks.lookup id = some chunk →
    ∃ obj, s.blobs.inner.lookup id = some obj ∧ obj.len = chunk.size

/-- The order along which the stores move. -/
structure SafeExtends (Safe : ChunkId → Prop) (s s' : AppState) : Prop where
  metaStore : s.metaStore.Extends s'.metaStore
  bodies : ∀ id obj, Safe id → s.blobs.inner.lookup id = some obj →
    s'.blobs.inner.lookup id = some obj

def SafePre (Safe : ChunkId → Prop) : StoreOp → AppState → Prop
  | .metadata (.registerChunk id size), s => Safe id →
    ∃ obj, s.blobs.inner.lookup id = some obj ∧ obj.len = size
  | _, _ => True

variable {Safe : ChunkId → Prop}

theorem safe_blobs {op : BlobOp} (h : SafeInv Safe s) :
    SafeInv Safe { s with blobs := (op.exec s.blobs).2 } ∧
      SafeExtends Safe s { s with blobs := (op.exec s.blobs).2 } := by
  rcases FakeObjectStore.exec_state op s.blobs with heq | ⟨id, bytes, hv, hl, heq⟩
  · rw [heq]
    exact ⟨h, .refl _, fun _ _ _ hobj => hobj⟩
  · rw [heq]
    have hkeep : ∀ key obj, s.blobs.inner.lookup key = some obj →
        (s.blobs.inner.insert id bytes).lookup key = some obj := by
      intro key obj hobj
      rw [Finmap.lookup_insert_of_ne _ ?_]
      · exact hobj
      · rintro rfl
        rw [hl] at hobj
        cases hobj
    refine ⟨⟨h.metaStore, fun key obj hsafe hobj => ?_, fun key chunk hsafe hchunk => ?_⟩, .refl _,
      fun key obj _ hobj => hkeep key obj hobj⟩
    · have hobj : (s.blobs.inner.insert id bytes).lookup key = some obj := hobj
      rw [Table.lookup_insert_ite] at hobj
      split at hobj
      · rename_i hkey
        cases hobj
        rw [hkey]
        exact hv
      · exact h.verified key obj hsafe hobj
    · obtain ⟨obj, hobj, hlen⟩ := h.backed key chunk hsafe hchunk
      exact ⟨obj, hkeep key obj hobj, hlen⟩

theorem safe_metaStore {op : MetaOp} {g' : Inner} {r : Res op.Value} (h : SafeInv Safe s)
    (hpre : SafePre Safe (.metadata op) s) (hs : MetaOp.Step op s.metaStore r g') :
    SafeInv Safe { s with metaStore := g' } ∧ SafeExtends Safe s { s with metaStore := g' } := by
  obtain ⟨hinv, hext⟩ := step_inv h.metaStore hs
  refine ⟨⟨hinv, h.verified, ?_⟩, hext, fun _ _ _ hobj => hobj⟩
  obtain ⟨env, _, hcall⟩ := hs.call
  cases hcall with
  | refused e => exact h.backed
  | dangling _ => exact h.backed
  | found _ => exact h.backed
  | wrote hw =>
    rcases writes_chunks hw with heq | ⟨id, size, rfl, heq⟩
    · intro key chunk hsafe hchunk
      have hchunk : g'.chunks.lookup key = some chunk := hchunk
      rw [heq] at hchunk
      exact h.backed key chunk hsafe hchunk
    · intro key chunk hsafe hchunk
      have hchunk : g'.chunks.lookup key = some chunk := hchunk
      rw [heq, Table.lookup_insert_ite] at hchunk
      split at hchunk
      · rename_i hkey
        cases hchunk
        subst hkey
        exact hpre hsafe
      · exact h.backed key chunk hsafe hchunk

/-- How the handlers use stores in which faults occur. -/
def safeDiscipline (Safe : ChunkId → Prop) : Discipline StoreI AppState where
  step := StoreOp.Step
  Inv := SafeInv Safe
  Rely := SafeExtends Safe
  Pre := SafePre Safe
  refl := fun s => ⟨.refl _, fun _ _ _ h => h⟩
  trans := fun h h' => ⟨h.metaStore.trans h'.metaStore,
    fun id obj hsafe hobj => h'.bodies id obj hsafe (h.bodies id obj hsafe hobj)⟩
  preserves := by
    intro op s r s' h hpre hs
    obtain ⟨env, hfresh, heq⟩ := hs
    cases op with
    | metadata op =>
      cases heq
      exact safe_metaStore h hpre ⟨env, hfresh, rfl⟩
    | blobs op =>
      cases heq
      exact safe_blobs h

/-- A fault that is for no safe chunk. -/
def Spares (Safe : ChunkId → Prop) (s s' : AppState) : Prop :=
  ∃ d : Fault, ¬ Safe d.target ∧ s' = s.fault d

/-- **Faults follow the discipline.** -/
theorem spares_follows (s s' : AppState) (h : SafeInv Safe s) (hs : Spares Safe s s') :
    SafeInv Safe s' ∧ SafeExtends Safe s s' := by
  obtain ⟨d, hd, rfl⟩ := hs
  have hkeep : ∀ id, Safe id → (s.fault d).blobs.inner.lookup id = s.blobs.inner.lookup id := by
    intro id hsafe
    apply lookup_fault
    rintro rfl
    exact hd hsafe
  refine ⟨⟨?_, fun id obj hsafe hobj => ?_, fun id chunk hsafe hchunk => ?_⟩, ?_,
    fun id obj hsafe hobj => ?_⟩
  · rw [metaStore_fault]
    exact h.metaStore
  · rw [hkeep id hsafe] at hobj
    exact h.verified id obj hsafe hobj
  · rw [metaStore_fault] at hchunk
    rw [hkeep id hsafe]
    exact h.backed id chunk hsafe hchunk
  · rw [metaStore_fault]
    exact .refl _
  · rw [hkeep id hsafe]
    exact hobj

/-! ## Section 3: The handlers keep to the discipline -/

/-- An upload registers a safe chunk only while its body is stored. -/
theorem safe_putChunk (text : String) (body : Bytes) (s : AppState) :
    Ensures (safeDiscipline Safe) (Api.putChunk text body) (fun _ _ _ => True) [] s := by
  simp only [Api.putChunk, Api.callBlobs, Api.callMeta, Prog.perform, ↓Fallible.bind_eq,
    ↓Fallible.lift_eq, ↓Fallible.pure_eq, Prog.bind_ret, Prog.bind_call]
  apply Ensures.onOk _ fun _ _ _ _ _ _ => trivial
  intro id _ s₁ _ _
  refine ⟨trivial, fun r s₂ hput => ?_⟩
  apply Ensures.onOk _ fun _ _ _ _ _ _ => trivial
  intro _ hok
  -- the put succeeded, so the body is stored from here on
  have hstored : s₂.blobs.inner.lookup id = some body := by
    obtain ⟨env, _, heq⟩ := hput
    have hblobs : (s₁.blobs.put id body).2 = s₂.blobs :=
      congrArg (fun p => AppState.blobs p.2) heq
    have hreply : (s₁.blobs.put id body).1 = ok () := (congrArg Prod.fst heq).trans hok
    rcases FakeObjectStore.put_cases s₁.blobs id body with
      ⟨_, _, hp⟩ | ⟨_, hl, hp⟩ | ⟨e, _, hp⟩
    · rw [← hblobs, hp]
      exact Finmap.lookup_insert _
    · rw [← hblobs, hp]
      exact hl
    · rw [hp] at hreply
      cases hreply
  intro s₃ hext₃ _
  have hpre : SafePre Safe (.metadata (.registerChunk id body.len)) s₃ :=
    fun hsafe => ⟨body, hext₃.bodies id body hsafe hstored, rfl⟩
  refine ⟨hpre, fun r s₄ _ => ?_⟩
  apply Ensures.onOk _ fun _ _ _ _ _ _ => trivial
  exact fun _ _ _ _ _ => trivial

/-- **Every handler keeps to the discipline**, whatever faults occur. -/
theorem safe_handle [UuidCrate] (req : Request) (s : AppState) :
    Ensures (safeDiscipline Safe) (Api.handle req) (fun _ _ _ => True) [] s := by
  cases hreq : Api.metaCall req with
  | some x =>
    rw [Api.handle_of_metaCall hreq]
    apply Ensures.onOk _ fun _ _ _ _ _ _ => trivial
    intro call hx
    subst hx
    have hpre : ∀ s, SafePre Safe (.metadata call.op) s := by
      intro s
      have hop := (metaCall_op hreq).1
      generalize call.op = op at hop
      cases op with
      | registerChunk id size => exact absurd rfl (hop id size)
      | _ => exact trivial
    intro s₁ _ _
    refine ⟨hpre s₁, fun r s₂ _ => ?_⟩
    apply Ensures.onOk _ fun _ _ _ _ _ _ => trivial
    exact fun _ _ _ _ _ => trivial
  | none =>
    cases req with
    | putChunk text body => exact safe_putChunk text body s
    | getChunk text range =>
      apply Ensures.of_only (getChunk_only text range)
      intro op s hop _
      cases op with
      | blobs op => exact trivial
      | metadata op => exact hop.elim
    | _ => cases hreq

/-! ## Section 4: Runs with faults -/

variable [UuidCrate]

/-- Requests are handled, and faults occur that are for no safe chunk. -/
abbrev FaultySteps (Safe : ChunkId → Prop) : Server → Server → Prop :=
  Pool.DisturbedSteps Api.handle StoreOp.Step (Spares Safe)

/-- A client program among them. -/
abbrev FaultyRun {α : Type} (Safe : ChunkId → Prop) : Prog StoreI α → Server → α → Server → Prop :=
  Pool.DisturbedRun Api.handle StoreOp.Step (Spares Safe)

/-- The server as the rules of the discipline see it. -/
abbrev SafeServer (Safe : ChunkId → Prop) (c : Server) : Prop :=
  Pool.Sound (safeDiscipline Safe) (fun _ _ _ _ => True) c

omit [UuidCrate] in
theorem AppInv.safe (h : AppInv s) (Safe : ChunkId → Prop) : SafeInv Safe s where
  metaStore := h.metaStore
  verified := fun id obj _ hobj => h.verified id obj hobj
  backed := fun id chunk _ hchunk => h.backed id chunk hchunk

omit [UuidCrate] in
theorem safe_init (Safe : ChunkId → Prop) : SafeServer Safe Server.init where
  inv := appInv_default.safe Safe
  threads := fun _ ht => by cases ht

theorem safe_steps {c c' : Server} (h : SafeServer Safe c) (hs : FaultySteps Safe c c') :
    SafeServer Safe c' ∧ SafeExtends Safe c.store c'.store :=
  h.disturbedSteps (fun req s _ => safe_handle req s) spares_follows hs

/-- A run without faults. -/
theorem faulty_of_steps {c c' : Server} (h : c.Steps c') : FaultySteps Safe c c' := by
  induction h with
  | refl => exact .refl
  | tail _ hstep ih => exact ih.tail (.step hstep)

omit [UuidCrate] in
/-- What a stored manifest reads of safe chunks is stored. -/
theorem safe_backs (h : SafeInv Safe s) {key : ManifestId} {m : Manifest}
    (hm : s.metaStore.manifests.lookup key = some m) {e : ManifestEntry} (he : e ∈ m.entries)
    (hsafe : Safe e.chunkId) : s.Backs m e := by
  have hok := h.metaStore.manifests key m hm
  have hwf := validateManifest_ok_iff.mp hok.valid
  obtain ⟨row, hrow, hle⟩ := hwf.within e he
  have hid : row.chunkId = e.chunkId := by simpa using List.find?_some hrow
  obtain ⟨reg, hreg, hsize⟩ := hok.registered row (List.mem_of_find?_eq_some hrow)
  rw [hid] at hreg
  obtain ⟨obj, hobj, hlen⟩ := h.backed _ reg hsafe hreg
  have hrowSize : row.size = obj.len := by rw [hlen, hsize]
  refine ⟨obj, hobj, h.verified _ _ hsafe hobj, chunkSize_eq_some.mpr ⟨row, hrow, hrowSize⟩, ?_⟩
  rw [hrowSize, Bytes.toNat_len] at hle
  exact hle

variable [Wire] [ResponseJson]

/-- **Reads of safe chunks are stable.** -/
theorem safe_rangeGet (env : Env) {s₀ : AppState} (get : RangeGet)
    (done : List (Change AppState)) (hr : SafeExtends Safe s₀ s) :
    Ensures (safeDiscipline Safe) ((Api.handle get.request).map toHttpReply) (fun reply _ _ =>
      Safe ⟨get.chunkId⟩ → ∀ obj, s₀.blobs.inner.lookup ⟨get.chunkId⟩ = some obj →
        reply = answer env s₀ get) done s := by
  by_cases hstored : Safe ⟨get.chunkId⟩ ∧ ∃ obj, s₀.blobs.inner.lookup ⟨get.chunkId⟩ = some obj
  · obtain ⟨hsafe, obj, hobj⟩ := hstored
    have honly := getChunk_only get.chunkId (some ⟨some get.range⟩)
    have hexec : ∀ op : StoreOp, op.ReadsChunk ⟨get.chunkId⟩ →
        op.exec env s₀ = ((op.exec env s₀).1, s₀) :=
      fun op hop => Prod.ext rfl (hop.exec_state env s₀)
    have hrun := Prog.Only.run hexec honly 0
    have hstable : ∀ (op : StoreOp) (s₁ : AppState), op.ReadsChunk ⟨get.chunkId⟩ →
        SafeExtends Safe s₀ s₁ → SafeInv Safe s₁ → SafePre Safe op s₁ ∧
          ∀ r s₂, StoreOp.Step op s₁ r s₂ → r = (op.exec env s₀).1 := by
      intro op s₁ hop hr₁ _
      constructor
      · cases op with
        | blobs op => exact trivial
        | metadata op => exact hop.elim
      · intro r s₂ hs
        obtain ⟨env', _, heq⟩ := hs
        rw [← hop.exec_eq hobj (hr₁.bodies _ _ hsafe hobj) env env', heq]
    have hserve : Ensures (safeDiscipline Safe) (Api.handle get.request)
        (fun a _ _ => a = (Api.serve env get.request s₀).1) done s := by
      have h := Ensures.of_stable (D := safeDiscipline Safe) hstable honly hr 0 done
      apply h.conseq
      intro a _ _ _ ha
      rw [ha]
      exact (congrArg Prod.fst hrun).symm
    exact Ensures.map (hserve.conseq fun a _ _ _ ha _ _ _ => congrArg toHttpReply ha)
  · -- nothing is promised about this read
    apply Ensures.map
    apply ((safe_handle get.request s).forget done).conseq
    intro _ _ _ _ _ hsafe obj hobj
    exact absurd ⟨hsafe, obj, hobj⟩ hstored

end faults

/-- **Faults do not spread.** Whatever faults occur from the first request
    on, a committed version whose chunks are spared by them stays as it is,
    with its manifest, and is read back as it was, during further requests
    and further faults, as long as its entries fit the cast to `u32` and its
    size can be allocated. -/
theorem faults_isolated [UuidCrate] [Blake3] [Wire] [ResponseJson] {Safe : ChunkId → Prop}
    {c c' : Server} (h : FaultySteps Safe Server.init c) (hs : FaultySteps Safe c c')
    {v : VersionId} {row : Version} (hrow : c.store.metaStore.getCurrentVersion v = ok row)
    {m : Manifest} (hm : c.store.metaStore.getManifest row.manifestId = ok m)
    (hsafe : ∀ e ∈ m.entries, Safe e.chunkId) :
    c'.store.metaStore.getCurrentVersion v = ok row ∧
      c'.store.metaStore.getManifest row.manifestId = ok m ∧
      (∀ e ∈ m.entries, c.store.Backs m e) ∧
      ((∀ e ∈ m.entries, e.length.toNat < 2 ^ 32) → m.totalSize.toNat ≤ isizeMax →
        ∀ x c'', FaultyRun Safe (overServer (reassemble m)) c' x c'' →
          ∃ out, x = ok out ∧ out.data = c.store.assemble m) := by
  obtain ⟨hsound, _⟩ := safe_steps (safe_init Safe) h
  obtain ⟨hsound', hext⟩ := safe_steps hsound hs
  obtain ⟨hl, hstate⟩ := getCurrentVersion_eq_ok.mp hrow
  have hm := okOr_eq_ok.mp hm
  have hbacks : ∀ e ∈ m.entries, c.store.Backs m e :=
    fun e he => safe_backs hsound.inv hm he (hsafe e he)
  refine ⟨?_, okOr_eq_ok.mpr (hext.metaStore.manifests.lookup_eq hm), hbacks, ?_⟩
  · obtain ⟨row', hl', hev⟩ := hext.metaStore.versions v row hl
    rw [hev.of_committed hstate] at hl'
    exact getCurrentVersion_eq_ok.mpr ⟨hl', hstate⟩
  · intro hshort htotal x c'' hrun
    have hwf := validateManifest_ok_iff.mp (hsound.inv.metaStore.manifests _ m hm).valid
    have hensures : Ensures (safeDiscipline Safe) (overServer (reassemble m))
        (fun x _ _ => ∃ out, x = ok out ∧ out.data = c.store.assemble m) [] c'.store := by
      apply ensures_assemble (Env.sample 0 0) hwf hbacks hshort htotal _
        (fun get done t _ hr => safe_rangeGet (Env.sample 0 0) get done hr) hsound'.inv hext []
      intro e he reply hreply
      obtain ⟨obj, hobj, _⟩ := hbacks e he
      exact hreply (hsafe e he) obj hobj
    obtain ⟨_, hx⟩ := hrun.ensures (fun req s _ => safe_handle req s) spares_follows hsound'
      hensures
    exact hx

/-- The committed version of the sample run, after another object was deleted. -/
theorem faults_isolated_sample :
    letI := Sample.blake3
    letI := Sample.uuidCrate
    letI := Sample.wire
    letI := Sample.responseJson
    ∃ row c', Sample.server.store.metaStore.getCurrentVersion Sample.v1 = ok row ∧
      c'.store = Sample.server.store.fault (.delete (ChunkId.fromBytes Bytes.empty)) ∧
      c'.store.metaStore.getCurrentVersion Sample.v1 = ok row ∧
      c'.store.metaStore.getManifest row.manifestId = ok Sample.manifest ∧
      (∀ e ∈ Sample.manifest.entries, Sample.server.store.Backs Sample.manifest e) ∧
      ((∀ e ∈ Sample.manifest.entries, e.length.toNat < 2 ^ 32) →
        Sample.manifest.totalSize.toNat ≤ isizeMax →
        ∀ x c'', FaultyRun (fun id => id = Sample.chunk) (overServer (reassemble Sample.manifest))
          c' x c'' →
            ∃ out, x = ok out ∧ out.data = Sample.server.store.assemble Sample.manifest) := by
  let := Sample.blake3
  let := Sample.uuidCrate
  let := Sample.wire
  let := Sample.responseJson
  have hrow : Sample.server.store.metaStore.getCurrentVersion Sample.v1 =
      ok ⟨Sample.v1, Sample.file, none, ⟨⟨1⟩⟩, .committed, ⟨40⟩⟩ :=
    getCurrentVersion_eq_ok.mpr ⟨by decide +kernel, rfl⟩
  have hother : ChunkId.fromBytes Bytes.empty ≠ Sample.chunk := by decide +kernel
  have hdelete : Spares (fun id => id = Sample.chunk) Sample.server.store
      (Sample.server.store.fault (.delete (ChunkId.fromBytes Bytes.empty))) :=
    ⟨.delete (ChunkId.fromBytes Bytes.empty), hother, rfl⟩
  refine ⟨_, ⟨_, Sample.server.threads⟩, hrow, rfl, ?_⟩
  apply faults_isolated (faulty_of_steps Sample.server_reachable) (.single (.env hdelete)) hrow
    (okOr_eq_ok.mpr Sample.server_manifest)
  intro e he
  rw [List.mem_singleton.mp he]

/-! ## Section 5: What a read reports -/

/-- `get_range` past the end of the object. -/
def FakeObjectStore.pastEnd : SpaceError :=
  SpaceError.new .integrityLengthMismatch "requested range extends past the object"

/-- The errors of the object store that a read of an entry can meet. -/
def readErrors : List SpaceError :=
  [FakeObjectStore.noSuchChunk, FakeObjectStore.pastEnd, FakeObjectStore.hashMismatch]

section reports

variable [Blake3]

/-- What is wrong with an entry, for the object that is stored for it: there
    is none, it is too short, or one of the two verifications fails. -/
def ManifestEntry.wrong (m : Manifest) (e : ManifestEntry) : Option Bytes → Option SpaceError
  | none => some FakeObjectStore.noSuchChunk
  | some obj =>
    if obj.data.length < e.chunkOffset.toNat + e.length.toNat then some FakeObjectStore.pastEnd
    else if e.chunkOffset = 0 ∧ e.length.toNat = obj.data.length ∧ e.chunkId.verify obj = false then
      some FakeObjectStore.hashMismatch
    else if m.coversChunk e = true ∧ e.chunkId.verify (e.cutOf obj) = false then
      some (SpaceError.new .integrityHashMismatch
        "reassembled chunk does not match its content address")
    else none

/-- The first entry of a manifest with which something is wrong. -/
def AppState.firstWrong (s : AppState) (m : Manifest) : Option SpaceError :=
  m.entries.findSome? fun e => e.wrong m (s.blobs.inner.lookup e.chunkId)

theorem getRange_pastEnd {s : FakeObjectStore} {id : ChunkId} {obj : Bytes}
    (hl : s.inner.lookup id = some obj) {offset : UInt64} {length : UInt32}
    (hpast : obj.data.length < offset.toNat + length.toNat)
    (hlt : offset.toNat + length.toNat < 2 ^ 64) :
    s.getRange id offset length = err FakeObjectStore.pastEnd := by
  have hcast : length.toUInt64.toNat = length.toNat := rfl
  have hstop : checkedAdd offset length.toUInt64 = some (offset + length.toUInt64) :=
    checkedAdd_eq_some.mpr (toNat_add_of_lt hlt)
  have hgt : decide (offset + length.toUInt64 > obj.len) = true := by
    rw [decide_eq_true_eq, gt_iff_lt, UInt64.lt_iff_toNat_lt, toNat_add_of_lt hlt, hcast,
      Bytes.toNat_len]
    exact hpast
  unfold FakeObjectStore.getRange
  rw [hl, okOr_some, ok_bind, hstop, okOr_some, ok_bind, hgt]
  rfl

theorem getRange_unverified {s : FakeObjectStore} {id : ChunkId} {obj : Bytes}
    (hl : s.inner.lookup id = some obj) {offset : UInt64} {length : UInt32} (hoff : offset = 0)
    (hlen : length.toNat = obj.data.length) (hv : id.verify obj = false) :
    s.getRange id offset length = err FakeObjectStore.hashMismatch := by
  subst hoff
  have hsize : length.toUInt64 = obj.len := by
    rw [← UInt64.toNat_inj, Bytes.toNat_len]
    exact hlen
  have hstop : checkedAdd 0 obj.len = some obj.len := by
    apply checkedAdd_eq_some.mpr
    simp
  have hle : decide (obj.len > obj.len) = false := by simp
  unfold FakeObjectStore.getRange
  rw [hl, okOr_some, ok_bind, hsize, hstop, okOr_some, ok_bind, hle, hv]
  simp

variable [UuidCrate] [Wire] [ResponseJson] {env : Env} {m : Manifest} {s : AppState}

/-- An entry with which nothing is wrong gets a good reply. -/
theorem accepted_of_right {e : ManifestEntry} (hwf : m.WellFormed) (he : e ∈ m.entries)
    (hshort : e.length.toNat < 2 ^ 32) (h : e.wrong m (s.blobs.inner.lookup e.chunkId) = none) :
    Accepted m e (answer env s e.rangeGet)
      ((s.body e.chunkId).cut e.chunkOffset.toNat (e.chunkOffset.toNat + e.length.toNat)) := by
  unfold ManifestEntry.wrong at h
  cases hobj : s.blobs.inner.lookup e.chunkId with
  | none =>
    rw [hobj] at h
    cases h
  | some obj =>
    rw [hobj] at h
    dsimp only at h
    have hbody : s.body e.chunkId = obj := by
      unfold AppState.body
      rw [hobj, Option.getD_some]
    rw [hbody]
    apply (accepted_answer_iff env (hwf.entryIds e he) (hwf.inBounds he) hobj).mpr
    split_ifs at h with hpast hwhole hcovers
    refine ⟨hshort, Nat.not_lt.mp hpast, fun hoff hlen => ?_, fun hc => ?_, rfl⟩
    · by_contra hv
      exact hwhole ⟨hoff, hlen, by simpa using hv⟩
    · by_contra hv
      exact hcovers ⟨hc, by simpa [ManifestEntry.cutOf] using hv⟩

omit [UuidCrate] in
/-- An error of the object store reaches the caller as it is. -/
theorem round_of_store_error
    (hwire : ∀ e ∈ readErrors, Wire.decodeError (Wire.encodeError e) = some e)
    (e : ManifestEntry) {error : SpaceError} (h : error ∈ readErrors) (out : Bytes) :
    round m e out (toHttpReply (err error)) = err error := by
  have hstatus : isSuccess (statusFor error.code) = false := not_isSuccess_statusFor error.code
  show (rangeBody (statusFor error.code) (Wire.encodeError error) e.length >>= _) = err error
  rw [rangeBody, hstatus, hwire error h]
  rfl

/-- **A wrong entry is reported.** -/
theorem round_of_wrong (hwire : ∀ e ∈ readErrors, Wire.decodeError (Wire.encodeError e) = some e)
    {e : ManifestEntry} (hwf : m.WellFormed) (he : e ∈ m.entries)
    (hshort : e.length.toNat < 2 ^ 32) {error : SpaceError}
    (h : e.wrong m (s.blobs.inner.lookup e.chunkId) = some error) (out : Bytes) :
    round m e out (answer env s e.rangeGet) = err error := by
  have hid := hwf.entryIds e he
  have hbounds := hwf.inBounds he
  cases hobj : s.blobs.inner.lookup e.chunkId with
  | none =>
    rw [hobj] at h
    cases h
    have hanswer : answer env s e.rangeGet = toHttpReply (err FakeObjectStore.noSuchChunk) :=
      congrArg toHttpReply (serve_absent hid hobj _)
    rw [hanswer]
    exact round_of_store_error hwire e (by simp [readErrors]) out
  | some obj =>
    rw [hobj] at h
    unfold ManifestEntry.wrong at h
    dsimp only at h
    obtain ⟨n, range, hn, hanswer⟩ := answer_rangeGet env hid hbounds hobj
    rw [Nat.mod_eq_of_lt hshort] at hn
    rw [hanswer]
    split_ifs at h with hpast hwhole hcovers
    · cases h
      rw [getRange_pastEnd hobj (by rw [hn]; exact hpast) (by rw [hn]; exact hbounds.2), err_map]
      exact round_of_store_error hwire e (by simp [readErrors]) out
    · cases h
      obtain ⟨hoff, hlen, hv⟩ := hwhole
      rw [getRange_unverified hobj hoff (hn.trans hlen) hv, err_map]
      exact round_of_store_error hwire e (by simp [readErrors]) out
    · cases h
      obtain ⟨hcovers, hv⟩ := hcovers
      -- the object store sends the bytes, and the client does not believe them
      have hread : s.blobs.getRange e.chunkId e.chunkOffset n = ok (e.cutOf obj) := by
        apply FakeObjectStore.getRange_eq_ok.mpr
        rw [hn]
        refine ⟨obj, hobj, Nat.not_lt.mp hpast, fun hoff hlen => ?_, rfl⟩
        by_contra hno
        exact hwhole ⟨hoff, hlen, by simpa using hno⟩
      have hlength : (e.cutOf obj).len = e.length := by
        rw [← UInt64.toNat_inj, Bytes.toNat_len]
        show (obj.cut _ _).data.length = _
        rw [Bytes.length_cut (Nat.not_lt.mp hpast)]
        omega
      rw [hread, ok_map]
      show (rangeBody 206 (e.cutOf obj) e.length >>= fun bytes => storeEntry m e bytes out) = _
      have hbody : rangeBody 206 (e.cutOf obj) e.length = ok (e.cutOf obj) := by
        rw [rangeBody, hlength, bne_self_eq_false]
        rfl
      rw [hbody, ok_bind, storeEntry, hcovers, hv]
      rfl

/-- The loop stops at the first wrong entry. -/
theorem loop_of_wrong (hwire : ∀ e ∈ readErrors, Wire.decodeError (Wire.encodeError e) = some e)
    (hwf : m.WellFormed) (hreadable : m.Readable) {error : SpaceError} {rest : List ManifestEntry}
    {out : Bytes} {done : List UInt8} (hfilled : Filled m rest out done)
    (hrest : ∀ e ∈ rest, e ∈ m.entries)
    (h : rest.findSome? (fun e => e.wrong m (s.blobs.inner.lookup e.chunkId)) = some error)
    (n : Nat) :
    (reassembleLoop m rest out).feed (I := HttpI) (fun _ => answer env s) n = err error := by
  induction rest generalizing out done n with
  | nil => cases h
  | cons e rest ih =>
    have he := hrest e List.mem_cons_self
    have hshort := hreadable.2 e he
    rw [reassembleLoop_cons (hwf.inBounds he)]
    show (Fallible.onOk (reassembleLoop m rest) (round m e out (answer env s e.rangeGet))).feed
      (I := HttpI) (fun _ => answer env s) (n + 1) = err error
    rw [List.findSome?_cons] at h
    cases hwrong : e.wrong m (s.blobs.inner.lookup e.chunkId) with
    | some error' =>
      rw [hwrong] at h
      cases h
      rw [round_of_wrong hwire hwf he hshort hwrong]
      rfl
    | none =>
      rw [hwrong] at h
      obtain ⟨out', hround, hfilled'⟩ := hfilled.round (accepted_of_right hwf he hshort hwrong)
      rw [hround]
      exact ih hfilled' (fun e' he' => hrest e' (List.mem_cons_of_mem e he')) h (n + 1)

theorem readBack_of_wrong
    (hwire : ∀ e ∈ readErrors, Wire.decodeError (Wire.encodeError e) = some e)
    (hwf : m.WellFormed) (hreadable : m.Readable) {error : SpaceError}
    (h : s.firstWrong m = some error) : readBack env m s = err error := by
  obtain ⟨out, hout, _⟩ := Bytes.zeroed_of_le (ε := SpaceError) hreadable.1
  rw [readBack_eq, reassemble_of_wellFormed hwf, hout]
  exact loop_of_wrong hwire hwf hreadable (filled_zeroed hwf hout) (fun _ he => he) h 0

theorem readBack_of_right (hwf : m.WellFormed) (hreadable : m.Readable)
    (h : s.firstWrong m = none) : ∃ out, readBack env m s = ok out ∧ out.data = s.assemble m := by
  have hright := List.findSome?_eq_none_iff.mp h
  exact readBack_of_accepted hwf hreadable.1
    fun e he => accepted_of_right hwf he (hreadable.2 e he) (hright e he)

end reports

namespace Sample

/-- The wire, on the errors of the object store. -/
@[reducible] def readWire : Wire where
  encodeError := fun e =>
    if e.code = .chunkNotFound then errorJson "CHUNK_NOT_FOUND" e.message else wire.encodeError e
  decodeError := fun bytes =>
    if bytes = errorJson "CHUNK_NOT_FOUND" "no such chunk" then some FakeObjectStore.noSuchChunk
    else wire.decodeError bytes
  closed := wire.closed

theorem readWire_lawful :
    ∀ e ∈ readErrors, readWire.decodeError (readWire.encodeError e) = some e := by
  intro e he
  simp only [readErrors, List.mem_cons, List.not_mem_nil, or_false] at he
  rcases he with rfl | rfl | rfl
  · exact if_pos rfl
  · have hpast : readWire.encodeError FakeObjectStore.pastEnd ≠
        errorJson "CHUNK_NOT_FOUND" "no such chunk" := by decide +kernel
    have hhash : readWire.encodeError FakeObjectStore.pastEnd ≠
        errorJson "INTEGRITY_HASH_MISMATCH" hashMismatch.message := by decide +kernel
    exact (if_neg hpast).trans ((if_neg hhash).trans (if_pos rfl))
  · have hpast : readWire.encodeError FakeObjectStore.hashMismatch ≠
        errorJson "CHUNK_NOT_FOUND" "no such chunk" := by decide +kernel
    exact (if_neg hpast).trans (if_pos rfl)

end Sample

/-- The error that tells of a fault, for a chunk with the body `obj`; a fault
    beyond the end of the body changes nothing. -/
def Fault.report (obj : Bytes) : Fault → Option SpaceError
  | .delete _ => some FakeObjectStore.noSuchChunk
  | .damage (.truncate _ len) =>
    if len.toNat < obj.data.length then some FakeObjectStore.pastEnd else none
  | .damage (.corrupt _ i) =>
    if i.toNat < obj.data.length then some FakeObjectStore.hashMismatch else none

section single

variable [Blake3] {s : AppState} {m : Manifest}

/-- A stored chunk with nothing wrong. -/
theorem right_of_backs {e : ManifestEntry} (h : s.Backs m e) :
    e.wrong m (s.blobs.inner.lookup e.chunkId) = none := by
  obtain ⟨obj, hobj, hverify, hsize, hle⟩ := h
  rw [hobj]
  unfold ManifestEntry.wrong
  dsimp only
  rw [if_neg (Nat.not_lt.mpr hle), if_neg (by simp [hverify]), if_neg]
  intro hwrong
  obtain ⟨hcovers, hv⟩ := hwrong
  obtain ⟨hoff, hlen⟩ := coversChunk_iff.mp hcovers
  rw [hsize] at hlen
  have hall : e.cutOf obj = obj := by
    unfold ManifestEntry.cutOf
    rw [hoff, ← Option.some.inj hlen, Bytes.toNat_len, UInt64.toNat_zero, Nat.zero_add,
      Bytes.cut_all]
  rw [hall, hverify] at hv
  cases hv

/-- An entry that reads the whole of a chunk after the fault. -/
theorem wrong_of_fault {e : ManifestEntry} (h : s.Backs m e) (hcovers : m.coversChunk e = true)
    {d : Fault} (hd : d.target = e.chunkId) {obj : Bytes}
    (hobj : s.blobs.inner.lookup e.chunkId = some obj)
    (hflip : ∀ i < obj.data.length, Blake3.hash (obj.flip i).data ≠ Blake3.hash obj.data)
    {error : SpaceError} (hreport : d.report obj = some error) :
    e.wrong m ((s.fault d).blobs.inner.lookup e.chunkId) = some error := by
  obtain ⟨obj', hobj', hverify, hsize, _⟩ := h
  rw [hobj] at hobj'
  cases hobj'
  -- the entry reads all of the body
  obtain ⟨hoff, hlen⟩ := coversChunk_iff.mp hcovers
  rw [hsize] at hlen
  have hlength : e.length.toNat = obj.data.length := by
    rw [← Option.some.inj hlen, Bytes.toNat_len]
  have hoff' : e.chunkOffset.toNat = 0 := congrArg UInt64.toNat hoff
  cases d with
  | delete id =>
    cases hreport
    have hnone : (s.fault (.delete id)).blobs.inner.lookup e.chunkId = none := by
      show (s.blobs.inner.erase id).lookup e.chunkId = none
      rw [Table.lookup_erase_ite]
      exact if_pos hd.symm
    rw [hnone]
    rfl
  | damage d =>
    have hlookup : (s.fault (.damage d)).blobs.inner.lookup e.chunkId =
        some (d.apply e.chunkId obj) := by
      show (s.blobs.damage d).inner.lookup e.chunkId = _
      rw [FakeObjectStore.lookup_damage, hobj, Option.map_some]
    rw [hlookup]
    unfold ManifestEntry.wrong
    dsimp only
    cases d with
    | truncate id len =>
      obtain ⟨hlt, heq⟩ := Option.ite_none_right_eq_some.mp hreport
      rw [← heq]
      have hcut : ((Damage.truncate id len).apply e.chunkId obj).data = obj.data.take len.toNat :=
        congrArg Bytes.data (if_pos hd)
      rw [hcut, List.length_take]
      exact if_pos (by omega)
    | corrupt id i =>
      obtain ⟨hlt, heq⟩ := Option.ite_none_right_eq_some.mp hreport
      rw [← heq]
      have hflipped : (Damage.corrupt id i).apply e.chunkId obj = obj.flip i.toNat := if_pos hd
      rw [hflipped, Bytes.length_flip, if_neg (by omega)]
      apply if_pos
      refine ⟨hoff, hlength, ?_⟩
      by_contra hv
      have hv : e.chunkId.verify (obj.flip i.toNat) = true := by simpa using hv
      apply hflip i.toNat hlt
      apply ChunkId.fromBytes_inj.mp
      rw [← ChunkId.verify_iff.mp hv, ← ChunkId.verify_iff.mp hverify]

/-- A fault beyond the end of the body changes nothing. -/
theorem fault_of_no_report {d : Fault} {obj : Bytes}
    (hobj : s.blobs.inner.lookup d.target = some obj) (hreport : d.report obj = none) :
    s.fault d = s := by
  cases d with
  | delete id => cases hreport
  | damage d =>
    have hsame : d.apply (Fault.damage d).target obj = obj := by
      apply Bytes.ext
      cases d with
      | truncate id len =>
        have hle : ¬ len.toNat < obj.data.length := by
          intro hlt
          rw [Fault.report, if_pos hlt] at hreport
          cases hreport
        have happly : (Damage.truncate id len).apply id obj = obj.truncate len.toNat := if_pos rfl
        show ((Damage.truncate id len).apply id obj).data = obj.data
        rw [happly]
        exact List.take_of_length_le (Nat.not_lt.mp hle)
      | corrupt id i =>
        have hle : ¬ i.toNat < obj.data.length := by
          intro hlt
          rw [Fault.report, if_pos hlt] at hreport
          cases hreport
        have happly : (Damage.corrupt id i).apply id obj = obj.flip i.toNat := if_pos rfl
        show ((Damage.corrupt id i).apply id obj).data = obj.data
        rw [happly]
        exact List.modify_eq_self (Nat.not_lt.mp hle)
    have hinner : (s.blobs.damage d).inner = s.blobs.inner := by
      apply Finmap.ext_lookup
      intro id
      by_cases hid : (Fault.damage d).target = id
      · subst hid
        rw [FakeObjectStore.lookup_damage, hobj, Option.map_some, hsame]
      · exact lookup_fault (s := s) hid
    show AppState.mk s.metaStore (s.blobs.damage d) = s
    have hblobs : s.blobs.damage d = s.blobs := congrArg FakeObjectStore.mk hinner
    rw [hblobs]

end single

/-- The first of the entries that are wrong, when all of these are wrong in
    one way. -/
theorem findSome?_of_same {α β : Type} {f : α → Option β} {b : β} {l : List α}
    (hsome : ∃ a ∈ l, f a = some b) (hall : ∀ a ∈ l, f a = none ∨ f a = some b) :
    l.findSome? f = some b := by
  cases h : l.findSome? f with
  | none =>
    obtain ⟨a, ha, hfa⟩ := hsome
    rw [List.findSome?_eq_none_iff.mp h a ha] at hfa
    cases hfa
  | some b' =>
    obtain ⟨a, ha, hfa⟩ := List.exists_of_findSome?_eq_some h
    rcases hall a ha with hnone | hsame
    · rw [hnone] at hfa
      cases hfa
    · exact hfa.symm.trans hsame

/-- **One fault is reported for what it is**, in a file that reads its chunks
    whole: a missing body, one that was cut off and one with a flipped byte
    each have their own error. A fault beyond the end of the body leaves the
    file readable. -/
theorem fault_reported [Blake3] [UuidCrate] [Wire] [ResponseJson]
    (hwire : ∀ e ∈ readErrors, Wire.decodeError (Wire.encodeError e) = some e) (env : Env)
    {c : Server} (h : c.Reachable) {key : ManifestId} {m : Manifest}
    (hm : c.store.metaStore.manifests.lookup key = some m) (hreadable : m.Readable)
    (hwhole : ∀ e ∈ m.entries, m.coversChunk e = true) {d : Fault}
    (hd : ∃ e ∈ m.entries, e.chunkId = d.target) {obj : Bytes}
    (hobj : c.store.blobs.inner.lookup d.target = some obj)
    (hflip : ∀ i < obj.data.length, Blake3.hash (obj.flip i).data ≠ Blake3.hash obj.data) :
    (∀ error, d.report obj = some error → readBack env m (c.store.fault d) = err error) ∧
      (d.report obj = none → ∃ out, readBack env m (c.store.fault d) = ok out ∧
        out.data = c.store.assemble m) := by
  have hinv := (sound_reachable h).inv
  have hwf := validateManifest_ok_iff.mp (hinv.metaStore.manifests key m hm).valid
  have hbacks : ∀ e ∈ m.entries, c.store.Backs m e := fun e he => backs_stored hinv hm he
  constructor
  · intro error hreport
    have hwrong : ∀ e ∈ m.entries, e.chunkId = d.target →
        e.wrong m ((c.store.fault d).blobs.inner.lookup e.chunkId) = some error := by
      intro e he hid
      rw [← hid] at hobj
      exact wrong_of_fault (hbacks e he) (hwhole e he) hid.symm hobj hflip hreport
    apply readBack_of_wrong hwire hwf hreadable
    apply findSome?_of_same
    · obtain ⟨e, he, hid⟩ := hd
      exact ⟨e, he, hwrong e he hid⟩
    · intro e he
      by_cases hid : e.chunkId = d.target
      · exact .inr (hwrong e he hid)
      · left
        rw [lookup_fault (Ne.symm hid)]
        exact right_of_backs (hbacks e he)
  · intro hreport
    rw [fault_of_no_report hobj hreport]
    apply readBack_of_right hwf hreadable
    apply List.findSome?_eq_none_iff.mpr
    exact fun e he => right_of_backs (hbacks e he)

/-- The chunk of the sample run is deleted. -/
theorem fault_reported_sample :
    letI := Sample.blake3
    letI := Sample.uuidCrate
    letI := Sample.readWire
    letI := Sample.responseJson
    (∀ error, (Fault.delete Sample.chunk).report Sample.abc = some error →
        readBack (Env.sample 0 0) Sample.manifest
          (Sample.server.store.fault (.delete Sample.chunk)) = err error) ∧
      ((Fault.delete Sample.chunk).report Sample.abc = none →
        ∃ out, readBack (Env.sample 0 0) Sample.manifest
          (Sample.server.store.fault (.delete Sample.chunk)) = ok out ∧
            out.data = Sample.server.store.assemble Sample.manifest) := by
  let := Sample.blake3
  let := Sample.uuidCrate
  let := Sample.readWire
  let := Sample.responseJson
  have hobj : Sample.server.store.blobs.inner.lookup Sample.chunk = some Sample.abc := by
    decide +kernel
  have hflip : ∀ i < Sample.abc.data.length,
      Blake3.hash (Sample.abc.flip i).data ≠ Blake3.hash Sample.abc.data := by decide
  exact fault_reported Sample.readWire_lawful (Env.sample 0 0) Sample.server_reachable
    Sample.server_manifest ⟨by decide, by decide⟩ (by decide) ⟨_, List.mem_singleton_self _, rfl⟩
    hobj hflip

end Space
