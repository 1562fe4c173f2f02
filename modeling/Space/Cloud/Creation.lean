import Space.Cloud.System

/-! # Files are created once

    `create_file` looks up its idempotency key and adds a file under a new
    id while it holds the lock. The keys and the file rows therefore belong
    to each other one to one (`Inner.OneToOne`), and a row has the parent
    and the name of a request that has arrived with its key (`Requested`).

    `created_once` puts the two together, for every interleaving: however
    often and at whatever times a creation is repeated, one file comes of
    each key. -/

namespace Space

open Rust Outcome Data Effects MetaOp

/-! ## Section 1: Keys and files -/

/-- Every key has a file of its own, and every file has a key. -/
structure Inner.OneToOne (g : Inner) : Prop where
  injective : ∀ key key' id, g.fileIdempotency.lookup key = some id →
    g.fileIdempotency.lookup key' = some id → key = key'
  keyed : ∀ id file, g.files.lookup id = some file →
    ∃ key, g.fileIdempotency.lookup key = some id

theorem oneToOne_new : Inner.new.OneToOne where
  injective := fun _ _ _ h => by cases h
  keyed := fun _ _ h => by cases h

section keys

variable {env : Env} {g g' : Inner} {op : MetaOp} {a : op.Value}

theorem fileIdempotency_commit (env : Env) (g : Inner) (v : VersionId) (version : Version) :
    (g.commit env v version).fileIdempotency = g.fileIdempotency := by
  unfold Inner.commit Inner.setCurrent
  dsimp only
  cases g.files.lookup version.fileId <;> rfl

/-- Only `create_file` adds a key, and with it its file. -/
theorem writes_fileIdempotency (hw : Writes env g op a g') :
    g'.fileIdempotency = g.fileIdempotency ∨
      ∃ parentId name key, op = .createFile parentId name key ∧
        g.fileIdempotency.lookup key = none ∧
          g' = g.addFile key (Inner.freshFile env parentId name) := by
  cases hw with
  | file _ hkey => exact .inr ⟨_, _, _, rfl, hkey, rfl⟩
  | chunk _ _ => exact .inl rfl
  | manifest _ _ _ => exact .inl rfl
  | version _ _ => exact .inl rfl
  | commit _ _ => exact .inl (fileIdempotency_commit env g _ _)

/-- A file that a write other than `create_file` leaves was there before. -/
theorem writes_files (h : MetaInv g) (hw : Writes env g op a g')
    (hsame : g'.fileIdempotency = g.fileIdempotency) {id : FileId} {file : File}
    (hfile : g'.files.lookup id = some file) : ∃ before, g.files.lookup id = some before := by
  cases hw with
  | @file parentId name key _ hkey =>
    have hadded : (g.addFile key (Inner.freshFile env parentId name)).fileIdempotency.lookup key =
        some env.newId := Finmap.lookup_insert _
    rw [hsame, hkey] at hadded
    cases hadded
  | chunk _ _ => exact ⟨file, hfile⟩
  | manifest _ _ _ => exact ⟨file, hfile⟩
  | version _ _ => exact ⟨file, hfile⟩
  | @commit v row hl _ =>
    obtain ⟨before, hbefore⟩ := (h.versions v row hl).file
    rw [commit_eq hbefore, Table.lookup_insert_ite] at hfile
    by_cases hid : id = row.fileId
    · rw [hid]
      exact ⟨before, hbefore⟩
    · rw [if_neg hid] at hfile
      exact ⟨file, hfile⟩

theorem Inner.OneToOne.addFile (h : g.OneToOne) (hinv : MetaInv g) {key : String} {file : File}
    (hnokey : g.fileIdempotency.lookup key = none)
    (hnew : g.files.lookup file.fileId = none) : (g.addFile key file).OneToOne := by
  -- the id of a key that was there before is the id of a file that was
  have hold : ∀ key', g.fileIdempotency.lookup key' ≠ some file.fileId := by
    intro key' hkey'
    obtain ⟨before, hbefore⟩ := hinv.keys key' _ hkey'
    rw [hnew] at hbefore
    cases hbefore
  constructor
  · intro k k' id hk hk'
    simp only [Inner.addFile, Table.lookup_insert_ite] at hk hk'
    by_cases hkey : k = key
    · by_cases hkey' : k' = key
      · rw [hkey, hkey']
      · rw [if_pos hkey] at hk
        rw [if_neg hkey'] at hk'
        cases hk
        exact absurd hk' (hold k')
    · rw [if_neg hkey] at hk
      by_cases hkey' : k' = key
      · rw [if_pos hkey'] at hk'
        cases hk'
        exact absurd hk (hold k)
      · rw [if_neg hkey'] at hk'
        exact h.injective k k' id hk hk'
  · intro id row hrow
    simp only [Inner.addFile, Table.lookup_insert_ite] at hrow ⊢
    by_cases hid : id = file.fileId
    · refine ⟨key, ?_⟩
      rw [if_pos rfl, hid]
    · rw [if_neg hid] at hrow
      obtain ⟨k, hk⟩ := h.keyed id row hrow
      have hne : k ≠ key := by
        intro heq
        rw [heq, hnokey] at hk
        cases hk
      refine ⟨k, ?_⟩
      rw [if_neg hne]
      exact hk

/-- **The row of a key after a write**: one that was there before, or the one
    that the write has created. -/
theorem writes_row (hinv : MetaInv g) (hw : Writes env g op a g') (hfresh : op.Fresh env g)
    {key : String} {id : FileId} {file : File}
    (hkey : g'.fileIdempotency.lookup key = some id) (hfile : g'.files.lookup id = some file) :
    (∃ before, g.fileIdempotency.lookup key = some id ∧ g.files.lookup id = some before ∧
      before.Evolves file) ∨ op = .createFile file.parentId file.name key := by
  rcases writes_fileIdempotency hw with hsame | ⟨parentId, name, key', rfl, hnokey, rfl⟩
  · -- the key was there before, and so was its file
    rw [hsame] at hkey
    obtain ⟨before, hbefore⟩ := hinv.keys key id hkey
    obtain ⟨file', hfile', hev⟩ := (writes_extends hw hfresh).files id before hbefore
    rw [hfile] at hfile'
    cases hfile'
    exact .inl ⟨before, hkey, hbefore, hev⟩
  · simp only [Inner.addFile, Table.lookup_insert_ite] at hkey hfile
    by_cases heq : key = key'
    · rw [if_pos heq] at hkey
      cases hkey
      rw [if_pos rfl] at hfile
      cases hfile
      rw [heq]
      exact .inr rfl
    · rw [if_neg heq] at hkey
      obtain ⟨before, hbefore⟩ := hinv.keys key id hkey
      have hnew : g.files.lookup env.newId = none := hfresh hnokey
      have hne : id ≠ (Inner.freshFile env parentId name).fileId := by
        intro hid
        rw [hid] at hbefore
        exact absurd (hnew.symm.trans hbefore) nofun
      rw [if_neg hne] at hfile
      exact .inl ⟨file, hkey, hfile, .refl file⟩

/-- **A write keeps keys and files one to one.** -/
theorem writes_oneToOne (h : g.OneToOne) (hinv : MetaInv g) (hw : Writes env g op a g')
    (hfresh : op.Fresh env g) : g'.OneToOne := by
  rcases writes_fileIdempotency hw with hsame | ⟨parentId, name, key, rfl, hkey, rfl⟩
  · constructor
    · rw [hsame]
      exact h.injective
    · intro id file hfile
      obtain ⟨before, hbefore⟩ := writes_files hinv hw hsame hfile
      rw [hsame]
      exact h.keyed id before hbefore
  · exact h.addFile hinv hkey (hfresh hkey)

end keys

/-! ## Section 2: What one call does -/

section server

variable [Blake3]

/-- The row of a key: one that was there before, or the one that this call
    has created. -/
def RowOf (op : StoreOp) (s : AppState) (key : String) (file : File) : Prop :=
  (∃ id before, s.metaStore.fileIdempotency.lookup key = some id ∧
    s.metaStore.files.lookup id = some before ∧ before.Evolves file) ∨
    op = .metadata (.createFile file.parentId file.name key)

/-- **One call** keeps keys and files one to one, and each row has its parent
    and its name from before or from the call. -/
theorem step_oneToOne {op : StoreOp} {s s' : AppState} {r : Res op.Value} (h : AppInv s)
    (hone : s.metaStore.OneToOne) (hs : StoreOp.Step op s r s') :
    s'.metaStore.OneToOne ∧ ∀ key id file, s'.metaStore.fileIdempotency.lookup key = some id →
      s'.metaStore.files.lookup id = some file → RowOf op s key file := by
  have hkept : s'.metaStore = s.metaStore → s'.metaStore.OneToOne ∧
      ∀ key id file, s'.metaStore.fileIdempotency.lookup key = some id →
        s'.metaStore.files.lookup id = some file → RowOf op s key file := by
    intro heq
    rw [heq]
    exact ⟨hone, fun key id file hkey hfile => .inl ⟨id, file, hkey, hfile, .refl file⟩⟩
  obtain ⟨env, hfresh, heq⟩ := hs
  cases op with
  | blobs op =>
    cases heq
    exact hkept rfl
  | metadata op =>
    cases heq
    have hcall := exec_call env s.metaStore op
    show (op.exec env s.metaStore).2.OneToOne ∧ ∀ key id file, _ → _ → _
    replace hkept : (op.exec env s.metaStore).2 = s.metaStore → _ := hkept
    generalize (op.exec env s.metaStore).1 = reply at hcall
    generalize (op.exec env s.metaStore).2 = g' at hcall hkept
    cases hcall with
    | refused e => exact hkept rfl
    | dangling _ => exact hkept rfl
    | found _ => exact hkept rfl
    | wrote hw =>
      refine ⟨writes_oneToOne hone h.metaStore hw hfresh, fun key id file hkey hfile => ?_⟩
      rcases writes_row h.metaStore hw hfresh hkey hfile with ⟨before, hkey, hbefore, hev⟩ | hop
      · exact .inl ⟨id, before, hkey, hbefore, hev⟩
      · exact .inr (congrArg StoreOp.metadata hop)

variable [UuidCrate]

/-- The call is made for the creation it belongs to. -/
def StoreOp.CreatesFor (req : Request) (op : StoreOp) : Prop :=
  ∀ parentId name key, op = .metadata (.createFile parentId name key) →
    req = .createFile ⟨parentId, name, key⟩

omit [Blake3] in
/-- Only the handler of a creation creates a file, and the one that was
    asked for. -/
theorem only_createsFor (req : Request) :
    (Api.handle req).Only (StoreOp.CreatesFor req) := by
  cases hreq : Api.metaCall req with
  | some x =>
    rw [Api.handle_of_metaCall hreq]
    cases x with
    | err e => exact trivial
    | panic => exact trivial
    | ok call =>
      refine ⟨?_, fun r => Fallible.only_onOk fun _ _ => trivial⟩
      intro parentId name key hop
      have hop : call.op = .createFile parentId name key := StoreOp.metadata.inj hop
      cases req with
      | createFile req =>
        cases hreq
        cases hop
        rfl
      | putChunk text body => cases hreq
      | getChunk text range => cases hreq
      | putManifest text req =>
        obtain ⟨id, _, hrest⟩ := bind_eq_ok.mp (Option.some.inj hreq)
        obtain ⟨_, hcall⟩ := seq_eq_ok.mp hrest
        cases hcall
        cases hop
      | _ =>
        obtain ⟨id, _, hcall⟩ := bind_eq_ok.mp (Option.some.inj hreq)
        cases hcall
        cases hop
  | none =>
    have hblobs : ∀ op : BlobOp, StoreOp.CreatesFor req (.blobs op) := fun _ _ _ _ h => by cases h
    cases req with
    | putChunk text body =>
      simp only [Api.handle, Api.putChunk, Api.callBlobs, Api.callMeta, Prog.perform,
        ↓Fallible.bind_eq, ↓Fallible.lift_eq, ↓Fallible.pure_eq, Prog.bind_ret, Prog.bind_call]
      refine Fallible.only_onOk fun id _ => ⟨hblobs _, fun _ => Fallible.only_onOk fun _ _ => ?_⟩
      exact ⟨fun _ _ _ h => (by cases h), fun _ => Fallible.only_onOk fun _ _ => trivial⟩
    | getChunk text range =>
      simp only [Api.handle, Api.getChunk, Api.getChunkRange, Api.callBlobs, Prog.perform,
        ↓Fallible.bind_eq, ↓Fallible.lift_eq, Prog.bind_ret, Prog.bind_call]
      refine Fallible.only_onOk fun id _ => ⟨hblobs _, fun _ => Fallible.only_onOk fun size _ => ?_⟩
      cases range with
      | none => exact ⟨hblobs _, fun _ => Fallible.only_onOk fun _ _ => trivial⟩
      | some range =>
        refine Fallible.only_onOk fun p _ => Fallible.only_onOk fun n _ => ?_
        exact ⟨hblobs _, fun _ => Fallible.only_onOk fun _ _ => trivial⟩
    | _ => cases hreq

/-! ## Section 3: Runs -/

/-- Each row has the parent and the name of a request with its key. -/
def Requested (c : Server) : Prop :=
  ∀ key id file, c.store.metaStore.fileIdempotency.lookup key = some id →
    c.store.metaStore.files.lookup id = some file →
      ∃ t ∈ c.threads, t.req = .createFile ⟨file.parentId, file.name, key⟩

/-- **In every run** keys and files are one to one, and each row was asked
    for. -/
theorem requested_reachable {c : Server} (h : c.Reachable) :
    c.store.metaStore.OneToOne ∧ Requested c := by
  induction h with
  | refl => exact ⟨oneToOne_new, fun _ _ _ hkey => by cases hkey⟩
  | @tail c₁ c₂ hs hstep ih =>
    obtain ⟨hone, hrequested⟩ := ih
    have hinv := (sound_reachable hs).inv
    have htrack : Pool.OnTrack Api.handle c₁ := Pool.OnTrack.steps (fun t ht => by cases ht) hs
    have hkept : ∀ req, (∃ t ∈ c₁.threads, t.req = req) → ∃ t ∈ c₂.threads, t.req = req :=
      fun req => hstep.request
    cases hstep with
    | arrive req =>
      refine ⟨hone, fun key id file hkey hfile => ?_⟩
      exact hkept _ (hrequested key id file hkey hfile)
    | call i t op k r s' hi hp hcall =>
      obtain ⟨hone', hrow⟩ := step_oneToOne hinv hone hcall
      refine ⟨hone', fun key id file hkey hfile => ?_⟩
      refine hkept _ ?_
      rcases hrow key id file hkey hfile with ⟨id₀, before, hkey₀, hfile₀, hev⟩ | hop
      · rw [hev.parentId, hev.name]
        exact hrequested key id₀ before hkey₀ hfile₀
      · have hmem := List.mem_of_getElem? hi
        have honly := (only_createsFor t.req).residual (htrack t hmem)
        rw [hp] at honly
        exact ⟨t, hmem, honly.1 _ _ _ hop⟩

/-! ## Section 4: Answers -/

/-- The file belongs to the key, and is what its row was when it was
    returned. -/
structure Created (s : AppState) (key : String) (file : File) : Prop where
  key : s.metaStore.fileIdempotency.lookup key = some file.fileId
  row : ∃ row, s.metaStore.files.lookup file.fileId = some row ∧ file.Evolves row

omit [Blake3] [UuidCrate] in
theorem Created.mono {s s' : AppState} {key : String} {file : File} (h : Created s key file)
    (hext : s.Extends s') : Created s' key file where
  key := hext.metaStore.fileIdempotency.lookup_eq h.key
  row := by
    obtain ⟨row, hrow, hev⟩ := h.row
    obtain ⟨row', hrow', hev'⟩ := hext.metaStore.files _ row hrow
    exact ⟨row', hrow', hev.trans hev'⟩

/-- A creation returns the file of its key. -/
def CreationPost (req : Request) (x : Res Response) (s : AppState) : Prop :=
  ∀ r file, req = .createFile r → x = ok (.file ⟨contractVersion, file⟩) →
    Created s r.idempotencyKey file

theorem ensures_creation (req : Request) (s : AppState) :
    Ensures serverDiscipline (Api.handle req) (fun x _ t => CreationPost req x t) [] s := by
  cases req with
  | createFile r =>
    intro s₁ _ hinv
    refine ⟨trivial, fun reply s₂ hs => ?_⟩
    obtain ⟨env, _, heq⟩ := hs
    cases heq
    have hcall := exec_call env s₁.metaStore (.createFile r.parentId r.name r.idempotencyKey)
    show Ensures serverDiscipline (Fallible.onOk _ ((MetaOp.createFile r.parentId r.name
      r.idempotencyKey).exec env s₁.metaStore).1) _ _ ⟨((MetaOp.createFile r.parentId r.name
        r.idempotencyKey).exec env s₁.metaStore).2, s₁.blobs⟩
    generalize ((MetaOp.createFile r.parentId r.name r.idempotencyKey).exec env
      s₁.metaStore).1 = reply at hcall
    generalize ((MetaOp.createFile r.parentId r.name r.idempotencyKey).exec env
      s₁.metaStore).2 = g' at hcall
    cases hcall with
    | refused e =>
      intro s₃ _ _ r' file _ hx
      cases hx
    | dangling _ =>
      intro s₃ _ _ r' file _ hx
      cases hx
    | found hfound =>
      obtain ⟨_, id, hkey, hfile⟩ := hfound
      intro s₃ hext _ r' file hr hx
      cases hr
      cases hx
      have hid := (hinv.metaStore.files id _ hfile).id
      subst hid
      exact Created.mono (s := ⟨s₁.metaStore, s₁.blobs⟩) ⟨hkey, _, hfile, .refl _⟩ hext
    | wrote hw =>
      cases hw with
      | file _ _ =>
        intro s₃ hext _ r' file hr hx
        cases hr
        cases hx
        exact Created.mono
          ⟨Finmap.lookup_insert _, _, Finmap.lookup_insert _, .refl _⟩ hext
  | _ =>
    refine (ensures_handle _ s).conseq ?_
    intro x tr t _ _ r file hr _
    cases hr

theorem created_of_answered {c : Server} (h : c.Reachable) {r : CreateFileRequest} {file : File}
    (ha : c.Answered (.createFile r) (ok (.file ⟨contractVersion, file⟩))) :
    Created c.store r.idempotencyKey file := by
  have hinit : Pool.Sound serverDiscipline (fun req x _ t => CreationPost req x t) Server.init :=
    ⟨appInv_default, fun t ht => by cases ht⟩
  obtain ⟨_, hpost⟩ :=
    (hinit.steps (fun req s _ => ensures_creation req s) h).1.answered ha
  exact hpost r file rfl rfl

end server

/-! ## Section 5: The result -/

/-- **Files are created once.** In every run each file has one key, and the
    parent and the name of a request with that key; and two creations that
    succeeded have returned the same file exactly when their keys are the
    same, whatever else they asked for. -/
theorem created_once [UuidCrate] [Blake3] {c : Server} (h : c.Reachable) :
    (∀ id file, c.store.metaStore.files.lookup id = some file → ∃ r : CreateFileRequest,
      (∃ t ∈ c.threads, t.req = .createFile r) ∧ file.parentId = r.parentId ∧
        file.name = r.name ∧
          ∀ key, c.store.metaStore.fileIdempotency.lookup key = some id ↔
            key = r.idempotencyKey) ∧
    ∀ r r' file file', c.Answered (.createFile r) (ok (.file ⟨contractVersion, file⟩)) →
      c.Answered (.createFile r') (ok (.file ⟨contractVersion, file'⟩)) →
        (file.fileId = file'.fileId ↔ r.idempotencyKey = r'.idempotencyKey) ∧
          (file.fileId = file'.fileId → file.parentId = file'.parentId ∧
            file.name = file'.name ∧ file.createdAt = file'.createdAt) := by
  obtain ⟨hone, hrequested⟩ := requested_reachable h
  constructor
  · intro id file hfile
    obtain ⟨key, hkey⟩ := hone.keyed id file hfile
    refine ⟨⟨file.parentId, file.name, key⟩, hrequested key id file hkey hfile, rfl, rfl, ?_⟩
    intro key'
    constructor
    · intro hkey'
      exact hone.injective key' key id hkey' hkey
    · rintro rfl
      exact hkey
  · intro r r' file file' ha ha'
    obtain ⟨hkey, row, hrow, hev⟩ := created_of_answered h ha
    obtain ⟨hkey', row', hrow', hev'⟩ := created_of_answered h ha'
    refine ⟨⟨fun hid => ?_, fun hsame => ?_⟩, fun hid => ?_⟩
    · rw [hid] at hkey
      exact hone.injective _ _ _ hkey hkey'
    · rw [hsame, hkey'] at hkey
      exact (Option.some.inj hkey).symm
    · -- both were the same row at some time
      rw [hid, hrow'] at hrow
      cases hrow
      exact ⟨hev.parentId.symm.trans hev'.parentId, hev.name.symm.trans hev'.name,
        hev.createdAt.symm.trans hev'.createdAt⟩

/-- The sample run has created one file. -/
theorem created_once_sample :
    letI := Sample.blake3
    letI := Sample.uuidCrate
    ∃ r : CreateFileRequest, (∃ t ∈ Sample.server.threads, t.req = .createFile r) ∧
      ∀ key, Sample.server.store.metaStore.fileIdempotency.lookup key = some Sample.file ↔
        key = r.idempotencyKey := by
  let := Sample.blake3
  let := Sample.uuidCrate
  have hfile : ∃ file, Sample.server.store.metaStore.files.lookup Sample.file = some file :=
    Option.isSome_iff_exists.mp (by decide +kernel)
  obtain ⟨file, hfile⟩ := hfile
  obtain ⟨r, hthread, _, _, hkeys⟩ :=
    (created_once Sample.server_reachable).1 Sample.file file hfile
  exact ⟨r, hthread, hkeys⟩

end Space
