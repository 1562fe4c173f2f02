import Space.Client.Reassemble

/-! # Reading from a damaged store

    The bodies in the object store are damaged after they were uploaded:
    bytes are flipped and tails are cut off. Two places verify what is read.
    The object store verifies a read of the whole object, and the client a
    read of the whole chunk; a read of a part of a chunk is verified by
    neither.

    `damage_detected_iff` says what that comes to. Damage is noticed for
    exactly the manifests that read each of their chunks whole at least
    once: that one read vouches for the bytes of all other entries. -/

namespace Space

open Rust Outcome Data Effects

/-! ## Section 1: What damage does to an object -/

/-- What a test hook does to the object stored under `id`. -/
def Damage.apply (id : ChunkId) (obj : Bytes) : Damage → Bytes
  | .corrupt id' i => if id' = id then obj.flip i.toNat else obj
  | .truncate id' len => if id' = id then obj.truncate len.toNat else obj

theorem Damage.length_apply_le (id : ChunkId) (obj : Bytes) (d : Damage) :
    (d.apply id obj).data.length ≤ obj.data.length := by
  cases d with
  | corrupt id' i =>
    by_cases hid : id' = id
    · simp [Damage.apply, hid, Bytes.length_flip]
    · simp [Damage.apply, hid]
  | truncate id' len =>
    by_cases hid : id' = id
    · simp [Damage.apply, hid, Bytes.length_truncate_le]
    · simp [Damage.apply, hid]

namespace FakeObjectStore

variable {s : FakeObjectStore} {id : ChunkId}

/-- A hook rewrites the object it is called for, if there is one. -/
theorem lookup_rewritten {s' : FakeObjectStore} {id' : ChunkId} {f : Bytes → Bytes}
    (hsome : ∀ obj, s.inner.lookup id' = some obj → s' = ⟨s.inner.insert id' (f obj)⟩)
    (hnone : s.inner.lookup id' = none → s' = s) :
    s'.inner.lookup id =
      (s.inner.lookup id).map fun obj => if id' = id then f obj else obj := by
  by_cases hid : id' = id
  · subst hid
    cases hl : s.inner.lookup id' with
    | none =>
      rw [hnone hl, hl]
      rfl
    | some obj =>
      rw [hsome obj hl]
      simp [Finmap.lookup_insert]
  · cases hl : s.inner.lookup id' with
    | none =>
      rw [hnone hl]
      simp [hid]
    | some obj =>
      rw [hsome obj hl]
      simp [hid, Ne.symm hid]

theorem lookup_damage (s : FakeObjectStore) (id : ChunkId) (d : Damage) :
    (s.damage d).inner.lookup id = (s.inner.lookup id).map fun obj => d.apply id obj := by
  cases d with
  | corrupt id' i =>
    refine lookup_rewritten (fun obj hobj => ?_) fun hnone => ?_
    · simp only [damage, corruptForTest, hobj]
    · simp only [damage, corruptForTest, hnone]
  | truncate id' len =>
    refine lookup_rewritten (fun obj hobj => ?_) fun hnone => ?_
    · simp only [damage, truncateForTest, hobj]
    · simp only [damage, truncateForTest, hnone]

/-- Damage keeps every object and never makes one longer. -/
theorem lookup_damageAll {obj : Bytes} (ds : List Damage) (h : s.inner.lookup id = some obj) :
    ∃ obj', (s.damageAll ds).inner.lookup id = some obj' ∧
      obj'.data.length ≤ obj.data.length := by
  induction ds generalizing s obj with
  | nil => exact ⟨obj, h, Nat.le_refl _⟩
  | cons d ds ih =>
    have hd : (s.damage d).inner.lookup id = some (d.apply id obj) := by
      rw [lookup_damage, h, Option.map_some]
    obtain ⟨obj', hobj', hle⟩ := ih hd
    exact ⟨obj', hobj', Nat.le_trans hle (d.length_apply_le id obj)⟩

/-- One flipped byte. -/
theorem lookup_corrupt (s : FakeObjectStore) (id id' : ChunkId) (i : UInt64) :
    (s.damageAll [.corrupt id i]).inner.lookup id' =
      if id = id' then (s.inner.lookup id').map fun obj => obj.flip i.toNat
      else s.inner.lookup id' := by
  show (s.damage (.corrupt id i)).inner.lookup id' = _
  rw [lookup_damage]
  by_cases hid : id = id'
  · simp [Damage.apply, hid]
  · simp [Damage.apply, hid]

end FakeObjectStore

section damage

variable [Blake3]

/-- BLAKE3 tells every damaged body from the one it came from. -/
def CollisionFree (s s' : FakeObjectStore) : Prop :=
  ∀ id obj obj', s.inner.lookup id = some obj → s'.inner.lookup id = some obj' →
    Blake3.hash obj'.data = Blake3.hash obj.data → obj' = obj

theorem collisionFree_corrupt {s : FakeObjectStore} {id : ChunkId} {i : UInt64}
    (h : ∀ obj, s.inner.lookup id = some obj →
      Blake3.hash (obj.flip i.toNat).data ≠ Blake3.hash obj.data) :
    CollisionFree s (s.damageAll [.corrupt id i]) := by
  intro id' obj obj' hobj hobj' hhash
  rw [FakeObjectStore.lookup_corrupt, hobj] at hobj'
  split at hobj'
  · rename_i hid
    subst hid
    cases hobj'
    exact absurd hhash (h obj hobj)
  · cases hobj'
    rfl

/-! ## Section 2: Which manifests are safe -/

omit [Blake3] in
/-- The file can be allocated, and its entries are short enough for the
    server. Any other manifest is never read back at all. -/
def Manifest.Readable (m : Manifest) : Prop :=
  m.totalSize.toNat ≤ isizeMax ∧ ∀ e ∈ m.entries, e.length.toNat < 2 ^ 32

omit [Blake3] in
/-- The chunk of every entry is read whole by some entry. -/
def Manifest.ReadsChunksWhole (m : Manifest) : Prop :=
  ∀ e ∈ m.entries, ∃ w ∈ m.entries, w.chunkId = e.chunkId ∧ m.coversChunk w = true

/-- The stores with some bodies damaged. -/
def AppState.damaged (s : AppState) (ds : List Damage) : AppState :=
  { s with blobs := s.blobs.damageAll ds }

variable [UuidCrate] [Wire] [ResponseJson]

/-- `reassemble` against a server that handles nothing else. -/
def readBack (env : Env) (m : Manifest) (s : AppState) : Res Bytes :=
  ((overServer (reassemble m)).run (StoreOp.exec env) s).1

variable {env : Env} {m : Manifest} {s : AppState}

/-- The client is answered from the state alone. -/
theorem readBack_eq :
    readBack env m s = (reassemble m).feed (I := HttpI) (fun _ => answer env s) 0 := by
  have hget : ∀ get : RangeGet,
      ((Api.handle get.request).map toHttpReply).run (StoreOp.exec env) s =
        (answer env s get, s) := by
    intro get
    have hexec : ∀ op : StoreOp, op.ReadsChunk ⟨get.chunkId⟩ →
        op.exec env s = ((op.exec env s).1, s) :=
      fun op hop => Prod.ext rfl (hop.exec_state env s)
    have hrun := Prog.Only.run hexec (getChunk_only get.chunkId (some ⟨some get.range⟩)) 0
    have hstate : ((Api.handle get.request).run (StoreOp.exec env) s).2 = s :=
      congrArg Prod.snd hrun
    rw [Prog.run_map, hstate]
    rfl
  exact congrArg Prod.fst (Prog.run_interp (I := HttpI) _ _ (answer env s) s hget _ 0)

/-- **When a file is read back**: every entry gets a good reply. -/
theorem readBack_eq_ok {out : Bytes} : readBack env m s = ok out ↔
    m.WellFormed ∧ m.totalSize.toNat ≤ isizeMax ∧ ∃ piece : ManifestEntry → Bytes,
      (∀ e ∈ m.entries, Accepted m e (answer env s e.rangeGet) (piece e)) ∧
        out.data = contents m.entries piece := by
  rw [readBack_eq, feed_reassemble_eq_ok]

theorem readBack_of_accepted {piece : ManifestEntry → Bytes} (h : m.WellFormed)
    (htotal : m.totalSize.toNat ≤ isizeMax)
    (hpiece : ∀ e ∈ m.entries, Accepted m e (answer env s e.rangeGet) (piece e)) :
    ∃ out, readBack env m s = ok out ∧ out.data = contents m.entries piece := by
  rw [readBack_eq]
  exact feed_of_accepted h htotal hpiece 0

/-! ## Section 3: A whole read vouches for the chunk -/

omit [Blake3] [UuidCrate] [Wire] [ResponseJson] in
/-- The pieces of a file are determined by the file and their lengths. -/
theorem contents_inj {entries : List ManifestEntry} {piece piece' : ManifestEntry → Bytes}
    (hlen : ∀ e ∈ entries, (piece e).data.length = (piece' e).data.length)
    (h : contents entries piece = contents entries piece') : ∀ e ∈ entries, piece e = piece' e := by
  induction entries with
  | nil => exact fun _ he => absurd he List.not_mem_nil
  | cons e rest ih =>
    obtain ⟨hhead, htail⟩ := List.append_inj h (hlen e (by simp))
    intro e' he'
    rcases List.mem_cons.mp he' with rfl | he'
    · exact Bytes.ext hhead
    · exact ih (fun e he => hlen e (by simp [he])) htail e' he'

variable {w : ManifestEntry} {obj obj' : Bytes}

/-- A chunk that was read whole from a damaged store is as it was: it is as
    long as before, so it was sent in full, and the client verified it. -/
theorem undamaged_of_whole {s' : AppState} (hwf : m.WellFormed) (hw : w ∈ m.entries)
    (hcovers : m.coversChunk w = true) (hsize : m.chunkSize w.chunkId = some obj.len)
    (hverify : w.chunkId.verify obj = true) (hobj' : s'.blobs.inner.lookup w.chunkId = some obj')
    (hle : obj'.data.length ≤ obj.data.length) {bytes : Bytes}
    (hacc : Accepted m w (answer env s' w.rangeGet) bytes)
    (hfree : Blake3.hash obj'.data = Blake3.hash obj.data → obj' = obj) : obj' = obj := by
  obtain ⟨_, hbound, _, hchecked, rfl⟩ :=
    (accepted_answer_iff env (hwf.entryIds w hw) (hwf.inBounds hw) hobj').mp hacc
  obtain ⟨hoff, hlen⟩ := coversChunk_iff.mp hcovers
  rw [hsize] at hlen
  have hlen : obj.data.length = w.length.toNat := by
    rw [← Option.some.inj hlen, Bytes.toNat_len]
  rw [hoff, UInt64.toNat_zero, Nat.zero_add] at hbound hchecked
  have hall : obj'.cut 0 w.length.toNat = obj' := by
    have hsame : w.length.toNat = obj'.data.length := by omega
    rw [hsame, Bytes.cut_all]
  rw [hall] at hchecked
  refine hfree (ChunkId.fromBytes_inj.mp ?_)
  rw [← ChunkId.verify_iff.mp (hchecked hcovers), ← ChunkId.verify_iff.mp hverify]

/-- Damage to a manifest that reads its chunks whole is noticed. -/
theorem readBack_damaged {key : ManifestId} (hinv : AppInv s)
    (hm : s.metaStore.manifests.lookup key = some m)
    (hwhole : m.Readable → m.ReadsChunksWhole) {ds : List Damage}
    (hfree : CollisionFree s.blobs (s.blobs.damageAll ds)) {out : Bytes}
    (hout : readBack env m (s.damaged ds) = ok out) : readBack env m s = ok out := by
  obtain ⟨hwf, htotal, piece, hpiece, hdata⟩ := readBack_eq_ok.mp hout
  refine readBack_eq_ok.mpr ⟨hwf, htotal, piece, fun e he => ?_, hdata⟩
  -- every reply from the damaged store is about an object no longer than it was
  have hstored : ∀ e ∈ m.entries, ∃ obj obj', s.blobs.inner.lookup e.chunkId = some obj ∧
      m.chunkSize e.chunkId = some obj.len ∧
      e.chunkOffset.toNat + e.length.toNat ≤ obj.data.length ∧
      (s.damaged ds).blobs.inner.lookup e.chunkId = some obj' ∧
      obj'.data.length ≤ obj.data.length := by
    intro e he
    obtain ⟨_, obj, _, hobj, hsize, hle⟩ := stored_entry hinv hm he
    obtain ⟨obj', hobj', hle'⟩ := FakeObjectStore.lookup_damageAll ds hobj
    exact ⟨obj, obj', hobj, hsize, hle, hobj', hle'⟩
  have hshort : ∀ e ∈ m.entries, e.length.toNat < 2 ^ 32 := by
    intro e he
    obtain ⟨_, obj', _, _, _, hobj', _⟩ := hstored e he
    exact ((accepted_answer_iff env (hwf.entryIds e he) (hwf.inBounds he) hobj').mp
      (hpiece e he)).1
  -- the entry that reads the chunk whole has checked the hash of all of it
  obtain ⟨w, hw, hid, hcovers⟩ := hwhole ⟨htotal, hshort⟩ e he
  obtain ⟨obj, obj', hobj, hsize, hle, hobj', hle'⟩ := hstored e he
  have hverify := hinv.verified _ obj hobj
  have hsame : obj' = obj := by
    refine undamaged_of_whole hwf hw hcovers (by rw [hid]; exact hsize) (by rw [hid]; exact hverify)
      (by rw [hid]; exact hobj') hle' (hpiece w hw) (hfree _ _ _ hobj hobj')
  subst hsame
  have hacc := (accepted_answer_iff env (hwf.entryIds e he) (hwf.inBounds he) hobj').mp
    (hpiece e he)
  exact (accepted_answer_iff env (hwf.entryIds e he) (hwf.inBounds he) hobj).mpr hacc

/-! ## Section 4: A chunk that is only read in part -/

/-- What an entry reads of an object. -/
def ManifestEntry.cutOf (e : ManifestEntry) (obj : Bytes) : Bytes :=
  obj.cut e.chunkOffset.toNat (e.chunkOffset.toNat + e.length.toNat)

/-- A flipped byte in a chunk that no entry reads whole: every reply is
    still good. -/
theorem accepted_flipped (env : Env) {key : ManifestId} (hinv : AppInv s)
    (hm : s.metaStore.manifests.lookup key = some m) (hwf : m.WellFormed)
    (hreadable : m.Readable) {id : ChunkId} (i : UInt64)
    (hpart : ∀ w ∈ m.entries, w.chunkId = id → m.coversChunk w ≠ true) :
    ∀ e ∈ m.entries, ∃ obj, s.blobs.inner.lookup e.chunkId = some obj ∧
      e.chunkOffset.toNat + e.length.toNat ≤ obj.data.length ∧
      Accepted m e (answer env s e.rangeGet) (e.cutOf obj) ∧
      Accepted m e (answer env (s.damaged [.corrupt id i]) e.rangeGet)
        (e.cutOf (if id = e.chunkId then obj.flip i.toNat else obj)) := by
  intro e he
  obtain ⟨_, obj, _, hobj, hsize, hle⟩ := stored_entry hinv hm he
  have hverify := hinv.verified _ obj hobj
  have hshort := hreadable.2 e he
  refine ⟨obj, hobj, hle, accepted_stored env hwf he hobj hverify hsize hle hshort, ?_⟩
  have hdamaged : (s.damaged [.corrupt id i]).blobs.inner.lookup e.chunkId =
      some (if id = e.chunkId then obj.flip i.toNat else obj) := by
    show (s.blobs.damageAll _).inner.lookup e.chunkId = _
    rw [FakeObjectStore.lookup_corrupt, hobj]
    split <;> rfl
  by_cases hid : id = e.chunkId
  · rw [if_pos hid] at hdamaged ⊢
    have hno := hpart e he hid.symm
    refine (accepted_answer_iff env (hwf.entryIds e he) (hwf.inBounds he) hdamaged).mpr
      ⟨hshort, ?_, fun hoff hlen => ?_, fun hcovers => absurd hcovers hno, rfl⟩
    · rw [Bytes.length_flip]
      exact hle
    · -- the object store would verify only a read of the whole object
      rw [Bytes.length_flip] at hlen
      have hsize' : obj.len = e.length := by
        rw [← UInt64.toNat_inj, Bytes.toNat_len, hlen]
      exact absurd (coversChunk_iff.mpr ⟨hoff, hsize' ▸ hsize⟩) hno
  · rw [if_neg hid] at hdamaged ⊢
    exact accepted_stored env hwf he hdamaged hverify hsize hle hshort

/-- **Damage to a chunk that is only read in part goes unnoticed**: the file
    is read back, and it is not the file. -/
theorem readBack_flipped (env : Env) {key : ManifestId} (hinv : AppInv s)
    (hm : s.metaStore.manifests.lookup key = some m) (hreadable : m.Readable) {e : ManifestEntry}
    (he : e ∈ m.entries)
    (hpart : ∀ w ∈ m.entries, w.chunkId = e.chunkId → m.coversChunk w ≠ true) :
    ∃ out, readBack env m (s.damaged [.corrupt e.chunkId e.chunkOffset]) = ok out ∧
      readBack env m s ≠ ok out := by
  have hwf := validateManifest_ok_iff.mp (hinv.metaStore.manifests key m hm).valid
  have hreplies := accepted_flipped env hinv hm hwf hreadable e.chunkOffset hpart
  choose! obj hobj hle hclean hflipped using hreplies
  obtain ⟨out, hout, hdata⟩ := readBack_of_accepted hwf hreadable.1 hflipped
  refine ⟨out, hout, fun hsame => ?_⟩
  obtain ⟨out', hout', hdata'⟩ := readBack_of_accepted hwf hreadable.1 hclean
  rw [hsame] at hout'
  cases hout'
  -- the outputs have equal pieces if they are equal, and this piece was flipped
  have hpieces := contents_inj (fun e he => (hclean e he).length.trans (hflipped e he).length.symm)
    (hdata'.symm.trans hdata) e he
  rw [if_pos rfl] at hpieces
  have hpos := (hwf.inBounds he).1
  exact Bytes.cut_flip_ne (by omega) (hle e he) hpieces.symm

/-- **When corrupted content can never be returned.** For a manifest that is
    stored, damage of any kind is noticed exactly when the manifest cannot be
    read at all or reads each of its chunks whole. -/
theorem damage_detected_iff (env : Env) {c : Server} (h : c.Reachable) {key : ManifestId}
    (hm : c.store.metaStore.manifests.lookup key = some m)
    (hflip : ∀ id obj i, c.store.blobs.inner.lookup id = some obj → i < obj.data.length →
      Blake3.hash (obj.flip i).data ≠ Blake3.hash obj.data) :
    (∀ ds, CollisionFree c.store.blobs (c.store.blobs.damageAll ds) →
      ∀ out, readBack env m (c.store.damaged ds) = ok out → readBack env m c.store = ok out) ↔
      (m.Readable → m.ReadsChunksWhole) := by
  have hinv := (sound_reachable h).inv
  have hwf := validateManifest_ok_iff.mp (hinv.metaStore.manifests key m hm).valid
  constructor
  · intro hsafe hreadable e he
    by_contra hno
    have hpart : ∀ w ∈ m.entries, w.chunkId = e.chunkId → m.coversChunk w ≠ true :=
      fun w hw hid hcovers => hno ⟨w, hw, hid, hcovers⟩
    obtain ⟨out, hout, hne⟩ := readBack_flipped env hinv hm hreadable he hpart
    -- the damage is one flipped byte, at the start of what the entry reads
    refine hne (hsafe _ (collisionFree_corrupt fun obj hobj => ?_) out hout)
    obtain ⟨_, obj', _, hobj', _, hle⟩ := stored_entry hinv hm he
    rw [hobj] at hobj'
    cases hobj'
    have hpos := (hwf.inBounds he).1
    exact hflip _ obj _ hobj (by omega)
  · intro hwhole ds hfree out hout
    exact readBack_damaged hinv hm hwhole hfree hout

end damage

/-- The manifest of the sample run reads its one chunk whole, so no damage to
    it goes unnoticed. -/
theorem damage_detected_iff_sample :
    letI := Sample.blake3
    letI := Sample.uuidCrate
    letI := Sample.wire
    letI := Sample.responseJson
    (∀ ds, CollisionFree Sample.server.store.blobs (Sample.server.store.blobs.damageAll ds) →
      ∀ out, readBack (Env.sample 0 0) Sample.manifest (Sample.server.store.damaged ds) = ok out →
        readBack (Env.sample 0 0) Sample.manifest Sample.server.store = ok out) ↔
      (Sample.manifest.Readable → Sample.manifest.ReadsChunksWhole) := by
  let := Sample.blake3
  let := Sample.uuidCrate
  let := Sample.wire
  let := Sample.responseJson
  have hblobs : Sample.server.store.blobs = ⟨Finmap.insert Sample.chunk Sample.abc ∅⟩ := by
    decide +kernel
  refine damage_detected_iff (Env.sample 0 0) Sample.server_reachable Sample.server_manifest
    fun id obj i hobj hi => ?_
  rw [hblobs, Table.lookup_insert_ite] at hobj
  split at hobj
  · cases hobj
    have hall : ∀ i < 3, Blake3.hash (Sample.abc.flip i).data ≠ Blake3.hash Sample.abc.data := by
      decide
    exact hall i hi
  · cases hobj

namespace Sample

/-- The first two of the three bytes of `abc`. -/
def partialManifest : Manifest where
  manifestId := ⟨⟨1⟩⟩
  totalSize := 2
  chunkCount := 1
  entries := [⟨0, 2, chunk, 0⟩]
  chunks := [⟨chunk, 3⟩]

/-- The stores once both are uploaded. -/
def partialStore : AppState where
  metaStore := { Inner.new with
    chunks := Finmap.insert chunk ⟨chunk, 3⟩ ∅
    manifests := Finmap.insert partialManifest.manifestId partialManifest ∅ }
  blobs := ⟨Finmap.insert chunk abc ∅⟩

noncomputable def partialRequests : List (Env × Request) :=
  [(Env.sample 1 10, .putChunk chunk.str abc),
    (Env.sample 1 20, .putManifest manifestPath ⟨partialManifest⟩)]

/-- One client has uploaded `abc` and a file that uses a part of it. -/
noncomputable def partialServer : Server :=
  letI := blake3
  letI := uuidCrate
  Server.init.serveAll partialRequests

end Sample

/-- The first byte of `abc` is flipped, and a file of its first two bytes is
    read back with the flipped byte in it. -/
theorem damage_undetected :
    letI := Sample.blake3
    letI := Sample.uuidCrate
    letI := Sample.wire
    letI := Sample.responseJson
    ¬ ∀ (env : Env) (c : Server), c.Reachable → ∀ key m,
      c.store.metaStore.manifests.lookup key = some m →
        ∀ ds, CollisionFree c.store.blobs (c.store.blobs.damageAll ds) →
          ∀ out, readBack env m (c.store.damaged ds) = ok out →
            readBack env m c.store = ok out := by
  let := Sample.blake3
  let := Sample.uuidCrate
  let := Sample.wire
  let := Sample.responseJson
  intro hsafe
  have hreachable : Sample.partialServer.Reachable := steps_serveAll ⟨trivial, trivial, trivial⟩
  have hstore : Sample.partialServer.store = Sample.partialStore := by
    decide +kernel
  have hfree : CollisionFree Sample.partialStore.blobs
      (Sample.partialStore.blobs.damageAll [.corrupt Sample.chunk 0]) := by
    refine collisionFree_corrupt fun obj hobj => ?_
    cases hobj
    decide
  have hdamaged : readBack (Env.sample 0 0) Sample.partialManifest
      (Sample.partialStore.damaged [.corrupt Sample.chunk 0]) =
        ok ⟨[0x9e, 0x62], by decide⟩ := by
    refine toOption_eq_some.mp ?_
    decide +kernel
  have hclean : readBack (Env.sample 0 0) Sample.partialManifest Sample.partialStore =
      ok ⟨[0x61, 0x62], by decide⟩ := by
    refine toOption_eq_some.mp ?_
    decide +kernel
  have hsame := hsafe (Env.sample 0 0) Sample.partialServer hreachable ⟨⟨1⟩⟩ Sample.partialManifest
  rw [hstore] at hsame
  have hwrong := hsame rfl _ hfree _ hdamaged
  rw [hclean] at hwrong
  cases hwrong

end Space
