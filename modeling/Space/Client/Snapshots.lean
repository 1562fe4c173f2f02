import Space.Client.Reassemble
import Space.Cloud.Commits
import Space.Cloud.Serializable
import Space.Data.Archive
import Space.Effects.Simulation

/-! # The server as an archive of whole files

    For a client that reads files back, the stores are an archive: under
    each file the versions that were committed, each with the bytes that its
    manifest puts together. `Archives` relates a state of the stores to an
    archive, and every step of the server is one step of the archive or none
    (`simulation`): creating a file enters a name, the first commit of a
    version publishes its whole content at once, and nothing else is seen.

    What an archive can promise therefore holds of the server. In
    particular a version, once published, is read back as it was published,
    whatever is committed after it. -/

namespace Space

open Rust Outcome Data Effects MetaOp

/-! ## Section 1: The content of a version -/

/-- The stored body of a chunk. -/
def AppState.body (s : AppState) (id : ChunkId) : Bytes :=
  (s.blobs.inner.lookup id).getD Bytes.empty

/-- The bytes that a manifest puts together. -/
def AppState.assemble (s : AppState) (m : Manifest) : List UInt8 :=
  contents m.entries fun e =>
    (s.body e.chunkId).cut e.chunkOffset.toNat (e.chunkOffset.toNat + e.length.toNat)

/-- The archive of files, versions and contents. -/
abbrev FileArchive := Archive FileId VersionId (List UInt8)

section archive

variable [Blake3]

/-- The content of a stored manifest does not change. -/
theorem assemble_stable {s s' : AppState} (h : AppInv s) (hext : s.Extends s') {key : ManifestId}
    {m : Manifest} (hm : s.metaStore.manifests.lookup key = some m) :
    s'.assemble m = s.assemble m := by
  unfold AppState.assemble contents
  apply List.flatMap_congr
  intro e he
  obtain ⟨_, obj, _, hobj, _⟩ := stored_entry h hm he
  have hbody : s'.body e.chunkId = s.body e.chunkId := by
    unfold AppState.body
    rw [hobj, hext.blobs.lookup_eq hobj]
  simp only [hbody]

/-! ## Section 2: The archive that a state stands for -/

omit [Blake3] in
/-- `v` is a committed version of `fileId`, and `bytes` is its content. -/
def Committed (s : AppState) (fileId : FileId) (v : VersionId) (bytes : List UInt8) : Prop :=
  ∃ row m, s.metaStore.versions.lookup v = some row ∧ row.state = .committed ∧
    row.fileId = fileId ∧ s.metaStore.manifests.lookup row.manifestId = some m ∧
      bytes = s.assemble m

omit [Blake3] in
/-- The state `s` holds the archive `a`. -/
structure Archives (s : AppState) (a : FileArchive) : Prop where
  names : ∀ f, a.editions f = none ↔ s.metaStore.files.lookup f = none
  published : ∀ f v bytes, a.Published f v bytes ↔ Committed s f v bytes
  /-- The current version of a file is its last edition. -/
  latest : ∀ f, (a.latest f).map Prod.fst = s.metaStore.current f

omit [Blake3] in
theorem archives_default : Archives AppState.default .empty where
  names := fun f => by simp [Archive.empty, AppState.default, Inner.new]
  published := by
    intro f v bytes
    constructor
    · rintro ⟨h, hh, _⟩
      cases hh
    · rintro ⟨row, m, hrow, _⟩
      cases (Finmap.lookup_empty v).symm.trans hrow
  latest := fun f => by simp [Archive.latest, Archive.empty, AppState.default, Inner.new,
    Inner.current]

/-- A committed version keeps its content. -/
theorem Committed.mono {s s' : AppState} (hinv : AppInv s) (hext : s.Extends s') {f : FileId}
    {v : VersionId} {bytes : List UInt8} (h : Committed s f v bytes) : Committed s' f v bytes := by
  obtain ⟨row, m, hrow, hstate, hfile, hm, rfl⟩ := h
  obtain ⟨row', hrow', hev⟩ := hext.metaStore.versions v row hrow
  rw [hev.of_committed hstate] at hrow'
  exact ⟨row, m, hrow', hstate, hfile, hext.metaStore.manifests.lookup_eq hm,
    (assemble_stable hinv hext hm).symm⟩

/-- A version that a step did not commit was committed before. -/
theorem Committed.before {s s' : AppState} (hinv : AppInv s) (hext : s.Extends s') {f : FileId}
    {v : VersionId} {bytes : List UInt8}
    (hrow : ∀ row, s'.metaStore.versions.lookup v = some row → row.state = .committed →
      s.metaStore.versions.lookup v = some row)
    (h : Committed s' f v bytes) : Committed s f v bytes := by
  obtain ⟨row, m, hnow, hstate, hfile, hm, rfl⟩ := h
  have hold := hrow row hnow hstate
  obtain ⟨m', hm'⟩ := (hinv.metaStore.versions v row hold).manifest
  have hsame := hext.metaStore.manifests.lookup_eq hm'
  rw [hm] at hsame
  cases hsame
  exact ⟨row, m, hold, hstate, hfile, hm', assemble_stable hinv hext hm'⟩

/-- A step that the archive does not see. -/
theorem Archives.unseen {s s' : AppState} {a : FileArchive} (h : Archives s a) (hinv : AppInv s)
    (hext : s.Extends s') (hfiles : s'.metaStore.files = s.metaStore.files)
    (hrows : ∀ v row, s'.metaStore.versions.lookup v = some row → row.state = .committed →
      s.metaStore.versions.lookup v = some row) : Archives s' a where
  names := fun f => by rw [hfiles, h.names f]
  published := fun f v bytes => (h.published f v bytes).trans
    ⟨fun hc => hc.mono hinv hext, fun hc => hc.before hinv hext (hrows v)⟩
  latest := fun f => by
    rw [h.latest f]
    unfold Inner.current
    rw [hfiles]

/-! ## Section 3: One step -/

omit [Blake3] in
/-- A name that is there, with its editions. -/
theorem Archives.editions {s : AppState} {a : FileArchive} (h : Archives s a) {f : FileId}
    {file : File} (hf : s.metaStore.files.lookup f = some file) :
    ∃ l, a.editions f = some l := by
  cases hl : a.editions f with
  | some l => exact ⟨l, rfl⟩
  | none =>
    rw [h.names f, hf] at hl
    cases hl

/-- A file is created: its name is entered. -/
theorem Archives.addFile {s : AppState} {a : FileArchive} (h : Archives s a) (hinv : AppInv s)
    {key : String} {file : File} (hnew : s.metaStore.files.lookup file.fileId = none)
    (hcurrent : file.currentVersionId = none) {s' : AppState}
    (hs' : s' = { s with metaStore := s.metaStore.addFile key file }) (hext : s.Extends s') :
    Archives s' (a.enter file.fileId) ∧ Archive.Step a (a.enter file.fileId) := by
  have hname : a.editions file.fileId = none := (h.names _).mpr hnew
  refine ⟨⟨fun f => ?_, fun f v bytes => ?_, fun f => ?_⟩, .enter hname⟩
  · rw [Archive.editions_enter, hs']
    show _ ↔ (Finmap.insert _ _ s.metaStore.files).lookup f = none
    rw [Table.lookup_insert_ite]
    by_cases hf : f = file.fileId
    · simp [hf]
    · rw [if_neg hf, if_neg hf]
      exact h.names f
  · rw [Archive.published_enter hname, h.published f v bytes]
    refine ⟨fun hc => hc.mono hinv hext, fun hc => hc.before hinv hext ?_⟩
    rw [hs']
    exact fun _ hrow _ => hrow
  · unfold Archive.latest
    rw [Archive.editions_enter, hs', current_addFile]
    by_cases hf : f = file.fileId
    · rw [if_pos hf, if_pos hf, hcurrent]
      rfl
    · rw [if_neg hf, if_neg hf]
      exact h.latest f

/-- A version is committed: it is published with its whole content. -/
theorem Archives.commit {s : AppState} {a : FileArchive} (h : Archives s a) (hinv : AppInv s)
    {env : Env} {v : VersionId} {row : Version}
    (hl : s.metaStore.versions.lookup v = some row) (hc : row.state = .candidate) {s' : AppState}
    (hs' : s' = { s with metaStore := s.metaStore.commit env v row }) (hext : s.Extends s') :
    ∃ l bytes, Archives s' (a.publish row.fileId l v bytes) ∧
      Archive.Step a (a.publish row.fileId l v bytes) := by
  obtain ⟨file, hf⟩ := (hinv.metaStore.versions v row hl).file
  obtain ⟨m, hm⟩ := (hinv.metaStore.versions v row hl).manifest
  obtain ⟨l, hlist⟩ := h.editions hf
  have hversions : s'.metaStore.versions =
      s.metaStore.versions.insert v { row with state := .committed } := by
    rw [hs']
    exact Inner.versions_commit
  -- a candidate was not published before
  have hnew : ∀ n b, ¬ a.Published n v b := by
    intro n b hp
    obtain ⟨row', _, hrow', hstate, _⟩ := (h.published n v b).mp hp
    rw [hl] at hrow'
    cases hrow'
    rw [hc] at hstate
    cases hstate
  refine ⟨l, s.assemble m, ⟨fun f => ?_, fun f u bytes => ?_, fun f => ?_⟩, .publish hlist hnew⟩
  · rw [Archive.editions_publish, hs']
    show _ ↔ (s.metaStore.commit env v row).files.lookup f = none
    rw [commit_eq hf]
    show _ ↔ (Finmap.insert _ _ s.metaStore.files).lookup f = none
    rw [Table.lookup_insert_ite]
    by_cases hfile : f = row.fileId
    · simp [hfile]
    · rw [if_neg hfile, if_neg hfile]
      exact h.names f
  · rw [Archive.published_publish hlist, h.published f u bytes]
    constructor
    · rintro (hold | ⟨rfl, rfl, rfl⟩)
      · exact hold.mono hinv hext
      · refine ⟨{ row with state := .committed }, m, ?_, rfl, rfl,
          hext.metaStore.manifests.lookup_eq hm, (assemble_stable hinv hext hm).symm⟩
        rw [hversions]
        exact Finmap.lookup_insert _
    · intro hcommitted
      by_cases hu : u = v
      · subst hu
        obtain ⟨row', m', hrow', _, hfile, hm', rfl⟩ := hcommitted
        rw [hversions, Finmap.lookup_insert] at hrow'
        cases hrow'
        have hsame := hext.metaStore.manifests.lookup_eq hm
        rw [hm'] at hsame
        cases hsame
        exact .inr ⟨hfile.symm, rfl, assemble_stable hinv hext hm⟩
      · -- another version was committed before
        refine .inl (hcommitted.before hinv hext fun row' hrow' _ => ?_)
        rw [hversions, Finmap.lookup_insert_of_ne _ hu] at hrow'
        exact hrow'
  · unfold Archive.latest
    rw [Archive.editions_publish, hs']
    show _ = (s.metaStore.commit env v row).current f
    rw [current_commit hinv.metaStore hl]
    by_cases hfile : f = row.fileId
    · rw [if_pos hfile, if_pos hfile]
      simp
    · rw [if_neg hfile, if_neg hfile]
      exact h.latest f

/-- **One call of a store** is one step of the archive or none. -/
theorem Archives.store_step {s s' : AppState} {a : FileArchive} (h : Archives s a) (hinv : AppInv s)
    {op : StoreOp} {r : Res op.Value} (hs : StoreOp.Step op s r s') (hext : s.Extends s') :
    ∃ a', Archives s' a' ∧ (a' = a ∨ Archive.Step a a') := by
  have hsame : s'.metaStore = s.metaStore →
      ∃ a', Archives s' a' ∧ (a' = a ∨ Archive.Step a a') := by
    intro heq
    refine ⟨a, h.unseen hinv hext (by rw [heq]) ?_, .inl rfl⟩
    rw [heq]
    exact fun _ _ hrow _ => hrow
  cases op with
  | blobs op =>
    obtain ⟨env, _, heq⟩ := hs
    cases heq
    exact hsame rfl
  | metadata op =>
    have hblobs := (metadata_elsewhere hs rfl).1
    obtain ⟨env, hfresh, heq⟩ := hs
    have hcall := exec_call env s.metaStore op
    have hmeta : (op.exec env s.metaStore).2 = s'.metaStore := congrArg (fun p => p.2.metaStore) heq
    rw [hmeta] at hcall
    generalize (op.exec env s.metaStore).1 = reply at hcall
    generalize hg : s'.metaStore = g' at hcall hsame
    have hs' : s' = { s with metaStore := g' } := by
      rw [← hg, ← hblobs]
    cases hcall with
    | refused e => exact hsame rfl
    | dangling _ => exact hsame rfl
    | found _ => exact hsame rfl
    | wrote hw =>
      cases hw with
      | file hname hkey =>
        obtain ⟨ha, hstep⟩ := h.addFile hinv (hfresh hkey) rfl hs' hext
        exact ⟨_, ha, .inr hstep⟩
      | chunk hwf hl =>
        refine ⟨a, h.unseen hinv hext ?_ ?_, .inl rfl⟩
        · rw [hs']
          rfl
        · rw [hs']
          exact fun _ _ hrow _ => hrow
      | manifest hvalid hreg hl =>
        refine ⟨a, h.unseen hinv hext ?_ ?_, .inl rfl⟩
        · rw [hs']
          rfl
        · rw [hs']
          exact fun _ _ hrow _ => hrow
      | @version fileId versionId parent manifestId hrefs hl =>
        refine ⟨a, h.unseen hinv hext ?_ ?_, .inl rfl⟩
        · rw [hs']
          rfl
        · rw [hs']
          intro v row hrow hstate
          -- the new row is a candidate
          simp only [Inner.addVersion, Table.lookup_insert_ite] at hrow
          split at hrow
          · cases hrow
            cases hstate
          · exact hrow
      | commit hl hc =>
        obtain ⟨l, bytes, ha, hstep⟩ := h.commit hinv hl hc hs' hext
        exact ⟨_, ha, .inr hstep⟩

variable [UuidCrate]

/-- **The server simulates an archive.** -/
theorem simulation : Simulation (Pool.Step Api.handle StoreOp.Step) Archive.Step
    fun (c : Server) (a : FileArchive) => c.Reachable ∧ Archives c.store a := by
  intro c c' a hrel hs
  obtain ⟨hreach, ha⟩ := hrel
  have hsound := sound_reachable hreach
  obtain ⟨hsound', hext⟩ := hsound.step (fun req s _ => ensures_handle req s) hs
  have hreach' := hreach.tail hs
  cases hs with
  | arrive req => exact ⟨a, ⟨hreach', ha⟩, .inl rfl⟩
  | call i t op k r s' hi hp hstep =>
    obtain ⟨a', ha', hstep'⟩ := ha.store_step hsound.inv hstep hext
    exact ⟨a', ⟨hreach', ha'⟩, hstep'⟩

end archive

/-! ## Section 4: The results -/

/-- **The server refines an archive.** In every run, whatever requests are
    handled at the same time, the stores hold an archive that came about by
    entering names and publishing editions, and the rest of the run goes on
    from that archive by such steps alone. -/
theorem refines_archive [UuidCrate] [Blake3] {c : Server} (h : c.Reachable) :
    ∃ a : FileArchive, a.Reachable ∧ a.Once ∧ Archives c.store a ∧
      ∀ c', c.Steps c' → ∃ a', Archive.Steps a a' ∧ Archives c'.store a' := by
  obtain ⟨a, ⟨hreach, ha⟩, hrun⟩ := simulation.run ⟨.refl, archives_default⟩ h
  refine ⟨a, hrun, Archive.Reachable.once hrun, ha, fun c' hs => ?_⟩
  obtain ⟨a', ⟨_, ha'⟩, hrun'⟩ := simulation.run ⟨hreach, ha⟩ hs
  exact ⟨a', hrun', ha'⟩

/-- The sample run. -/
theorem refines_archive_sample :
    letI := Sample.blake3
    letI := Sample.uuidCrate
    ∃ a : FileArchive, a.Reachable ∧ a.Once ∧ Archives Sample.server.store a ∧
      ∀ c', Sample.server.Steps c' → ∃ a', Archive.Steps a a' ∧ Archives c'.store a' :=
  letI := Sample.blake3
  letI := Sample.uuidCrate
  refines_archive Sample.server_reachable

section reading

variable [UuidCrate] [Blake3] [Wire] [ResponseJson]

omit [UuidCrate] [Wire] [ResponseJson] in
/-- The body that an entry reads is stored, has the declared size and lies
    under its address. -/
def AppState.Backs (s : AppState) (m : Manifest) (e : ManifestEntry) : Prop :=
  ∃ obj, s.blobs.inner.lookup e.chunkId = some obj ∧ e.chunkId.verify obj = true ∧
    m.chunkSize e.chunkId = some obj.len ∧
      e.chunkOffset.toNat + e.length.toNat ≤ obj.data.length

omit [UuidCrate] [Wire] [ResponseJson] in
theorem backs_stored {s : AppState} (h : AppInv s) {key : ManifestId} {m : Manifest}
    (hm : s.metaStore.manifests.lookup key = some m) {e : ManifestEntry} (he : e ∈ m.entries) :
    s.Backs m e := by
  obtain ⟨_, obj, _, hobj, hsize, hle⟩ := stored_entry h hm he
  exact ⟨obj, hobj, h.verified _ _ hobj, hsize, hle⟩

/-- **Reading back, for any discipline** under which the reads of the
    entries are answered as in `s₀`. -/
theorem ensures_assemble {D : Discipline StoreI AppState} (env : Env) {s₀ s : AppState}
    {m : Manifest} (hwf : m.WellFormed) (hbacks : ∀ e ∈ m.entries, s₀.Backs m e)
    (hshort : ∀ e ∈ m.entries, e.length.toNat < 2 ^ 32) (htotal : m.totalSize.toNat ≤ isizeMax)
    {R : RangeGet → HttpReply → Prop}
    (hR : ∀ e ∈ m.entries, ∀ reply, R e.rangeGet reply → reply = answer env s₀ e.rangeGet)
    (hget : ∀ get done t, D.Inv t → D.Rely s₀ t → Ensures D
      ((Api.handle get.request).map toHttpReply) (fun reply _ _ => R get reply) done t)
    (hinv : D.Inv s) (hr : D.Rely s₀ s) (done : List (Change AppState)) :
    Ensures D (overServer (reassemble m))
      (fun x _ _ => ∃ out, x = ok out ∧ out.data = s₀.assemble m) done s := by
  have hpiece : ∀ e ∈ m.entries, ∀ reply, R e.rangeGet reply → Accepted m e reply
      ((s₀.body e.chunkId).cut e.chunkOffset.toNat (e.chunkOffset.toNat + e.length.toNat)) := by
    intro e he reply hreply
    obtain ⟨obj, hobj, hverify, hsize, hle⟩ := hbacks e he
    have hbody : s₀.body e.chunkId = obj := by
      unfold AppState.body
      rw [hobj, Option.getD_some]
    rw [hR e he reply hreply, hbody]
    exact accepted_stored env hwf he hobj hverify hsize hle (hshort e he)
  have hensures := Ensures.interp hget (returns_reassemble hwf htotal hpiece) hinv hr done
  apply hensures.conseq
  intro x _ _ _ hx
  obtain ⟨out, hout, _, hdata⟩ := hx
  exact ⟨out, hout, hdata⟩

/-- **A stored manifest is read back as what it puts together**, under
    interference, when its entries fit the cast and its size can be
    allocated. -/
theorem ensures_reassemble {s₀ s : AppState} (hinv₀ : AppInv s₀) {key : ManifestId} {m : Manifest}
    (hm : s₀.metaStore.manifests.lookup key = some m)
    (hshort : ∀ e ∈ m.entries, e.length.toNat < 2 ^ 32) (htotal : m.totalSize.toNat ≤ isizeMax)
    (hinv : AppInv s) (hr : s₀.Extends s) (done : List (Change AppState)) :
    Ensures serverDiscipline (overServer (reassemble m))
      (fun x _ _ => ∃ out, x = ok out ∧ out.data = s₀.assemble m) done s := by
  have hwf := validateManifest_ok_iff.mp (hinv₀.metaStore.manifests key m hm).valid
  let env := Env.sample 0 0
  have hbacks : ∀ e ∈ m.entries, s₀.Backs m e := fun e he => backs_stored hinv₀ hm he
  -- the reads of the client are stable, so the replies are those of `s₀`
  apply ensures_assemble env hwf hbacks hshort htotal _
    (fun get done t _ hr => ensures_rangeGet env get done hr) hinv hr done
  intro e he reply hreply
  obtain ⟨obj, hobj, _⟩ := hbacks e he
  exact hreply obj hobj

end reading

/-- **A published edition is read back as it was published**, at any later
    time, whatever else is committed, uploaded or refused before and during
    the read, as long as its entries fit the cast to `u32` and its size can
    be allocated. -/
theorem edition_reads_back [UuidCrate] [Blake3] [Wire] [ResponseJson] {c c' : Server}
    (h : c.Reachable) (hs : c.Steps c') {a : FileArchive} (ha : Archives c.store a) {f : FileId}
    {v : VersionId} {bytes : List UInt8} (hpub : a.Published f v bytes) :
    ∃ row m, c'.store.metaStore.getCurrentVersion v = ok row ∧ row.fileId = f ∧
      c'.store.metaStore.getManifest row.manifestId = ok m ∧
      ((∀ e ∈ m.entries, e.length.toNat < 2 ^ 32) → m.totalSize.toNat ≤ isizeMax →
        ∀ x c'', Pool.ClientRun Api.handle StoreOp.Step (overServer (reassemble m)) c' x c'' →
          ∃ out, x = ok out ∧ out.data = bytes) := by
  have hsound' := sound_reachable (h.trans hs)
  have hlater := ((ha.published f v bytes).mp hpub).mono (sound_reachable h).inv
    (steps_extends h hs)
  obtain ⟨row, m, hrow, hstate, hfile, hm, rfl⟩ := hlater
  refine ⟨row, m, getCurrentVersion_eq_ok.mpr ⟨hrow, hstate⟩, hfile, okOr_eq_ok.mpr hm, ?_⟩
  intro hshort htotal x c'' hrun
  have hensures := ensures_reassemble hsound'.inv hm hshort htotal hsound'.inv (.refl _) []
  obtain ⟨_, hx⟩ := hrun.ensures (fun req s _ => ensures_handle req s) hsound' hensures
  exact hx

/-- The version that the sample run commits, read after a later upload. -/
theorem edition_reads_back_sample :
    letI := Sample.blake3
    letI := Sample.uuidCrate
    letI := Sample.wire
    letI := Sample.responseJson
    ∃ row m, Sample.laterServer.store.metaStore.getCurrentVersion Sample.v1 = ok row ∧
      row.fileId = Sample.file ∧
      Sample.laterServer.store.metaStore.getManifest row.manifestId = ok m ∧
      ((∀ e ∈ m.entries, e.length.toNat < 2 ^ 32) → m.totalSize.toNat ≤ isizeMax →
        ∀ x c'', Pool.ClientRun Api.handle StoreOp.Step (overServer (reassemble m))
          Sample.laterServer x c'' →
            ∃ out, x = ok out ∧ out.data = Sample.server.store.assemble Sample.manifest) := by
  let := Sample.blake3
  let := Sample.uuidCrate
  let := Sample.wire
  let := Sample.responseJson
  obtain ⟨a, ⟨_, ha⟩, _⟩ := simulation.run ⟨.refl, archives_default⟩ Sample.server_reachable
  have hcommitted : Committed Sample.server.store Sample.file Sample.v1
      (Sample.server.store.assemble Sample.manifest) :=
    ⟨⟨Sample.v1, Sample.file, none, ⟨⟨1⟩⟩, .committed, ⟨40⟩⟩, Sample.manifest, by decide +kernel,
      rfl, rfl, Sample.server_manifest, rfl⟩
  exact edition_reads_back Sample.server_reachable Sample.server_later ha
    ((ha.published _ _ _).mpr hcommitted)

end Space
