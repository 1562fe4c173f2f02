import Space.Contracts.Validate

/-! # What a valid manifest is

    `Manifest.WellFormed` states the purpose of the validator in plain
    arithmetic: the entries partition `[0, total_size)`, and every entry is
    served by a chunk the table declares. `validateManifest_eq_ok` proves
    that the ten checks together decide exactly that.

    The checks are pairwise and local; the bridge is `Data.Tiles`, which the
    windows of the entry list determine (`tiles_iff_windows`) and which is
    the same as a partition (`tiles_iff_partition`). -/

namespace Space

open Rust Outcome Data

/-- The logical byte range of an entry, as offset and length. -/
def ManifestEntry.span (e : ManifestEntry) : Span :=
  (e.logicalOffset.toNat, e.length.toNat)

def Manifest.spans (m : Manifest) : List Span :=
  m.entries.map ManifestEntry.span

/-- What holds of a manifest whatever the order of its chunk table, in exact
    natural-number arithmetic. -/
structure Manifest.Shaped (m : Manifest) : Prop where
  /-- Sorted non-empty entries that cover each byte of the file once. -/
  layout : Partition m.totalSize.toNat m.spans
  count : m.chunkCount.toNat = m.entries.length
  entryIds : ∀ e ∈ m.entries, e.chunkId.WellFormed
  chunkIds : ∀ c ∈ m.chunks, c.chunkId.WellFormed
  sameIds : ∀ id, id ∈ m.entries.map ManifestEntry.chunkId ↔ id ∈ m.chunks.map Chunk.chunkId

/-- A well-formed manifest. -/
structure Manifest.WellFormed (m : Manifest) : Prop extends Manifest.Shaped m where
  /-- Each entry stays within the first row of its chunk. -/
  within : ∀ e ∈ m.entries, ∃ c, (m.chunks.find? fun c => c.chunkId == e.chunkId) = some c ∧
    e.chunkOffset.toNat + e.length.toNat ≤ c.size.toNat

/-! ## Section 1: What each check decides -/

theorem inv01_eq_ok {m : Manifest} : inv01EntriesSorted m = ok () ↔
    ∀ w ∈ windows2 m.entries, w.1.logicalOffset.toNat ≤ w.2.logicalOffset.toNat := by
  simp [inv01EntriesSorted, UInt64.le_iff_toNat_le]

theorem inv02_eq_ok {m : Manifest} : inv02EntriesContiguous m = ok () ↔
    ∀ w ∈ windows2 m.entries, w.1.logicalOffset.toNat + w.1.length.toNat < 2 ^ 64 ∧
      w.2.logicalOffset.toNat ≤ w.1.logicalOffset.toNat + w.1.length.toNat := by
  unfold inv02EntriesContiguous
  rw [forM_eq_ok]
  refine forall₂_congr fun w _ => ?_
  simp only [bind_eq_ok, okOr_eq_ok, rejectIf_eq_ok, decide_eq_false_iff_not, UInt64.not_lt,
    UInt64.le_iff_toNat_le]
  exact exists_checkedAdd fun n => w.2.logicalOffset.toNat ≤ n

theorem inv03_eq_ok {m : Manifest} : inv03NoOverlap m = ok () ↔
    ∀ w ∈ windows2 m.entries, w.1.logicalOffset.toNat + w.1.length.toNat < 2 ^ 64 ∧
      w.1.logicalOffset.toNat + w.1.length.toNat ≤ w.2.logicalOffset.toNat := by
  unfold inv03NoOverlap
  rw [forM_eq_ok]
  refine forall₂_congr fun w _ => ?_
  simp only [bind_eq_ok, okOr_eq_ok, rejectIf_eq_ok, decide_eq_false_iff_not, gt_iff_lt,
    UInt64.not_lt, UInt64.le_iff_toNat_le]
  exact exists_checkedAdd fun n => n ≤ w.2.logicalOffset.toNat

theorem inv04_eq_ok {m : Manifest} : inv04StartsAtZero m = ok () ↔
    ∀ e, m.entries.head? = some e → e.logicalOffset.toNat = 0 := by
  unfold inv04StartsAtZero
  cases m.entries.head? with
  | none => simp
  | some e => simp [← UInt64.toNat_inj]

theorem sumLengths_eq_ok {msg : SpaceError} {entries : List ManifestEntry} {sum t : UInt64} :
    entries.foldlM (fun sum e => okOr (checkedAdd sum e.length) msg) sum = ok t ↔
      t.toNat = sum.toNat + (entries.map fun e => e.length.toNat).sum := by
  induction entries generalizing sum with
  | nil => simp [← UInt64.toNat_inj, eq_comm]
  | cons e rest ih =>
    simp only [List.foldlM_cons, bind_eq_ok, okOr_eq_ok, ih, List.map_cons, List.sum_cons]
    rw [exists_checkedAdd fun n => t.toNat = n + (rest.map fun e => e.length.toNat).sum]
    have := t.toNat_lt
    constructor
    · intro ⟨_, h⟩
      omega
    · intro h
      exact ⟨by omega, by omega⟩

theorem inv05_eq_ok {m : Manifest} : inv05LengthsSumToTotal m = ok () ↔
    (m.entries.map fun e => e.length.toNat).sum = m.totalSize.toNat := by
  unfold inv05LengthsSumToTotal
  simp only [bind_eq_ok, sumLengths_eq_ok, rejectIf_eq_ok, bne_eq_false_iff_eq]
  constructor
  · rintro ⟨t, ht, rfl⟩
    simpa using ht.symm
  · intro h
    exact ⟨m.totalSize, by simpa using h.symm, rfl⟩

theorem inv07_eq_ok {m : Manifest} : inv07LengthsNonzero m = ok () ↔
    ∀ e ∈ m.entries, 0 < e.length.toNat := by
  simp [inv07LengthsNonzero, ← UInt64.toNat_inj, Nat.pos_iff_ne_zero]

theorem inv08_eq_ok {m : Manifest} : inv08ChunkOffsetsWithinChunk m = ok () ↔
    ∀ e ∈ m.entries, ∃ size, m.chunkSize e.chunkId = some size ∧
      e.chunkOffset.toNat + e.length.toNat ≤ size.toNat := by
  unfold inv08ChunkOffsetsWithinChunk
  rw [forM_eq_ok]
  refine forall₂_congr fun e _ => ?_
  simp only [bind_eq_ok, okOr_eq_ok, rejectIf_eq_ok, decide_eq_false_iff_not, gt_iff_lt,
    UInt64.not_lt, UInt64.le_iff_toNat_le]
  refine exists_congr fun size => and_congr_right fun _ => ?_
  rw [exists_checkedAdd fun n => n ≤ size.toNat]
  have := size.toNat_lt
  omega

theorem inv09_eq_ok {m : Manifest} : inv09ChunkIdsWellformed m = ok () ↔
    (∀ c ∈ m.chunks, c.chunkId.WellFormed) ∧
      (∀ e ∈ m.entries, e.chunkId.WellFormed ∧ m.chunkSize e.chunkId ≠ none) ∧
        ∀ c ∈ m.chunks, ∃ e ∈ m.entries, e.chunkId = c.chunkId := by
  unfold inv09ChunkIdsWellformed
  rw [seq_eq_ok, seq_eq_ok, forM_eq_ok, forM_eq_ok, forM_eq_ok]
  refine and_congr (forall₂_congr fun c _ => ?_) (and_congr (forall₂_congr fun e _ => ?_)
    (forall₂_congr fun c _ => ?_))
  · rw [bind_eq_ok]
    simp only [mapErr_eq_ok, ChunkId.parse_eq_ok, pure_eq, and_true, exists_eq_left]
  · rw [bind_eq_ok]
    simp only [mapErr_eq_ok, ChunkId.parse_eq_ok, rejectIf_eq_ok, Option.isNone_eq_false_iff,
      Option.isSome_iff_ne_none, and_assoc, exists_eq_left]
  · simp only [rejectIf_eq_ok, Bool.not_eq_false', List.any_eq_true, beq_iff_eq]

/-! ## Section 2: The layout checks decide the partition -/

theorem spans_windows {m : Manifest} : (∀ w ∈ windows2 m.spans, w.1.1 + w.1.2 = w.2.1) ↔
    ∀ w ∈ windows2 m.entries,
      w.1.logicalOffset.toNat + w.1.length.toNat = w.2.logicalOffset.toNat := by
  rw [Manifest.spans, windows2_map, List.forall_mem_map]
  exact Iff.rfl

/-- The offset checks, the length checks and the sum together say that the
    entries tile the file. -/
theorem layout_eq_ok {m : Manifest} :
    (inv01EntriesSorted m = ok () ∧ inv04StartsAtZero m = ok () ∧
      inv02EntriesContiguous m = ok () ∧ inv03NoOverlap m = ok () ∧
      inv07LengthsNonzero m = ok () ∧ inv05LengthsSumToTotal m = ok ()) ↔
    Tiles 0 m.totalSize.toNat m.spans := by
  rw [inv01_eq_ok, inv02_eq_ok, inv03_eq_ok, inv04_eq_ok, inv05_eq_ok, inv07_eq_ok,
    tiles_iff_windows, spans_windows]
  have hhead : (∀ s, m.spans.head? = some s → s.1 = 0) ↔
      ∀ e, m.entries.head? = some e → e.logicalOffset.toNat = 0 := by
    simp [Manifest.spans, List.head?_map, ManifestEntry.span]
  have hpos : (∀ s ∈ m.spans, 0 < s.2) ↔ ∀ e ∈ m.entries, 0 < e.length.toNat := by
    simp [Manifest.spans, ManifestEntry.span]
  have hsum : m.spans.map Prod.snd = m.entries.map fun e => e.length.toNat := by
    simp [Manifest.spans, ManifestEntry.span]
  rw [hhead, hpos, hsum, Nat.zero_add]
  constructor
  · intro ⟨_, hzero, hgap, hover, hlen, htotal⟩
    -- no gap and no overlap: each entry ends where the next one starts
    refine ⟨hzero, fun w hw => ?_, hlen, htotal⟩
    exact Nat.le_antisymm (hover w hw).2 (hgap w hw).2
  · intro ⟨hzero, hadj, hlen, htotal⟩
    -- the next offset is a `u64`, so the sum before it does not overflow
    have hfit : ∀ w ∈ windows2 m.entries,
        w.1.logicalOffset.toNat + w.1.length.toNat < 2 ^ 64 := by
      intro w hw
      rw [hadj w hw]
      exact w.2.logicalOffset.toNat_lt
    refine ⟨fun w hw => ?_, hzero, fun w hw => ⟨hfit w hw, ?_⟩, fun w hw => ⟨hfit w hw, ?_⟩,
      hlen, htotal⟩
    · have := hadj w hw
      omega
    · exact Nat.le_of_eq (hadj w hw).symm
    · exact Nat.le_of_eq (hadj w hw)

/-- Entries that tile a file of `n` bytes are at most `n` in number. -/
theorem length_le_of_tiles {m : Manifest} {n : Nat} (h : Tiles 0 n m.spans) :
    m.entries.length ≤ n := by
  have hlen := h.length_le
  simp only [Manifest.spans, List.length_map] at hlen
  omega

/-! ## Section 3: The validator decides well-formedness -/

theorem chunkSize_eq_some {m : Manifest} {id : ChunkId} {size : UInt64} :
    m.chunkSize id = some size ↔
      ∃ c, (m.chunks.find? fun c => c.chunkId == id) = some c ∧ c.size = size := by
  simp [Manifest.chunkSize]

theorem within_iff {m : Manifest} {e : ManifestEntry} :
    (∃ size, m.chunkSize e.chunkId = some size ∧
        e.chunkOffset.toNat + e.length.toNat ≤ size.toNat) ↔
      ∃ c, (m.chunks.find? fun c => c.chunkId == e.chunkId) = some c ∧
        e.chunkOffset.toNat + e.length.toNat ≤ c.size.toNat := by
  simp only [chunkSize_eq_some]
  constructor
  · rintro ⟨_, ⟨c, hc, rfl⟩, hle⟩
    exact ⟨c, hc, hle⟩
  · intro ⟨c, hc, hle⟩
    exact ⟨_, ⟨c, hc, rfl⟩, hle⟩

/-- Invariant 6 compares machine words; for entries that tile the file the
    count fits, and the comparison is exact. -/
theorem inv06_eq_ok {m : Manifest} (h : Tiles 0 m.totalSize.toNat m.spans) :
    inv06CountMatches m = ok () ↔ m.chunkCount.toNat = m.entries.length := by
  have hlen := length_le_of_tiles h
  have hlt : m.entries.length < UInt64.size := by
    have := m.totalSize.toNat_lt
    simp only [UInt64.size]
    omega
  unfold inv06CountMatches
  rw [rejectIf_eq_ok, bne_eq_false_iff_eq, ← UInt64.toNat_inj, UInt64.toNat_ofNat_of_lt' hlt]

theorem inv13_of_tiles {m : Manifest} (h : Tiles 0 m.totalSize.toNat m.spans)
    (hcount : m.chunkCount.toNat = m.entries.length) : inv13EmptyFileIsValid m = ok () := by
  have hlen := length_le_of_tiles h
  unfold inv13EmptyFileIsValid
  rw [rejectIf_eq_ok, Bool.and_eq_false_iff]
  by_cases hzero : m.totalSize = 0
  · right
    have hnil : m.entries.length = 0 := by
      rw [hzero] at hlen
      simpa using hlen
    have hcc : m.chunkCount = 0 := by
      rw [← UInt64.toNat_inj, hcount, hnil]
      rfl
    simp [hcc, List.length_eq_zero_iff.mp hnil]
  · left
    simpa using hzero

/-- The chunk checks decide the part of `WellFormed` that is not layout. -/
theorem chunk_checks_eq_ok {m : Manifest} :
    (inv09ChunkIdsWellformed m = ok () ∧ inv08ChunkOffsetsWithinChunk m = ok ()) ↔
      (∀ e ∈ m.entries, e.chunkId.WellFormed) ∧ (∀ c ∈ m.chunks, c.chunkId.WellFormed) ∧
        (∀ id, id ∈ m.entries.map ManifestEntry.chunkId ↔ id ∈ m.chunks.map Chunk.chunkId) ∧
          ∀ e ∈ m.entries, ∃ c, (m.chunks.find? fun c => c.chunkId == e.chunkId) = some c ∧
            e.chunkOffset.toNat + e.length.toNat ≤ c.size.toNat := by
  simp only [inv09_eq_ok, inv08_eq_ok, within_iff, List.mem_map]
  constructor
  · intro ⟨⟨hchunks, hentries, horphan⟩, hwithin⟩
    refine ⟨fun e he => (hentries e he).1, hchunks, fun id => ⟨?_, ?_⟩, hwithin⟩
    · rintro ⟨e, he, rfl⟩
      obtain ⟨c, hc, _⟩ := hwithin e he
      exact ⟨c, List.mem_of_find?_eq_some hc, by simpa using List.find?_some hc⟩
    · rintro ⟨c, hc, rfl⟩
      exact horphan c hc
  · intro ⟨hentries, hchunks, hsame, hwithin⟩
    refine ⟨⟨hchunks, fun e he => ⟨hentries e he, fun hnone => ?_⟩, fun c hc => ?_⟩, hwithin⟩
    · obtain ⟨c, hc, hid⟩ := (hsame e.chunkId).mp ⟨e, he, rfl⟩
      exact Manifest.chunkSize_eq_none.mp hnone c hc hid
    · exact (hsame c.chunkId).mpr ⟨c, hc, rfl⟩

theorem validateManifest_ok_iff {m : Manifest} :
    validateManifest m = ok () ↔ m.WellFormed := by
  have hsplit : validateManifest m = ok () ↔ inv13EmptyFileIsValid m = ok () ∧
      (inv01EntriesSorted m = ok () ∧ inv04StartsAtZero m = ok () ∧
        inv02EntriesContiguous m = ok () ∧ inv03NoOverlap m = ok () ∧
        inv07LengthsNonzero m = ok () ∧ inv05LengthsSumToTotal m = ok ()) ∧
      inv06CountMatches m = ok () ∧
      inv09ChunkIdsWellformed m = ok () ∧ inv08ChunkOffsetsWithinChunk m = ok () := by
    unfold validateManifest
    simp only [seq_eq_ok, and_assoc]
  rw [hsplit, layout_eq_ok, chunk_checks_eq_ok]
  constructor
  · intro ⟨_, htiles, hcount, hentries, hchunks, hsame, hwithin⟩
    have hlayout := tiles_iff_partition.mp htiles
    exact ⟨⟨hlayout, (inv06_eq_ok htiles).mp hcount, hentries, hchunks, hsame⟩, hwithin⟩
  · intro ⟨⟨hlayout, hcount, hentries, hchunks, hsame⟩, hwithin⟩
    have htiles := tiles_iff_partition.mpr hlayout
    exact ⟨inv13_of_tiles htiles hcount, htiles, (inv06_eq_ok htiles).mpr hcount, hentries,
      hchunks, hsame, hwithin⟩

/-- **The validator accepts exactly the well-formed manifests**, and rejects
    every other one with `INTEGRITY_MANIFEST_INVALID`. No manifest makes its
    arithmetic overflow: that would be a panic, which is neither. -/
theorem validateManifest_decides_wellFormed (m : Manifest) :
    (validateManifest m = ok () ↔ m.WellFormed) ∧
      (¬ m.WellFormed → ∃ e, validateManifest m = err e ∧ e.code = .integrityManifestInvalid) := by
  refine ⟨validateManifest_ok_iff, fun hwf => ?_⟩
  exact (validateManifest_checks m).err_of_ne_ok fun hok => hwf (validateManifest_ok_iff.mp hok)

end Space
