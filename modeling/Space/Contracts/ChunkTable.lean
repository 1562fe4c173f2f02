import Space.Contracts.WellFormed
import Space.Data.Rows

/-! # The order of the chunk table

    A manifest declares the sizes of its chunks in a list of rows, and
    `Manifest::chunk_size` reads the first row with an id. The validator
    does not ask that the ids be distinct, so two rows may disagree, and
    then the one that comes first decides.

    `orderFree_iff` says when that shows: exactly for the manifests that are
    accepted in some order of their rows and have two rows with one id. -/

namespace Space

open Rust Outcome Data

/-! ## Section 1: Reordered tables -/

def Manifest.withChunks (m : Manifest) (chunks : List Chunk) : Manifest :=
  { m with chunks := chunks }

@[simp] theorem withChunks_entries (m : Manifest) (chunks : List Chunk) :
    (m.withChunks chunks).entries = m.entries := rfl

@[simp] theorem withChunks_chunks (m : Manifest) (chunks : List Chunk) :
    (m.withChunks chunks).chunks = chunks := rfl

/-- The verdict on a manifest: accepted, or the code of the error. -/
def verdict (m : Manifest) : Outcome ErrorCode Unit :=
  mapErr SpaceError.code (validateManifest m)

/-- The rows that declare a size for this chunk. -/
def Manifest.rows (m : Manifest) (id : ChunkId) : List Chunk :=
  rowsWith Chunk.chunkId id m.chunks

/-- The order of the chunk table has no say: every order gets the same
    verdict, and what is accepted has one row for each chunk it names. -/
structure OrderFree (m : Manifest) : Prop where
  order : ∀ chunks, chunks.Perm m.chunks → verdict (m.withChunks chunks) = verdict m
  one : validateManifest m = ok () → ∀ e ∈ m.entries,
    ∃ c, m.rows e.chunkId = [c] ∧ m.chunkSize e.chunkId = some c.size

variable {m : Manifest} {chunks : List Chunk}

theorem verdict_eq_ok : verdict m = ok () ↔ m.WellFormed := by
  rw [verdict, mapErr_eq_ok, validateManifest_ok_iff]

theorem verdict_of_not_wellFormed (h : ¬ m.WellFormed) :
    verdict m = err .integrityManifestInvalid := by
  obtain ⟨e, he, hcode⟩ := (validateManifest_decides_wellFormed m).2 h
  rw [verdict, he]
  show err e.code = _
  rw [hcode]

/-- Rows with distinct ids: even the text of the error does not depend on
    their order. -/
theorem validateManifest_perm (hperm : chunks.Perm m.chunks)
    (hnodup : (m.chunks.map Chunk.chunkId).Nodup) :
    validateManifest (m.withChunks chunks) = validateManifest m := by
  have hsize : (m.withChunks chunks).chunkSize = m.chunkSize := by
    funext id
    exact congrArg (Option.map Chunk.size) (find?_perm hperm hnodup id)
  -- a loop over the rows has only one error to report
  have hparsed : ∀ c : Chunk, (do
      let _ ← mapErr (fun _ => invalid "inv09: malformed chunk id in chunks")
        (ChunkId.parse c.chunkId.str)
      return () : Res PUnit).Checks
        fun e => e = invalid "inv09: malformed chunk id in chunks" := by
    intro c
    have hparse := (ChunkId.checks_parse c.chunkId.str).mono fun _ _ => trivial
    exact Checks.bind (checks_mapErr hparse fun _ => rfl) fun _ => checks_ok ()
  have hused : ∀ c : Chunk, (rejectIf (!m.entries.any fun e => e.chunkId == c.chunkId)
      (invalid "inv09: unreferenced chunk metadata")).Checks
        fun e => e = invalid "inv09: unreferenced chunk metadata" := by
    intro c
    exact checks_rejectIf rfl
  have hids : inv09ChunkIdsWellformed (m.withChunks chunks) = inv09ChunkIdsWellformed m := by
    unfold inv09ChunkIdsWellformed
    rw [hsize, withChunks_entries, withChunks_chunks, forM_perm hparsed hperm,
      forM_perm hused hperm]
  have hwithin : inv08ChunkOffsetsWithinChunk (m.withChunks chunks) =
      inv08ChunkOffsetsWithinChunk m := by
    unfold inv08ChunkOffsetsWithinChunk
    rw [hsize]
    rfl
  unfold validateManifest
  rw [hids, hwithin]
  rfl

/-! ## Section 2: Which manifests some order makes valid -/

/-- Well-formed but for the order of the chunk table: each entry stays
    within some row of its chunk. -/
structure Manifest.FitsSomeRow (m : Manifest) : Prop extends m.Shaped where
  within : ∀ e ∈ m.entries, ∃ c ∈ m.chunks, c.chunkId = e.chunkId ∧
    e.chunkOffset.toNat + e.length.toNat ≤ c.size.toNat

theorem Manifest.WellFormed.fitsSomeRow (h : m.WellFormed) : m.FitsSomeRow where
  toShaped := h.toShaped
  within := by
    intro e he
    obtain ⟨c, hc, hle⟩ := h.within e he
    exact ⟨c, List.mem_of_find?_eq_some hc, by simpa using List.find?_some hc, hle⟩

/-- The rows by size, the largest first. -/
def largestFirst (chunks : List Chunk) : List Chunk :=
  chunks.mergeSort fun a b => decide (b.size.toNat ≤ a.size.toNat)

theorem largestFirst_perm (chunks : List Chunk) : (largestFirst chunks).Perm chunks :=
  List.mergeSort_perm _ _

theorem largestFirst_sorted (chunks : List Chunk) :
    (largestFirst chunks).Pairwise fun a b => b.size.toNat ≤ a.size.toNat := by
  have hsorted : (largestFirst chunks).Pairwise fun a b =>
      decide (b.size.toNat ≤ a.size.toNat) = true := by
    apply List.pairwise_mergeSort
    · intro a b c hab hbc
      simp only [decide_eq_true_eq] at *
      omega
    · intro a b
      simp only [Bool.or_eq_true, decide_eq_true_eq]
      omega
  exact hsorted.imp fun h => of_decide_eq_true h

/-- The first of the sorted rows of a chunk is the largest, so the entries
    that fit some row fit that one. -/
theorem Manifest.FitsSomeRow.wellFormed (h : m.FitsSomeRow) :
    (m.withChunks (largestFirst m.chunks)).WellFormed where
  layout := h.layout
  count := h.count
  entryIds := h.entryIds
  chunkIds := by
    intro c hc
    exact h.chunkIds c ((largestFirst_perm m.chunks).mem_iff.mp hc)
  sameIds := by
    intro id
    rw [withChunks_entries, withChunks_chunks,
      ((largestFirst_perm m.chunks).map Chunk.chunkId).mem_iff]
    exact h.sameIds id
  within := by
    intro e he
    obtain ⟨c, hc, hid, hle⟩ := h.within e he
    have hmem : c ∈ largestFirst m.chunks := (largestFirst_perm m.chunks).mem_iff.mpr hc
    have hp : (c.chunkId == e.chunkId) = true := by simpa using hid
    have hsome : ((largestFirst m.chunks).find? fun c => c.chunkId == e.chunkId).isSome :=
      List.find?_isSome.mpr ⟨c, hmem, hp⟩
    obtain ⟨first, hfirst⟩ := Option.isSome_iff_exists.mp hsome
    refine ⟨first, hfirst, ?_⟩
    rcases find?_of_pairwise (largestFirst_sorted m.chunks) hfirst hmem hp with heq | hsize
    · rw [heq]
      exact hle
    · omega

/-! ## Section 3: When the order has no say -/

/-- What is accepted in every order has distinct ids, because every row is
    used by an entry. -/
theorem OrderFree.nodup (h : OrderFree m) (hfits : m.FitsSomeRow) :
    (m.chunks.map Chunk.chunkId).Nodup := by
  have hwf : m.WellFormed := by
    rw [← verdict_eq_ok, ← h.order _ (largestFirst_perm m.chunks), verdict_eq_ok]
    exact hfits.wellFormed
  refine nodup_of_rowsWith ?_
  intro c hc
  obtain ⟨e, he, hid⟩ := List.mem_map.mp
    ((hwf.sameIds c.chunkId).mpr (List.mem_map.mpr ⟨c, hc, rfl⟩))
  obtain ⟨c', hrows, _⟩ := h.one (validateManifest_ok_iff.mpr hwf) e he
  rw [hid] at hrows
  exact ⟨c', hrows⟩

theorem orderFree_of_nodup (hnodup : (m.chunks.map Chunk.chunkId).Nodup) : OrderFree m where
  order := by
    intro chunks hperm
    rw [verdict, validateManifest_perm hperm hnodup]
    rfl
  one := by
    intro hok e he
    obtain ⟨c, hc, _⟩ := (validateManifest_ok_iff.mp hok).within e he
    have hid : c.chunkId = e.chunkId := by simpa using List.find?_some hc
    refine ⟨c, rowsWith_of_nodup hnodup (List.mem_of_find?_eq_some hc) hid, ?_⟩
    exact chunkSize_eq_some.mpr ⟨c, hc, rfl⟩

/-- A manifest that is rejected in every order. -/
theorem orderFree_of_not_fits (hfits : ¬ m.FitsSomeRow) : OrderFree m := by
  have hno : ∀ chunks, chunks.Perm m.chunks → ¬ (m.withChunks chunks).WellFormed := by
    intro chunks hperm hwf
    have h := hwf.fitsSomeRow
    refine hfits ⟨⟨h.layout, h.count, h.entryIds, ?_, ?_⟩, ?_⟩
    · intro c hc
      exact h.chunkIds c (hperm.mem_iff.mpr hc)
    · intro id
      rw [← (hperm.map Chunk.chunkId).mem_iff]
      exact h.sameIds id
    · intro e he
      obtain ⟨c, hc, hid, hle⟩ := h.within e he
      exact ⟨c, hperm.mem_iff.mp hc, hid, hle⟩
  have hself : ¬ m.WellFormed := hno m.chunks (.refl _)
  constructor
  · intro chunks hperm
    rw [verdict_of_not_wellFormed (hno chunks hperm), verdict_of_not_wellFormed hself]
  · intro hok
    exact absurd (validateManifest_ok_iff.mp hok) hself

/-- **When the order of the chunk table has no say**: the ids of the rows are
    distinct, or no order of the rows is accepted. -/
theorem orderFree_iff (m : Manifest) :
    OrderFree m ↔ (m.FitsSomeRow → (m.chunks.map Chunk.chunkId).Nodup) := by
  constructor
  · intro h hfits
    exact h.nodup hfits
  · intro h
    by_cases hfits : m.FitsSomeRow
    · exact orderFree_of_nodup (h hfits)
    · exact orderFree_of_not_fits hfits

namespace Sample

/-- Three bytes of a chunk that one row declares to have three bytes and
    another one to have a single byte. -/
def twoRows : Manifest where
  manifestId := ⟨⟨1⟩⟩
  totalSize := 3
  chunkCount := 1
  entries := [⟨0, 3, chunk, 0⟩]
  chunks := [⟨chunk, 3⟩, ⟨chunk, 1⟩]

end Sample

/-- A manifest is accepted with its rows in one order and rejected with them
    in the other. -/
theorem order_decides : ¬ ∀ m : Manifest, OrderFree m := by
  intro h
  have hswap := (h Sample.twoRows).order [⟨Sample.chunk, 1⟩, ⟨Sample.chunk, 3⟩] (.swap _ _ _)
  have haccepted : verdict Sample.twoRows = ok () := by
    decide +kernel
  have hrejected : verdict (Sample.twoRows.withChunks [⟨Sample.chunk, 1⟩, ⟨Sample.chunk, 3⟩]) =
      err .integrityManifestInvalid := by
    decide +kernel
  rw [haccepted, hrejected] at hswap
  cases hswap

end Space
