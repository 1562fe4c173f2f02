import Space.Testing.ByteStream
import Space.Contracts.WellFormed
import Space.Data.Rows

/-! # Generated manifests

    `tests/generators`: a file of seeded bytes is cut into chunks of one
    size, the last of which may be shorter, and a manifest describes it.

    `Cut` is the invariant of the loop. It ties the entries to the bodies and
    the bodies to the byte stream, and it keeps the one fact that the
    de-duplication of equal chunks rests on: as long as the file is not
    finished, every row of the chunk table has the full size, so a later
    entry is never longer than the first row with its id. No assumption on
    the hash function is needed. -/

namespace Space

open Rust Outcome Data

/-! ## Section 1: The generator -/

section generators

variable [Blake3]

/-- `ChunkId::from_bytes`, for a buffer of any length. -/
def addressOf (body : List UInt8) : ChunkId :=
  ⟨"b3:" ++ String.ofList (hexPad 64 (Blake3.hash body).toNat)⟩

/-- `u64::div_ceil`, for a divisor that is not 0. -/
def divCeil (a b : UInt64) : UInt64 :=
  if a % b > 0 then a / b + 1 else a / b

/-- `chunk_count`. -/
def chunkCount (fileSize chunkSize : UInt64) : Res UInt64 :=
  if chunkSize > 0 then ok (divCeil fileSize chunkSize) else panic

variable [ChaCha8]

/-- The variables of `generate_manifest` between two rounds. -/
structure Generation where
  stream : ByteStream
  entries : List ManifestEntry
  bodies : List (Chunk × List UInt8)
  chunks : List Chunk
  offset : UInt64

/-- One round: the next chunk. Its row is pushed when none has its id. -/
def generateRound (fileSize chunkSize : UInt64) (g : Generation) : Res Generation := do
  let rest ← subU64 fileSize g.offset
  let len := min rest chunkSize
  let filled := g.stream.fill (List.replicate len.toNat 0)
  let id := addressOf filled.1
  let chunk : Chunk := ⟨id, len⟩
  let offset ← addU64 g.offset len
  return {
    stream := filled.2
    entries := g.entries ++ [⟨g.offset, len, id, 0⟩]
    bodies := g.bodies ++ [(chunk, filled.1)]
    chunks := pushNew Chunk.chunkId chunk g.chunks
    offset }

/-- The loop `for _ in 0..n`. -/
def generateRounds (fileSize chunkSize : UInt64) : Nat → Generation → Res Generation
  | 0, g => ok g
  | n + 1, g => do
    let g ← generateRound fileSize chunkSize g
    generateRounds fileSize chunkSize n g

/-- `generate_manifest`, with the fresh id that it draws. -/
def generateManifest (fileSize chunkSize seed : UInt64) (manifestId : ManifestId) :
    Res (Manifest × List (Chunk × List UInt8)) := do
  let n ← chunkCount fileSize chunkSize
  let g ← generateRounds fileSize chunkSize n.toNat ⟨ByteStream.new seed, [], [], [], 0⟩
  return ({
    manifestId
    totalSize := fileSize
    chunkCount := UInt64.ofNat g.entries.length
    entries := g.entries
    chunks := g.chunks }, g.bodies)

/-! ## Section 2: The loop -/

/-- The body of an entry: as long as the entry, and with its address. -/
def IsBodyOf (e : ManifestEntry) (body : Chunk × List UInt8) : Prop :=
  body.1 = ⟨e.chunkId, e.length⟩ ∧ body.2.length = e.length.toNat ∧ addressOf body.2 = e.chunkId

/-- What the loop has done when it has reached `g.offset`. -/
structure Cut (fileSize chunkSize seed : UInt64) (g : Generation) : Prop where
  le : g.offset.toNat ≤ fileSize.toNat
  tiles : Tiles 0 g.offset.toNat (g.entries.map ManifestEntry.span)
  bodies : List.Forall₂ IsBodyOf g.entries g.bodies
  stream : Reads (ByteStream.new seed).pending (g.bodies.map Prod.snd).flatten g.stream.pending
  entryIds : ∀ e ∈ g.entries, e.chunkId.WellFormed
  sameIds : ∀ id, id ∈ g.entries.map ManifestEntry.chunkId ↔ id ∈ g.chunks.map Chunk.chunkId
  /-- Only the last chunk of the file can be short. -/
  full : g.offset.toNat < fileSize.toNat → ∀ c ∈ g.chunks, c.size = chunkSize
  within : ∀ e ∈ g.entries, ∃ c, (g.chunks.find? fun c => c.chunkId == e.chunkId) = some c ∧
    e.chunkOffset.toNat + e.length.toNat ≤ c.size.toNat

variable {fileSize chunkSize seed : UInt64} {g : Generation}

theorem cut_init (fileSize chunkSize seed : UInt64) :
    Cut fileSize chunkSize seed ⟨ByteStream.new seed, [], [], [], 0⟩ where
  le := Nat.zero_le _
  tiles := rfl
  bodies := .nil
  stream := Reads.refl _
  entryIds := by simp
  sameIds := by simp
  full := by simp
  within := by simp

/-- **One round** cuts the next chunk off the file. -/
theorem Cut.round (h : Cut fileSize chunkSize seed g) (hlt : g.offset.toNat < fileSize.toNat)
    (hchunk : 0 < chunkSize.toNat) :
    ∃ g', generateRound fileSize chunkSize g = ok g' ∧ Cut fileSize chunkSize seed g' ∧
      g'.offset.toNat = g.offset.toNat + min (fileSize.toNat - g.offset.toNat) chunkSize.toNat ∧
        g'.entries.length = g.entries.length + 1 := by
  have hsize := fileSize.toNat_lt
  have hrest := toNat_sub_of_le h.le
  let len := min (fileSize - g.offset) chunkSize
  have hlen : len.toNat = min (fileSize.toNat - g.offset.toNat) chunkSize.toNat := by
    rw [toNat_min, hrest]
  have hsum : g.offset.toNat + len.toNat < 2 ^ 64 := by omega
  have hoffset := toNat_add_of_lt hsum
  obtain ⟨hbody, hreads⟩ := g.stream.reads_fill (List.replicate len.toNat 0)
  rw [List.length_replicate] at hbody
  let body := (g.stream.fill (List.replicate len.toNat 0)).1
  let entry : ManifestEntry := ⟨g.offset, len, addressOf body, 0⟩
  let chunk : Chunk := ⟨addressOf body, len⟩
  have hround : generateRound fileSize chunkSize g = ok
      ⟨(g.stream.fill (List.replicate len.toNat 0)).2, g.entries ++ [entry],
        g.bodies ++ [(chunk, body)], pushNew Chunk.chunkId chunk g.chunks, g.offset + len⟩ := by
    unfold generateRound
    rw [subU64_of_le h.le, ok_bind]
    show (addU64 g.offset len >>= _) = _
    rw [addU64_of_lt hsum, ok_bind]
    rfl
  refine ⟨_, hround, ?_, ?_, ?_⟩
  · constructor
    · show (g.offset + len).toNat ≤ _
      omega
    · show Tiles 0 (g.offset + len).toNat ((g.entries ++ [entry]).map ManifestEntry.span)
      rw [List.map_append]
      refine h.tiles.append ⟨rfl, ?_, ?_⟩
      · show 0 < len.toNat
        omega
      · show g.offset.toNat + len.toNat = _
        rw [hoffset]
    · exact List.rel_append h.bodies (.cons ⟨rfl, hbody, rfl⟩ .nil)
    · show Reads _ ((g.bodies ++ [(chunk, body)]).map Prod.snd).flatten _
      rw [List.map_append, List.flatten_append]
      refine h.stream.trans ?_
      show Reads _ [body].flatten _
      rw [List.flatten_singleton]
      exact hreads
    · intro e he
      rcases List.mem_append.mp he with he | he
      · exact h.entryIds e he
      · rw [List.mem_singleton.mp he]
        exact ChunkId.wellFormed_hexPad _
    · intro id
      show id ∈ (g.entries ++ [entry]).map ManifestEntry.chunkId ↔
        id ∈ (pushNew Chunk.chunkId chunk g.chunks).map Chunk.chunkId
      rw [List.map_append, List.mem_append, mem_map_pushNew, h.sameIds]
      show _ ∨ id ∈ [addressOf body] ↔ _ ∨ id = addressOf body
      rw [List.mem_singleton]
    · -- the file goes on, so this chunk was not cut short
      intro hmore c hc
      have hmore : (g.offset + len).toNat < fileSize.toNat := hmore
      rcases mem_pushNew hc with hc | hc
      · exact h.full hlt c hc
      · rw [hc]
        show len = chunkSize
        rw [← UInt64.toNat_inj]
        omega
    · intro e he
      rcases List.mem_append.mp he with he | he
      · obtain ⟨c, hc, hle⟩ := h.within e he
        exact ⟨c, find?_pushNew hc, hle⟩
      · -- the first row with this id is this one or one of the full size
        rw [List.mem_singleton.mp he]
        obtain ⟨c, hc, hrow⟩ := find?_pushNew_self Chunk.chunkId g.chunks chunk
        refine ⟨c, hc, ?_⟩
        show 0 + len.toNat ≤ c.size.toNat
        rcases hrow with hrow | hrow
        · rw [h.full hlt c hrow]
          omega
        · rw [hrow]
          show 0 + len.toNat ≤ len.toNat
          omega
  · show (g.offset + len).toNat = _
    rw [hoffset, hlen]
  · show (g.entries ++ [entry]).length = _
    rw [List.length_append, List.length_singleton]

/-- **All rounds** cut the whole file, when there are as many as chunks. -/
theorem Cut.rounds {n : Nat} (h : Cut fileSize chunkSize seed g) (hchunk : 0 < chunkSize.toNat)
    (henough : fileSize.toNat - g.offset.toNat ≤ n * chunkSize.toNat)
    (hneeded : ∀ k < n, k * chunkSize.toNat < fileSize.toNat - g.offset.toNat) :
    ∃ g', generateRounds fileSize chunkSize n g = ok g' ∧ Cut fileSize chunkSize seed g' ∧
      g'.offset = fileSize ∧ g'.entries.length = g.entries.length + n := by
  induction n generalizing g with
  | zero =>
    have hle := h.le
    rw [Nat.zero_mul] at henough
    exact ⟨g, rfl, h, UInt64.toNat_inj.mp (by omega), rfl⟩
  | succ n ih =>
    have hlt := hneeded 0 (Nat.succ_pos n)
    rw [Nat.zero_mul] at hlt
    obtain ⟨g', hround, hcut, hoffset, hcount⟩ := h.round (by omega) hchunk
    rw [Nat.succ_mul] at henough
    have hleft : fileSize.toNat - g'.offset.toNat ≤ n * chunkSize.toNat := by
      have := Nat.zero_le (n * chunkSize.toNat)
      omega
    have hnext : ∀ k < n, k * chunkSize.toNat < fileSize.toNat - g'.offset.toNat := by
      intro k hk
      have := hneeded (k + 1) (by omega)
      rw [Nat.succ_mul] at this
      omega
    obtain ⟨g'', hrounds, hcut', hend, hcount'⟩ := ih hcut hleft hnext
    refine ⟨g'', ?_, hcut', hend, by omega⟩
    rw [generateRounds, hround, ok_bind, hrounds]

omit [Blake3] [ChaCha8] in
/-- `div_ceil` counts the chunks: one fewer would not be enough, and it does
    not overflow. -/
theorem divCeil_spec {a b : UInt64} (hb : 0 < b.toNat) :
    a.toNat ≤ (divCeil a b).toNat * b.toNat ∧
      ∀ k < (divCeil a b).toNat, k * b.toNat < a.toNat := by
  have hdiv := Nat.div_add_mod a.toNat b.toNat
  have hmod := Nat.mod_lt a.toNat hb
  have hquot : (a / b).toNat = a.toNat / b.toNat := UInt64.toNat_div a b
  have hrem : (a % b).toNat = a.toNat % b.toNat := UInt64.toNat_mod a b
  rw [Nat.mul_comm] at hdiv
  unfold divCeil
  by_cases hr : a % b > 0
  · have hpos : 0 < a.toNat % b.toNat := by
      rw [← hrem]
      exact UInt64.lt_iff_toNat_lt.mp hr
    -- a remainder leaves room for one more: the divisor is at least 2
    have hroom : a.toNat / b.toNat + 1 < 2 ^ 64 := by
      have hhalf : a.toNat / b.toNat ≤ a.toNat / 2 := Nat.div_le_div_left (by omega) (by decide)
      have := a.toNat_lt
      omega
    have hsum : (a / b + 1).toNat = a.toNat / b.toNat + 1 := by
      rw [toNat_add_of_lt (by rw [hquot]; exact hroom), hquot]
      rfl
    rw [if_pos hr, hsum]
    constructor
    · rw [Nat.succ_mul]
      omega
    · intro k hk
      have hle : k * b.toNat ≤ a.toNat / b.toNat * b.toNat :=
        Nat.mul_le_mul_right _ (Nat.le_of_lt_succ hk)
      omega
  · have hzero : a.toNat % b.toNat = 0 := by
      rw [← hrem]
      have hle := UInt64.le_iff_toNat_le.mp (UInt64.not_lt.mp hr)
      exact Nat.le_zero.mp hle
    rw [if_neg hr, hquot]
    constructor
    · omega
    · intro k hk
      have hle : (k + 1) * b.toNat ≤ a.toNat / b.toNat * b.toNat := Nat.mul_le_mul_right _ hk
      rw [Nat.succ_mul] at hle
      omega

/-! ## Section 3: What is generated -/

/-- The bodies are as long as the entries ask. -/
theorem Cut.fits (h : Cut fileSize chunkSize seed g) :
    Fits (g.entries.map ManifestEntry.span) (g.bodies.map Prod.snd) := by
  unfold Fits
  rw [List.forall₂_map_left_iff, List.forall₂_map_right_iff]
  refine h.bodies.imp ?_
  intro e body hbody
  exact hbody.2.1

/-- A finished cut is a valid manifest. -/
theorem Cut.wellFormed (h : Cut fileSize chunkSize seed g) (hend : g.offset = fileSize)
    (hcount : g.entries.length < 2 ^ 64) (manifestId : ManifestId) :
    Manifest.WellFormed {
      manifestId
      totalSize := fileSize
      chunkCount := UInt64.ofNat g.entries.length
      entries := g.entries
      chunks := g.chunks } where
  layout := tiles_iff_partition.mp (hend ▸ h.tiles)
  count := UInt64.toNat_ofNat_of_lt' hcount
  entryIds := h.entryIds
  chunkIds := by
    intro c hc
    obtain ⟨e, he, hid⟩ := List.mem_map.mp
      ((h.sameIds c.chunkId).mpr (List.mem_map.mpr ⟨c, hc, rfl⟩))
    rw [← hid]
    exact h.entryIds e he
  sameIds := h.sameIds
  within := h.within

/-- **Generated manifests are valid and describe the generated file**: as
    many entries as `chunk_count` says, one body for each with its length and
    its address, and the bodies together are the file. -/
theorem generated_manifest_valid (fileSize chunkSize seed : UInt64) (manifestId : ManifestId)
    (hchunk : 0 < chunkSize.toNat) :
    ∃ m bodies n, generateManifest fileSize chunkSize seed manifestId = ok (m, bodies) ∧
      validateManifest m = ok () ∧ m.totalSize = fileSize ∧
      chunkCount fileSize chunkSize = ok n ∧ m.entries.length = n.toNat ∧
      List.Forall₂ IsBodyOf m.entries bodies ∧
      (bodies.map Prod.snd).flatten = generateFile fileSize seed := by
  obtain ⟨henough, hneeded⟩ := divCeil_spec (a := fileSize) hchunk
  have hpos : chunkSize > 0 := by
    rw [gt_iff_lt, UInt64.lt_iff_toNat_lt]
    exact hchunk
  have hn : chunkCount fileSize chunkSize = ok (divCeil fileSize chunkSize) := if_pos hpos
  obtain ⟨g, hrounds, hcut, hend, hcount⟩ :=
    (cut_init fileSize chunkSize seed).rounds hchunk henough hneeded
  have hcount : g.entries.length = (divCeil fileSize chunkSize).toNat := by
    rw [hcount]
    exact Nat.zero_add _
  have hgenerate : generateManifest fileSize chunkSize seed manifestId = ok ({
      manifestId
      totalSize := fileSize
      chunkCount := UInt64.ofNat g.entries.length
      entries := g.entries
      chunks := g.chunks }, g.bodies) := by
    unfold generateManifest
    rw [hn, ok_bind, hrounds, ok_bind]
    rfl
  refine ⟨_, _, _, hgenerate, ?_, rfl, hn, hcount, hcut.bodies, ?_⟩
  · refine validateManifest_ok_iff.mpr (hcut.wellFormed hend ?_ manifestId)
    rw [hcount]
    exact (divCeil fileSize chunkSize).toNat_lt
  · obtain ⟨hlen, rest, hfile⟩ := reads_generateFile fileSize seed
    refine hcut.stream.eq_of_length hfile ?_
    have htotal := hcut.tiles.length_flatten hcut.fits
    rw [hlen, ← hend]
    omega

end generators

/-- A file of five bytes in chunks of two. -/
theorem generated_manifest_valid_sample :
    letI := Sample.blake3
    letI := Sample.chaCha8
    ∃ m bodies n, generateManifest 5 2 7 ⟨⟨1⟩⟩ = ok (m, bodies) ∧
      validateManifest m = ok () ∧ m.totalSize = 5 ∧ chunkCount 5 2 = ok n ∧
      m.entries.length = n.toNat ∧ List.Forall₂ IsBodyOf m.entries bodies ∧
      (bodies.map Prod.snd).flatten = generateFile 5 7 :=
  letI := Sample.blake3
  letI := Sample.chaCha8
  generated_manifest_valid 5 2 7 ⟨⟨1⟩⟩ (by decide)

end Space
