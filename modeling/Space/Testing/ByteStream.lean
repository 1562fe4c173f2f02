import Space.Rust.Word
import Space.Data.Blocks
import Space.Contracts.Errors

/-! # The deterministic byte stream

    `tests/generators`: test data is drawn from a seeded random generator in
    blocks of `STREAM_BLOCK` bytes, zero bytes are replaced, and reads of any
    size are served from the current block.

    `pending` is what a stream still has to give, as an infinite stream. Each
    round of the read loop takes a piece off its front (`reads_fillFrom`), so
    the bytes that a caller gets depend on how many it asks for and not on
    how it slices its reads.

    The generator belongs to another crate and is a parameter. Memory is
    taken to be sufficient: a buffer here is a list of any length. -/

namespace Space

open Rust Outcome Data

/-! ## Section 1: The stream -/

/-- `STREAM_BLOCK`. -/
def streamBlock : Nat := 8192

theorem streamBlock_pos : 0 < streamBlock := by decide

abbrev StreamBlock := Block UInt8 streamBlock

/-- `ChaCha8Rng`, which is asked for nothing but whole blocks. -/
class ChaCha8 where
  State : Type
  seedFromU64 : UInt64 → State
  /-- `fill_bytes` on a buffer of `STREAM_BLOCK` bytes. -/
  fillBytes : State → StreamBlock × State

/-- No byte of the stream is zero. -/
def nz (b : UInt8) : UInt8 := if b == 0 then 0xAA else b

theorem nz_ne_zero (b : UInt8) : nz b ≠ 0 := by
  unfold nz
  by_cases h : b = 0
  · rw [if_pos (by simpa using h)]
    decide
  · rw [if_neg (by simpa using h)]
    exact h

/-- A block, and how much of it was handed out. -/
structure ByteStream [ChaCha8] where
  rng : ChaCha8.State
  block : StreamBlock
  used : Nat
  used_le : used ≤ streamBlock

/-- `out[i..i + piece.len()].copy_from_slice(piece)`, for a piece that fits. -/
def copyAt (buf : List UInt8) (i : Nat) (piece : List UInt8) : List UInt8 :=
  buf.take i ++ piece ++ buf.drop (i + piece.length)

theorem length_copyAt {buf piece : List UInt8} {i : Nat} (h : i + piece.length ≤ buf.length) :
    (copyAt buf i piece).length = buf.length := by
  simp only [copyAt, List.length_append, List.length_take, List.length_drop]
  omega

theorem take_copyAt {buf piece : List UInt8} {i : Nat} (h : i + piece.length ≤ buf.length) :
    (copyAt buf i piece).take (i + piece.length) = buf.take i ++ piece := by
  have hlen : (buf.take i ++ piece).length = i + piece.length := by
    rw [List.length_append, List.length_take]
    omega
  rw [copyAt, ← hlen, List.take_left]

section stream

variable [ChaCha8]

namespace ByteStream

/-- `ByteStream::new`: the block is used up before the first read. -/
def new (seed : UInt64) : ByteStream where
  rng := ChaCha8.seedFromU64 seed
  block := ⟨List.replicate streamBlock 0, List.length_replicate⟩
  used := streamBlock
  used_le := Nat.le_refl _

/-- The next block of a generator, without its zero bytes. -/
def nextBlock (rng : ChaCha8.State) : StreamBlock × ChaCha8.State :=
  ((ChaCha8.fillBytes rng).1.map nz, (ChaCha8.fillBytes rng).2)

/-- A block that is used up is replaced by the next one. -/
def refilled (s : ByteStream) : ByteStream :=
  if s.used = streamBlock then
    { rng := (nextBlock s.rng).2
      block := (nextBlock s.rng).1
      used := 0
      used_le := Nat.zero_le _ }
  else s

theorem used_refilled (s : ByteStream) : s.refilled.used < streamBlock := by
  have hle := s.used_le
  unfold refilled
  by_cases h : s.used = streamBlock
  · rw [if_pos h]
    exact streamBlock_pos
  · rw [if_neg h]
    omega

/-- The bytes that a round takes off the block, for `n` that it still has. -/
def piece (s : ByteStream) (n : Nat) : List UInt8 := s.block.val.extract s.used (s.used + n)

/-- The stream after that round. -/
def skip (s : ByteStream) (n : Nat) (h : s.used + n ≤ streamBlock) : ByteStream :=
  { s with used := s.used + n, used_le := h }

theorem length_piece {s : ByteStream} {n : Nat} (h : s.used + n ≤ streamBlock) :
    (s.piece n).length = n := by
  have hlen := s.block.property
  simp only [piece, List.extract_eq_take_drop, List.length_take, List.length_drop]
  omega

/-- The loop of `fill`, from index `i` of the buffer on. Each round writes at
    least one byte, because a block that is used up is replaced first. -/
def fillFrom (s : ByteStream) (buf : List UInt8) (i : Nat) : List UInt8 × ByteStream :=
  if hi : i < buf.length then
    have hused := s.used_refilled
    let n := min (buf.length - i) (streamBlock - s.refilled.used)
    have hn : s.refilled.used + n ≤ streamBlock := by omega
    fillFrom (s.refilled.skip n hn) (copyAt buf i (s.refilled.piece n)) (i + n)
  else (buf, s)
termination_by buf.length - i
decreasing_by
  rw [length_copyAt (by rw [length_piece hn]; omega)]
  omega

/-- `ByteStream::fill`. -/
def fill (s : ByteStream) (buf : List UInt8) : List UInt8 × ByteStream := s.fillFrom buf 0

/-- Fill some buffers one after another. -/
def fillAll (s : ByteStream) : List (List UInt8) → List (List UInt8) × ByteStream
  | [] => ([], s)
  | buf :: bufs =>
    let filled := s.fill buf
    let rest := filled.2.fillAll bufs
    (filled.1 :: rest.1, rest.2)

/-! ## Section 2: What a stream still has to give -/

/-- The rest of the block, and all the blocks to come. -/
def pending (s : ByteStream) : Stream' UInt8 :=
  Stream'.appendStream' (s.block.val.drop s.used) (elements nextBlock streamBlock_pos s.rng)

/-- A refill takes nothing and adds nothing. -/
theorem pending_refilled (s : ByteStream) : s.refilled.pending = s.pending := by
  unfold refilled
  by_cases h : s.used = streamBlock
  · have hempty : s.block.val.drop s.used = [] := by
      rw [List.drop_eq_nil_iff, s.block.property, h]
    rw [if_pos h, pending, pending, hempty, List.drop_zero]
    exact (elements_eq s.rng).symm
  · rw [if_neg h]

/-- One round takes its piece off the front. -/
theorem reads_piece (s : ByteStream) {n : Nat} (h : s.used + n ≤ streamBlock) :
    Reads s.pending (s.piece n) (s.skip n h).pending := by
  have hsplit : s.block.val.drop s.used = s.piece n ++ s.block.val.drop (s.used + n) := by
    rw [piece, List.extract_eq_take_drop, Nat.add_sub_cancel_left, ← List.drop_drop,
      List.take_append_drop]
  unfold Reads pending
  rw [hsplit, Stream'.append_append_stream]
  rfl

/-- **The read loop**: it leaves the front of the buffer alone and fills the
    rest of it from the stream. -/
theorem reads_fillFrom (s : ByteStream) (buf : List UInt8) {i : Nat} (hi : i ≤ buf.length) :
    ∃ out, (s.fillFrom buf i).1 = buf.take i ++ out ∧ out.length = buf.length - i ∧
      Reads s.pending out (s.fillFrom buf i).2.pending := by
  induction s, buf, i using fillFrom.induct with
  | case1 s buf i hlt hused n hn ih =>
    have hfit : i + (s.refilled.piece n).length ≤ buf.length := by
      rw [length_piece hn]
      omega
    have hlen := length_copyAt hfit
    obtain ⟨out, hout, houtlen, hreads⟩ := ih (by rw [hlen]; omega)
    have htake := take_copyAt hfit
    rw [length_piece hn] at htake
    have hstep : s.fillFrom buf i =
        (s.refilled.skip n hn).fillFrom (copyAt buf i (s.refilled.piece n)) (i + n) := by
      rw [fillFrom, dif_pos hlt]
    refine ⟨s.refilled.piece n ++ out, ?_, ?_, ?_⟩
    · rw [hstep, hout, htake, List.append_assoc]
    · rw [List.length_append, length_piece hn, houtlen, hlen]
      omega
    · rw [hstep, ← s.pending_refilled]
      exact (s.refilled.reads_piece hn).trans hreads
  | case2 s buf i hge =>
    have heq : s.fillFrom buf i = (buf, s) := by
      rw [fillFrom, dif_neg hge]
    refine ⟨[], ?_, ?_, ?_⟩
    · rw [heq, List.take_of_length_le (by omega), List.append_nil]
    · rw [List.length_nil]
      omega
    · rw [heq]
      exact Reads.refl _

/-- **A read fills the whole buffer from the stream.** -/
theorem reads_fill (s : ByteStream) (buf : List UInt8) :
    (s.fill buf).1.length = buf.length ∧ Reads s.pending (s.fill buf).1 (s.fill buf).2.pending := by
  obtain ⟨out, hout, hlen, hreads⟩ := s.reads_fillFrom buf (Nat.zero_le _)
  have hall : (s.fill buf).1 = out := hout
  rw [hall]
  exact ⟨hlen, hreads⟩

theorem reads_fillAll (s : ByteStream) (bufs : List (List UInt8)) :
    (s.fillAll bufs).1.map List.length = bufs.map List.length ∧
      Reads s.pending (s.fillAll bufs).1.flatten (s.fillAll bufs).2.pending := by
  induction bufs generalizing s with
  | nil => exact ⟨rfl, Reads.refl _⟩
  | cons buf bufs ih =>
    obtain ⟨hlen, hreads⟩ := s.reads_fill buf
    obtain ⟨hlens, hrest⟩ := ih (s.fill buf).2
    constructor
    · show (s.fill buf).1.length :: _ = buf.length :: _
      rw [hlen, hlens]
    · exact hreads.trans hrest

/-- A fresh stream starts with the first block of its generator. -/
theorem pending_new (seed : UInt64) :
    (new seed).pending = elements nextBlock streamBlock_pos (ChaCha8.seedFromU64 seed) := by
  have hempty : (new seed).block.val.drop (new seed).used = [] := by
    rw [List.drop_eq_nil_iff, (new seed).block.property]
    exact Nat.le_refl _
  rw [pending, hempty]
  rfl

/-- The zeros that the block starts with are never handed out. -/
theorem pending_new_all (seed : UInt64) : (new seed).pending.All fun b => b ≠ 0 := by
  rw [pending_new]
  refine elements_all ?_ _
  intro rng b hb
  obtain ⟨b', _, rfl⟩ := List.mem_map.mp hb
  exact nz_ne_zero b'

end ByteStream

/-! ## Section 3: Files from a stream -/

/-- `generate_file`. -/
def generateFile (size seed : UInt64) : List UInt8 :=
  ((ByteStream.new seed).fill (List.replicate size.toNat 0)).1

/-- The loop of `generate_file_streaming`: the pieces that are handed to the
    sink. The piece is at most what remains, so nothing underflows. -/
def streamLoop (block : UInt64) (hblock : 0 < block.toNat) (stream : ByteStream) (buf : List UInt8)
    (remaining : UInt64) : List (List UInt8) :=
  if _hremaining : 0 < remaining.toNat then
    let n := min remaining block
    let filled := stream.fill (buf.take n.toNat)
    filled.1 :: streamLoop block hblock filled.2 (filled.1 ++ buf.drop n.toNat) (remaining - n)
  else []
termination_by remaining.toNat
decreasing_by
  rw [toNat_sub_min]
  omega

/-- `generate_file_streaming`, for a sink that keeps what it is handed. -/
def generateFileStreaming (size seed block : UInt64) : Res (List (List UInt8)) :=
  if hblock : 0 < block.toNat then
    ok (streamLoop block hblock (ByteStream.new seed) (List.replicate block.toNat 0) size)
  else panic

/-- What is handed to the sink: pieces of the stream, none of them empty and
    none longer than a block, as many bytes as remain. -/
theorem reads_streamLoop (block : UInt64) (hblock : 0 < block.toNat) (stream : ByteStream)
    (buf : List UInt8) (remaining : UInt64) (hbuf : buf.length = block.toNat) :
    (∃ rest, Reads stream.pending (streamLoop block hblock stream buf remaining).flatten rest) ∧
      (streamLoop block hblock stream buf remaining).flatten.length = remaining.toNat ∧
      ∀ piece ∈ streamLoop block hblock stream buf remaining,
        piece ≠ [] ∧ piece.length ≤ block.toNat := by
  induction stream, buf, remaining using streamLoop.induct block hblock with
  | case1 stream buf remaining hremaining n filled ih =>
    have hn : n.toNat = min remaining.toNat block.toNat := toNat_min remaining block
    obtain ⟨hlen, hreads⟩ := stream.reads_fill (buf.take n.toNat)
    have hpiece : filled.1.length = n.toNat := by
      rw [hlen, List.length_take]
      omega
    obtain ⟨⟨rest, hrest⟩, htotal, hpieces⟩ := ih (by
      rw [List.length_append, hpiece, List.length_drop]
      omega)
    have hstep : streamLoop block hblock stream buf remaining =
        filled.1 :: streamLoop block hblock filled.2 (filled.1 ++ buf.drop n.toNat)
          (remaining - n) := by
      rw [streamLoop, dif_pos hremaining]
    rw [hstep]
    refine ⟨⟨rest, hreads.trans hrest⟩, ?_, ?_⟩
    · rw [List.flatten_cons, List.length_append, hpiece, htotal, toNat_sub_min]
      omega
    · intro piece hmem
      rcases List.mem_cons.mp hmem with hfirst | hlater
      · subst hfirst
        constructor
        · intro hnil
          rw [hnil, List.length_nil] at hpiece
          omega
        · omega
      · exact hpieces piece hlater
  | case2 stream buf remaining hdone =>
    have hstop : streamLoop block hblock stream buf remaining = [] := by
      rw [streamLoop, dif_neg hdone]
    rw [hstop]
    refine ⟨⟨_, Reads.refl _⟩, ?_, ?_⟩
    · show 0 = remaining.toNat
      omega
    · intro piece hmem
      cases hmem

/-- A file is the start of the stream of its seed. -/
theorem reads_generateFile (size seed : UInt64) : (generateFile size seed).length = size.toNat ∧
    ∃ rest, Reads (ByteStream.new seed).pending (generateFile size seed) rest := by
  obtain ⟨hlen, hreads⟩ := (ByteStream.new seed).reads_fill (List.replicate size.toNat 0)
  rw [List.length_replicate] at hlen
  exact ⟨hlen, _, hreads⟩

/-- **The stream does not depend on how it is read.** Buffers of the same
    total length are filled with the same bytes, none of them zero; and a
    file that is streamed in pieces is the file that is made at once. -/
theorem byte_stream_sliceless (seed : UInt64) (bufs bufs' : List (List UInt8))
    (htotal : (bufs.map List.length).sum = (bufs'.map List.length).sum) :
    ((ByteStream.new seed).fillAll bufs).1.flatten =
        ((ByteStream.new seed).fillAll bufs').1.flatten ∧
      ((ByteStream.new seed).fillAll bufs).1.map List.length = bufs.map List.length ∧
      (∀ b ∈ ((ByteStream.new seed).fillAll bufs).1.flatten, b ≠ 0) ∧
      ∀ size block : UInt64, 0 < block.toNat →
        ∃ pieces, generateFileStreaming size seed block = ok pieces ∧
          pieces.flatten = generateFile size seed ∧
            ∀ piece ∈ pieces, piece ≠ [] ∧ piece.length ≤ block.toNat := by
  obtain ⟨hlens, hreads⟩ := (ByteStream.new seed).reads_fillAll bufs
  obtain ⟨hlens', hreads'⟩ := (ByteStream.new seed).reads_fillAll bufs'
  refine ⟨?_, hlens, hreads.all (ByteStream.pending_new_all seed), ?_⟩
  · refine hreads.eq_of_length hreads' ?_
    rw [List.length_flatten, List.length_flatten, hlens, hlens', htotal]
  · intro size block hblock
    obtain ⟨⟨rest, hpieces⟩, hlen, hall⟩ := reads_streamLoop block hblock (ByteStream.new seed)
      (List.replicate block.toNat 0) size List.length_replicate
    obtain ⟨hsize, rest', hfile⟩ := reads_generateFile size seed
    refine ⟨_, dif_pos hblock, hpieces.eq_of_length hfile ?_, hall⟩
    rw [hlen, hsize]

end stream

namespace Sample

/-- A generator whose blocks count up, zeros included. -/
@[reducible] def chaCha8 : ChaCha8 where
  State := UInt8
  seedFromU64 := fun seed => seed.toUInt8
  fillBytes := fun n => (⟨List.replicate streamBlock n, List.length_replicate⟩, n + 1)

end Sample

/-- Three reads, one of them empty, against a single one; and ten bytes in
    pieces of three. -/
theorem byte_stream_sliceless_sample :
    letI := Sample.chaCha8
    ((ByteStream.new 7).fillAll [[1, 1, 1], [], [1, 2]]).1.flatten =
        ((ByteStream.new 7).fillAll [[0, 0, 0, 0, 0]]).1.flatten ∧
      ∃ pieces, generateFileStreaming 10 7 3 = ok pieces ∧
        pieces.flatten = generateFile 10 7 := by
  let := Sample.chaCha8
  obtain ⟨hsame, _, _, hstreamed⟩ :=
    byte_stream_sliceless 7 [[1, 1, 1], [], [1, 2]] [[0, 0, 0, 0, 0]] rfl
  obtain ⟨pieces, hpieces, hfile, _⟩ := hstreamed 10 3 (by decide)
  exact ⟨hsame, pieces, hpieces, hfile⟩

end Space
