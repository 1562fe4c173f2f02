import Space.Contracts.WellFormed
import Space.Effects.Prog

/-! # The client

    `space_client_core`: the part of `CloudClient` that reads a file back.

    A `GET` for a range of a chunk is an operation, and its reply is
    whatever the network delivers. A program over `HttpI` fixes nothing
    about the other side: fed with arbitrary replies it faces an arbitrary
    server, and `Space.Client.Reassemble` interprets it in the real one. -/

namespace Space

open Rust Outcome Data Effects

/-! ## Section 1: HTTP -/

/-- `GET /v1/chunks/{chunkId}` with a `Range` header. -/
structure RangeGet where
  chunkId : String
  range : String
  deriving DecidableEq, Repr

/-- What `reqwest` reports: that sending or receiving failed, with the text
    of its error, or a response. -/
inductive HttpReply where
  | failed (isTimeout : Bool) (text : String)
  | response (status : Nat) (body : Bytes)
  deriving DecidableEq

abbrev HttpI : Interface := ⟨RangeGet, fun _ => HttpReply⟩

/-- The crates that put responses on the wire and take them off again. -/
class Wire where
  /-- `serde_json` on an `ErrorResponse`. -/
  encodeError : SpaceError → Bytes
  /-- `serde_json::from_slice::<ErrorResponse>`. -/
  decodeError : Bytes → Option SpaceError
  /-- The text of the error for a connection closed without a response. -/
  closed : String

namespace Sample

/-- An `ErrorResponse` whose text needs no escapes. -/
def errorJson (code message : String) : Bytes :=
  let json := "\x7b\"contract_version\":1,\"error\":\x7b\"code\":\"" ++ code ++
    "\",\"message\":\"" ++ message ++ "\"\x7d\x7d"
  ⟨json.toUTF8.toList.take isizeMax, List.length_take_le _ _⟩

def hashMismatch : SpaceError :=
  SpaceError.new .integrityHashMismatch "stored bytes do not match chunk_id"

def lengthMismatch : SpaceError :=
  SpaceError.new .integrityLengthMismatch "requested range extends past the object"

/-- The wire, on the two errors that a damaged object can lead to. -/
@[reducible] def wire : Wire where
  encodeError := fun e =>
    if e.code = .integrityHashMismatch then errorJson "INTEGRITY_HASH_MISMATCH" e.message
    else errorJson "INTEGRITY_LENGTH_MISMATCH" e.message
  decodeError := fun bytes =>
    if bytes = errorJson "INTEGRITY_HASH_MISMATCH" hashMismatch.message then some hashMismatch
    else if bytes = errorJson "INTEGRITY_LENGTH_MISMATCH" lengthMismatch.message then
      some lengthMismatch
    else none
  closed := "connection closed before message completed"

end Sample

/-- `StatusCode::is_success`. -/
def isSuccess (status : Nat) : Bool := 200 ≤ status && status ≤ 299

/-- `net_error`. -/
def netError (isTimeout : Bool) (text : String) : SpaceError :=
  SpaceError.new (if isTimeout then .networkTimeout else .networkUnavailable) text

/-- The status and the body of a reply, or its `net_error`. -/
def received : HttpReply → Res (Nat × Bytes)
  | .failed isTimeout text => err (netError isTimeout text)
  | .response status body => ok (status, body)

/-- `.send().await` and `.bytes().await`, with their errors mapped. -/
def send (get : RangeGet) : Fallible HttpI SpaceError (Nat × Bytes) :=
  .call get fun reply => .ret (received reply)

/-- The header that asks for an inclusive range. -/
def rangeHeader (start endInclusive : UInt64) : String :=
  "bytes=" ++ decimal start ++ "-" ++ decimal endInclusive

/-! ## Section 2: Reading a range and reading a file -/

/-- `offset + length - 1`. -/
def lastByte (offset length : UInt64) : Res UInt64 := do
  let stop ← addU64 offset length
  subU64 stop 1

section client

variable [Wire]

/-- The half of `get_chunk_range` that follows the response. -/
def rangeBody (status : Nat) (bytes : Bytes) (length : UInt64) : Res Bytes := do
  rejectIf (!isSuccess status) ((Wire.decodeError bytes).getD
    (SpaceError.new .protocolViolation "range GET failed"))
  rejectIf (bytes.len != length) (SpaceError.new .integrityLengthMismatch
    ("range GET returned " ++ decimal bytes.len ++ " bytes, expected " ++ decimal length))
  return bytes

/-- `CloudClient::get_chunk_range`. -/
def getChunkRange (id : ChunkId) (offset length : UInt64) : Fallible HttpI SpaceError Bytes := do
  let endInclusive ← lastByte offset length
  let (status, bytes) ← send ⟨id.str, rangeHeader offset endInclusive⟩
  rangeBody status bytes length

/-- This range covers a whole chunk. -/
def Manifest.coversChunk (m : Manifest) (entry : ManifestEntry) : Bool :=
  match m.chunkSize entry.chunkId with
  | some size => entry.chunkOffset == 0 && entry.length == size
  | none => false

variable [Blake3]

/-- The half of the loop body that follows the read: a whole chunk is
    verified, and the bytes are copied to their place. -/
def storeEntry (m : Manifest) (entry : ManifestEntry) (bytes out : Bytes) : Res Bytes := do
  rejectIf (m.coversChunk entry && !entry.chunkId.verify bytes)
    (SpaceError.new .integrityHashMismatch "reassembled chunk does not match its content address")
  out.copyInto entry.logicalOffset bytes

/-- The loop of `reassemble` over the entries that are left. -/
def reassembleLoop (m : Manifest) : List ManifestEntry → Bytes → Fallible HttpI SpaceError Bytes
  | [], out => return out
  | entry :: rest, out => do
    let bytes ← getChunkRange entry.chunkId entry.chunkOffset entry.length
    let out ← storeEntry m entry bytes out
    reassembleLoop m rest out

/-- `CloudClient::reassemble`. -/
def reassemble (m : Manifest) : Fallible HttpI SpaceError Bytes := do
  validateManifest m
  let out ← (Bytes.zeroed m.totalSize : Res Bytes)
  reassembleLoop m m.entries out

end client

/-- A range that has a last byte, and the last byte that it has. -/
theorem lastByte_of_lt (offset length : UInt64) (hpos : 0 < offset.toNat + length.toNat)
    (hlt : offset.toNat + length.toNat < 2 ^ 64) :
    lastByte offset length = ok (offset + length - 1) ∧
      (offset + length - 1).toNat + 1 = offset.toNat + length.toNat := by
  have hsum := toNat_add_of_lt hlt
  have hone := UInt64.toNat_one
  have hle : (1 : UInt64).toNat ≤ (offset + length).toNat := by omega
  constructor
  · rw [lastByte, addU64_of_lt hlt, ok_bind, subU64_of_le hle]
  · rw [toNat_sub_of_le hle]
    omega

theorem exists_lastByte {offset length : UInt64} (hpos : 0 < offset.toNat + length.toNat)
    (hlt : offset.toNat + length.toNat < 2 ^ 64) :
    ∃ last, lastByte offset length = ok last ∧ last.toNat + 1 = offset.toNat + length.toNat :=
  ⟨_, lastByte_of_lt offset length hpos hlt⟩

/-- Any other range has none: the sum overflows, or there is nothing in front
    of byte 0. -/
theorem lastByte_of_not_lt {offset length : UInt64}
    (h : ¬ (0 < offset.toNat + length.toNat ∧ offset.toNat + length.toNat < 2 ^ 64)) :
    lastByte offset length = panic := by
  by_cases hlt : offset.toNat + length.toNat < 2 ^ 64
  · have hsum := toNat_add_of_lt hlt
    have hsub : (subU64 (offset + length) 1 : Res UInt64) = panic := by
      have hone := UInt64.toNat_one
      unfold subU64
      rw [if_neg (by omega)]
    rw [lastByte, addU64_of_lt hlt, ok_bind, hsub]
  · have hadd : (addU64 offset length : Res UInt64) = panic := if_neg hlt
    rw [lastByte, hadd, panic_bind]

section reply

variable [Wire]

/-- What the client makes of the reply to a range request. -/
def rangeReply (length : UInt64) (reply : HttpReply) : Res Bytes := do
  let (status, bytes) ← received reply
  rangeBody status bytes length

/-- A range that has a last byte is one request. -/
theorem getChunkRange_of_lastByte {id : ChunkId} {offset length last : UInt64}
    (hlast : lastByte offset length = ok last) :
    getChunkRange id offset length = .call ⟨id.str, rangeHeader offset last⟩ fun reply =>
      .ret (rangeReply length reply) := by
  simp only [getChunkRange, send, ↓Fallible.bind_eq, ↓Fallible.lift_eq, Prog.bind_ret,
    Prog.bind_call, hlast, Fallible.onOk_ok]
  apply congrArg
  funext reply
  cases reply <;> rfl

/-- Without a last byte nothing is sent. -/
theorem getChunkRange_of_lastByte_panic {id : ChunkId} {offset length : UInt64}
    (hlast : lastByte offset length = panic) :
    getChunkRange id offset length = .ret panic := by
  simp only [getChunkRange, ↓Fallible.bind_eq, ↓Fallible.lift_eq, Prog.bind_ret, hlast]
  rfl

end reply

/-! ## Section 3: One round of the loop -/

/-- What the bounds of a well-formed manifest give for one entry. -/
def ManifestEntry.InBounds (e : ManifestEntry) : Prop :=
  0 < e.length.toNat ∧ e.chunkOffset.toNat + e.length.toNat < 2 ^ 64

/-- The last byte of the chunk that the entry reads. -/
def ManifestEntry.chunkEnd (e : ManifestEntry) : UInt64 := e.chunkOffset + e.length - 1

/-- The request that is made for an entry. -/
def ManifestEntry.rangeGet (e : ManifestEntry) : RangeGet :=
  ⟨e.chunkId.str, rangeHeader e.chunkOffset e.chunkEnd⟩

theorem ManifestEntry.InBounds.toNat_chunkEnd {e : ManifestEntry} (h : e.InBounds) :
    e.chunkEnd.toNat = e.chunkOffset.toNat + e.length.toNat - 1 := by
  have hend := (lastByte_of_lt _ _ (Nat.add_pos_right _ h.1) h.2).2
  unfold chunkEnd
  omega

/-- The arithmetic of a range in bounds neither overflows nor underflows. -/
theorem ManifestEntry.InBounds.lastByte_eq {e : ManifestEntry} (h : e.InBounds) :
    lastByte e.chunkOffset e.length = ok e.chunkEnd :=
  (lastByte_of_lt _ _ (Nat.add_pos_right _ h.1) h.2).1

theorem Manifest.WellFormed.tiles {m : Manifest} (h : m.WellFormed) :
    Tiles 0 m.totalSize.toNat m.spans :=
  tiles_iff_partition.mpr h.layout

theorem Manifest.WellFormed.inBounds {m : Manifest} (h : m.WellFormed) {e : ManifestEntry}
    (he : e ∈ m.entries) : e.InBounds := by
  obtain ⟨c, _, hle⟩ := h.within e he
  have hpos := h.layout.nonempty e.span (List.mem_map_of_mem he)
  have hsize := c.size.toNat_lt
  exact ⟨hpos, by omega⟩

section rounds

variable [Wire] [Blake3] {m : Manifest}

/-- What one round makes of the reply to its request. -/
def round (m : Manifest) (e : ManifestEntry) (out : Bytes) (reply : HttpReply) : Res Bytes := do
  let (status, bytes) ← received reply
  let bytes ← rangeBody status bytes e.length
  storeEntry m e bytes out

omit [Blake3] in
theorem getChunkRange_eq {e : ManifestEntry} (h : e.InBounds) :
    getChunkRange e.chunkId e.chunkOffset e.length =
      .call e.rangeGet fun reply => .ret (rangeReply e.length reply) :=
  getChunkRange_of_lastByte h.lastByte_eq

/-- **One round**: a request, and the rest of the loop when its reply is
    good. -/
theorem reassembleLoop_cons {e : ManifestEntry} (h : e.InBounds) (rest : List ManifestEntry)
    (out : Bytes) : reassembleLoop m (e :: rest) out =
      .call e.rangeGet fun reply =>
        Fallible.onOk (reassembleLoop m rest) (round m e out reply) := by
  rw [reassembleLoop]
  simp only [getChunkRange_eq h, ↓Fallible.bind_eq, ↓Fallible.lift_eq, Prog.bind_ret,
    Prog.bind_call]
  refine congrArg (Prog.call (I := HttpI) e.rangeGet) (funext fun reply => ?_)
  cases reply with
  | failed isTimeout text => rfl
  | response status bytes =>
    show Fallible.onOk _ (rangeBody status bytes e.length) =
      Fallible.onOk _ (rangeBody status bytes e.length >>= fun bytes => storeEntry m e bytes out)
    cases rangeBody status bytes e.length <;> rfl

/-- The reply is a success that carries as many bytes as the entry is long,
    and the bytes of a whole chunk have its address. -/
structure Accepted (m : Manifest) (e : ManifestEntry) (reply : HttpReply) (bytes : Bytes) :
    Prop where
  response : ∃ status, isSuccess status = true ∧ reply = .response status bytes
  length : bytes.data.length = e.length.toNat
  verified : m.coversChunk e = true → e.chunkId.verify bytes = true

theorem round_of_accepted {e : ManifestEntry} {reply : HttpReply} {bytes : Bytes}
    (h : Accepted m e reply bytes) (out : Bytes) :
    round m e out reply = out.copyInto e.logicalOffset bytes := by
  obtain ⟨⟨status, hstatus, rfl⟩, hlen, hverify⟩ := h
  have hlen' : bytes.len = e.length := by
    rw [← UInt64.toNat_inj, Bytes.toNat_len, hlen]
  have hpass : (m.coversChunk e && !e.chunkId.verify bytes) = false := by
    cases hc : m.coversChunk e with
    | false => rfl
    | true => simp [hverify hc]
  simp only [round, received, rangeBody, storeEntry, hstatus, hlen', hpass, Bool.not_true,
    bne_self_eq_false, rejectIf_false, ok_bind, pure_eq]

/-- Every other reply ends the loop with an error, never with a panic. -/
theorem round_of_not_accepted {e : ManifestEntry} {reply : HttpReply}
    (h : ∀ bytes, ¬ Accepted m e reply bytes) (out : Bytes) :
    ∃ error, round m e out reply = err error := by
  cases reply with
  | failed isTimeout text => exact ⟨_, rfl⟩
  | response status bytes =>
    by_cases hstatus : isSuccess status = true
    · by_cases hlen : bytes.len = e.length
      · have hlen' : bytes.data.length = e.length.toNat := by
          rw [← hlen, Bytes.toNat_len]
        -- status and length are right, so it is the hash that is wrong
        have hfail : (m.coversChunk e && !e.chunkId.verify bytes) = true := by
          by_contra hpass
          refine h bytes ⟨⟨status, hstatus, rfl⟩, hlen', fun hc => ?_⟩
          simpa [hc] using hpass
        simp only [round, received, rangeBody, storeEntry, hstatus, hlen, hfail, Bool.not_true,
          bne_self_eq_false, rejectIf_false, rejectIf_true, ok_bind, err_bind, pure_eq]
        exact ⟨_, rfl⟩
      · have hne : (bytes.len != e.length) = true := by simpa using hlen
        simp only [round, received, rangeBody, hstatus, hne, Bool.not_true, rejectIf_false,
          rejectIf_true, ok_bind, err_bind]
        exact ⟨_, rfl⟩
    · have hno : isSuccess status = false := by simpa using hstatus
      simp only [round, received, rangeBody, hno, Bool.not_false, rejectIf_true, ok_bind, err_bind]
      exact ⟨_, rfl⟩

/-- **The loop rule.** `Inv` holds of the entries that are left and the
    buffer, each round keeps it, and a round that fails ends with `P`. -/
theorem returns_loop {R : RangeGet → HttpReply → Prop} {P : Res Bytes → Prop}
    (Inv : List ManifestEntry → Bytes → Prop) (hbounds : ∀ e ∈ m.entries, e.InBounds)
    (hok : ∀ e rest out reply out', Inv (e :: rest) out → R e.rangeGet reply →
      round m e out reply = ok out' → Inv rest out')
    (herr : ∀ e rest out reply error, Inv (e :: rest) out → R e.rangeGet reply →
      round m e out reply = err error → P (err error))
    (hpanic : ∀ e rest out reply, Inv (e :: rest) out → R e.rangeGet reply →
      round m e out reply = panic → P panic)
    (hdone : ∀ out, Inv [] out → P (ok out)) {entries : List ManifestEntry} {out : Bytes}
    (hsub : ∀ e ∈ entries, e ∈ m.entries) (hinv : Inv entries out) :
    (reassembleLoop m entries out).Returns (I := HttpI) R P := by
  induction entries generalizing out with
  | nil => exact hdone out hinv
  | cons e rest ih =>
    rw [reassembleLoop_cons (hbounds e (hsub e (by simp)))]
    intro reply hreply
    refine Fallible.returns_onOk (fun out' hround => ?_) (fun error hround => ?_) fun hround => ?_
    · exact ih (fun e' he' => hsub e' (by simp [he']))
        (hok e rest out reply out' hinv hreply hround)
    · exact herr e rest out reply error hinv hreply hround
    · exact hpanic e rest out reply hinv hreply hround

/-- `reassemble` as its checks leave it: the loop, for a well-formed
    manifest of a size that can be allocated. -/
theorem reassemble_of_wellFormed (h : m.WellFormed) : reassemble m =
    Fallible.onOk (reassembleLoop m m.entries) (Bytes.zeroed m.totalSize) := by
  simp only [reassemble, ↓Fallible.bind_eq, ↓Fallible.lift_eq, Prog.bind_ret,
    validateManifest_ok_iff.mpr h, Fallible.onOk_ok]
  rfl

theorem reassemble_of_not_wellFormed (h : ¬ m.WellFormed) :
    ∃ e, reassemble m = .ret (err e) := by
  obtain ⟨e, he, _⟩ := (validateManifest_decides_wellFormed m).2 h
  refine ⟨e, ?_⟩
  simp only [reassemble, ↓Fallible.bind_eq, ↓Fallible.lift_eq, Prog.bind_ret, he,
    Fallible.onOk_err]
  rfl

/-! ## Section 4: The buffer

    The entries tile the file, so the loop fills the buffer from left to
    right. -/

/-- `done` is in place, the rest of the buffer is still zero, and the
    entries that are left tile it. -/
structure Filled (m : Manifest) (rest : List ManifestEntry) (out : Bytes) (done : List UInt8) :
    Prop where
  tiles : Tiles done.length m.totalSize.toNat (rest.map ManifestEntry.span)
  data : out.data = done ++ List.replicate (m.totalSize.toNat - done.length) 0

omit [Wire] [Blake3] in
theorem Filled.length {rest : List ManifestEntry} {out : Bytes} {done : List UInt8}
    (h : Filled m rest out done) : out.data.length = m.totalSize.toNat := by
  have hle := h.tiles.le
  rw [h.data, List.length_append, List.length_replicate]
  omega

/-- **One round fills the next piece.** -/
theorem Filled.round {e : ManifestEntry} {rest : List ManifestEntry} {out bytes : Bytes}
    {done : List UInt8} {reply : HttpReply} (h : Filled m (e :: rest) out done)
    (ha : Accepted m e reply bytes) :
    ∃ out', Space.round m e out reply = ok out' ∧ Filled m rest out' (done ++ bytes.data) := by
  obtain ⟨hat, _, hrest⟩ := h.tiles
  have hat : e.logicalOffset.toNat = done.length := hat
  have hlen : (done ++ bytes.data).length = done.length + e.length.toNat := by
    rw [List.length_append, ha.length]
  have hend : done.length + e.length.toNat ≤ m.totalSize.toNat := hrest.le
  have hfit : e.logicalOffset.toNat + bytes.data.length ≤ out.data.length := by
    rw [h.length, hat, ha.length]
    exact hend
  refine ⟨_, (round_of_accepted ha out).trans (Bytes.copyInto_of_le hfit), ?_, ?_⟩
  · rw [hlen]
    exact hrest
  · rw [Bytes.overwrite_zeros hat h.data, hlen, ha.length, Nat.sub_sub]

omit [Wire] [Blake3] in
theorem filled_zeroed (h : m.WellFormed) {out : Bytes}
    (hout : (Bytes.zeroed m.totalSize : Res Bytes) = ok out) : Filled m m.entries out [] where
  tiles := h.tiles
  data := Bytes.data_of_zeroed hout

end rounds

/-! ## Section 5: When a manifest can crash the client -/

/-- A well-formed manifest that can be allocated is safe against every
    server. -/
theorem reassemble_returns [Wire] [Blake3] {m : Manifest} (h : m.WellFormed)
    (htotal : m.totalSize.toNat ≤ isizeMax) :
    (reassemble m).Returns (I := HttpI) (fun _ _ => True) fun x => x ≠ panic := by
  obtain ⟨out, hout, _⟩ := Bytes.zeroed_of_le (ε := SpaceError) htotal
  rw [reassemble_of_wellFormed h, hout]
  refine returns_loop (fun rest out => ∃ done, Filled m rest out done)
    (fun e he => h.inBounds he) ?_ (fun _ _ _ _ _ _ _ _ => by simp) ?_ (fun _ _ => by simp)
    (fun e he => he) ⟨[], filled_zeroed h hout⟩
  · -- an accepted reply fills the next piece; after any other one the loop is over
    intro e rest out reply out' ⟨done, hfilled⟩ _ hround
    by_cases ha : ∃ bytes, Accepted m e reply bytes
    · obtain ⟨bytes, ha⟩ := ha
      obtain ⟨out'', hround', hfilled'⟩ := hfilled.round ha
      rw [hround] at hround'
      cases hround'
      exact ⟨_, hfilled'⟩
    · obtain ⟨error, herr⟩ := round_of_not_accepted (not_exists.mp ha) out
      rw [hround] at herr
      cases herr
  · intro e rest out reply ⟨done, hfilled⟩ _ hround
    by_cases ha : ∃ bytes, Accepted m e reply bytes
    · obtain ⟨bytes, ha⟩ := ha
      obtain ⟨out', hround', _⟩ := hfilled.round ha
      rw [hround] at hround'
      cases hround'
    · obtain ⟨error, herr⟩ := round_of_not_accepted (not_exists.mp ha) out
      rw [hround] at herr
      cases herr

/-- The buffer of a larger one cannot be allocated. -/
theorem reassemble_of_gt [Wire] [Blake3] {m : Manifest} (h : m.WellFormed)
    (htotal : isizeMax < m.totalSize.toNat) : reassemble m = .ret panic := by
  rw [reassemble_of_wellFormed h, Bytes.zeroed_of_gt htotal]
  rfl

/-- **No server crashes the client, exactly when** the manifest is rejected
    or its size is at most `isize::MAX`. The validator does not bound the
    size, and the buffer is allocated before the first request. -/
theorem reassemble_never_panics_iff [Wire] [Blake3] (m : Manifest) :
    (∀ oracle : Prog.Oracle HttpI, (reassemble m).feed oracle 0 ≠ panic) ↔
      (m.WellFormed → m.totalSize.toNat ≤ isizeMax) := by
  constructor
  · intro hsafe h
    by_contra htotal
    refine hsafe (fun _ _ => .failed false "") ?_
    rw [reassemble_of_gt h (by omega)]
    rfl
  · intro hsize oracle
    by_cases h : m.WellFormed
    · exact (reassemble_returns h (hsize h)).feed oracle (fun _ _ => trivial) 0
    · obtain ⟨e, he⟩ := reassemble_of_not_wellFormed h
      rw [he]
      intro hpanic
      cases hpanic

namespace Sample

/-- One entry of `2^64 - 1` bytes, in a chunk of that size. -/
def hostile : Manifest where
  manifestId := ⟨⟨1⟩⟩
  totalSize := 0xffffffffffffffff
  chunkCount := 1
  entries := [⟨0, 0xffffffffffffffff, chunk, 0⟩]
  chunks := [⟨chunk, 0xffffffffffffffff⟩]

end Sample

/-- The client crashes on a valid manifest, before its first request. -/
theorem reassemble_panics :
    letI := Sample.wire
    letI := Sample.blake3
    ¬ ∀ (m : Manifest) (oracle : Prog.Oracle HttpI), (reassemble m).feed oracle 0 ≠ panic := by
  let := Sample.wire
  let := Sample.blake3
  intro hsafe
  have hwf : Sample.hostile.WellFormed := by
    refine validateManifest_ok_iff.mp (toOption_eq_some.mp ?_)
    decide +kernel
  refine hsafe Sample.hostile (fun _ _ => .failed false "") ?_
  rw [reassemble_of_gt hwf (by decide)]
  rfl

end Space
