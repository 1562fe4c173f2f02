import Space.Client.Reassemble
import Space.Client.Stub
import Space.Cloud.Failures

/-! # Range reads, from the client to the store

    One call of `get_chunk_range` with the router at the other end. The
    range is written four times on the way: as a first and a last byte, as
    the text of a header, as a length in `u64` and as one in `u32`. The
    store checks it again at the end.

    The first of these conversions is the client's, and nothing is checked
    before it. -/

namespace Space

open Rust Outcome Data Effects

/-! ## Section 1: What a range read should do -/

/-- The object is stored, the range lies within it, and the object verifies
    when the range is all of it. -/
def Readable [Blake3] (s : FakeObjectStore) (id : ChunkId) (offset length : UInt64) : Prop :=
  ∃ obj, s.inner.lookup id = some obj ∧ id.Reads obj offset.toNat length.toNat

/-- A result that agrees with the store: the bytes of the range when it can
    be read, an error when it cannot. -/
def AgreesWithStore [Blake3] (s : FakeObjectStore) (id : ChunkId) (offset length : UInt64) :
    Res Bytes → Prop
  | .ok bytes => ∃ obj, s.inner.lookup id = some obj ∧
      id.Reads obj offset.toNat length.toNat ∧
        bytes = obj.cut offset.toNat (offset.toNat + length.toNat)
  | .err _ => ¬ Readable s id offset length
  | .panic => False

/-! ## Section 2: The call -/

/-- The request as it is sent. -/
def RangeGet.http (get : RangeGet) : HttpRequest :=
  ⟨.get, "/v1/chunks/" ++ get.chunkId, none, some ⟨some get.range⟩, []⟩

/-- A body in a buffer. No buffer is larger than `isize::MAX`. -/
def bodyBytes (body : List UInt8) : Bytes := ⟨body.take isizeMax, List.length_take_le _ _⟩

theorem bodyBytes_data (bytes : Bytes) : bodyBytes bytes.data = bytes :=
  Bytes.ext (List.take_of_length_le bytes.length_le)

section call

variable [UuidCrate] [SerdeJson] [Reqwest]

/-- The wire between `reqwest` and `axum`. -/
@[reducible] def Wire.json : Wire where
  encodeError := fun e => bodyBytes (errorResponse e).body
  decodeError := fun bytes => (ErrorResponse.ofBody bytes.data).map ErrorResponse.error
  closed := Reqwest.closed

omit [UuidCrate] [SerdeJson] in
/-- A response as `reqwest` reports it. -/
def HttpReply.ofResponse : Option HttpResponse → HttpReply
  | some resp => .response resp.status (bodyBytes resp.body)
  | none => .failed false Reqwest.closed

variable [Chrono] [Axum] [Blake3]

/-- `CloudClient::get_chunk_range` with the server in the state `s`. -/
def CloudClient.getChunkRange (env : Env) (id : ChunkId) (offset length : UInt64) (s : AppState) :
    Res Bytes × AppState :=
  letI := Wire.json
  (Space.getChunkRange id offset length).run (fun (get : RangeGet) s =>
    (HttpReply.ofResponse (Router.answer env get.http s).1, (Router.answer env get.http s).2)) s

/-! ## Section 3: What the response decides -/

variable {env : Env} {id : ChunkId} {offset length last : UInt64} {s : AppState}

omit [Reqwest] in
/-- The request reaches the handler with its range. -/
theorem answer_http (haxum : Axum.Lawful) (hwf : id.WellFormed) (range : String) :
    (Router.answer env (RangeGet.http ⟨id.str, range⟩) s).1 =
      respond (Api.serve env (.getChunk id.str (some ⟨some range⟩)) s).1 := by
  have hroute : route (RangeGet.http ⟨id.str, range⟩) =
      .ok (.stores (.getChunk id.str (some ⟨some range⟩))) := by
    have hput : ¬ (RangeGet.http ⟨id.str, range⟩).method = .put := nofun
    have hget : (RangeGet.http ⟨id.str, range⟩).method.isGet = true := rfl
    have hend : endpoint (RangeGet.http ⟨id.str, range⟩).path = some (.chunk id.str) :=
      endpoint_chunk hwf.pathSafe
    rw [route, hend]
    dsimp only
    rw [Endpoint.extract, if_neg hput, if_pos hget, pathParam_of_pathSafe hwf.pathSafe haxum]
    rfl
  rw [answer_of_stores env s hroute]
  exact Option.map_id_apply

/-- The call, once the last byte has been computed. -/
theorem getChunkRange_of_last (haxum : Axum.Lawful) (hwf : id.WellFormed)
    (hlast : lastByte offset length = ok last) :
    (CloudClient.getChunkRange env id offset length s).1 =
      letI := Wire.json
      rangeReply length (HttpReply.ofResponse (respond (Api.serve env
        (.getChunk id.str (some ⟨some (rangeHeader offset last)⟩)) s).1)) := by
  let := Wire.json
  unfold CloudClient.getChunkRange
  rw [← answer_http haxum hwf, getChunkRange_of_lastByte hlast]
  rfl

theorem getChunkRange_of_panic (hlast : lastByte offset length = panic) :
    (CloudClient.getChunkRange env id offset length s).1 = panic := by
  let := Wire.json
  unfold CloudClient.getChunkRange
  rw [getChunkRange_of_lastByte_panic hlast]
  rfl

/-! ## Section 4: What the client makes of a response -/

omit [Chrono] [Axum] [Blake3] in
/-- A response that is not a success is an error. -/
theorem rangeReply_of_error (length : UInt64) (e : SpaceError) :
    letI := Wire.json
    ∃ e', rangeReply length (HttpReply.ofResponse (some (errorResponse e))) = err e' := by
  let := Wire.json
  have hstatus : isSuccess (errorResponse e).status = false := not_isSuccess_statusFor e.code
  refine ⟨(Wire.decodeError (bodyBytes (errorResponse e).body)).getD
    (SpaceError.new .protocolViolation "range GET failed"), ?_⟩
  show rangeBody (errorResponse e).status (bodyBytes (errorResponse e).body) length = _
  rw [rangeBody, hstatus, Bool.not_false, rejectIf_true, err_bind]

omit [Axum] [Blake3] in
/-- A partial response is accepted exactly when it has the length that was
    asked for. -/
theorem rangeReply_of_partial (length : UInt64) (bytes : Bytes) (claimed : String) :
    letI := Wire.json
    rangeReply length (HttpReply.ofResponse (respond (ok (.partialContent bytes claimed)))) =
      if bytes.data.length = length.toNat then ok bytes
      else err (SpaceError.new .integrityLengthMismatch ("range GET returned " ++
        decimal bytes.len ++ " bytes, expected " ++ decimal length)) := by
  let := Wire.json
  have hlen : bytes.data.length = length.toNat ↔ bytes.len = length := by
    rw [← UInt64.toNat_inj, Bytes.toNat_len]
  show rangeBody 206 (bodyBytes bytes.data) length = _
  rw [bodyBytes_data, rangeBody]
  by_cases h : bytes.len = length
  · rw [if_pos (hlen.mpr h), h, bne_self_eq_false]
    rfl
  · rw [if_neg (fun h' => h (hlen.mp h')), bne_iff_ne.mpr h]
    rfl

/-! ## Section 5: What the server makes of the request -/

omit [SerdeJson] [Reqwest] [Chrono] [Axum] in
/-- What is served for a range of a stored object that has a first byte. -/
theorem serve_last (env : Env) {obj : Bytes} (hwf : id.WellFormed)
    (hobj : s.blobs.inner.lookup id = some obj) (hpos : 0 < length.toNat)
    (hlast : last.toNat + 1 = offset.toNat + length.toNat) :
    ∃ n claimed, n.toNat = length.toNat % 2 ^ 32 ∧
      (Api.serve env (.getChunk id.str (some ⟨some (rangeHeader offset last)⟩)) s).1 =
        (fun bytes => .partialContent bytes claimed) <$> s.blobs.getRange id offset n := by
  have hle : offset.toNat ≤ last.toNat := by omega
  have hlength := length.toNat_lt
  obtain ⟨n, hn, hval⟩ := rangeLength_of_lt hle (by omega)
  have hspan : last.toNat - offset.toNat + 1 = length.toNat := by omega
  refine ⟨n, contentRange offset last obj.len, by rw [hval, hspan], ?_⟩
  rw [serve_getChunk_range env hwf hobj, Option.getD_some, parseRange_rangeHeader obj.len hle]
  simp only [okOr_some, ok_bind, hn]
  rfl

omit [SerdeJson] [Reqwest] [Chrono] [Axum] in
/-- An empty range ends before it starts, and the header is refused. -/
theorem serve_reversed {obj : Bytes} (hwf : id.WellFormed)
    (hobj : s.blobs.inner.lookup id = some obj) (hlast : last.toNat < offset.toNat) :
    (Api.serve env (.getChunk id.str (some ⟨some (rangeHeader offset last)⟩)) s).1 =
      err (SpaceError.invalidParam "malformed Range header") := by
  have hgt : offset > last := UInt64.lt_iff_toNat_lt.mpr hlast
  rw [serve_getChunk_range env hwf hobj, Option.getD_some, parseRange_header, if_pos hgt]
  rfl

omit [SerdeJson] [Reqwest] [Chrono] [Axum] in
theorem serve_absent (hwf : id.WellFormed) (hnone : s.blobs.inner.lookup id = none)
    (range : HeaderValue) :
    (Api.serve env (.getChunk id.str (some range)) s).1 = err FakeObjectStore.noSuchChunk := by
  have hparse : ChunkId.parse id.str = ok id := ChunkId.parse_str.mpr hwf
  have hhead : s.blobs.head id = err FakeObjectStore.noSuchChunk := by
    rw [FakeObjectStore.head, hnone]
    rfl
  rw [serve_getChunk_ranged, hparse, ok_bind, hhead, err_bind]

/-! ## Section 6: The call and the store -/

omit [Chrono] [Axum] [Blake3] in
/-- No reply makes the client panic. -/
theorem rangeReply_ne_panic (length : UInt64) (reply : HttpReply) :
    letI := Wire.json
    rangeReply length reply ≠ panic := by
  let := Wire.json
  have hchecks : (rangeReply length reply).Checks fun _ => True := by
    refine Checks.bind ?_ fun received => ?_
    · cases reply <;> trivial
    · refine Checks.bind (checks_rejectIf trivial) fun _ => ?_
      exact Checks.bind (checks_rejectIf trivial) fun _ => checks_ok _
  exact hchecks.ne_panic

/-- **When the call returns**: there must be a byte in front of the end of
    the range, and the end must be a `u64`. -/
theorem getChunkRange_ne_panic_iff (haxum : Axum.Lawful) (hwf : id.WellFormed) :
    (CloudClient.getChunkRange env id offset length s).1 ≠ panic ↔
      0 < offset.toNat + length.toNat ∧ offset.toNat + length.toNat < 2 ^ 64 := by
  constructor
  · intro hne
    by_contra hno
    exact hne (getChunkRange_of_panic (lastByte_of_not_lt hno))
  · intro h
    obtain ⟨hpos, hlt⟩ := h
    obtain ⟨last, hlast, _⟩ := exists_lastByte hpos hlt
    rw [getChunkRange_of_last haxum hwf hlast]
    exact rangeReply_ne_panic length _

/-- An error of the handler is an error of the call. -/
theorem getChunkRange_of_err (haxum : Axum.Lawful) (hwf : id.WellFormed)
    (hlast : lastByte offset length = ok last) {e : SpaceError}
    (he : (Api.serve env (.getChunk id.str (some ⟨some (rangeHeader offset last)⟩)) s).1 = err e) :
    ∃ e', (CloudClient.getChunkRange env id offset length s).1 = err e' := by
  rw [getChunkRange_of_last haxum hwf hlast, he]
  exact rangeReply_of_error length e

/-- What the call returns for a range of a stored object that has a first
    byte. The cast to `u32` does not show in the result: a range that it
    shortens has the wrong length, and the client refuses it. -/
theorem getChunkRange_stored (haxum : Axum.Lawful) (hwf : id.WellFormed) {obj bytes : Bytes}
    (hobj : s.blobs.inner.lookup id = some obj) (hpos : 0 < length.toNat)
    (hlt : offset.toNat + length.toNat < 2 ^ 64) :
    (CloudClient.getChunkRange env id offset length s).1 = ok bytes ↔
      length.toNat < 2 ^ 32 ∧ id.Reads obj offset.toNat length.toNat ∧
        bytes = obj.cut offset.toNat (offset.toNat + length.toNat) := by
  obtain ⟨last, hlast, hval⟩ := exists_lastByte (Nat.add_pos_right offset.toNat hpos) hlt
  obtain ⟨n, claimed, hn, hserve⟩ := serve_last env hwf hobj hpos hval
  have hcast : (s.blobs.getRange id offset n = ok bytes ∧ bytes.data.length = length.toNat) ↔ _ :=
    FakeObjectStore.getRange_cast hobj hn
  rw [eq_zero_iff_toNat] at hcast
  unfold ChunkId.Reads
  rw [and_assoc, ← hcast, getChunkRange_of_last haxum hwf hlast, hserve]
  cases s.blobs.getRange id offset n with
  | panic =>
    constructor
    · intro hok
      cases hok
    · intro h
      cases h.1
  | err e =>
    obtain ⟨e', he'⟩ := rangeReply_of_error length e
    constructor
    · intro hok
      exact absurd (he'.symm.trans hok) nofun
    · intro h
      cases h.1
  | ok read =>
    rw [ok_map, rangeReply_of_partial]
    constructor
    · intro hok
      by_cases hfull : read.data.length = length.toNat
      · rw [if_pos hfull] at hok
        cases hok
        exact ⟨rfl, hfull⟩
      · rw [if_neg hfull] at hok
        cases hok
    · intro h
      obtain ⟨hread, hlen⟩ := h
      cases hread
      rw [if_pos hlen]

/-- **What the call returns**: a range of 1 to `2^32 - 1` bytes that the
    store can read. -/
theorem getChunkRange_eq_ok (haxum : Axum.Lawful) (hwf : id.WellFormed) {bytes : Bytes} :
    (CloudClient.getChunkRange env id offset length s).1 = ok bytes ↔
      0 < length.toNat ∧ length.toNat < 2 ^ 32 ∧ offset.toNat + length.toNat < 2 ^ 64 ∧
        ∃ obj, s.blobs.inner.lookup id = some obj ∧ id.Reads obj offset.toNat length.toNat ∧
          bytes = obj.cut offset.toNat (offset.toNat + length.toNat) := by
  constructor
  · intro hok
    have hne : (CloudClient.getChunkRange env id offset length s).1 ≠ panic := by
      rw [hok]
      nofun
    obtain ⟨hpos, hlt⟩ := (getChunkRange_ne_panic_iff haxum hwf).mp hne
    obtain ⟨last, hlast, hval⟩ := exists_lastByte hpos hlt
    have hserved : ∀ e, (Api.serve env
        (.getChunk id.str (some ⟨some (rangeHeader offset last)⟩)) s).1 ≠ err e := by
      intro e he
      obtain ⟨e', he'⟩ := getChunkRange_of_err haxum hwf hlast he
      exact absurd (he'.symm.trans hok) nofun
    cases hobj : s.blobs.inner.lookup id with
    | none => exact absurd (serve_absent hwf hobj _) (hserved _)
    | some obj =>
      by_cases hlength : length.toNat = 0
      · exact absurd (serve_reversed hwf hobj (by omega)) (hserved _)
      · have hfirst : 0 < length.toNat := Nat.pos_of_ne_zero hlength
        obtain ⟨hshort, hreads, hbytes⟩ :=
          (getChunkRange_stored haxum hwf hobj hfirst hlt).mp hok
        exact ⟨hfirst, hshort, hlt, obj, rfl, hreads, hbytes⟩
  · intro h
    obtain ⟨hpos, hshort, hlt, obj, hobj, hreads, hbytes⟩ := h
    exact (getChunkRange_stored haxum hwf hobj hpos hlt).mpr ⟨hshort, hreads, hbytes⟩

end call

/-- **When the client's range read agrees with the store**: the sum of
    offset and length is not zero and is a `u64`, and a range that is empty,
    or has at least `2^32` bytes, is not one that the store can read. -/
theorem getChunkRange_agrees_iff [UuidCrate] [Chrono] [SerdeJson] [Axum] [Reqwest] [Blake3]
    (haxum : Axum.Lawful) (env : Env) (id : ChunkId) (hwf : id.WellFormed)
    (offset length : UInt64) (s : AppState) :
    AgreesWithStore s.blobs id offset length
        (CloudClient.getChunkRange env id offset length s).1 ↔
      0 < offset.toNat + length.toNat ∧ offset.toNat + length.toNat < 2 ^ 64 ∧
        (length.toNat = 0 ∨ 2 ^ 32 ≤ length.toNat → ¬ Readable s.blobs id offset length) := by
  have hreturns : (CloudClient.getChunkRange env id offset length s).1 ≠ panic ↔
      0 < offset.toNat + length.toNat ∧ offset.toNat + length.toNat < 2 ^ 64 :=
    getChunkRange_ne_panic_iff haxum hwf
  rw [← and_assoc, ← hreturns]
  cases hx : (CloudClient.getChunkRange env id offset length s).1 with
  | panic =>
    constructor
    · intro h
      cases h
    · intro h
      exact absurd rfl h.1
  | ok bytes =>
    obtain ⟨hpos, hshort, _, obj, hobj, hreads, hbytes⟩ := (getChunkRange_eq_ok haxum hwf).mp hx
    constructor
    · intro _
      refine ⟨nofun, fun hedge => ?_⟩
      omega
    · intro _
      exact ⟨obj, hobj, hreads, hbytes⟩
  | err e =>
    constructor
    · intro hno
      exact ⟨nofun, fun _ => hno⟩
    · intro h hreadable
      obtain ⟨_, hedge⟩ := h
      obtain ⟨obj, hobj, hreads⟩ := hreadable
      have hlt : offset.toNat + length.toNat < 2 ^ 64 := by
        have hne : (CloudClient.getChunkRange env id offset length s).1 ≠ panic := by
          rw [hx]
          nofun
        exact (hreturns.mp hne).2
      -- the store can read the range, so it must be one of the two edges
      by_cases hinner : 0 < length.toNat ∧ length.toNat < 2 ^ 32
      · obtain ⟨hpos, hshort⟩ := hinner
        have hread : (CloudClient.getChunkRange env id offset length s).1 =
            ok (obj.cut offset.toNat (offset.toNat + length.toNat)) :=
          (getChunkRange_eq_ok haxum hwf).mpr ⟨hpos, hshort, hlt, obj, hobj, hreads, rfl⟩
        exact absurd (hx.symm.trans hread) nofun
      · exact hedge (by omega) ⟨obj, hobj, hreads⟩

/-- The last two bytes of the stored object. -/
theorem getChunkRange_agrees_sample :
    letI := Sample.hyphenatedUuids
    letI := Sample.chrono
    letI := Sample.serdeJson
    letI := Sample.axum
    letI := Sample.reqwest
    letI := Sample.blake3
    AgreesWithStore Sample.stored.blobs Sample.chunk 1 2
      (CloudClient.getChunkRange (Env.sample 1 20) Sample.chunk 1 2 Sample.stored).1 := by
  let := Sample.hyphenatedUuids
  let := Sample.chrono
  let := Sample.serdeJson
  let := Sample.axum
  let := Sample.reqwest
  let := Sample.blake3
  have hinner : ¬ ((2 : UInt64).toNat = 0 ∨ 2 ^ 32 ≤ (2 : UInt64).toNat) := by decide
  exact (getChunkRange_agrees_iff Sample.axum_lawful (Env.sample 1 20) Sample.chunk
    Sample.chunk_wellFormed 1 2 Sample.stored).mpr
      ⟨by decide, by decide, fun hedge => absurd hedge hinner⟩

/-- The first zero bytes of a stored object: the store returns them, and the
    client panics. -/
theorem empty_range_panics :
    letI := Sample.hyphenatedUuids
    letI := Sample.chrono
    letI := Sample.serdeJson
    letI := Sample.axum
    letI := Sample.reqwest
    letI := Sample.blake3
    Readable Sample.stored.blobs Sample.chunk 0 0 ∧
      ¬ ∀ (env : Env) (id : ChunkId), id.WellFormed → ∀ (offset length : UInt64) (s : AppState),
        AgreesWithStore s.blobs id offset length
          (CloudClient.getChunkRange env id offset length s).1 := by
  let := Sample.hyphenatedUuids
  let := Sample.chrono
  let := Sample.serdeJson
  let := Sample.axum
  let := Sample.reqwest
  let := Sample.blake3
  refine ⟨⟨Sample.abc, Sample.stored_abc, by decide, fun _ h => absurd h (by decide)⟩, ?_⟩
  intro h
  have hpanic : (CloudClient.getChunkRange (Env.sample 1 20) Sample.chunk 0 0
      Sample.stored).1 = panic := getChunkRange_of_panic (lastByte_of_not_lt (by decide))
  have hagrees := h (Env.sample 1 20) Sample.chunk Sample.chunk_wellFormed 0 0 Sample.stored
  rw [hpanic] at hagrees
  cases hagrees

end Space
