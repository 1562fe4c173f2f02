import Space.Cloud.Api

/-! # Partial reads

    What `get_chunk` answers to a `Range` header. The header is parsed, the
    length of the range is computed in `u64` and cast to `u32`, and the
    object store cuts the range out of the object.

    The cast is the weak point. The store checks its bounds after it, so a
    range of at least `2^32` bytes reaches the store as a shorter one, and
    the response claims bytes that it does not carry. -/

namespace Space

open Rust Outcome Effects

/-! ## Section 1: What a partial response should be -/

/-- What a partial read of `obj` should be, under the header `raw`: `ops` are
    the calls of the stores that the handler makes, and `x` is what it
    returns. -/
structure ExactRange (obj : Bytes) (raw : String) (ops : List StoreOp) (x : Res Response) :
    Prop where
  /-- An error, or the bytes of the range that the header parses to, under
      that range, which lies inside the object. -/
  answer : (∃ e, x = err e) ∨ ∃ start endInclusive,
    parseRange raw obj.len = some (start, endInclusive) ∧
      x = ok (.partialContent (obj.cut start.toNat (endInclusive.toNat + 1))
        (contentRange start endInclusive obj.len)) ∧
      start.toNat ≤ endInclusive.toNat ∧ endInclusive.toNat < obj.data.length
  /-- A range that reaches past the end of the object is an error. -/
  pastEnd : ∀ start endInclusive, parseRange raw obj.len = some (start, endInclusive) →
    obj.data.length ≤ endInclusive.toNat → ∃ e, x = err e
  /-- The store is asked for exactly the bytes of the range, so neither the
      length nor its cast to `u32` has lost anything; and where the sum of
      offset and length does not fit, an error is returned. -/
  lossless : ∀ id offset length, .blobs (.getRange id offset length) ∈ ops →
    ∃ endInclusive, parseRange raw obj.len = some (offset, endInclusive) ∧
      length.toNat = endInclusive.toNat - offset.toNat + 1 ∧
        (2 ^ 64 ≤ offset.toNat + length.toNat → ∃ e, x = err e)

/-- The header is malformed, or asks for fewer than `2^32` bytes. -/
def NarrowRange (raw : String) (size : UInt64) : Prop :=
  ∀ start endInclusive, parseRange raw size = some (start, endInclusive) →
    endInclusive.toNat - start.toNat + 1 < 2 ^ 32

/-! ## Section 2: The steps of the computation -/

/-- The parser lets through only ranges that are not reversed. -/
theorem parseRange_le {raw : String} {size start endInclusive : UInt64}
    (h : parseRange raw size = some (start, endInclusive)) :
    start.toNat ≤ endInclusive.toNat := by
  simp only [parseRange, Option.bind_eq_bind, Option.bind_eq_some_iff] at h
  obtain ⟨_, _, _, _, s, _, t, _, hlast⟩ := h
  split at hlast
  · cases hlast
  · rename_i hle
    cases hlast
    exact UInt64.le_iff_toNat_le.mp (UInt64.not_lt.mp hle)

/-- The length of a range that does not cover all of `u64`, before and after
    the cast. -/
theorem rangeLength_of_lt {start endInclusive : UInt64}
    (hle : start.toNat ≤ endInclusive.toNat)
    (hlt : endInclusive.toNat - start.toNat + 1 < 2 ^ 64) :
    ∃ n, rangeLength start endInclusive = ok n ∧
      n.toNat = (endInclusive.toNat - start.toNat + 1) % 2 ^ 32 := by
  have hd := toNat_sub_of_le hle
  have hone := UInt64.toNat_one
  have hsum : (endInclusive - start + 1).toNat = endInclusive.toNat - start.toNat + 1 := by
    rw [toNat_add_of_lt (by rw [hd, hone]; exact hlt), hd, hone]
  refine ⟨(endInclusive - start + 1).toUInt32, ?_, ?_⟩
  · unfold rangeLength
    rw [subU64_of_le hle, ok_bind, addU64_of_lt (by rw [hd, hone]; exact hlt), ok_bind, pure_eq]
  · rw [UInt64.toNat_toUInt32, hsum]

/-- A range that covers all of `u64` has no length. -/
theorem rangeLength_of_ge {start endInclusive : UInt64}
    (h : 2 ^ 64 ≤ endInclusive.toNat - start.toNat + 1) :
    rangeLength start endInclusive = panic := by
  have hle : start.toNat ≤ endInclusive.toNat := by omega
  have hd := toNat_sub_of_le hle
  have hone := UInt64.toNat_one
  have hadd : (addU64 (endInclusive - start) 1 : Res UInt64) = panic := by
    unfold addU64
    rw [hd, hone, if_neg (by omega)]
  unfold rangeLength
  rw [subU64_of_le hle, ok_bind, hadd, panic_bind]

/-- A `GET` without a `Range` header. -/
theorem serve_getChunk_whole [UuidCrate] [Blake3] (env : Env) (s : AppState) (text : String) :
    (Api.serve env (.getChunk text none) s).1 = (do
      let id ← ChunkId.parse text
      let _ ← s.blobs.head id
      let bytes ← s.blobs.get id
      return .body bytes) := by
  simp only [Api.serve, Api.handle, Api.getChunk, Api.callBlobs, Prog.perform, ↓Fallible.bind_eq,
    ↓Fallible.lift_eq, ↓Fallible.pure_eq, Prog.bind_ret, Prog.bind_call, Fallible.run_onOk,
    Prog.run_call, Prog.run_ret, tryAt_fst]
  rfl

/-- A `GET` with one. -/
theorem serve_getChunk_ranged [UuidCrate] [Blake3] (env : Env) (s : AppState) (text : String)
    (range : HeaderValue) :
    (Api.serve env (.getChunk text (some range)) s).1 = (do
      let id ← ChunkId.parse text
      let size ← s.blobs.head id
      let (start, endInclusive) ← okOr (parseRange (range.toStr.getD "") size)
        (SpaceError.invalidParam "malformed Range header")
      let length ← rangeLength start endInclusive
      let bytes ← s.blobs.getRange id start length
      return .partialContent bytes (contentRange start endInclusive size)) := by
  simp only [Api.serve, Api.handle, Api.getChunk, Api.getChunkRange, Api.callBlobs, Prog.perform,
    ↓Fallible.bind_eq, ↓Fallible.lift_eq, ↓Fallible.pure_eq, Prog.bind_ret, Prog.bind_call,
    Fallible.run_onOk, Prog.run_call, Prog.run_ret, tryAt_fst]
  rfl

/-- What the handler answers for a stored object. -/
theorem serve_getChunk_range [UuidCrate] [Blake3] (env : Env) {s : AppState} {text : String}
    {obj : Bytes} (hwf : ChunkId.WellFormed ⟨text⟩)
    (hobj : s.blobs.inner.lookup ⟨text⟩ = some obj) (range : HeaderValue) :
    (Api.serve env (.getChunk text (some range)) s).1 = (do
      let (start, endInclusive) ← okOr (parseRange (range.toStr.getD "") obj.len)
        (SpaceError.invalidParam "malformed Range header")
      let length ← rangeLength start endInclusive
      let bytes ← s.blobs.getRange ⟨text⟩ start length
      return .partialContent bytes (contentRange start endInclusive obj.len)) := by
  have hparse : ChunkId.parse text = ok ⟨text⟩ := ChunkId.parse_eq_ok.mpr ⟨rfl, hwf⟩
  have hhead : s.blobs.head ⟨text⟩ = ok obj.len :=
    FakeObjectStore.head_eq_ok.mpr ⟨obj, hobj, rfl⟩
  rw [serve_getChunk_ranged, hparse, ok_bind, hhead, ok_bind]

/-- A path that is no chunk id is refused. -/
theorem serve_getChunk_malformed [UuidCrate] [Blake3] (env : Env) {s : AppState} {text : String}
    (hwf : ¬ ChunkId.WellFormed ⟨text⟩) (range : Option HeaderValue) :
    ∃ e, (Api.serve env (.getChunk text range) s).1 = err e := by
  have hchecks := ChunkId.checks_parse text
  cases hparse : ChunkId.parse text with
  | ok id => exact absurd (ChunkId.parse_eq_ok.mp hparse).2 hwf
  | panic => exact absurd hparse hchecks.ne_panic
  | err e =>
    cases range with
    | none => exact ⟨e, by rw [serve_getChunk_whole, hparse, err_bind]⟩
    | some range => exact ⟨e, by rw [serve_getChunk_ranged, hparse, err_bind]⟩

/-- The calls that the handler makes for a stored object: a range that has a
    length is cut out by the store. -/
theorem calls_getChunk_range [UuidCrate] [Blake3] (env : Env) {s : AppState} {text : String}
    {obj : Bytes} (hwf : ChunkId.WellFormed ⟨text⟩)
    (hobj : s.blobs.inner.lookup ⟨text⟩ = some obj) (range : HeaderValue) (op : StoreOp) :
    op ∈ Api.calls env (.getChunk text (some range)) s ↔ op = .blobs (.head ⟨text⟩) ∨
      ∃ start endInclusive n, parseRange (range.toStr.getD "") obj.len =
        some (start, endInclusive) ∧ rangeLength start endInclusive = ok n ∧
          op = .blobs (.getRange ⟨text⟩ start n) := by
  have hparse : ChunkId.parse text = ok ⟨text⟩ := ChunkId.parse_eq_ok.mpr ⟨rfl, hwf⟩
  have hhead : s.blobs.head ⟨text⟩ = ok obj.len :=
    FakeObjectStore.head_eq_ok.mpr ⟨obj, hobj, rfl⟩
  have hcalls : Api.calls env (.getChunk text (some range)) s = .blobs (.head ⟨text⟩) ::
      (Api.getChunkRange ⟨text⟩ obj.len range).performed (StoreOp.exec env) s := by
    simp only [Api.calls, Api.handle, Api.getChunk, Api.callBlobs, Prog.perform,
      ↓Fallible.bind_eq, ↓Fallible.lift_eq, Prog.bind_ret, Prog.bind_call, hparse,
      Fallible.onOk_ok, Prog.performed_call]
    show _ :: Prog.performed _ (Fallible.onOk (fun size => Api.getChunkRange ⟨text⟩ size range)
      (s.blobs.head ⟨text⟩)) s = _
    rw [hhead]
    rfl
  rw [hcalls, List.mem_cons]
  apply or_congr_right
  simp only [Api.getChunkRange, Api.callBlobs, Prog.perform, ↓Fallible.bind_eq,
    ↓Fallible.lift_eq, ↓Fallible.pure_eq, Prog.bind_ret, Prog.bind_call]
  cases hp : parseRange (range.toStr.getD "") obj.len with
  | none => simp
  | some p =>
    obtain ⟨start, endInclusive⟩ := p
    rw [okOr_some, Fallible.onOk_ok]
    dsimp only
    cases hn : rangeLength start endInclusive with
    | err e => simp [hn]
    | panic => simp [hn]
    | ok n =>
      -- after the read nothing more is asked for
      have hrest : ∀ x : Res Bytes, (Fallible.onOk (fun bytes => Prog.ret (ok
          (Response.partialContent bytes (contentRange start endInclusive obj.len)))) x :
            Prog StoreI (Res Response)).performed (StoreOp.exec env) s = [] := by
        intro x
        cases x <;> rfl
      have hone : op ∈ StoreOp.blobs (.getRange ⟨text⟩ start n) :: (Fallible.onOk (fun bytes =>
          Prog.ret (ok (Response.partialContent bytes (contentRange start endInclusive obj.len))))
            (s.blobs.getRange ⟨text⟩ start n) : Prog StoreI (Res Response)).performed
              (StoreOp.exec env) s ↔ op = .blobs (.getRange ⟨text⟩ start n) := by
        rw [hrest, List.mem_singleton]
      refine Iff.trans hone ?_
      constructor
      · intro hop
        exact ⟨start, endInclusive, n, rfl, hn, hop⟩
      · rintro ⟨start', endInclusive', n', hp', hn', hop⟩
        cases hp'
        rw [hn] at hn'
        cases hn'
        exact hop

/-- No call is made for a path that is no chunk id. -/
theorem calls_getChunk_malformed [UuidCrate] [Blake3] (env : Env) {s : AppState} {text : String}
    (hwf : ¬ ChunkId.WellFormed ⟨text⟩) (range : Option HeaderValue) :
    Api.calls env (.getChunk text range) s = [] := by
  simp only [Api.calls, Api.handle, Api.getChunk, Api.callBlobs, Prog.perform,
    ↓Fallible.bind_eq, ↓Fallible.lift_eq, Prog.bind_ret, Prog.bind_call]
  cases hparse : ChunkId.parse text with
  | ok id => exact absurd (ChunkId.parse_eq_ok.mp hparse).2 hwf
  | err e => rfl
  | panic => rfl

/-! ## Section 3: When the response is exact -/

/-- The answer to a narrow range, and what the store was asked for it. -/
theorem exactRange_of_narrow [UuidCrate] [Blake3] (env : Env) {s : AppState} {text : String}
    {obj : Bytes} (hwf : ChunkId.WellFormed ⟨text⟩)
    (hobj : s.blobs.inner.lookup ⟨text⟩ = some obj) {range : HeaderValue}
    (hnarrow : NarrowRange (range.toStr.getD "") obj.len) :
    ExactRange obj (range.toStr.getD "") (Api.calls env (.getChunk text (some range)) s)
      (Api.serve env (.getChunk text (some range)) s).1 := by
  have hserve := serve_getChunk_range env hwf hobj range
  have hcalls := calls_getChunk_range env hwf hobj range
  cases hp : parseRange (range.toStr.getD "") obj.len with
  | none =>
    rw [hp, okOr_none, err_bind] at hserve
    rw [hserve]
    constructor
    · exact .inl ⟨_, rfl⟩
    · exact fun _ _ _ _ => ⟨_, rfl⟩
    · intro id offset length hmem
      rcases (hcalls _).mp hmem with hop | ⟨_, _, _, hp', _, _⟩
      · cases hop
      · rw [hp] at hp'
        cases hp'
  | some p =>
    obtain ⟨start, endInclusive⟩ := p
    have hle := parseRange_le hp
    have hlt := hnarrow start endInclusive hp
    obtain ⟨n, hn, hval⟩ := rangeLength_of_lt hle (by omega)
    rw [Nat.mod_eq_of_lt hlt] at hval
    have hpast : obj.data.length ≤ endInclusive.toNat →
        ∃ e, (Api.serve env (.getChunk text (some range)) s).1 = err e := by
      intro hend
      rw [hserve, hp]
      simp only [okOr_some, ok_bind, hn]
      cases hread : s.blobs.getRange ⟨text⟩ start n with
      | err e => exact ⟨e, rfl⟩
      | panic => exact absurd hread (FakeObjectStore.getRange_checks start n).ne_panic
      | ok bytes =>
        obtain ⟨obj', hobj', hbound, _, _⟩ := FakeObjectStore.getRange_eq_ok.mp hread
        rw [hobj] at hobj'
        cases hobj'
        omega
    constructor
    · rw [hserve, hp]
      simp only [okOr_some, ok_bind, hn]
      cases hread : s.blobs.getRange ⟨text⟩ start n with
      | err e => exact .inl ⟨e, rfl⟩
      | panic => exact absurd hread (FakeObjectStore.getRange_checks start n).ne_panic
      | ok bytes =>
        obtain ⟨obj', hobj', hbound, _, rfl⟩ := FakeObjectStore.getRange_eq_ok.mp hread
        rw [hobj] at hobj'
        cases hobj'
        have hend : start.toNat + n.toNat = endInclusive.toNat + 1 := by omega
        exact .inr ⟨start, endInclusive, rfl, by rw [hend]; rfl, hle, by omega⟩
    · intro start' endInclusive' hp'
      rw [hp] at hp'
      cases hp'
      exact hpast
    · intro id offset length hmem
      rcases (hcalls _).mp hmem with hop | ⟨start', endInclusive', n', hp', hn', hop⟩
      · cases hop
      · rw [hp] at hp'
        cases hp'
        rw [hn] at hn'
        cases hn'
        cases hop
        refine ⟨endInclusive, hp, hval, fun hsum => hpast ?_⟩
        have := obj.length_lt
        omega

/-- A range that is not narrow is answered for fewer bytes than it has, or
    not at all. -/
theorem narrow_of_exactRange [UuidCrate] [Blake3] (env : Env) {s : AppState} {text : String}
    {obj : Bytes} (hwf : ChunkId.WellFormed ⟨text⟩)
    (hobj : s.blobs.inner.lookup ⟨text⟩ = some obj) {range : HeaderValue}
    (h : ExactRange obj (range.toStr.getD "") (Api.calls env (.getChunk text (some range)) s)
      (Api.serve env (.getChunk text (some range)) s).1) :
    NarrowRange (range.toStr.getD "") obj.len := by
  intro start endInclusive hp
  by_cases hlt : endInclusive.toNat - start.toNat + 1 < 2 ^ 64
  · -- the call of the store shows the length after the cast
    obtain ⟨n, hn, _⟩ := rangeLength_of_lt (parseRange_le hp) hlt
    have hmem := (calls_getChunk_range env hwf hobj range _).mpr
      (.inr ⟨start, endInclusive, n, hp, hn, rfl⟩)
    obtain ⟨endInclusive', hp', hlen, _⟩ := h.lossless _ _ _ hmem
    rw [hp] at hp'
    cases hp'
    rw [← hlen]
    exact n.toNat_lt
  · -- the addition overflows before the store is asked
    have hpanic : (Api.serve env (.getChunk text (some range)) s).1 = panic := by
      rw [serve_getChunk_range env hwf hobj, hp]
      simp only [okOr_some, ok_bind, rangeLength_of_ge (Nat.not_lt.mp hlt), panic_bind]
    rcases h.answer with ⟨e, he⟩ | ⟨_, _, _, hok, _⟩
    · rw [hpanic] at he
      cases he
    · rw [hpanic] at hok
      cases hok

/-- **A partial read is exact, exactly for the headers that ask for fewer
    than `2^32` bytes** or are malformed. A path that is no chunk id is
    refused before its header is looked at. -/
theorem getChunk_exact_iff [UuidCrate] [Blake3] (env : Env) {s : AppState} {text : String}
    {obj : Bytes} (hobj : s.blobs.inner.lookup ⟨text⟩ = some obj) (range : HeaderValue) :
    ExactRange obj (range.toStr.getD "") (Api.calls env (.getChunk text (some range)) s)
        (Api.serve env (.getChunk text (some range)) s).1 ↔
      (ChunkId.WellFormed ⟨text⟩ → NarrowRange (range.toStr.getD "") obj.len) := by
  constructor
  · exact fun h hwf => narrow_of_exactRange env hwf hobj h
  · intro hnarrow
    by_cases hwf : ChunkId.WellFormed ⟨text⟩
    · exact exactRange_of_narrow env hwf hobj (hnarrow hwf)
    · obtain ⟨e, he⟩ := serve_getChunk_malformed env (s := s) hwf (some range)
      rw [he]
      constructor
      · exact .inl ⟨e, rfl⟩
      · exact fun _ _ _ _ => ⟨e, rfl⟩
      · intro id offset length hmem
        rw [calls_getChunk_malformed env hwf] at hmem
        cases hmem

/-- The server after the bytes `abc` were uploaded. -/
noncomputable def Sample.stored : AppState :=
  letI := Sample.blake3
  letI := Sample.uuidCrate
  (Api.serve (Env.sample 1 10) (.putChunk Sample.chunk.str Sample.abc) AppState.default).2

theorem Sample.stored_abc : Sample.stored.blobs.inner.lookup Sample.chunk = some Sample.abc := by
  decide +kernel

/-- The last two bytes of the stored object. -/
theorem getChunk_exact_sample :
    letI := Sample.blake3
    letI := Sample.uuidCrate
    ExactRange Sample.abc "bytes=1-"
        (Api.calls (Env.sample 1 20) (.getChunk Sample.chunk.str (some ⟨some "bytes=1-"⟩))
          Sample.stored)
        (Api.serve (Env.sample 1 20) (.getChunk Sample.chunk.str (some ⟨some "bytes=1-"⟩))
          Sample.stored).1 ↔
      (ChunkId.WellFormed ⟨Sample.chunk.str⟩ → NarrowRange "bytes=1-" Sample.abc.len) :=
  letI := Sample.blake3
  letI := Sample.uuidCrate
  getChunk_exact_iff (Env.sample 1 20) Sample.stored_abc ⟨some "bytes=1-"⟩

/-- `2^32 + 1` bytes are asked for and claimed, and one is sent. -/
theorem getChunk_inexact :
    letI := Sample.blake3
    letI := Sample.uuidCrate
    ¬ ∀ (env : Env) (s : AppState) (text : String) (obj : Bytes),
      s.blobs.inner.lookup ⟨text⟩ = some obj → ∀ range : HeaderValue,
        ExactRange obj (range.toStr.getD "") (Api.calls env (.getChunk text (some range)) s)
          (Api.serve env (.getChunk text (some range)) s).1 := by
  let := Sample.blake3
  let := Sample.uuidCrate
  intro h
  have hexact := h (Env.sample 1 20) Sample.stored Sample.chunk.str Sample.abc
    Sample.stored_abc ⟨some "bytes=0-4294967296"⟩
  have hanswer : (Api.serve (Env.sample 1 20)
      (.getChunk Sample.chunk.str (some ⟨some "bytes=0-4294967296"⟩)) Sample.stored).1.isOk =
        true := by decide +kernel
  -- the range reaches past the end, and is answered
  obtain ⟨e, he⟩ := hexact.pastEnd 0 4294967296 (by decide +kernel) (by decide)
  rw [he] at hanswer
  cases hanswer

/-- What happens to a wide range: the response claims all of it and carries
    its length modulo `2^32`. -/
theorem getChunk_wide [UuidCrate] [Blake3] (env : Env) {s : AppState} {text : String}
    {obj : Bytes} (hwf : ChunkId.WellFormed ⟨text⟩)
    (hobj : s.blobs.inner.lookup ⟨text⟩ = some obj) {range : HeaderValue}
    {start endInclusive : UInt64} {k : Nat}
    (hp : parseRange (range.toStr.getD "") obj.len = some (start, endInclusive))
    (hlt : endInclusive.toNat - start.toNat + 1 < 2 ^ 64)
    (hk : k = (endInclusive.toNat - start.toNat + 1) % 2 ^ 32)
    (hbound : start.toNat + k ≤ obj.data.length) (hpart : k ≠ obj.data.length) :
    (Api.serve env (.getChunk text (some range)) s).1 =
      ok (.partialContent (obj.cut start.toNat (start.toNat + k))
        (contentRange start endInclusive obj.len)) := by
  obtain ⟨n, hn, hval⟩ := rangeLength_of_lt (parseRange_le hp) hlt
  rw [← hk] at hval
  have hread : s.blobs.getRange ⟨text⟩ start n =
      ok (obj.cut start.toNat (start.toNat + k)) := by
    refine FakeObjectStore.getRange_eq_ok.mpr ⟨obj, hobj, by omega, fun _ h => ?_, by rw [hval]⟩
    exact absurd (hval.symm.trans h) hpart
  rw [serve_getChunk_range env hwf hobj, hp]
  simp only [okOr_some, ok_bind, hn, hread, pure_eq]

end Space
