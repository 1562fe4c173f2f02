import Space.Client.Core
import Space.ObjectStore.Reads
import Space.Cloud.Uploads
import Space.Cloud.Range
import Space.Cloud.Router

/-! # Reading a file back

    The client against the server. `overServer` runs a client program over
    the handlers of the API: each `GET` becomes the calls that `get_chunk`
    makes of the object store, and other requests may interleave between any
    two of them.

    The replies to a manifest's requests decide what `reassemble` returns
    (`returns_reassemble`, `feed_reassemble_eq_ok`), and a stored object
    decides the replies (`accepted_answer_iff`). -/

namespace Space

open Rust Outcome Data Effects

/-! ## Section 1: The replies decide the result -/

/-- The pieces of the file, in the order of the entries. -/
def contents (entries : List ManifestEntry) (piece : ManifestEntry → Bytes) : List UInt8 :=
  entries.flatMap fun e => (piece e).data

section replies

variable [Wire] [Blake3] {m : Manifest} {piece : ManifestEntry → Bytes}

/-- **Good replies are put together**: when every request is answered with
    its piece, the file is the pieces one after the other. -/
theorem returns_reassemble {R : RangeGet → HttpReply → Prop} (h : m.WellFormed)
    (htotal : m.totalSize.toNat ≤ isizeMax)
    (hpiece : ∀ e ∈ m.entries, ∀ reply, R e.rangeGet reply → Accepted m e reply (piece e)) :
    (reassemble m).Returns (I := HttpI) R fun x =>
      ∃ out, x = ok out ∧ out.data.length = m.totalSize.toNat ∧
        out.data = contents m.entries piece := by
  obtain ⟨out, hout, _⟩ := Bytes.zeroed_of_le (ε := SpaceError) htotal
  rw [reassemble_of_wellFormed h, hout]
  -- what is in the buffer and what is still to come make the file
  refine returns_loop (fun rest out => (∀ e ∈ rest, e ∈ m.entries) ∧
    ∃ done, Filled m rest out done ∧ done ++ contents rest piece = contents m.entries piece)
    (fun e he => h.inBounds he) ?_ ?_ ?_ ?_ (fun e he => he)
    ⟨fun e he => he, [], filled_zeroed h hout, rfl⟩
  · intro e rest out reply out' ⟨hsub, done, hfilled, hall⟩ hreply hround
    obtain ⟨out'', hround', hfilled'⟩ := hfilled.round (hpiece e (hsub e (by simp)) reply hreply)
    rw [hround] at hround'
    cases hround'
    refine ⟨fun e' he' => hsub e' (by simp [he']), _, hfilled', ?_⟩
    rw [List.append_assoc]
    exact hall
  · intro e rest out reply error ⟨hsub, done, hfilled, _⟩ hreply hround
    obtain ⟨out', hround', _⟩ := hfilled.round (hpiece e (hsub e (by simp)) reply hreply)
    rw [hround] at hround'
    cases hround'
  · intro e rest out reply ⟨hsub, done, hfilled, _⟩ hreply hround
    obtain ⟨out', hround', _⟩ := hfilled.round (hpiece e (hsub e (by simp)) reply hreply)
    rw [hround] at hround'
    cases hround'
  · intro out ⟨_, done, hfilled, hall⟩
    have hdone : done.length = m.totalSize.toNat := hfilled.tiles
    refine ⟨out, rfl, hfilled.length, ?_⟩
    rw [hfilled.data, hdone, Nat.sub_self, List.replicate_zero, List.append_nil, ← hall]
    exact (List.append_nil done).symm

/-- A file that was read back got a good reply to every request. -/
theorem returns_accepted {answer : RangeGet → HttpReply} (h : m.WellFormed) (out : Bytes) :
    (reassembleLoop m m.entries out).Returns (I := HttpI) (fun get reply => reply = answer get)
      fun x => ∀ out', x = ok out' →
        ∀ e ∈ m.entries, ∃ bytes, Accepted m e (answer e.rangeGet) bytes := by
  refine returns_loop (fun rest _ => ∀ e ∈ m.entries, e ∈ rest ∨
    ∃ bytes, Accepted m e (answer e.rangeGet) bytes) (fun e he => h.inBounds he) ?_
    (fun _ _ _ _ _ _ _ _ _ hx => by cases hx) (fun _ _ _ _ _ _ _ _ hx => by cases hx) ?_
    (fun e he => he) fun e he => .inl he
  · rintro e rest out reply out' hinv rfl hround e' he'
    rcases hinv e' he' with hmem | hacc
    · rcases List.mem_cons.mp hmem with rfl | hmem
      · right
        by_contra hno
        obtain ⟨error, herr⟩ := round_of_not_accepted (not_exists.mp hno) out
        rw [hround] at herr
        cases herr
      · exact .inl hmem
    · exact .inr hacc
  · intro out hinv out' _ e he
    exact (hinv e he).resolve_left List.not_mem_nil

/-- Good replies from a server that does not change. -/
theorem feed_of_accepted {answer : RangeGet → HttpReply} (h : m.WellFormed)
    (htotal : m.totalSize.toNat ≤ isizeMax)
    (hpiece : ∀ e ∈ m.entries, Accepted m e (answer e.rangeGet) (piece e)) (n : Nat) :
    ∃ out, (reassemble m).feed (I := HttpI) (fun _ => answer) n = ok out ∧
      out.data = contents m.entries piece := by
  have hreturns := returns_reassemble (R := fun get reply => reply = answer get) h htotal
    fun e he reply hreply => hreply ▸ hpiece e he
  obtain ⟨out, hout, _, hdata⟩ := hreturns.feed (fun _ => answer) (fun _ _ => rfl) n
  exact ⟨out, hout, hdata⟩

/-- **Reading a file from a server that does not change**: it succeeds
    exactly when every request gets a good reply, and returns the pieces. -/
theorem feed_reassemble_eq_ok {answer : RangeGet → HttpReply} {out : Bytes} (n : Nat) :
    (reassemble m).feed (I := HttpI) (fun _ => answer) n = ok out ↔
      m.WellFormed ∧ m.totalSize.toNat ≤ isizeMax ∧ ∃ piece : ManifestEntry → Bytes,
        (∀ e ∈ m.entries, Accepted m e (answer e.rangeGet) (piece e)) ∧
          out.data = contents m.entries piece := by
  constructor
  · intro hfeed
    have h : m.WellFormed := by
      by_contra hno
      obtain ⟨e, he⟩ := reassemble_of_not_wellFormed hno
      rw [he] at hfeed
      cases hfeed
    have htotal : m.totalSize.toNat ≤ isizeMax := by
      by_contra hgt
      rw [reassemble_of_gt h (by omega)] at hfeed
      cases hfeed
    -- a reply that is not accepted ends the loop with an error
    have hacc : ∀ e ∈ m.entries, ∃ bytes, Accepted m e (answer e.rangeGet) bytes := by
      obtain ⟨buffer, hbuffer, _⟩ := Bytes.zeroed_of_le (ε := SpaceError) htotal
      refine (returns_accepted h buffer).feed (fun _ => answer) (fun _ _ => rfl) n out ?_
      rw [reassemble_of_wellFormed h, hbuffer] at hfeed
      exact hfeed
    choose! piece hpiece using hacc
    obtain ⟨out', hout', hdata⟩ := feed_of_accepted h htotal hpiece n
    rw [hfeed] at hout'
    cases hout'
    exact ⟨h, htotal, piece, hpiece, hdata⟩
  · intro ⟨h, htotal, piece, hpiece, hdata⟩
    obtain ⟨out', hout', hdata'⟩ := feed_of_accepted h htotal hpiece n
    rw [hout', Bytes.ext (hdata'.trans hdata.symm)]

end replies

/-! ## Section 2: The request of an entry reaches the server intact -/

/-- The server parses the header that the client sends, unless the range is
    reversed. -/
theorem parseRange_header (start endInclusive size : UInt64) :
    parseRange (rangeHeader start endInclusive) size =
      if start > endInclusive then none else some (start, endInclusive) := by
  have htext : (rangeHeader start endInclusive).toList =
      "bytes=".toList ++ ((decimal start).toList ++ '-' :: (decimal endInclusive).toList) := by
    simp [rangeHeader]
  have hend : rangeEnd (decimal endInclusive).toList size = some endInclusive := by
    unfold rangeEnd
    rw [if_neg (by simpa using (digits_decimal endInclusive).nonempty), parseU64_decimal]
  have hdash : '-' ∉ (decimal start).toList := (digits_decimal start).notMem rfl
  simp only [parseRange, htext, stripPrefix_append, Option.bind_eq_bind, Option.bind_some,
    splitOnce_append hdash, parseU64_decimal, hend]

/-- **Round trip**: a range that is not reversed arrives as it was sent. -/
theorem parseRange_rangeHeader {start endInclusive : UInt64} (size : UInt64)
    (h : start.toNat ≤ endInclusive.toNat) :
    parseRange (rangeHeader start endInclusive) size = some (start, endInclusive) := by
  have hle : ¬ start > endInclusive := by
    rw [gt_iff_lt, UInt64.not_lt, UInt64.le_iff_toNat_le]
    exact h
  rw [parseRange_header, if_neg hle]

/-- The length that the server computes for the request of an entry: the
    cast to `u32` keeps it modulo `2^32`. -/
theorem rangeLength_entry {e : ManifestEntry} (h : e.InBounds) :
    ∃ n, rangeLength e.chunkOffset e.chunkEnd = ok n ∧ n.toNat = e.length.toNat % 2 ^ 32 := by
  have hend := h.toNat_chunkEnd
  have hpos := h.1
  have hlt := h.2
  have hle : e.chunkOffset.toNat ≤ e.chunkEnd.toNat := by omega
  obtain ⟨n, hn, hval⟩ := rangeLength_of_lt hle (by omega)
  have hlen : e.chunkEnd.toNat - e.chunkOffset.toNat + 1 = e.length.toNat := by omega
  exact ⟨n, hn, by rw [hval, hlen]⟩

/-! ## Section 3: The server as the other end of the connection -/

/-- `axum::Json` on the responses that carry no chunk. -/
class ResponseJson where
  encode : Response → Bytes

section server

variable [UuidCrate] [Blake3] [Wire] [ResponseJson]

/-- What the client sees of a response. A handler that panics takes its
    connection down. -/
def toHttpReply : Res Response → HttpReply
  | .ok (.body bytes) => .response 200 bytes
  | .ok (.partialContent bytes _) => .response 206 bytes
  | .ok r => .response 200 (ResponseJson.encode r)
  | .err e => .response (statusFor e.code) (Wire.encodeError e)
  | .panic => .failed false Wire.closed

/-- The request as the router hands it to `get_chunk`. -/
def RangeGet.request (get : RangeGet) : Request :=
  .getChunk get.chunkId (some ⟨some get.range⟩)

/-- A client program, run against the handlers. -/
def overServer {α : Type} (p : Prog HttpI α) : Prog StoreI α :=
  p.interp fun get : RangeGet => (Api.handle get.request).map toHttpReply

/-- The reply of a server in the state `s` that handles nothing else. -/
def answer (env : Env) (s : AppState) (get : RangeGet) : HttpReply :=
  toHttpReply (Api.serve env get.request s).1

variable {m : Manifest} {e : ManifestEntry} {s : AppState} {obj : Bytes}

/-- The reply to the request of an entry is the object store's. -/
theorem answer_rangeGet (env : Env) (hwf : e.chunkId.WellFormed) (h : e.InBounds)
    (hobj : s.blobs.inner.lookup e.chunkId = some obj) :
    ∃ n range, n.toNat = e.length.toNat % 2 ^ 32 ∧ answer env s e.rangeGet =
      toHttpReply ((fun bytes => .partialContent bytes range) <$>
        s.blobs.getRange e.chunkId e.chunkOffset n) := by
  obtain ⟨n, hn, hval⟩ := rangeLength_entry h
  have hend := h.toNat_chunkEnd
  have hpos := h.1
  refine ⟨n, contentRange e.chunkOffset e.chunkEnd obj.len, hval, ?_⟩
  show toHttpReply (Api.serve env (.getChunk e.chunkId.str
    (some ⟨some (rangeHeader e.chunkOffset e.chunkEnd)⟩)) s).1 = _
  have hle : e.chunkOffset.toNat ≤ e.chunkEnd.toNat := by omega
  rw [serve_getChunk_range env hwf hobj]
  simp only [Option.getD_some, parseRange_rangeHeader obj.len hle, okOr_some, ok_bind, hn]
  rfl

/-- **What a stored object decides about a reply**: it is good when the
    entry is short enough for the cast and lies within the object, and both
    verifications that apply to it pass. -/
theorem accepted_answer_iff (env : Env) (hwf : e.chunkId.WellFormed) (h : e.InBounds)
    (hobj : s.blobs.inner.lookup e.chunkId = some obj) {bytes : Bytes} :
    Accepted m e (answer env s e.rangeGet) bytes ↔
      e.length.toNat < 2 ^ 32 ∧ e.chunkOffset.toNat + e.length.toNat ≤ obj.data.length ∧
        (e.chunkOffset = 0 → e.length.toNat = obj.data.length → e.chunkId.verify obj = true) ∧
        (m.coversChunk e = true → e.chunkId.verify bytes = true) ∧
        bytes = obj.cut e.chunkOffset.toNat (e.chunkOffset.toNat + e.length.toNat) := by
  obtain ⟨n, range, hn, hanswer⟩ := answer_rangeGet env hwf h hobj
  have hcast : (s.blobs.getRange e.chunkId e.chunkOffset n = ok bytes ∧
      bytes.data.length = e.length.toNat) ↔ _ := FakeObjectStore.getRange_cast hobj hn
  rw [hanswer]
  constructor
  · intro hacc
    obtain ⟨⟨status, hstatus, hresponse⟩, hlen, hverify⟩ := hacc
    cases hread : s.blobs.getRange e.chunkId e.chunkOffset n with
    | err error =>
      rw [hread, err_map] at hresponse
      cases hresponse
      rw [not_isSuccess_statusFor] at hstatus
      cases hstatus
    | panic =>
      rw [hread, panic_map] at hresponse
      cases hresponse
    | ok read =>
      rw [hread, ok_map] at hresponse
      cases hresponse
      -- the cast may have cut the length down; the length check rules that out
      obtain ⟨hshort, hbound, hwhole, hbytes⟩ := hcast.mp ⟨hread, hlen⟩
      exact ⟨hshort, hbound, hwhole, hverify, hbytes⟩
  · intro hgood
    obtain ⟨hshort, hbound, hwhole, hverify, hbytes⟩ := hgood
    obtain ⟨hread, hlen⟩ := hcast.mpr ⟨hshort, hbound, hwhole, hbytes⟩
    rw [hread, ok_map]
    exact ⟨⟨206, rfl, rfl⟩, hlen, hverify⟩

/-! ## Section 4: Stored manifests -/

omit [UuidCrate] [Blake3] [Wire] [ResponseJson] in
theorem coversChunk_iff : m.coversChunk e = true ↔
    e.chunkOffset = 0 ∧ m.chunkSize e.chunkId = some e.length := by
  unfold Manifest.coversChunk
  cases m.chunkSize e.chunkId with
  | none => simp
  | some size =>
    rw [Bool.and_eq_true, beq_iff_eq, beq_iff_eq, Option.some.injEq]
    exact and_congr_right fun _ => eq_comm

omit [UuidCrate] [Wire] [ResponseJson] in
/-- The chunk of an entry is registered, its body is stored and has the
    declared size, and the entry lies within it. -/
theorem stored_entry (h : AppInv s) {key : ManifestId}
    (hm : s.metaStore.manifests.lookup key = some m) (he : e ∈ m.entries) :
    ∃ reg obj, s.metaStore.chunks.lookup e.chunkId = some reg ∧
      s.blobs.inner.lookup e.chunkId = some obj ∧ m.chunkSize e.chunkId = some obj.len ∧
        e.chunkOffset.toNat + e.length.toNat ≤ obj.data.length := by
  have hok := h.metaStore.manifests key m hm
  have hwf := validateManifest_ok_iff.mp hok.valid
  obtain ⟨row, hrow, hle⟩ := hwf.within e he
  have hid : row.chunkId = e.chunkId := by simpa using List.find?_some hrow
  obtain ⟨reg, hreg, hsize⟩ := hok.registered row (List.mem_of_find?_eq_some hrow)
  obtain ⟨obj, hobj, hlen⟩ := h.backed _ reg hreg
  rw [hid] at hreg hobj
  have hrowSize : row.size = obj.len := by rw [hlen, hsize]
  refine ⟨reg, obj, hreg, hobj, chunkSize_eq_some.mpr ⟨row, hrow, hrowSize⟩, ?_⟩
  rw [hrowSize, Bytes.toNat_len] at hle
  exact hle

/-- The request of an entry that is short enough for the cast gets a good
    reply from an object that has its address. -/
theorem accepted_stored (env : Env) (hwf : m.WellFormed) (he : e ∈ m.entries)
    (hobj : s.blobs.inner.lookup e.chunkId = some obj) (hverify : e.chunkId.verify obj = true)
    (hsize : m.chunkSize e.chunkId = some obj.len)
    (hle : e.chunkOffset.toNat + e.length.toNat ≤ obj.data.length)
    (hshort : e.length.toNat < 2 ^ 32) :
    Accepted m e (answer env s e.rangeGet)
      (obj.cut e.chunkOffset.toNat (e.chunkOffset.toNat + e.length.toNat)) := by
  refine (accepted_answer_iff env (hwf.entryIds e he) (hwf.inBounds he) hobj).mpr
    ⟨hshort, hle, fun _ _ => hverify, fun hcovers => ?_, rfl⟩
  obtain ⟨hoff, hlen⟩ := coversChunk_iff.mp hcovers
  rw [hsize] at hlen
  have hall : obj.cut e.chunkOffset.toNat (e.chunkOffset.toNat + e.length.toNat) = obj := by
    rw [hoff, ← Option.some.inj hlen, Bytes.toNat_len, UInt64.toNat_zero, Nat.zero_add,
      Bytes.cut_all]
  rw [hall]
  exact hverify

/-! ## Section 5: Reading back under interference -/

/-- **Reads of a stored object are stable**: whatever happens in between,
    the reply is what it would have been at the start. -/
theorem ensures_rangeGet (env : Env) {s₀ : AppState} (get : RangeGet)
    (done : List (Change AppState)) (hr : s₀.Extends s) :
    Ensures serverDiscipline ((Api.handle get.request).map toHttpReply) (fun reply _ _ =>
      ∀ obj, s₀.blobs.inner.lookup ⟨get.chunkId⟩ = some obj → reply = answer env s₀ get)
      done s := by
  have honly := getChunk_only get.chunkId (some ⟨some get.range⟩)
  cases hobj : s₀.blobs.inner.lookup ⟨get.chunkId⟩ with
  | none =>
    have hsafe : Ensures serverDiscipline (Api.handle get.request) (fun _ _ _ => True) [] s :=
      (ensures_handle get.request s).conseq fun _ _ _ _ _ => trivial
    exact Ensures.map ((hsafe.forget done).conseq fun _ _ _ _ _ obj hobj' => by cases hobj')
  | some obj =>
    have hexec : ∀ op : StoreOp, op.ReadsChunk ⟨get.chunkId⟩ →
        op.exec env s₀ = ((op.exec env s₀).1, s₀) :=
      fun op hop => Prod.ext rfl (hop.exec_state env s₀)
    have hrun := Prog.Only.run hexec honly 0
    -- the invariant of every step of the read: the chunk is as it was in `s₀`
    have hstable : ∀ (op : StoreOp) (s₁ : AppState), op.ReadsChunk ⟨get.chunkId⟩ →
        s₀.Extends s₁ → AppInv s₁ → op.Pre s₁ ∧ ∀ r s₂, StoreOp.Step op s₁ r s₂ →
          r = (op.exec env s₀).1 := by
      intro op s₁ hop hr₁ _
      refine ⟨hop.pre s₁, fun r s₂ ⟨env', _, heq⟩ => ?_⟩
      rw [← hop.exec_eq hobj (hr₁.blobs.lookup_eq hobj) env env', heq]
    have hserve : Ensures serverDiscipline (Api.handle get.request)
        (fun a _ _ => a = (Api.serve env get.request s₀).1) done s := by
      have h := Ensures.of_stable (D := serverDiscipline) hstable honly hr 0 done
      refine h.conseq fun a _ _ _ ha => ?_
      rw [ha]
      exact (congrArg Prod.fst hrun).symm
    exact Ensures.map (hserve.conseq fun a _ _ _ ha _ _ => congrArg toHttpReply ha)

omit [Blake3] in
/-- A client that reads chunks performs only reads. -/
theorem overServer_only {α : Type} (p : Prog HttpI α) :
    (overServer p).Only fun op : StoreOp => ∃ id, op.ReadsChunk id :=
  Prog.Only.interp p fun get : RangeGet =>
    (((getChunk_only get.chunkId (some ⟨some get.range⟩)).mono fun _ hop => ⟨_, hop⟩).map _)

/-- **What the server accepted can be read back**: for every stored manifest
    with entries that fit the cast and a size that can be allocated, every
    run of `reassemble`, however other requests interleave with it, returns
    the uploaded bodies put together as the manifest says. -/
theorem accepted_reads_back {c : Server} (h : c.Reachable) {key : ManifestId}
    (hm : c.store.metaStore.manifests.lookup key = some m)
    (hshort : ∀ e ∈ m.entries, e.length.toNat ≤ 2 ^ 30)
    (htotal : m.totalSize.toNat ≤ isizeMax) :
    ∃ body : ChunkId → Bytes, (∀ e ∈ m.entries, ∀ b, Uploaded c e.chunkId b ↔ b = body e.chunkId) ∧
      (∃ x c', Pool.ClientRun Api.handle StoreOp.Step (overServer (reassemble m)) c x c') ∧
      ∀ x c', Pool.ClientRun Api.handle StoreOp.Step (overServer (reassemble m)) c x c' →
        ∃ out, x = ok out ∧ out.data.length = m.totalSize.toNat ∧
          out.data = contents m.entries fun e =>
            (body e.chunkId).cut e.chunkOffset.toNat (e.chunkOffset.toNat + e.length.toNat) := by
  have hsound := sound_reachable h
  have hwf := validateManifest_ok_iff.mp (hsound.inv.metaStore.manifests key m hm).valid
  let env := Env.sample 0 0
  let body : ChunkId → Bytes := fun id => (c.store.blobs.inner.lookup id).getD Bytes.empty
  have hbody : ∀ e ∈ m.entries, c.store.blobs.inner.lookup e.chunkId = some (body e.chunkId) := by
    intro e he
    obtain ⟨_, obj, _, hobj, _⟩ := stored_entry hsound.inv hm he
    simp only [body, hobj, Option.getD_some]
  refine ⟨body, fun e he b => ?_, ?_, fun x c' hrun => ?_⟩
  · obtain ⟨_, obj, hreg, _, _⟩ := stored_entry hsound.inv hm he
    exact uploaded_iff h hreg (hbody e he) b
  · refine Pool.ClientRun.exists c (overServer_only _) fun op s ⟨id, hop⟩ => ?_
    exact ⟨_, _, env, hop.fresh env s, rfl⟩
  · -- whatever the interleaving, each entry gets its piece of the uploaded body
    have hpiece : ∀ e ∈ m.entries, ∀ reply, (∀ obj, c.store.blobs.inner.lookup e.chunkId =
        some obj → reply = answer env c.store e.rangeGet) → Accepted m e reply
          ((body e.chunkId).cut e.chunkOffset.toNat (e.chunkOffset.toNat + e.length.toNat)) := by
      intro e he reply hreply
      obtain ⟨_, obj, _, hobj, hsize, hle⟩ := stored_entry hsound.inv hm he
      have hobj' : obj = body e.chunkId := Option.some.inj (hobj.symm.trans (hbody e he))
      subst hobj'
      have := hshort e he
      rw [hreply _ hobj]
      exact accepted_stored env hwf he hobj (hsound.inv.verified _ _ hobj) hsize hle (by omega)
    -- first the client over any replies of this kind, then the server below it
    have hreturns := returns_reassemble (R := fun get reply => ∀ obj,
      c.store.blobs.inner.lookup ⟨get.chunkId⟩ = some obj → reply = answer env c.store get)
      hwf htotal hpiece
    have hensures := Ensures.interp (D := serverDiscipline)
      (fun get done s _ hr => ensures_rangeGet env get done hr) hreturns hsound.inv
      (AppState.Extends.refl c.store) []
    obtain ⟨_, hx⟩ := hrun.ensures (fun req s _ => ensures_handle req s) hsound hensures
    exact hx

end server

/-- A range read is never answered with JSON. -/
@[reducible] def Sample.responseJson : ResponseJson where
  encode := fun _ => Bytes.empty

/-- The manifest of the sample run is read back while nothing else happens. -/
theorem accepted_reads_back_sample :
    letI := Sample.blake3
    letI := Sample.uuidCrate
    letI := Sample.wire
    letI := Sample.responseJson
    ∃ x c', Pool.ClientRun Api.handle StoreOp.Step (overServer (reassemble Sample.manifest))
      Sample.server x c' ∧ ∃ out, x = ok out ∧ out.data.length = 3 := by
  let := Sample.blake3
  let := Sample.uuidCrate
  let := Sample.wire
  let := Sample.responseJson
  obtain ⟨_, _, ⟨x, c', hrun⟩, hall⟩ :=
    accepted_reads_back Sample.server_reachable Sample.server_manifest (by decide) (by decide)
  obtain ⟨out, hx, hlen, _⟩ := hall x c' hrun
  exact ⟨x, c', hrun, out, hx, hlen⟩

end Space
