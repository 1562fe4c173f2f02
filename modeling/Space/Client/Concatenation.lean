import Space.Client.Core

/-! # Reassembly is concatenation

    `reassemble` copies every reply to an absolute offset of a buffer that
    starts as zeros. A hole between two entries would leave zeros in the
    file, and an overlap would lose bytes.

    The server is arbitrary here: the replies come from an oracle, and they
    may be errors or carry any bytes. The entries of a valid manifest tile
    the file (`Data.Tiles`), so each round writes where the one before it
    stopped, and `feed_reassembleLoop` says what a whole run of the loop
    leaves in the buffer, whatever was in it. -/

namespace Space

open Rust Outcome Data Effects

/-! ## Section 1: The replies of a run -/

section replies

variable [Blake3]

/-- From its `n`-th request on, a run asks for the entries in order and is
    sent the pieces. -/
def Replies (m : Manifest) (oracle : Prog.Oracle HttpI) :
    Nat → List ManifestEntry → List Bytes → Prop
  | _, [], [] => True
  | n, e :: rest, piece :: pieces =>
    Accepted m e (oracle n e.rangeGet) piece ∧ Replies m oracle (n + 1) rest pieces
  | _, _, _ => False

variable {m : Manifest} {oracle : Prog.Oracle HttpI}

theorem Accepted.unique {e : ManifestEntry} {reply : HttpReply} {bytes bytes' : Bytes}
    (h : Accepted m e reply bytes) (h' : Accepted m e reply bytes') : bytes = bytes' := by
  obtain ⟨_, _, hreply⟩ := h.response
  obtain ⟨_, _, hreply'⟩ := h'.response
  rw [hreply] at hreply'
  cases hreply'
  rfl

/-- The pieces are as long as the entries ask. -/
theorem Replies.fits {n : Nat} {entries : List ManifestEntry} {pieces : List Bytes}
    (h : Replies m oracle n entries pieces) :
    Fits (entries.map ManifestEntry.span) (pieces.map Bytes.data) := by
  induction entries generalizing n pieces with
  | nil =>
    cases pieces with
    | nil => exact .nil
    | cons piece pieces => exact h.elim
  | cons e rest ih =>
    cases pieces with
    | nil => exact h.elim
    | cons piece pieces => exact .cons h.1.length (ih h.2)

theorem Replies.accepted {n i : Nat} {entries : List ManifestEntry} {pieces : List Bytes}
    {e : ManifestEntry} {piece : Bytes} (h : Replies m oracle n entries pieces)
    (he : entries[i]? = some e) (hpiece : pieces[i]? = some piece) :
    Accepted m e (oracle (n + i) e.rangeGet) piece := by
  induction entries generalizing n i pieces with
  | nil => cases he
  | cons e' rest ih =>
    cases pieces with
    | nil => exact h.elim
    | cons piece' pieces =>
      cases i with
      | zero =>
        rw [List.getElem?_cons_zero, Option.some.injEq] at he hpiece
        subst he hpiece
        exact h.1
      | succ i =>
        rw [List.getElem?_cons_succ] at he hpiece
        have hacc := ih h.2 he hpiece
        rw [Nat.add_assoc, Nat.add_comm 1 i] at hacc
        exact hacc

/-- Good replies, request by request. -/
theorem replies_of_accepted {n : Nat} {entries : List ManifestEntry} {pieces : List Bytes}
    (hlen : pieces.length = entries.length)
    (h : ∀ (i : Nat) e piece, entries[i]? = some e → pieces[i]? = some piece →
      Accepted m e (oracle (n + i) e.rangeGet) piece) : Replies m oracle n entries pieces := by
  induction entries generalizing n pieces with
  | nil =>
    rw [List.length_eq_zero_iff.mp hlen]
    trivial
  | cons e rest ih =>
    cases pieces with
    | nil => cases hlen
    | cons piece pieces =>
      refine ⟨h 0 e piece rfl rfl, ih (Nat.succ.inj hlen) ?_⟩
      intro i e' piece' he' hpiece'
      have hacc := h (i + 1) e' piece' he' hpiece'
      rw [Nat.add_comm i 1, ← Nat.add_assoc] at hacc
      exact hacc

/-! ## Section 2: The loop on any buffer -/

variable [Wire]

/-- One round of a run: the piece is written where the entry says, or the
    run does not return a file. -/
theorem feed_cons {e : ManifestEntry} {rest : List ManifestEntry} {out out' : Bytes} {n : Nat}
    (h : e.InBounds) (hfit : e.logicalOffset.toNat + e.length.toNat ≤ out.data.length) :
    (reassembleLoop m (e :: rest) out).feed oracle n = ok out' ↔
      ∃ (piece : Bytes) (hlen : e.logicalOffset.toNat + piece.data.length ≤ out.data.length),
        Accepted m e (oracle n e.rangeGet) piece ∧
          (reassembleLoop m rest (out.overwrite e.logicalOffset.toNat piece hlen)).feed oracle
            (n + 1) = ok out' := by
  rw [reassembleLoop_cons h]
  show (Fallible.onOk (reassembleLoop m rest) (round m e out (oracle n e.rangeGet))).feed oracle
    (n + 1) = ok out' ↔ _
  by_cases hacc : ∃ piece, Accepted m e (oracle n e.rangeGet) piece
  · obtain ⟨piece, hacc⟩ := hacc
    have hlen : e.logicalOffset.toNat + piece.data.length ≤ out.data.length := by
      rw [hacc.length]
      exact hfit
    rw [round_of_accepted hacc, Bytes.copyInto_of_le hlen]
    show (reassembleLoop m rest (out.overwrite e.logicalOffset.toNat piece hlen)).feed oracle
      (n + 1) = ok out' ↔ _
    constructor
    · intro hfeed
      exact ⟨piece, hlen, hacc, hfeed⟩
    · intro hfeed
      obtain ⟨piece', _, hacc', hfeed⟩ := hfeed
      cases hacc.unique hacc'
      exact hfeed
  · obtain ⟨error, herr⟩ := round_of_not_accepted (not_exists.mp hacc) out
    rw [herr]
    show err error = ok out' ↔ _
    constructor
    · intro hfeed
      cases hfeed
    · intro hfeed
      obtain ⟨piece, _, hacc', _⟩ := hfeed
      exact absurd ⟨piece, hacc'⟩ hacc

/-- **A run of the loop** on a buffer whose rest the entries tile: what is in
    front of the rest stays, and the pieces replace the rest. -/
theorem feed_reassembleLoop {entries : List ManifestEntry} {out out' : Bytes} {a n : Nat}
    (hbounds : ∀ e ∈ entries, e.InBounds)
    (htiles : Tiles a out.data.length (entries.map ManifestEntry.span)) :
    (reassembleLoop m entries out).feed oracle n = ok out' ↔
      ∃ pieces, Replies m oracle n entries pieces ∧
        out'.data = out.data.take a ++ (pieces.map Bytes.data).flatten := by
  induction entries generalizing a n out with
  | nil =>
    have ha : a = out.data.length := htiles
    have hall : out.data.take a ++ (List.map Bytes.data []).flatten = out.data := by
      rw [ha, List.take_length]
      exact List.append_nil _
    constructor
    · intro hfeed
      cases hfeed
      exact ⟨[], trivial, hall.symm⟩
    · intro hfeed
      obtain ⟨pieces, hreplies, hdata⟩ := hfeed
      cases pieces with
      | nil => exact congrArg ok (Bytes.ext (hall.symm.trans hdata.symm))
      | cons piece pieces => exact hreplies.elim
  | cons e rest ih =>
    obtain ⟨hat, _, hrest⟩ := htiles
    have hat : e.logicalOffset.toNat = a := hat
    subst hat
    have hrest : Tiles (e.logicalOffset.toNat + e.length.toNat) out.data.length
        (rest.map ManifestEntry.span) := hrest
    have hend := hrest.le
    rw [feed_cons (hbounds e (by simp)) (by omega)]
    -- after the round, the rest of the entries tile what is behind the piece
    have hround : ∀ (piece : Bytes) (hlen : e.logicalOffset.toNat + piece.data.length ≤
        out.data.length), Accepted m e (oracle n e.rangeGet) piece →
        ((reassembleLoop m rest (out.overwrite e.logicalOffset.toNat piece hlen)).feed oracle
          (n + 1) = ok out' ↔ ∃ pieces, Replies m oracle (n + 1) rest pieces ∧
            out'.data = out.data.take e.logicalOffset.toNat ++
              (piece.data ++ (pieces.map Bytes.data).flatten)) := by
      intro piece hlen hacc
      have htiles' : Tiles (e.logicalOffset.toNat + piece.data.length)
          (out.overwrite e.logicalOffset.toNat piece hlen).data.length
          (rest.map ManifestEntry.span) := by
        rw [Bytes.length_overwrite hlen, hacc.length]
        exact hrest
      rw [ih (fun e' he' => hbounds e' (by simp [he'])) htiles', Bytes.take_overwrite hlen]
      simp only [List.append_assoc]
    constructor
    · intro hfeed
      obtain ⟨piece, hlen, hacc, hfeed⟩ := hfeed
      obtain ⟨pieces, hreplies, hdata⟩ := (hround piece hlen hacc).mp hfeed
      exact ⟨piece :: pieces, ⟨hacc, hreplies⟩, hdata⟩
    · intro hfeed
      obtain ⟨pieces, hreplies, hdata⟩ := hfeed
      cases pieces with
      | nil => exact hreplies.elim
      | cons piece pieces =>
        have hlen : e.logicalOffset.toNat + piece.data.length ≤ out.data.length := by
          rw [hreplies.1.length]
          exact hend
        exact ⟨piece, hlen, hreplies.1, (hround piece hlen hreplies.1).mpr
          ⟨pieces, hreplies.2, hdata⟩⟩

/-! ## Section 3: A whole file -/

/-- The file is the replies of the run, one after the other. -/
structure Concatenates (m : Manifest) (oracle : Prog.Oracle HttpI) (out : Bytes)
    (pieces : List Bytes) : Prop where
  /-- One reply for each entry. -/
  length : pieces.length = m.entries.length
  /-- The reply to the request of the `i`-th entry is a success with the
      `i`-th piece. -/
  reply : ∀ (i : Nat) e piece, m.entries[i]? = some e → pieces[i]? = some piece →
    ∃ status, isSuccess status = true ∧ oracle i e.rangeGet = .response status piece
  size : ∀ (i : Nat) e piece, m.entries[i]? = some e → pieces[i]? = some piece →
    piece.data.length = e.length.toNat
  /-- A piece that is a whole chunk hashes to its address. -/
  verified : ∀ (i : Nat) e piece, m.entries[i]? = some e → pieces[i]? = some piece →
    e.chunkOffset = 0 → m.chunkSize e.chunkId = some e.length →
      ChunkId.fromBytes piece = e.chunkId
  data : out.data = (pieces.map Bytes.data).flatten
  total : out.data.length = m.totalSize.toNat
  /-- Exactly one entry covers a byte of the file. -/
  once : ∀ p < out.data.length,
    ∃! i : Nat, ∃ e : ManifestEntry, m.entries[i]? = some e ∧ e.span.Covers p
  /-- The byte is the one that the reply to this entry has for it. -/
  written : ∀ (p i : Nat) e piece, m.entries[i]? = some e → pieces[i]? = some piece →
    e.span.Covers p → out.data[p]? = piece.data[p - e.logicalOffset.toNat]?
  /-- Nothing of the buffer is left: any other one gives the same file. -/
  overwritten : ∀ buffer : Bytes, buffer.data.length = m.totalSize.toNat →
    (reassembleLoop m m.entries buffer).feed oracle 0 = ok out

/-- A run on a buffer of the right size returns the pieces. -/
theorem feed_buffer (h : m.WellFormed) {buffer out : Bytes}
    (hbuffer : buffer.data.length = m.totalSize.toNat) :
    (reassembleLoop m m.entries buffer).feed oracle 0 = ok out ↔
      ∃ pieces, Replies m oracle 0 m.entries pieces ∧
        out.data = (pieces.map Bytes.data).flatten := by
  have htiles : Tiles 0 buffer.data.length (m.entries.map ManifestEntry.span) := by
    rw [hbuffer]
    exact h.tiles
  rw [feed_reassembleLoop (fun e he => h.inBounds he) htiles]
  simp only [List.take_zero, List.nil_append]

theorem Replies.concatenates {out : Bytes} {pieces : List Bytes} (h : m.WellFormed)
    (hreplies : Replies m oracle 0 m.entries pieces)
    (hdata : out.data = (pieces.map Bytes.data).flatten) : Concatenates m oracle out pieces := by
  have hfits := hreplies.fits
  have hlen := hfits.length_eq
  have htotal : out.data.length = m.totalSize.toNat := by
    have := h.tiles.length_flatten hfits
    rw [hdata]
    omega
  have hspan : ∀ (i : Nat) e, m.entries[i]? = some e → m.spans[i]? = some e.span := by
    intro i e he
    rw [Manifest.spans, List.getElem?_map, he, Option.map_some]
  have hacc : ∀ (i : Nat) e piece, m.entries[i]? = some e → pieces[i]? = some piece →
      Accepted m e (oracle i e.rangeGet) piece := by
    intro i e piece he hpiece
    have hacc := hreplies.accepted he hpiece
    rw [Nat.zero_add] at hacc
    exact hacc
  constructor
  · rw [List.length_map, List.length_map] at hlen
    exact hlen.symm
  · intro i e piece he hpiece
    exact (hacc i e piece he hpiece).response
  · intro i e piece he hpiece
    exact (hacc i e piece he hpiece).length
  · intro i e piece he hpiece hoff hsize
    have hcovers : m.coversChunk e = true := by
      simp [Manifest.coversChunk, hsize, hoff]
    exact (ChunkId.verify_iff.mp ((hacc i e piece he hpiece).verified hcovers)).symm
  · exact hdata
  · exact htotal
  · intro p hp
    obtain ⟨i, ⟨s, hs, hcovers⟩, honly⟩ :=
      h.tiles.existsUnique_covers (Nat.zero_le p) (htotal ▸ hp)
    rw [Manifest.spans, List.getElem?_map, Option.map_eq_some_iff] at hs
    obtain ⟨e, he, rfl⟩ := hs
    refine ⟨i, ⟨e, he, hcovers⟩, ?_⟩
    intro j hj
    obtain ⟨e', he', hcovers'⟩ := hj
    exact honly j ⟨e'.span, hspan j e' he', hcovers'⟩
  · intro p i e piece he hpiece hcovers
    have hmap : (pieces.map Bytes.data)[i]? = some piece.data := by
      rw [List.getElem?_map, hpiece, Option.map_some]
    have hat := h.tiles.getElem?_flatten hfits (hspan i e he) hmap hcovers
    rw [hdata]
    exact hat
  · intro buffer hbuffer
    exact (feed_buffer h hbuffer).mpr ⟨pieces, hreplies, hdata⟩

theorem Concatenates.replies {out : Bytes} {pieces : List Bytes}
    (h : Concatenates m oracle out pieces) : Replies m oracle 0 m.entries pieces := by
  refine replies_of_accepted h.length ?_
  intro i e piece he hpiece
  rw [Nat.zero_add]
  refine ⟨h.reply i e piece he hpiece, h.size i e piece he hpiece, ?_⟩
  intro hcovers
  unfold Manifest.coversChunk at hcovers
  cases hsize : m.chunkSize e.chunkId with
  | none =>
    rw [hsize] at hcovers
    cases hcovers
  | some size =>
    simp only [hsize, Bool.and_eq_true, beq_iff_eq] at hcovers
    rw [← hcovers.2] at hsize
    exact ChunkId.verify_iff.mpr (h.verified i e piece he hpiece hcovers.1 hsize).symm

/-- **When a file is returned, and which.** -/
theorem feed_reassemble {out : Bytes} : (reassemble m).feed oracle 0 = ok out ↔
    m.WellFormed ∧ m.totalSize.toNat ≤ isizeMax ∧ ∃ pieces, Concatenates m oracle out pieces := by
  by_cases h : m.WellFormed
  · by_cases htotal : m.totalSize.toNat ≤ isizeMax
    · obtain ⟨buffer, hbuffer, hzeros⟩ := Bytes.zeroed_of_le (ε := SpaceError) htotal
      have hlen : buffer.data.length = m.totalSize.toNat := by
        rw [hzeros, List.length_replicate]
      rw [reassemble_of_wellFormed h, hbuffer]
      show (reassembleLoop m m.entries buffer).feed oracle 0 = ok out ↔ _
      rw [feed_buffer h hlen]
      constructor
      · intro hout
        obtain ⟨pieces, hreplies, hdata⟩ := hout
        exact ⟨h, htotal, pieces, hreplies.concatenates h hdata⟩
      · intro hout
        obtain ⟨_, _, pieces, hout⟩ := hout
        exact ⟨pieces, hout.replies, hout.data⟩
    · rw [reassemble_of_gt h (by omega)]
      constructor
      · intro hout
        cases hout
      · intro hout
        exact absurd hout.2.1 htotal
  · obtain ⟨e, he⟩ := reassemble_of_not_wellFormed h
    rw [he]
    constructor
    · intro hout
      cases hout
    · intro hout
      exact absurd hout.1 h

omit [Blake3] [Wire] in
/-- An error, or a response that is not as long as the entry. -/
def HttpReply.BadFor (e : ManifestEntry) : HttpReply → Prop
  | .failed _ _ => True
  | .response status body => isSuccess status = false ∨ body.data.length ≠ e.length.toNat

/-- **Reassembly is exactly concatenation**, for every manifest and every
    sequence of replies: a file that is returned is the replies in the order
    of the entries, and a bad reply or a manifest that is not valid never
    gives a file. -/
theorem reassemble_concatenates (m : Manifest) (oracle : Prog.Oracle HttpI) :
    (∀ out, (reassemble m).feed oracle 0 = ok out ↔
      validateManifest m = ok () ∧ m.totalSize.toNat ≤ isizeMax ∧
        ∃ pieces, Concatenates m oracle out pieces) ∧
      (validateManifest m ≠ ok () ∨
        (∃ (i : Nat) (e : ManifestEntry), m.entries[i]? = some e ∧
          (oracle i e.rangeGet).BadFor e) →
        ∀ out, (reassemble m).feed oracle 0 ≠ ok out) := by
  constructor
  · intro out
    rw [feed_reassemble, validateManifest_ok_iff]
  · intro hbad out hout
    obtain ⟨h, _, pieces, hout⟩ := feed_reassemble.mp hout
    rcases hbad with hinvalid | ⟨i, e, he, hbad⟩
    · exact hinvalid (validateManifest_ok_iff.mpr h)
    · -- the entry has a piece, so its reply was good
      have hi : i < pieces.length := by
        rw [hout.length]
        exact (List.getElem?_eq_some_iff.mp he).1
      have hpiece : pieces[i]? = some pieces[i] := List.getElem?_eq_getElem hi
      obtain ⟨status, hstatus, hreply⟩ := hout.reply i e _ he hpiece
      rw [hreply] at hbad
      rcases hbad with hfail | hlen
      · rw [hstatus] at hfail
        cases hfail
      · exact hlen (hout.size i e _ he hpiece)

end replies

end Space
