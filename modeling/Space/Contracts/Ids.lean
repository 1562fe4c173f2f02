import Space.Rust.Text
import Space.Contracts.Errors

/-! # Identities and content addresses

    `contracts::ids`. An identity is a UUID with a type-specific prefix in
    its text form; a `ChunkId` is the address of the bytes it names,
    `b3:` and 64 lowercase hexadecimal digits.

    The hash function and the UUID parser belong to other crates and are
    parameters of the whole development. -/

namespace Space

open Rust

/-- The `uuid` crate, as the ids use it. -/
class UuidCrate where
  /-- `Uuid::parse_str`. -/
  parseStr : String → Option Uuid
  /-- `Display`. -/
  display : Uuid → String

/-- The `blake3` crate: the 256-bit hash of a byte string. -/
class Blake3 where
  hash : List UInt8 → BitVec 256

/-! ## Section 1: Prefixed identities -/

structure FileId where
  uuid : Uuid
  deriving DecidableEq, Repr

structure DirectoryId where
  uuid : Uuid
  deriving DecidableEq, Repr

structure VersionId where
  uuid : Uuid
  deriving DecidableEq, Repr

structure ManifestId where
  uuid : Uuid
  deriving DecidableEq, Repr

section uuidId

variable [UuidCrate]

/-- The body of `uuid_id!`'s `parse`, for the tag `tag`. -/
def parseTagged {α : Type} (tag : String) (mk : Uuid → α) (s : String) : Res α := do
  let rest ← Outcome.okOr (stripPrefix tag.toList s.toList)
    (SpaceError.invalidParam ("expected " ++ tag ++ " prefix"))
  let uuid ← Outcome.okOr (UuidCrate.parseStr (String.ofList rest))
    (SpaceError.invalidParam "malformed uuid")
  return mk uuid

def FileId.parse : String → Res FileId := parseTagged "f_" FileId.mk

def DirectoryId.parse : String → Res DirectoryId := parseTagged "d_" DirectoryId.mk

def VersionId.parse : String → Res VersionId := parseTagged "v_" VersionId.mk

def ManifestId.parse : String → Res ManifestId := parseTagged "m_" ManifestId.mk

end uuidId

/-! ## Section 2: Content addresses -/

/-- `ChunkId(String)`. -/
structure ChunkId where
  str : String
  deriving DecidableEq, Repr

namespace ChunkId

/-- The digits that `parse` accepts. -/
def isLowerHex (c : Char) : Bool :=
  c.isDigit || ('a' ≤ c && c ≤ 'f')

/-- `ChunkId::parse`. The source tests the bytes of the text; a byte of a
    non-ASCII character is never a digit, so testing characters is the same. -/
def parse (s : String) : Res ChunkId := do
  let hex ← Outcome.okOr (stripPrefix "b3:".toList s.toList)
    (SpaceError.invalidParam "chunk id must start with b3:")
  Outcome.rejectIf (utf8Len hex != 64)
    (SpaceError.invalidParam "chunk id hash must be 64 hex chars")
  Outcome.rejectIf (!hex.all isLowerHex)
    (SpaceError.invalidParam "chunk id must be lowercase hex")
  return ⟨s⟩

variable [Blake3]

/-- `ChunkId::from_bytes`, the content address of `bytes`. -/
def fromBytes (bytes : Bytes) : ChunkId :=
  ⟨"b3:" ++ String.ofList (hexPad 64 (Blake3.hash bytes.data).toNat)⟩

/-- `ChunkId::verify`. -/
def verify (id : ChunkId) (bytes : Bytes) : Bool :=
  id == fromBytes bytes

end ChunkId

/-! ## Section 3: What the parser and the address promise -/

/-- What a well-formed chunk id looks like: `b3:` and 64 lowercase
    hexadecimal digits. -/
def ChunkId.WellFormed (id : ChunkId) : Prop :=
  ∃ hex : List Char, id.str.toList = 'b' :: '3' :: ':' :: hex ∧ hex.length = 64 ∧
    ∀ c ∈ hex, ('0' ≤ c ∧ c ≤ '9') ∨ ('a' ≤ c ∧ c ≤ 'f')

namespace ChunkId

theorem isLowerHex_iff {c : Char} :
    isLowerHex c = true ↔ ('0' ≤ c ∧ c ≤ '9') ∨ ('a' ≤ c ∧ c ≤ 'f') := by
  simp only [isLowerHex, Char.isDigit, Bool.or_eq_true, Bool.and_eq_true, decide_eq_true_eq]
  exact Iff.rfl

theorem utf8Size_of_isLowerHex {c : Char} (h : isLowerHex c = true) : c.utf8Size = 1 := by
  have hle : c.val ≤ 0x7f := by
    rcases isLowerHex_iff.mp h with ⟨_, h⟩ | ⟨_, h⟩
    · exact UInt32.le_trans h (by decide)
    · exact UInt32.le_trans h (by decide)
  unfold Char.utf8Size
  exact if_pos hle

/-- **The parser accepts exactly the well-formed ids**, unchanged. -/
theorem parse_eq_ok {s : String} {id : ChunkId} :
    parse s = .ok id ↔ id = ⟨s⟩ ∧ WellFormed ⟨s⟩ := by
  have hpre : "b3:".toList = ['b', '3', ':'] := by decide
  unfold parse WellFormed
  rw [Outcome.bind_eq_ok]
  simp only [Outcome.okOr_eq_ok, stripPrefix_eq_some, Outcome.seq_eq_ok, Outcome.rejectIf_eq_ok,
    hpre, Outcome.pure_eq, Outcome.ok.injEq, bne_eq_false_iff_eq, Bool.not_eq_false',
    List.all_eq_true, List.cons_append, List.nil_append]
  constructor
  · rintro ⟨hex, hs, hlen, hhex, rfl⟩
    rw [utf8Len_ascii fun c hc => utf8Size_of_isLowerHex (hhex c hc)] at hlen
    exact ⟨rfl, hex, hs, hlen, fun c hc => isLowerHex_iff.mp (hhex c hc)⟩
  · rintro ⟨rfl, hex, hs, hlen, hhex⟩
    have hall : ∀ c ∈ hex, isLowerHex c = true := fun c hc => isLowerHex_iff.mpr (hhex c hc)
    refine ⟨hex, hs, ?_, hall, rfl⟩
    rw [utf8Len_ascii fun c hc => utf8Size_of_isLowerHex (hall c hc), hlen]

theorem parse_str {id : ChunkId} : parse id.str = .ok id ↔ id.WellFormed := by
  rw [parse_eq_ok]
  exact and_iff_right rfl

/-- Parsing never panics: it returns the id or `INVALID_PARAMETER`. -/
theorem checks_parse (s : String) : (parse s).Checks SpaceError.IsInvalidParam := by
  have hinvalid := SpaceError.isInvalidParam_invalidParam
  unfold parse
  refine Outcome.Checks.bind (Outcome.checks_okOr (hinvalid _)) fun _ => ?_
  refine Outcome.Checks.bind (Outcome.checks_rejectIf (hinvalid _)) fun _ => ?_
  refine Outcome.Checks.bind (Outcome.checks_rejectIf (hinvalid _)) fun _ => ?_
  exact Outcome.checks_ok _

variable [Blake3]

theorem verify_iff {id : ChunkId} {bytes : Bytes} :
    id.verify bytes = true ↔ id = fromBytes bytes := by
  simp [verify]

omit [Blake3] in
/-- The padded digits of a number make a well-formed id. -/
theorem wellFormed_hexPad (n : Nat) :
    WellFormed ⟨"b3:" ++ String.ofList (hexPad 64 n)⟩ := by
  have hall : ∀ d < 16, ('0' ≤ Nat.digitChar d ∧ Nat.digitChar d ≤ '9') ∨
      ('a' ≤ Nat.digitChar d ∧ Nat.digitChar d ≤ 'f') := by decide
  refine ⟨hexPad 64 n, ?_, length_hexPad 64 _, forall_mem_hexPad hall 64 n⟩
  simp

/-- A content address is well-formed. -/
theorem wellFormed_fromBytes (bytes : Bytes) : (fromBytes bytes).WellFormed :=
  wellFormed_hexPad _

/-- Two byte strings share a content address exactly when they share a hash. -/
theorem fromBytes_inj {a b : Bytes} :
    fromBytes a = fromBytes b ↔ Blake3.hash a.data = Blake3.hash b.data := by
  constructor
  · intro h
    have hstr := congrArg (fun id => id.str.toList) h
    simp only [fromBytes, String.toList_append, String.toList_ofList] at hstr
    have hlt : (16 : Nat) ^ 64 = 2 ^ 256 := by decide
    have := hexPad_inj (by rw [hlt]; exact BitVec.isLt _) (by rw [hlt]; exact BitVec.isLt _)
      (List.append_cancel_left hstr)
    exact BitVec.eq_of_toNat_eq this
  · intro h
    unfold fromBytes
    rw [h]

end ChunkId

/-- No two of the bodies share a hash. -/
def Blake3.CollisionFree [Blake3] (bodies : Set Bytes) : Prop :=
  ∀ a ∈ bodies, ∀ b ∈ bodies, Blake3.hash a.data = Blake3.hash b.data → a = b

/-- Bodies without a collision have different addresses. -/
theorem Blake3.CollisionFree.eq [Blake3] {bodies : Set Bytes}
    (h : Blake3.CollisionFree bodies) {a b : Bytes} (ha : a ∈ bodies) (hb : b ∈ bodies)
    {id : ChunkId} (hva : id.verify a = true) (hvb : id.verify b = true) : a = b := by
  have hsame : ChunkId.fromBytes a = ChunkId.fromBytes b :=
    (ChunkId.verify_iff.mp hva).symm.trans (ChunkId.verify_iff.mp hvb)
  exact h a ha b hb (ChunkId.fromBytes_inj.mp hsame)

/-! ### Sample parameters

    The hash and the UUID parser on the few inputs that the sample runs in
    this development use. -/

namespace Sample

/-- The bytes `abc`. -/
def abc : Bytes := ⟨[0x61, 0x62, 0x63], by decide⟩

/-- The address of the bytes `abc`. -/
def chunk : ChunkId :=
  ⟨"b3:6437b3ac38465133ffb63b75273a8db548c558465d79db03fd359c6cd5bd9d85"⟩

/-- BLAKE3 of the empty string, of `abc`, and of `abc` with one byte
    flipped. -/
@[reducible] def blake3 : Blake3 where
  hash := fun bytes =>
    if bytes = abc.data then
      0x6437b3ac38465133ffb63b75273a8db548c558465d79db03fd359c6cd5bd9d85
    else if bytes = [] then
      0xaf1349b9f5f9a1a6a0404dea36dcc9499bcb25c9adc112b7cc9a93cae41f3262
    else if bytes = [0x9e, 0x62, 0x63] then
      0xae848b3b017baeee770505f18977662460f12e6c5bf9277ed70fba4ad60e71d6
    else if bytes = [0x61, 0x9d, 0x63] then
      0xb4c8fbbfd1e51b91a44bfb452d5ffe7dc960493391f1e70f43ccac862a1e8e0d
    else if bytes = [0x61, 0x62, 0x9c] then
      0x86385f27819dad924abc901e4829a25753df676f76de332a783bb3a2f466f51a
    else 0

theorem chunk_wellFormed : chunk.WellFormed := by
  let := blake3
  have haddress : chunk = ChunkId.fromBytes abc := by decide +kernel
  rw [haddress]
  exact ChunkId.wellFormed_fromBytes abc

def uuidText : String := "00000000-0000-0000-0000-000000000001"

def uuidText2 : String := "00000000-0000-0000-0000-000000000002"

/-- The `uuid` crate on two UUIDs. -/
@[reducible] def uuidCrate : UuidCrate where
  parseStr := fun s =>
    if s = uuidText then some ⟨1⟩ else if s = uuidText2 then some ⟨2⟩ else none
  display := fun uuid => if uuid = ⟨2⟩ then uuidText2 else uuidText

end Sample

end Space
