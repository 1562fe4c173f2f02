import Space.Contracts.Ids

/-! # The text of a UUID

    The `uuid` crate prints a UUID as 32 lowercase hexadecimal digits in five
    groups. `UuidCrate.Lawful` is what the development relies on; the sample
    instance at the end is a printer and a parser of that form. -/

namespace Space

open Rust

/-! ## Section 1: The hyphenated form -/

/-- Groups of 8, 4, 4, 4 and 12 digits. -/
def hyphenate (hex : List Char) : List Char :=
  hex.take 8 ++ '-' :: ((hex.drop 8).take 4 ++ '-' :: ((hex.drop 12).take 4 ++
    '-' :: ((hex.drop 16).take 4 ++ '-' :: hex.drop 20)))

def Uuid.hyphenated (u : Uuid) : String := String.ofList (hyphenate (hexPad 32 u.bits.toNat))

/-- The `uuid` crate prints the hyphenated form and reads it back. -/
structure UuidCrate.Lawful [UuidCrate] : Prop where
  display : ∀ u, UuidCrate.display u = u.hyphenated
  parse : ∀ u : Uuid, UuidCrate.parseStr u.hyphenated = some u

theorem mem_hyphenate {hex : List Char} {c : Char} (h : c ∈ hyphenate hex) :
    c = '-' ∨ c ∈ hex := by
  simp only [hyphenate, List.mem_append, List.mem_cons] at h
  rcases h with h | h | h | h | h | h | h | h | h
  · exact .inr (List.mem_of_mem_take h)
  · exact .inl h
  · exact .inr (List.mem_of_mem_drop (List.mem_of_mem_take h))
  · exact .inl h
  · exact .inr (List.mem_of_mem_drop (List.mem_of_mem_take h))
  · exact .inl h
  · exact .inr (List.mem_of_mem_drop (List.mem_of_mem_take h))
  · exact .inl h
  · exact .inr (List.mem_of_mem_drop h)

theorem filter_of_hyphen_notMem {part : List Char} (h : '-' ∉ part) :
    part.filter (· != '-') = part := by
  apply List.filter_eq_self.mpr
  intro c hc
  have hne : c ≠ '-' := fun heq => h (heq ▸ hc)
  simpa using hne

/-- The digits are what is left without the hyphens. -/
theorem filter_hyphenate {hex : List Char} (h : '-' ∉ hex) :
    (hyphenate hex).filter (· != '-') = hex := by
  have hkeep : ∀ part : List Char, (∀ c ∈ part, c ∈ hex) → part.filter (· != '-') = part :=
    fun part hpart => filter_of_hyphen_notMem fun hmem => h (hpart '-' hmem)
  have htake : ∀ n m, ((hex.drop n).take m).filter (· != '-') = (hex.drop n).take m := fun n m =>
    hkeep _ fun c hc => List.mem_of_mem_drop (List.mem_of_mem_take hc)
  have hhead := hkeep (hex.take 8) fun c hc => List.mem_of_mem_take hc
  have hlast := hkeep (hex.drop 20) fun c hc => List.mem_of_mem_drop hc
  simp only [hyphenate, List.filter_append, List.filter_cons, htake, hhead, hlast]
  have hjoin : ∀ n m, (hex.drop n).take m ++ hex.drop (n + m) = hex.drop n := by
    intro n m
    rw [← List.drop_drop, List.take_append_drop]
  have h16 := hjoin 16 4
  have h12 := hjoin 12 4
  have h8 := hjoin 8 4
  simp only [Nat.reduceAdd] at h16 h12 h8
  simp [h16, h12, h8]

theorem length_hyphenate {hex : List Char} (h : hex.length = 32) : (hyphenate hex).length = 36 := by
  simp [hyphenate, h]

/-- No digit is a hyphen. -/
theorem hyphen_notMem_hexPad (k n : Nat) : '-' ∉ hexPad k n := by
  intro h
  have hdigit : ∀ d < 16, Nat.digitChar d ≠ '-' := by decide
  have hne : ∀ c ∈ hexPad k n, c ≠ '-' := forall_mem_hexPad hdigit k n
  exact hne '-' h rfl

/-- The 32 digits are those of the 128 bits. -/
theorem Uuid.parseHex_digits (u : Uuid) :
    parseHex 0 (hexPad 32 u.bits.toNat) = some u.bits.toNat := by
  have hlt : u.bits.toNat < 16 ^ 32 := by
    have h : (16 : Nat) ^ 32 = 2 ^ 128 := by decide
    rw [h]
    exact u.bits.isLt
  exact parseHex_hexPad hlt

/-- A digit or a hyphen. -/
def IsUuidChar (c : Char) : Prop := c = '-' ∨ ∃ d < 16, c = Nat.digitChar d

/-- Parsing an identity never panics: it returns the id or
    `INVALID_PARAMETER`. -/
theorem checks_parseTagged [UuidCrate] {α : Type} (tag : String) (mk : Uuid → α) (s : String) :
    (parseTagged tag mk s).Checks SpaceError.IsInvalidParam := by
  have hinvalid := SpaceError.isInvalidParam_invalidParam
  unfold parseTagged
  refine Outcome.Checks.bind (Outcome.checks_okOr (hinvalid _)) fun _ => ?_
  refine Outcome.Checks.bind (Outcome.checks_okOr (hinvalid _)) fun _ => ?_
  exact Outcome.checks_ok _

/-! ## Section 2: Ids as text -/

section display

variable [UuidCrate]

/-- `Display`: the prefix and the UUID. -/
def FileId.display (id : FileId) : String := "f_" ++ UuidCrate.display id.uuid

def DirectoryId.display (id : DirectoryId) : String := "d_" ++ UuidCrate.display id.uuid

def VersionId.display (id : VersionId) : String := "v_" ++ UuidCrate.display id.uuid

def ManifestId.display (id : ManifestId) : String := "m_" ++ UuidCrate.display id.uuid

theorem parseTagged_display {α : Type} (h : UuidCrate.Lawful) (tag : String) (mk : Uuid → α)
    (u : Uuid) : parseTagged tag mk (tag ++ UuidCrate.display u) = .ok (mk u) := by
  unfold parseTagged
  rw [String.toList_append, stripPrefix_append, Outcome.okOr_some, Outcome.ok_bind,
    String.ofList_toList, h.display, h.parse]
  rfl

theorem FileId.parse_display (h : UuidCrate.Lawful) (id : FileId) :
    FileId.parse id.display = .ok id := parseTagged_display h "f_" FileId.mk id.uuid

theorem DirectoryId.parse_display (h : UuidCrate.Lawful) (id : DirectoryId) :
    DirectoryId.parse id.display = .ok id := parseTagged_display h "d_" DirectoryId.mk id.uuid

theorem VersionId.parse_display (h : UuidCrate.Lawful) (id : VersionId) :
    VersionId.parse id.display = .ok id := parseTagged_display h "v_" VersionId.mk id.uuid

theorem ManifestId.parse_display (h : UuidCrate.Lawful) (id : ManifestId) :
    ManifestId.parse id.display = .ok id := parseTagged_display h "m_" ManifestId.mk id.uuid

end display

/-! ## Section 3: A sample instance -/

/-- The UUID whose hyphenated form this is. -/
def Uuid.ofHyphenated (s : String) : Option Uuid := do
  let n ← parseHex 0 (s.toList.filter (· != '-'))
  let u : Uuid := ⟨BitVec.ofNat 128 n⟩
  if u.hyphenated = s then some u else none

theorem Uuid.ofHyphenated_hyphenated (u : Uuid) : Uuid.ofHyphenated u.hyphenated = some u := by
  have hdigits : parseHex 0 (u.hyphenated.toList.filter (· != '-')) = some u.bits.toNat := by
    rw [Uuid.hyphenated, String.toList_ofList, filter_hyphenate (hyphen_notMem_hexPad 32 _),
      u.parseHex_digits]
  unfold Uuid.ofHyphenated
  simp [hdigits]

namespace Sample

/-- The `uuid` crate, for the hyphenated form. -/
@[reducible] def hyphenatedUuids : UuidCrate where
  parseStr := Uuid.ofHyphenated
  display := Uuid.hyphenated

theorem hyphenatedUuids_lawful :
    letI := hyphenatedUuids
    UuidCrate.Lawful :=
  letI := hyphenatedUuids
  ⟨fun _ => rfl, Uuid.ofHyphenated_hyphenated⟩

end Sample

end Space
