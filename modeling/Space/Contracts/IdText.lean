import Space.Contracts.UuidText

/-! # The texts that name an identity

    `uuid_id!`: `Display` puts a prefix in front of the UUID, `parse` takes
    it off and leaves the rest to the `uuid` crate. `parse` is documented to
    parse "the prefixed string form produced by `Display`". It accepts more
    than that, by what the `uuid` crate accepts beyond its own `Display`.

    * **`idTexts_exact_iff`**: for each of the six types, what is printed is
      read back, and a text is the printed form of the id that is read from
      it exactly when it is strict.
    * **`parseTagged_simple`**: every id has a text that is not the printed
      one. -/

namespace Space

open Rust Data

/-! ## Section 1: The other identities -/

section uuidId

variable [UuidCrate]

def RequestId.parse : String → Res RequestId := parseTagged "r_" RequestId.mk

def OperationId.parse : String → Res OperationId := parseTagged "o_" OperationId.mk

/-- `Display`: the prefix and the UUID. -/
def RequestId.display (id : RequestId) : String := "r_" ++ UuidCrate.display id.uuid

def OperationId.display (id : OperationId) : String := "o_" ++ UuidCrate.display id.uuid

end uuidId

/-- Each type is a UUID of its own. -/
def FileId.equiv : Uuid ≃ FileId := ⟨FileId.mk, FileId.uuid, fun _ => rfl, fun _ => rfl⟩

def DirectoryId.equiv : Uuid ≃ DirectoryId :=
  ⟨DirectoryId.mk, DirectoryId.uuid, fun _ => rfl, fun _ => rfl⟩

def VersionId.equiv : Uuid ≃ VersionId :=
  ⟨VersionId.mk, VersionId.uuid, fun _ => rfl, fun _ => rfl⟩

def ManifestId.equiv : Uuid ≃ ManifestId :=
  ⟨ManifestId.mk, ManifestId.uuid, fun _ => rfl, fun _ => rfl⟩

def RequestId.equiv : Uuid ≃ RequestId :=
  ⟨RequestId.mk, RequestId.uuid, fun _ => rfl, fun _ => rfl⟩

def OperationId.equiv : Uuid ≃ OperationId :=
  ⟨OperationId.mk, OperationId.uuid, fun _ => rfl, fun _ => rfl⟩

/-! ## Section 2: Strict texts -/

/-- Behind the tag, a UUID is in the hyphenated form and without uppercase
    letters. -/
def StrictText (tag s : String) : Prop := ∀ t, s = tag ++ t → StrictUuidText t.toList

/-- The ids that `display` prints and `parse` reads have one text each, as far
    as the texts are `strict`. -/
structure TextsExact {α : Type} (parse : String → Res α) (display : α → String)
    (strict : String → Prop) : Prop where
  /-- What is printed is read back. -/
  parse_display : ∀ id, parse (display id) = .ok id
  /-- The texts that are the printed form of what is read from them. -/
  canonical_iff : ∀ s, (∀ id, parse s = .ok id → display id = s) ↔ strict s
  /-- No two of them name the same object. -/
  eq_of_parse : ∀ s t id, strict s → strict t → parse s = .ok id → parse t = .ok id → s = t

/-! ## Section 3: One proof for the six types -/

section tagged

variable [UuidCrate] {α : Type} {tag : String} (e : Uuid ≃ α)

theorem parseTagged_eq_ok {s : String} {id : α} : parseTagged tag e s = .ok id ↔
    ∃ t, s = tag ++ t ∧ UuidCrate.parseStr t = some (e.symm id) := by
  unfold parseTagged
  simp only [Outcome.bind_eq_ok, Outcome.okOr_eq_ok, stripPrefix_eq_some, Outcome.pure_eq,
    Outcome.ok.injEq]
  constructor
  · intro h
    obtain ⟨rest, hs, u, hu, hid⟩ := h
    refine ⟨String.ofList rest, String.toList_injective ?_, ?_⟩
    · rw [hs, String.toList_append, String.toList_ofList]
    · rw [hu, ← hid, e.symm_apply_apply]
  · intro h
    obtain ⟨t, hs, hu⟩ := h
    refine ⟨t.toList, ?_, e.symm id, ?_, e.apply_symm_apply id⟩
    · rw [hs, String.toList_append]
    · rwa [String.ofList_toList]

variable (h : UuidCrate.Documented)

/-- The format of an id: the tag, and the UUID as the `uuid` crate has it. -/
def UuidCrate.Documented.idFormat (tag : String) (e : Uuid ≃ α) : TextFormat α :=
  (h.format.tagged tag).map e

include h

theorem idFormat_read_eq_some {s : String} {id : α} :
    (h.idFormat tag e).read s = some id ↔ parseTagged tag e s = .ok id := by
  rw [UuidCrate.Documented.idFormat, TextFormat.map_read_eq_some, TextFormat.tagged_read_eq_some,
    parseTagged_eq_ok]
  exact Iff.rfl

theorem idFormat_canonical_iff {s : String} :
    (h.idFormat tag e).Canonical s ↔ StrictText tag s := by
  rw [UuidCrate.Documented.idFormat, TextFormat.canonical_map_iff, TextFormat.canonical_tagged_iff]
  exact forall_congr' fun t => imp_congr_right fun _ => h.canonical_iff

theorem textsExact_tagged : TextsExact (parseTagged tag e)
    (fun id => tag ++ UuidCrate.display (e.symm id)) (StrictText tag) where
  parse_display id := (idFormat_read_eq_some e h).mp ((h.idFormat tag e).read_write id)
  canonical_iff s := by
    rw [← idFormat_canonical_iff e h]
    exact forall_congr' fun id => imp_congr_left (idFormat_read_eq_some e h).symm
  eq_of_parse s t id hs ht hsid htid :=
    ((idFormat_canonical_iff e h).mpr hs).eq_of_read ((idFormat_canonical_iff e h).mpr ht)
      ((idFormat_read_eq_some e h).mpr hsid) ((idFormat_read_eq_some e h).mpr htid)

/-- Every id is also read from its digits without hyphens. -/
theorem parseTagged_simple (tag : String) (u : Uuid) :
    parseTagged tag e (tag ++ u.simple) = .ok (e u) := by
  apply (parseTagged_eq_ok e).mpr
  refine ⟨u.simple, rfl, ?_⟩
  rw [e.symm_apply_apply]
  exact (h.parse _ u).mpr ⟨.simple, Uuid.IsText.simple u⟩

theorem simple_ne_display (tag : String) (u : Uuid) :
    tag ++ u.simple ≠ tag ++ UuidCrate.display u := by
  intro heq
  rw [h.display, String.append_right_inj] at heq
  have hlen := (Uuid.IsText.simple u).length
  rw [heq, (Uuid.IsText.hyphenated u).length] at hlen
  cases hlen

end tagged

/-! ## Section 4: The six types -/

/-- **When an id has one textual form.** What `Display` prints, `parse` reads
    back; and a text that is read is the printed one exactly when it is
    strict. -/
theorem idTexts_exact_iff [UuidCrate] (h : UuidCrate.Documented) :
    TextsExact FileId.parse FileId.display (StrictText "f_") ∧
    TextsExact DirectoryId.parse DirectoryId.display (StrictText "d_") ∧
    TextsExact VersionId.parse VersionId.display (StrictText "v_") ∧
    TextsExact ManifestId.parse ManifestId.display (StrictText "m_") ∧
    TextsExact RequestId.parse RequestId.display (StrictText "r_") ∧
    TextsExact OperationId.parse OperationId.display (StrictText "o_") :=
  ⟨textsExact_tagged FileId.equiv h, textsExact_tagged DirectoryId.equiv h,
    textsExact_tagged VersionId.equiv h, textsExact_tagged ManifestId.equiv h,
    textsExact_tagged RequestId.equiv h, textsExact_tagged OperationId.equiv h⟩

theorem idTexts_exact_documented :
    letI := Sample.documentedUuids
    TextsExact FileId.parse FileId.display (StrictText "f_") ∧
    TextsExact RequestId.parse RequestId.display (StrictText "r_") := by
  let := Sample.documentedUuids
  have h := idTexts_exact_iff Sample.documentedUuids_documented
  exact ⟨h.1, h.2.2.2.2.1⟩

namespace Sample

def uuid : Uuid := ⟨0x01890a5dac96774bbcceb302099a8057⟩

end Sample

/-- A file with two names: the digits without hyphens and in upper case, and
    the text that `Display` prints. -/
theorem fileId_two_texts :
    letI := Sample.documentedUuids
    UuidCrate.Documented ∧
    FileId.parse "f_01890A5DAC96774BBCCEB302099A8057" = .ok ⟨Sample.uuid⟩ ∧
    FileId.parse "f_01890a5d-ac96-774b-bcce-b302099a8057" = .ok ⟨Sample.uuid⟩ ∧
    FileId.display ⟨Sample.uuid⟩ ≠ "f_01890A5DAC96774BBCCEB302099A8057" := by
  let := Sample.documentedUuids
  refine ⟨Sample.documentedUuids_documented, Outcome.toOption_eq_some.mp ?_,
    Outcome.toOption_eq_some.mp ?_, ?_⟩
  · decide +kernel
  · decide +kernel
  · decide +kernel

end Space
