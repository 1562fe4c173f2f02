import Space.Rust.Text
import Space.Data.Toml
import Space.Contracts.Errors

/-! # The scan for credentials

    `client/config`: before a config file is read as a configuration, its
    keys are scanned for names that would carry a credential.

    The walk goes down through tables only. `scan_exact_iff` says what that
    costs: a credential inside an array is overlooked, unless the scan
    rejects the file for another key. -/

namespace Space

open Rust Outcome Data

/-- The `toml` crate: the value tree of a document, or the text of the
    error. -/
class TomlCrate where
  parse : String → Except String Toml

/-- `config_invalid`. -/
def configInvalid (msg : String) : SpaceError := SpaceError.new .configInvalid msg

/-! ## Section 1: The walk -/

/-- The path of a key inside the table at `pre`. -/
def keyPath (pre key : String) : String :=
  if pre.isEmpty then key else pre ++ "." ++ key

mutual

/-- `walk_keys`: the paths that the callback is called with, in order. -/
def walkKeys (pre : String) : Toml → List String
  | .table fields => walkFields pre fields
  | _ => []

def walkFields (pre : String) : List (String × Toml) → List String
  | [] => []
  | (key, value) :: rest =>
    keyPath pre key :: (walkKeys (keyPath pre key) value ++ walkFields pre rest)

end

/-- `SUFFIXES`. -/
def secretSuffixes : List String := ["_password", "_secret", "_token", "_key"]

/-- The test that the callback makes of a path: of the part behind its last
    dot. -/
def isOffender (path : String) : Bool :=
  secretSuffixes.any fun suffix => suffix.toList.isSuffixOf (afterLast '.' path.toList)

/-- `reject_secret_keys`. -/
def rejectSecretKeys [TomlCrate] (raw : String) : Res Unit :=
  match TomlCrate.parse raw with
  | .error text => err (configInvalid text)
  | .ok value =>
    let offenders := (walkKeys "" value).filter isOffender
    if offenders.isEmpty then ok ()
    else err (configInvalid ("config carries credential-like keys: " ++
      String.intercalate ", " offenders ++ ". Move secrets out of the config file."))

/-! ## Section 2: What the walk finds -/

/-- A key that would carry a credential. -/
def CredentialLike (key : String) : Prop :=
  ∃ suffix ∈ secretSuffixes, suffix.toList <:+ key.toList

theorem dot_notMem_secretSuffix {suffix : String} (h : suffix ∈ secretSuffixes) :
    '.' ∉ suffix.toList := by
  have hall : ∀ suffix ∈ secretSuffixes, '.' ∉ suffix.toList := by decide
  exact hall suffix h

/-- The dots of the path make no difference, wherever they come from: no
    suffix has one. -/
theorem isOffender_keyPath {pre key : String} :
    isOffender (keyPath pre key) = true ↔ CredentialLike key := by
  unfold isOffender CredentialLike
  rw [List.any_eq_true]
  refine exists_congr fun suffix => and_congr_right fun hmem => ?_
  have hdot := dot_notMem_secretSuffix hmem
  rw [List.isSuffixOf_iff_suffix, suffix_afterLast hdot]
  unfold keyPath
  by_cases hpre : pre.isEmpty = true
  · rw [if_pos hpre]
  · have hpath : (pre ++ "." ++ key).toList = pre.toList ++ '.' :: key.toList := by
      simp
    rw [if_neg hpre, hpath, suffix_append_cons hdot]

mutual

/-- **What the walk finds**: the keys that are reached through tables
    alone. -/
theorem any_walkKeys (pre : String) (doc : Toml) :
    (walkKeys pre doc).any isOffender = true ↔ ∃ key, doc.TableKey key ∧ CredentialLike key := by
  cases doc with
  | table fields =>
    rw [walkKeys, any_walkFields pre fields]
    constructor
    · intro h
      obtain ⟨f, hf, hself | ⟨key, hkey, hlike⟩⟩ := h
      · exact ⟨f.1, Toml.tableKey_table.mpr ⟨f, hf, .inl rfl⟩, hself⟩
      · exact ⟨key, Toml.tableKey_table.mpr ⟨f, hf, .inr hkey⟩, hlike⟩
    · intro h
      obtain ⟨key, hkey, hlike⟩ := h
      obtain ⟨f, hf, hself | hkey⟩ := Toml.tableKey_table.mp hkey
      · exact ⟨f, hf, .inl (hself ▸ hlike)⟩
      · exact ⟨f, hf, .inr ⟨key, hkey, hlike⟩⟩
  | string _ | integer _ | float _ | boolean _ | datetime _ | array _ =>
    rw [walkKeys]
    · constructor
      · intro h
        cases h
      · intro h
        obtain ⟨key, hkey, _⟩ := h
        exact absurd hkey (Toml.not_tableKey (by simp))
    all_goals simp

theorem any_walkFields (pre : String) (fields : List (String × Toml)) :
    (walkFields pre fields).any isOffender = true ↔
      ∃ f ∈ fields, CredentialLike f.1 ∨ ∃ key, f.2.TableKey key ∧ CredentialLike key := by
  match fields with
  | [] => simp [walkFields]
  | (key, value) :: rest =>
    rw [walkFields, List.any_cons, List.any_append, Bool.or_eq_true, Bool.or_eq_true,
      isOffender_keyPath, any_walkKeys (keyPath pre key) value, any_walkFields pre rest]
    simp only [List.mem_cons, exists_eq_or_imp, or_assoc]

end

/-! ## Section 3: What the scan decides -/

section scan

variable [TomlCrate] {raw : String} {doc : Toml}

/-- The document parses, and none of its keys would carry a credential. -/
def Clean (raw : String) : Prop :=
  ∃ doc, TomlCrate.parse raw = .ok doc ∧ ∀ key, doc.HasKey key → ¬ CredentialLike key

/-- The scan decides whether the text is clean, and calls what is not clean
    an invalid configuration. -/
def ScansExactly (raw : String) : Prop :=
  (rejectSecretKeys raw = ok () ↔ Clean raw) ∧
    (¬ Clean raw → ∃ e, rejectSecretKeys raw = err e ∧ e.code = .configInvalid)

/-- The scan accepts a document or returns `CONFIG_INVALID`. -/
theorem rejectSecretKeys_checks (raw : String) :
    (rejectSecretKeys raw).Checks fun e => e.code = .configInvalid := by
  unfold rejectSecretKeys
  cases TomlCrate.parse raw with
  | error text => exact SpaceError.code_new _ _
  | ok doc =>
    by_cases hempty : ((walkKeys "" doc).filter isOffender).isEmpty = true
    · show Checks _ (if _ then _ else _)
      rw [if_pos hempty]
      exact checks_ok ()
    · show Checks _ (if _ then _ else _)
      rw [if_neg hempty]
      exact SpaceError.code_new _ _

/-- A document that parses is accepted when no key in its tables is
    credential-like. -/
theorem rejectSecretKeys_eq_ok (hparse : TomlCrate.parse raw = .ok doc) :
    rejectSecretKeys raw = ok () ↔ ∀ key, doc.TableKey key → ¬ CredentialLike key := by
  have hfound := any_walkKeys "" doc
  unfold rejectSecretKeys
  rw [hparse]
  show (if ((walkKeys "" doc).filter isOffender).isEmpty = true then _ else _) = ok () ↔ _
  by_cases hoffender : (walkKeys "" doc).any isOffender = true
  · obtain ⟨key, hkey, hlike⟩ := hfound.mp hoffender
    obtain ⟨path, hpath, hbad⟩ := List.any_eq_true.mp hoffender
    have hne : ¬ ((walkKeys "" doc).filter isOffender).isEmpty = true := by
      rw [List.isEmpty_iff]
      exact List.ne_nil_of_mem (List.mem_filter.mpr ⟨hpath, hbad⟩)
    rw [if_neg hne]
    constructor
    · intro h
      cases h
    · intro h
      exact absurd hlike (h key hkey)
  · have hempty : ((walkKeys "" doc).filter isOffender).isEmpty = true := by
      rw [List.isEmpty_iff, List.filter_eq_nil_iff]
      intro path hpath hbad
      exact hoffender (List.any_eq_true.mpr ⟨path, hpath, hbad⟩)
    rw [if_pos hempty]
    constructor
    · intro _ key hkey hlike
      exact hoffender (hfound.mpr ⟨key, hkey, hlike⟩)
    · intro _
      rfl

theorem rejectSecretKeys_of_error {text : String} (hparse : TomlCrate.parse raw = .error text) :
    rejectSecretKeys raw = err (configInvalid text) := by
  unfold rejectSecretKeys
  rw [hparse]

/-- **When the scan is exact**: a document with a credential-like key has one
    that is not inside an array. -/
theorem scan_exact_iff (raw : String) : ScansExactly raw ↔
    ∀ doc, TomlCrate.parse raw = .ok doc → (∃ key, doc.HasKey key ∧ CredentialLike key) →
      ∃ key, doc.TableKey key ∧ CredentialLike key := by
  have herror : rejectSecretKeys raw ≠ ok () →
      ∃ e, rejectSecretKeys raw = err e ∧ e.code = .configInvalid :=
    (rejectSecretKeys_checks raw).err_of_ne_ok
  cases hparse : TomlCrate.parse raw with
  | error text =>
    have hno : ¬ Clean raw := by
      rintro ⟨doc, hdoc, _⟩
      rw [hparse] at hdoc
      cases hdoc
    have hrejected : rejectSecretKeys raw ≠ ok () := by
      rw [rejectSecretKeys_of_error hparse]
      intro hok
      cases hok
    constructor
    · intro _ doc hdoc
      cases hdoc
    · intro _
      exact ⟨⟨fun h => absurd h hrejected, fun h => absurd h hno⟩, fun _ => herror hrejected⟩
  | ok doc =>
    have haccepted := rejectSecretKeys_eq_ok hparse
    have hclean : Clean raw ↔ ∀ key, doc.HasKey key → ¬ CredentialLike key := by
      constructor
      · rintro ⟨doc', hdoc', hkeys⟩
        rw [hparse] at hdoc'
        cases hdoc'
        exact hkeys
      · intro hkeys
        exact ⟨doc, hparse, hkeys⟩
    constructor
    · intro h doc' hdoc' hsome
      cases hdoc'
      obtain ⟨key, hkey, hlike⟩ := hsome
      -- the document is not clean, so it is rejected, so a key was found
      by_contra hnone
      have hok := haccepted.mpr fun key hkey hlike => hnone ⟨key, hkey, hlike⟩
      exact hclean.mp (h.1.mp hok) key hkey hlike
    · intro h
      have hiff : rejectSecretKeys raw = ok () ↔ Clean raw := by
        rw [haccepted, hclean]
        constructor
        · intro hnone key hkey hlike
          obtain ⟨key', hkey', hlike'⟩ := h doc rfl ⟨key, hkey, hlike⟩
          exact hnone key' hkey' hlike'
        · intro hnone key hkey
          exact hnone key hkey.hasKey
      exact ⟨hiff, fun hno => herror fun hok => hno (hiff.mp hok)⟩

end scan

namespace Sample

/-- An array of tables, in TOML. -/
def arrayOfTables : String := "[[extra]]\napi_token = \"x\"\n"

/-- The `toml` crate on this one text. -/
@[reducible] def tomlCrate : TomlCrate where
  parse := fun raw =>
    if raw = arrayOfTables then
      .ok (.table [("extra", .array [.table [("api_token", .string "x")]])])
    else .error "TOML parse error"

end Sample

/-- A token in an array of tables slips through. -/
theorem token_in_array_accepted :
    letI := Sample.tomlCrate
    ¬ ∀ raw : String, ScansExactly raw := by
  let := Sample.tomlCrate
  intro h
  have haccepted : rejectSecretKeys Sample.arrayOfTables = ok () := by
    refine toOption_eq_some.mp ?_
    decide
  obtain ⟨doc, hdoc, hkeys⟩ := ((h Sample.arrayOfTables).1.mp haccepted)
  cases hdoc
  refine hkeys "api_token" ?_ ⟨"_token", by decide, by decide⟩
  exact .field List.mem_cons_self (.item List.mem_cons_self (.here List.mem_cons_self))

end Space
