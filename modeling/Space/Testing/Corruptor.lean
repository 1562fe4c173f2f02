import Space.Contracts.WellFormed

/-! # Corruption primitives

    `tools/corruptor`: each function breaks a manifest in one way, so that a
    negative test can say what it injected. A test proves nothing if its
    corruption leaves the manifest valid, or crashes on the way.

    `corruption_rejected` says that none of them does, on any valid manifest
    with an entry. Which check reports the damage does not matter: each
    corruption contradicts one field of `Manifest.WellFormed`, whatever the
    others say. -/

namespace Space

open Rust Outcome Data

/-! ## Section 1: The primitives -/

/-- Swap two manifest entries. `slice::swap` panics on an index out of
    range. -/
def swapEntries (m : Manifest) (i j : UInt64) : Res Manifest :=
  match m.entries[i.toNat]?, m.entries[j.toNat]? with
  | some a, some b => ok { m with entries := (m.entries.set i.toNat b).set j.toNat a }
  | _, _ => panic

/-- Remove one manifest entry. The total and the count stay as they were. -/
def dropEntry (m : Manifest) (i : UInt64) : Manifest :=
  if i.toNat < m.entries.length then { m with entries := m.entries.eraseIdx i.toNat } else m

/-- `(word as i128 + delta as i128).max(0) as u64`. -/
def nudge (word : UInt64) (delta : Int64) : UInt64 :=
  UInt64.ofNat (max ((word.toNat : Int) + delta.toInt) 0).toNat

/-- Nudge `total_size`. -/
def alterTotalSize (m : Manifest) (delta : Int64) : Manifest :=
  { m with totalSize := nudge m.totalSize delta }

/-- Nudge `chunk_count`. -/
def alterChunkCount (m : Manifest) (delta : Int64) : Manifest :=
  { m with chunkCount := nudge m.chunkCount delta }

/-- `e.logical_offset += 1`. -/
def pushForward (e : ManifestEntry) : Res ManifestEntry := do
  let logicalOffset ← addU64 e.logicalOffset 1
  return { e with logicalOffset }

/-- Open a gap after the entry `pos`: every later entry is pushed forward. -/
def introduceGap (m : Manifest) (pos : UInt64) : Res Manifest := do
  let next ← addU64 pos 1
  let later ← (m.entries.drop next.toNat).mapM pushForward
  let totalSize ← addU64 m.totalSize 1
  return { m with entries := m.entries.take next.toNat ++ later, totalSize }

/-- Overlap the entry `pos + 1` back onto `pos`. -/
def introduceOverlap (m : Manifest) (pos : UInt64) : Res Manifest := do
  let next ← addU64 pos 1
  return { m with entries := m.entries.modify next.toNat fun e =>
    { e with logicalOffset := satSubU64 e.logicalOffset 1 } }

/-- `b"corruptor::dangling reference"`. -/
def danglingReference : Bytes :=
  ⟨"corruptor::dangling reference".toList.map Char.toUInt8, by decide⟩

/-- Replace the chunk reference of the entry `pos` by one that names no
    chunk. -/
def dangleChunkRef [Blake3] (m : Manifest) (pos : UInt64) : Manifest :=
  { m with entries := m.entries.modify pos.toNat fun e =>
    { e with chunkId := ChunkId.fromBytes danglingReference } }

/-- Push a zero-length entry. -/
def insertZeroLengthEntry (m : Manifest) : Res Manifest :=
  match m.entries.getLast? with
  | none => ok m
  | some last => do
    let logicalOffset ← addU64 last.logicalOffset last.length
    let chunkCount ← addU64 m.chunkCount 1
    return { m with
      entries := m.entries ++ [⟨logicalOffset, 0, last.chunkId, 0⟩]
      chunkCount }

/-- The primitives with their arguments. -/
inductive Corruption where
  | swapEntries (i j : UInt64)
  | dropEntry (i : UInt64)
  | alterTotalSize (delta : Int64)
  | alterChunkCount (delta : Int64)
  | introduceGap (pos : UInt64)
  | introduceOverlap (pos : UInt64)
  | dangleChunkRef (pos : UInt64)
  | insertZeroLengthEntry
  deriving DecidableEq

/-- What a primitive makes of a manifest. -/
def Corruption.apply [Blake3] (m : Manifest) : Corruption → Res Manifest
  | .swapEntries i j => Space.swapEntries m i j
  | .dropEntry i => ok (Space.dropEntry m i)
  | .alterTotalSize delta => ok (Space.alterTotalSize m delta)
  | .alterChunkCount delta => ok (Space.alterChunkCount m delta)
  | .introduceGap pos => Space.introduceGap m pos
  | .introduceOverlap pos => Space.introduceOverlap m pos
  | .dangleChunkRef pos => ok (Space.dangleChunkRef m pos)
  | .insertZeroLengthEntry => Space.insertZeroLengthEntry m

/-- The arguments name something to corrupt. -/
def Corruption.Applies [Blake3] (m : Manifest) : Corruption → Prop
  | .swapEntries i j => i ≠ j ∧ i.toNat < m.entries.length ∧ j.toNat < m.entries.length
  | .dropEntry i => i.toNat < m.entries.length
  | .alterTotalSize delta => delta ≠ 0
  | .alterChunkCount delta => delta ≠ 0
  | .introduceGap pos => pos.toNat < 2 ^ 64 - 1 ∧ m.totalSize.toNat < 2 ^ 64 - 1
  | .introduceOverlap pos => pos.toNat + 1 < m.entries.length
  | .dangleChunkRef pos => pos.toNat < m.entries.length ∧
      ∀ c ∈ m.chunks, c.chunkId ≠ ChunkId.fromBytes danglingReference
  | .insertZeroLengthEntry => True

/-- The primitive returns, and the validator rejects what it returns. -/
def Rejected (x : Res Manifest) : Prop :=
  ∃ m', x = ok m' ∧ ∃ e, validateManifest m' = err e ∧ e.code = .integrityManifestInvalid

/-! ## Section 2: What a valid manifest cannot become

    One lemma for each field of `WellFormed` that a primitive breaks. -/

variable {m m' : Manifest}

theorem rejected_of_not_wellFormed {x : Res Manifest} (hx : x = ok m') (h : ¬ m'.WellFormed) :
    Rejected x :=
  ⟨m', hx, (validateManifest_decides_wellFormed m').2 h⟩

/-- The entries determine the total. -/
theorem not_wellFormed_of_total (h : m.WellFormed)
    (hlengths : m'.entries.map ManifestEntry.length = m.entries.map ManifestEntry.length)
    (htotal : m'.totalSize.toNat ≠ m.totalSize.toNat) : ¬ m'.WellFormed := by
  intro h'
  have hlens : ∀ m : Manifest, m.spans.map Prod.snd =
      (m.entries.map ManifestEntry.length).map UInt64.toNat := by
    intro m
    simp [Manifest.spans, ManifestEntry.span]
  have hsum := (tiles_iff_partition.mpr h.layout).sum
  have hsum' := (tiles_iff_partition.mpr h'.layout).sum
  rw [hlens, hlengths, ← hlens m] at hsum'
  omega

/-- The entries in front of an entry determine its offset. -/
theorem not_wellFormed_of_offset (h : m.WellFormed) (k : Nat) {e : ManifestEntry}
    (e' : ManifestEntry)
    (htake : m'.entries.take k = m.entries.take k) (he : m.entries[k]? = some e)
    (he' : m'.entries[k]? = some e') (hne : e'.logicalOffset.toNat ≠ e.logicalOffset.toNat) :
    ¬ m'.WellFormed := by
  intro h'
  refine hne ((tiles_iff_partition.mpr h.layout).offset_congr (k := k) (s := e.span) (t := e'.span)
    (tiles_iff_partition.mpr h'.layout) ?_ ?_ ?_)
  · rw [Manifest.spans, Manifest.spans, ← List.map_take, ← List.map_take, htake]
  · rw [Manifest.spans, List.getElem?_map, he, Option.map_some]
  · rw [Manifest.spans, List.getElem?_map, he', Option.map_some]

/-- Later entries have larger offsets. -/
theorem logicalOffset_lt (h : m.WellFormed) {i j : Nat} {e e' : ManifestEntry}
    (he : m.entries[i]? = some e) (he' : m.entries[j]? = some e') (hij : i < j) :
    e.logicalOffset.toNat < e'.logicalOffset.toNat := by
  refine (tiles_iff_partition.mpr h.layout).offset_lt (s := e.span) (t := e'.span) ?_ ?_ hij
  · rw [Manifest.spans, List.getElem?_map, he, Option.map_some]
  · rw [Manifest.spans, List.getElem?_map, he', Option.map_some]

/-- An entry ends within the file. -/
theorem logicalEnd_le (h : m.WellFormed) {e : ManifestEntry} (he : e ∈ m.entries) :
    0 < e.length.toNat ∧ e.logicalOffset.toNat + e.length.toNat ≤ m.totalSize.toNat := by
  have hpos : 0 < e.length.toNat := h.layout.nonempty e.span (List.mem_map_of_mem he)
  refine ⟨hpos, ?_⟩
  by_contra hgt
  -- otherwise its last byte is covered and lies past the end
  refine h.layout.none_past (e.logicalOffset.toNat + e.length.toNat - 1) (by omega) e.span
    (List.mem_map_of_mem he) ⟨?_, ?_⟩
  · show e.logicalOffset.toNat ≤ _
    omega
  · show _ < e.logicalOffset.toNat + e.length.toNat
    omega

/-- A file with an entry has bytes, and a count that is not 0. -/
theorem nonzero_of_entries (h : m.WellFormed) (hne : m.entries ≠ []) :
    m.totalSize ≠ 0 ∧ m.chunkCount ≠ 0 := by
  obtain ⟨e, he⟩ := List.exists_mem_of_ne_nil m.entries hne
  obtain ⟨hpos, hend⟩ := logicalEnd_le h he
  have hcount := h.count
  have hlen := List.length_pos_iff.mpr hne
  constructor
  · intro hzero
    have hzero' : m.totalSize.toNat = 0 := by rw [hzero]; rfl
    omega
  · intro hzero
    have hzero' : m.chunkCount.toNat = 0 := by rw [hzero]; rfl
    omega

/-- A nudge changes a word that is not 0: it is clamped at 0, and it is too
    short to wrap all the way around. -/
theorem nudge_ne {word : UInt64} {delta : Int64} (hword : word ≠ 0) (hdelta : delta ≠ 0) :
    (nudge word delta).toNat ≠ word.toNat := by
  have hne : delta.toInt ≠ 0 := by
    intro hzero
    exact hdelta (Int64.toInt_inj.mp hzero)
  have hpos : word.toNat ≠ 0 := by
    intro hzero
    exact hword (UInt64.toNat_inj.mp hzero)
  have hlt := word.toNat_lt
  have hlo := Int64.le_toInt delta
  have hhi := Int64.toInt_lt delta
  unfold nudge
  rw [UInt64.toNat_ofNat']
  omega

/-! ## Section 3: Each primitive is caught -/

theorem swapEntries_rejected (h : m.WellFormed) {i j : UInt64} (hij : i ≠ j)
    (hi : i.toNat < m.entries.length) (hj : j.toNat < m.entries.length) :
    Rejected (swapEntries m i j) := by
  obtain ⟨a, ha⟩ : ∃ a, m.entries[i.toNat]? = some a := ⟨_, List.getElem?_eq_getElem hi⟩
  obtain ⟨b, hb⟩ : ∃ b, m.entries[j.toNat]? = some b := ⟨_, List.getElem?_eq_getElem hj⟩
  have hne : i.toNat ≠ j.toNat := fun heq => hij (UInt64.toNat_inj.mp heq)
  have hswap : swapEntries m i j =
      ok { m with entries := (m.entries.set i.toNat b).set j.toNat a } := by
    simp only [swapEntries, ha, hb]
  refine rejected_of_not_wellFormed hswap ?_
  -- the entry that comes first is the one that was moved back
  rcases Nat.lt_or_gt_of_ne hne with hlt | hlt
  · have hoff := logicalOffset_lt h ha hb hlt
    refine not_wellFormed_of_offset h i.toNat b ?_ ha ?_ (by omega)
    · show ((m.entries.set i.toNat b).set j.toNat a).take i.toNat = _
      rw [List.take_set_of_le (by omega), List.take_set_of_le (by omega)]
    · show ((m.entries.set i.toNat b).set j.toNat a)[i.toNat]? = _
      rw [List.getElem?_set_ne (by omega), List.getElem?_set_self hi]
  · have hoff := logicalOffset_lt h hb ha hlt
    refine not_wellFormed_of_offset h j.toNat a ?_ hb ?_ (by omega)
    · show ((m.entries.set i.toNat b).set j.toNat a).take j.toNat = _
      rw [List.take_set_of_le (by omega), List.take_set_of_le (by omega)]
    · show ((m.entries.set i.toNat b).set j.toNat a)[j.toNat]? = _
      rw [List.getElem?_set_self (by rw [List.length_set]; exact hj)]

theorem dropEntry_rejected (h : m.WellFormed) {i : UInt64} (hi : i.toNat < m.entries.length) :
    Rejected (ok (dropEntry m i)) := by
  refine rejected_of_not_wellFormed rfl ?_
  intro h'
  have hcount := h'.count
  rw [dropEntry, if_pos hi] at hcount
  have hlen : m.chunkCount.toNat = (m.entries.eraseIdx i.toNat).length := hcount
  rw [List.length_eraseIdx_of_lt hi, h.count] at hlen
  omega

theorem alterTotalSize_rejected (h : m.WellFormed) (hne : m.entries ≠ []) {delta : Int64}
    (hdelta : delta ≠ 0) : Rejected (ok (alterTotalSize m delta)) :=
  rejected_of_not_wellFormed rfl
    (not_wellFormed_of_total h rfl (nudge_ne (nonzero_of_entries h hne).1 hdelta))

theorem alterChunkCount_rejected (h : m.WellFormed) (hne : m.entries ≠ []) {delta : Int64}
    (hdelta : delta ≠ 0) : Rejected (ok (alterChunkCount m delta)) := by
  refine rejected_of_not_wellFormed rfl ?_
  intro h'
  have hcount : (nudge m.chunkCount delta).toNat = m.entries.length := h'.count
  rw [← h.count] at hcount
  exact nudge_ne (nonzero_of_entries h hne).2 hdelta hcount

/-- An offset that can be pushed forward. -/
theorem pushForward_eq {e : ManifestEntry} (h : e.logicalOffset.toNat + 1 < 2 ^ 64) :
    pushForward e = ok { e with logicalOffset := e.logicalOffset + 1 } := by
  unfold pushForward
  rw [addU64_of_lt h, ok_bind, pure_eq]

/-- The total grows and the lengths do not, whether or not there are later
    entries to push. -/
theorem introduceGap_rejected (h : m.WellFormed) {pos : UInt64} (hpos : pos.toNat < 2 ^ 64 - 1)
    (htotal : m.totalSize.toNat < 2 ^ 64 - 1) : Rejected (introduceGap m pos) := by
  have hone := UInt64.toNat_one
  have hnext : pos.toNat + (1 : UInt64).toNat < 2 ^ 64 := by omega
  have hsize : m.totalSize.toNat + (1 : UInt64).toNat < 2 ^ 64 := by omega
  have hlater : (m.entries.drop (pos + 1).toNat).mapM pushForward =
      ok ((m.entries.drop (pos + 1).toNat).map fun e =>
        { e with logicalOffset := e.logicalOffset + 1 }) := by
    refine mapM_eq_ok ?_
    intro e he
    have hend := (logicalEnd_le h (List.mem_of_mem_drop he)).2
    exact pushForward_eq (by omega)
  have hgap : introduceGap m pos = ok { m with
      entries := m.entries.take (pos + 1).toNat ++ (m.entries.drop (pos + 1).toNat).map fun e =>
        { e with logicalOffset := e.logicalOffset + 1 }
      totalSize := m.totalSize + 1 } := by
    unfold introduceGap
    rw [addU64_of_lt hnext, ok_bind, hlater, ok_bind, addU64_of_lt hsize, ok_bind, pure_eq]
  refine rejected_of_not_wellFormed hgap (not_wellFormed_of_total h ?_ ?_)
  · show (m.entries.take _ ++ List.map _ _).map ManifestEntry.length = _
    rw [List.map_append, List.map_map]
    show (m.entries.take _).map ManifestEntry.length ++
      (m.entries.drop _).map ManifestEntry.length = _
    rw [← List.map_append, List.take_append_drop]
  · show (m.totalSize + 1).toNat ≠ _
    rw [toNat_add_of_lt hsize]
    omega

/-- The entry behind the first one starts past 0, so it does move. -/
theorem introduceOverlap_rejected (h : m.WellFormed) {pos : UInt64}
    (hpos : pos.toNat + 1 < m.entries.length) : Rejected (introduceOverlap m pos) := by
  have hone := UInt64.toNat_one
  have hnext : pos.toNat + (1 : UInt64).toNat < 2 ^ 64 := by
    have hcount := h.count
    have := m.chunkCount.toNat_lt
    omega
  have hindex : (pos + 1).toNat = pos.toNat + 1 := toNat_add_of_lt hnext
  obtain ⟨e, he⟩ : ∃ e, m.entries[pos.toNat + 1]? = some e := ⟨_, List.getElem?_eq_getElem hpos⟩
  obtain ⟨before, hbefore⟩ : ∃ e, m.entries[pos.toNat]? = some e :=
    ⟨_, List.getElem?_eq_getElem (by omega)⟩
  have hoff := logicalOffset_lt h hbefore he (by omega)
  have hoverlap : introduceOverlap m pos = ok { m with
      entries := m.entries.modify (pos.toNat + 1) fun e =>
        { e with logicalOffset := satSubU64 e.logicalOffset 1 } } := by
    unfold introduceOverlap
    rw [addU64_of_lt hnext, ok_bind, pure_eq, hindex]
  refine rejected_of_not_wellFormed hoverlap (not_wellFormed_of_offset h (pos.toNat + 1)
    { e with logicalOffset := satSubU64 e.logicalOffset 1 } ?_ he ?_ ?_)
  · show (m.entries.modify _ _).take _ = _
    have hlen : (m.entries.take (pos.toNat + 1)).length ≤ pos.toNat + 1 := List.length_take_le _ _
    rw [List.take_modify, List.modify_eq_self hlen]
  · show (m.entries.modify _ _)[pos.toNat + 1]? = _
    rw [List.getElem?_modify_eq, he]
    rfl
  · show (satSubU64 e.logicalOffset 1).toNat ≠ _
    have hle : (1 : UInt64).toNat ≤ e.logicalOffset.toNat := by omega
    rw [satSubU64, if_pos hle, toNat_sub_of_le hle]
    omega

theorem dangleChunkRef_rejected [Blake3] {pos : UInt64}
    (hpos : pos.toNat < m.entries.length)
    (hdangling : ∀ c ∈ m.chunks, c.chunkId ≠ ChunkId.fromBytes danglingReference) :
    Rejected (ok (dangleChunkRef m pos)) := by
  refine rejected_of_not_wellFormed rfl ?_
  intro h'
  obtain ⟨e, he⟩ : ∃ e, m.entries[pos.toNat]? = some e := ⟨_, List.getElem?_eq_getElem hpos⟩
  have hat : (dangleChunkRef m pos).entries[pos.toNat]? =
      some { e with chunkId := ChunkId.fromBytes danglingReference } := by
    show (m.entries.modify _ _)[pos.toNat]? = _
    rw [List.getElem?_modify_eq, he]
    rfl
  have hmem := List.mem_map_of_mem (f := ManifestEntry.chunkId) (List.mem_of_getElem? hat)
  obtain ⟨c, hc, hid⟩ := List.mem_map.mp ((h'.sameIds _).mp hmem)
  exact hdangling c hc hid

/-- The new entry is empty. The count does not overflow: there is one entry
    for each unit of it, and they are in memory. -/
theorem insertZeroLengthEntry_rejected (h : m.WellFormed) (hne : m.entries ≠ [])
    (hvec : m.entries.length ≤ isizeMax) : Rejected (insertZeroLengthEntry m) := by
  have hone := UInt64.toNat_one
  have hmax := isizeMax_lt
  obtain ⟨last, hlast⟩ : ∃ last, m.entries.getLast? = some last :=
    ⟨_, List.getLast?_eq_some_getLast hne⟩
  have hend := (logicalEnd_le h (List.mem_of_getLast? hlast)).2
  have hsum : last.logicalOffset.toNat + last.length.toNat < 2 ^ 64 := by
    have := m.totalSize.toNat_lt
    omega
  have hcount : m.chunkCount.toNat + (1 : UInt64).toNat < 2 ^ 64 := by
    rw [h.count]
    unfold isizeMax at hvec
    omega
  have hinsert : insertZeroLengthEntry m = ok { m with
      entries := m.entries ++ [⟨last.logicalOffset + last.length, 0, last.chunkId, 0⟩]
      chunkCount := m.chunkCount + 1 } := by
    simp only [insertZeroLengthEntry, hlast, addU64_of_lt hsum, addU64_of_lt hcount, ok_bind,
      pure_eq]
  refine rejected_of_not_wellFormed hinsert ?_
  intro h'
  have hpos := (logicalEnd_le h' (e := ⟨last.logicalOffset + last.length, 0, last.chunkId, 0⟩)
    (by simp)).1
  exact Nat.lt_irrefl 0 hpos

/-- **Every corruption is caught**: on a valid manifest with an entry, each
    primitive returns, without overflow, a manifest that the validator
    rejects with `INTEGRITY_MANIFEST_INVALID`. The entries are a `Vec`, so
    there are at most `isize::MAX` of them. -/
theorem corruption_rejected [Blake3] (m : Manifest) (hok : validateManifest m = ok ())
    (hne : m.entries ≠ []) (hvec : m.entries.length ≤ isizeMax) (corruption : Corruption)
    (happlies : corruption.Applies m) : Rejected (corruption.apply m) := by
  have h := validateManifest_ok_iff.mp hok
  cases corruption with
  | swapEntries i j => exact swapEntries_rejected h happlies.1 happlies.2.1 happlies.2.2
  | dropEntry i => exact dropEntry_rejected h happlies
  | alterTotalSize delta => exact alterTotalSize_rejected h hne happlies
  | alterChunkCount delta => exact alterChunkCount_rejected h hne happlies
  | introduceGap pos => exact introduceGap_rejected h happlies.1 happlies.2
  | introduceOverlap pos => exact introduceOverlap_rejected h happlies
  | dangleChunkRef pos => exact dangleChunkRef_rejected happlies.1 happlies.2
  | insertZeroLengthEntry => exact insertZeroLengthEntry_rejected h hne hvec

namespace Sample

/-- `abcab`: a chunk that is used twice, once in part. -/
def twoEntries : Manifest where
  manifestId := ⟨⟨1⟩⟩
  totalSize := 5
  chunkCount := 2
  entries := [⟨0, 3, chunk, 0⟩, ⟨3, 2, chunk, 0⟩]
  chunks := [⟨chunk, 3⟩]

end Sample

/-- A clamped nudge and a swap. -/
theorem corruption_rejected_sample :
    letI := Sample.blake3
    Rejected (Corruption.apply Sample.twoEntries (.alterTotalSize (-9))) ∧
      Rejected (Corruption.apply Sample.twoEntries (.swapEntries 0 1)) := by
  let := Sample.blake3
  have hok : validateManifest Sample.twoEntries = ok () := by
    refine toOption_eq_some.mp ?_
    decide +kernel
  have happlies : Corruption.Applies Sample.twoEntries (.alterTotalSize (-9)) := by
    show (-9 : Int64) ≠ 0
    decide
  have happlies' : Corruption.Applies Sample.twoEntries (.swapEntries 0 1) := by
    show (0 : UInt64) ≠ 1 ∧ 0 < 2 ∧ 1 < 2
    decide
  exact ⟨corruption_rejected Sample.twoEntries hok (by decide) (by decide) _ happlies,
    corruption_rejected Sample.twoEntries hok (by decide) (by decide) _ happlies'⟩

end Space
