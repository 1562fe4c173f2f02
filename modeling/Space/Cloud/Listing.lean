import Space.Cloud.MetadataInvariant

/-! # Directory listings

    `list_children` filters the files in hash order and sorts them by name,
    with a stable sort. The listing is well defined when the names of a
    directory are distinct; files that share a name come in hash order.

    Nothing keeps the names distinct: `create_file` looks only at its key.
    So the listings are well defined along a run exactly as long as every
    file that is created takes a name that is free in its directory. -/

namespace Space

open Rust Outcome Data MetaOp

/-! ## Section 1: Listings of one state -/

/-- The names of a directory are distinct. -/
def Inner.DistinctNames (g : Inner) (d : DirectoryId) : Prop :=
  ∀ id id' a b, g.files.lookup id = some a → g.files.lookup id' = some b →
    a.parentId = d → b.parentId = d → a.name = b.name → id = id'

/-- The listing of a directory is what its name says, in any hash order. -/
structure Inner.WellListed (g : Inner) (d : DirectoryId) : Prop where
  /-- The files of the directory and nothing else. -/
  mem : ∀ env file, file ∈ g.listChildren env d ↔
    (∃ id, g.files.lookup id = some file) ∧ file.parentId = d
  /-- Each of them once. -/
  nodup : ∀ env, (g.listChildren env d).Nodup
  /-- In strictly increasing name order. -/
  sorted : ∀ env, (g.listChildren env d).Pairwise fun a b => a.name < b.name
  distinct : g.DistinctNames d
  /-- The same list in every hash order. -/
  stable : ∀ env env', g.listChildren env d = g.listChildren env' d

section listing

variable {g : Inner} {d : DirectoryId}

theorem listChildren_perm (env : Env) (g : Inner) (d : DirectoryId) :
    (g.listChildren env d).Perm
      ((env.hashOrder (g.files.entries.map Sigma.snd)).val.filter fun f => f.parentId == d) :=
  List.mergeSort_perm _ _

theorem mem_listChildren {env : Env} {file : File} : file ∈ g.listChildren env d ↔
    (∃ id, g.files.lookup id = some file) ∧ file.parentId = d := by
  rw [(listChildren_perm env g d).mem_iff, List.mem_filter,
    Table.mem_order (env.hashOrder (g.files.entries.map Sigma.snd)).property, beq_iff_eq]

theorem nodup_listChildren (hinv : MetaInv g) (env : Env) : (g.listChildren env d).Nodup := by
  rw [(listChildren_perm env g d).nodup_iff]
  apply List.Nodup.filter
  exact Table.nodup_order (env.hashOrder _).property fun id file hl => (hinv.files id file hl).id

/-- The sort gives increasing names, not strictly. -/
theorem sorted_listChildren (env : Env) (g : Inner) (d : DirectoryId) :
    (g.listChildren env d).Pairwise fun a b => a.name ≤ b.name := by
  have htrans : ∀ a b c : File, decide (a.name ≤ b.name) = true → decide (b.name ≤ c.name) = true →
      decide (a.name ≤ c.name) = true := by
    intro a b c hab hbc
    rw [decide_eq_true_eq] at hab hbc ⊢
    exact String.le_trans hab hbc
  have htotal : ∀ a b : File, (decide (a.name ≤ b.name) || decide (b.name ≤ a.name)) = true := by
    intro a b
    rw [Bool.or_eq_true, decide_eq_true_eq, decide_eq_true_eq]
    exact String.le_total a.name b.name
  have hsorted := List.pairwise_mergeSort htrans htotal
    ((env.hashOrder (g.files.entries.map Sigma.snd)).val.filter fun f => f.parentId == d)
  exact hsorted.imp fun hab => of_decide_eq_true hab

/-- **The listing of a directory is well defined exactly when** its names are
    distinct. -/
theorem wellListed_iff (hinv : MetaInv g) : g.WellListed d ↔ g.DistinctNames d := by
  constructor
  · exact fun h => h.distinct
  · intro hdistinct
    have hstrict : ∀ env, (g.listChildren env d).Pairwise fun a b => a.name < b.name := by
      intro env
      have hle := (sorted_listChildren env g d).and (nodup_listChildren hinv env)
      apply hle.imp_of_mem
      intro a b ha hb ⟨hab, hne⟩
      obtain ⟨⟨id, hid⟩, hpa⟩ := mem_listChildren.mp ha
      obtain ⟨⟨id', hid'⟩, hpb⟩ := mem_listChildren.mp hb
      -- two files with the same name would be one
      apply String.not_le.mp
      intro hba
      have heq := hdistinct id id' a b hid hid' hpa hpb (String.le_antisymm hab hba)
      rw [heq, hid'] at hid
      cases hid
      exact hne rfl
    constructor
    · exact fun env file => mem_listChildren
    · exact nodup_listChildren hinv
    · exact hstrict
    · exact hdistinct
    · intro env env'
      -- both list the same files, and their names decide the order
      have hperm : (g.listChildren env d).Perm (g.listChildren env' d) := by
        apply (List.perm_ext_iff_of_nodup (nodup_listChildren hinv env)
          (nodup_listChildren hinv env')).mpr
        intro file
        rw [mem_listChildren, mem_listChildren]
      apply hperm.eq_of_pairwise _ (hstrict env) (hstrict env')
      intro a b _ _ hab hba
      exact absurd hab (String.lt_asymm hba)

end listing

/-! ## Section 2: Runs -/

/-- The property holds of every state that the calls pass through. -/
def Inner.Along (P : Inner → Prop) (g : Inner) : List (Env × MetaOp) → Prop
  | [] => P g
  | (env, op) :: rest => P g ∧ Inner.Along P (op.exec env g).2 rest

/-- A file that the call creates takes a name that is free in its
    directory. -/
def MetaOp.TakesFreeName (g : Inner) : MetaOp → Prop
  | .createFile parentId name key =>
    Inner.illegalName name = false → g.fileIdempotency.lookup key = none →
      ∀ id file, g.files.lookup id = some file → file.parentId = parentId → file.name ≠ name
  | _ => True

/-- Every file that the calls create takes a free name. -/
def Inner.TakesFreeNames (g : Inner) : List (Env × MetaOp) → Prop
  | [] => True
  | (env, op) :: rest => op.TakesFreeName g ∧ Inner.TakesFreeNames (op.exec env g).2 rest

theorem Inner.Along.head {P : Inner → Prop} {g : Inner} {calls : List (Env × MetaOp)}
    (h : g.Along P calls) : P g := by
  cases calls with
  | nil => exact h
  | cons call rest => exact h.1

/-- Where a file row comes from: it was there, with the same name in the same
    directory, or the call created it. -/
theorem file_of_writes {env : Env} {g g' : Inner} {op : MetaOp} {a : op.Value} (hinv : MetaInv g)
    (hw : Writes env g op a g') {id : FileId} {file : File}
    (hl : g'.files.lookup id = some file) :
    (∃ old, g.files.lookup id = some old ∧ file.parentId = old.parentId ∧
        file.name = old.name) ∨
      ∃ parentId name key, op = .createFile parentId name key ∧
        Inner.illegalName name = false ∧ g.fileIdempotency.lookup key = none ∧
        id = env.newId ∧ file.parentId = parentId ∧ file.name = name := by
  cases hw with
  | @file parentId name key hname hkey =>
    have hins : (g.files.insert env.newId (Inner.freshFile env parentId name)).lookup id =
        some file := hl
    rw [Table.lookup_insert_ite] at hins
    by_cases hid : id = env.newId
    · rw [if_pos hid] at hins
      cases hins
      exact .inr ⟨parentId, name, key, rfl, hname, hkey, hid, rfl, rfl⟩
    · rw [if_neg hid] at hins
      exact .inl ⟨file, hins, rfl, rfl⟩
  | chunk hwf hl' => exact .inl ⟨file, hl, rfl, rfl⟩
  | manifest hvalid hreg hl' => exact .inl ⟨file, hl, rfl, rfl⟩
  | version hrefs hl' => exact .inl ⟨file, hl, rfl, rfl⟩
  | @commit v row hrow hc =>
    obtain ⟨old, hold⟩ := (hinv.versions v row hrow).file
    -- a commit writes the row of its file, with another current version
    rw [commit_eq hold] at hl
    simp only [Table.lookup_insert_ite] at hl
    by_cases hid : id = row.fileId
    · rw [if_pos hid] at hl
      cases hl
      rw [hid]
      exact .inl ⟨old, hold, rfl, rfl⟩
    · rw [if_neg hid] at hl
      exact .inl ⟨file, hl, rfl, rfl⟩

/-- **One call** keeps the names of all directories distinct exactly when it
    takes a free name. -/
theorem distinctNames_step {env : Env} {g : Inner} {op : MetaOp} (hinv : MetaInv g)
    (hfresh : op.Fresh env g) (h : ∀ d, g.DistinctNames d) :
    (∀ d, (op.exec env g).2.DistinctNames d) ↔ op.TakesFreeName g := by
  constructor
  · intro h'
    cases op with
    | createFile parentId name key =>
      intro hname hkey id file hl hparent heq
      -- the new file and this one would share the name
      have hexec : (g.createFile env parentId name key).2 =
          g.addFile key (Inner.freshFile env parentId name) := by
        simp [Inner.createFile, hname, hkey]
      have hnone := hfresh hkey
      have hne : id ≠ env.newId := by
        intro hid
        rw [hid, hnone] at hl
        cases hl
      have hdistinct := h' parentId
      change (g.createFile env parentId name key).2.DistinctNames parentId at hdistinct
      rw [hexec] at hdistinct
      apply hne
      apply hdistinct id env.newId file (Inner.freshFile env parentId name)
      · exact (Finmap.lookup_insert_of_ne _ hne).trans hl
      · exact Finmap.lookup_insert _
      · exact hparent
      · rfl
      · exact heq
    | _ => trivial
  · intro hfree d
    have hcall := exec_call env g op
    generalize (op.exec env g).1 = r at hcall
    generalize (op.exec env g).2 = g' at hcall ⊢
    cases hcall with
    | refused e => exact h d
    | dangling _ => exact h d
    | found _ => exact h d
    | wrote hw =>
      intro id id' a b ha hb hpa hpb hnames
      -- each of the two files is an old one or the one just created
      rcases file_of_writes hinv hw ha with
        ⟨old, hold, hpar, hnm⟩ | ⟨p, n, k, rfl, hn, hk, hid, hp, hm⟩
      · rcases file_of_writes hinv hw hb with
          ⟨old', hold', hpar', hnm'⟩ | ⟨p, n, k, rfl, hn, hk, hid', hp, hm⟩
        · apply h d id id' old old' hold hold'
          · rw [← hpar, hpa]
          · rw [← hpar', hpb]
          · rw [← hnm, hnames, hnm']
        · refine absurd ?_ (hfree hn hk id old hold ?_)
          · rw [← hnm, hnames, hm]
          · rw [← hpar, hpa, ← hpb, hp]
      · rcases file_of_writes hinv hw hb with
          ⟨old', hold', hpar', hnm'⟩ | ⟨p', n', k', heq, _, _, hid', _, _⟩
        · refine absurd ?_ (hfree hn hk id' old' hold' ?_)
          · rw [← hnm', ← hnames, hm]
          · rw [← hpar', hpb, ← hpa, hp]
        · rw [hid, hid']

/-- **A whole run.** -/
theorem distinctNames_along {g : Inner} (hg : g.Reachable) {calls : List (Env × MetaOp)}
    (hfresh : g.FreshCalls calls) (h : ∀ d, g.DistinctNames d) :
    g.Along (fun g => ∀ d, g.WellListed d) calls ↔ g.TakesFreeNames calls := by
  have hlisted : ∀ d, g.WellListed d := fun d => (wellListed_iff (reachable_inv hg)).mpr (h d)
  induction calls generalizing g with
  | nil =>
    constructor
    · intro _
      trivial
    · intro _
      exact hlisted
  | cons call rest ih =>
    obtain ⟨env, op⟩ := call
    have hstep := distinctNames_step (reachable_inv hg) hfresh.1 h
    have hg' : (op.exec env g).2.Reachable := hg.tail ⟨op, _, env, hfresh.1, rfl⟩
    -- listings and names say the same in every reachable state
    have hiff : ∀ d, (op.exec env g).2.WellListed d ↔ (op.exec env g).2.DistinctNames d :=
      fun d => wellListed_iff (reachable_inv hg')
    constructor
    · intro halong
      have h' : ∀ d, (op.exec env g).2.DistinctNames d := fun d => (hiff d).mp (halong.2.head d)
      exact ⟨hstep.mp h', (ih hg' hfresh.2 h' fun d => (hiff d).mpr (h' d)).mp halong.2⟩
    · intro hfree
      have h' := hstep.mpr hfree.1
      exact ⟨hlisted, (ih hg' hfresh.2 h' fun d => (hiff d).mpr (h' d)).mpr hfree.2⟩

/-- **Directory listings are well defined along a run exactly as long as**
    every file that is created takes a free name. -/
theorem listings_wellDefined_iff {calls : List (Env × MetaOp)}
    (hfresh : Inner.new.FreshCalls calls) :
    Inner.new.Along (fun g => ∀ d, g.WellListed d) calls ↔ Inner.new.TakesFreeNames calls := by
  apply distinctNames_along .refl hfresh
  intro d id id' a b ha
  cases ha

/-- The sample run creates one file. -/
theorem listings_wellDefined_iff_sample :
    Inner.new.Along (fun g => ∀ d, g.WellListed d) Sample.calls ↔
      Inner.new.TakesFreeNames Sample.calls :=
  listings_wellDefined_iff Sample.calls_fresh

/-- Two files with one name, created under different keys. -/
noncomputable def Sample.twins : List (Env × MetaOp) :=
  [(Env.sample 1 10, .createFile ⟨⟨7⟩⟩ "a.txt" "k1"),
    (Env.sample 2 20, .createFile ⟨⟨7⟩⟩ "a.txt" "k2")]

/-- A directory may hold two files with one name. -/
theorem names_not_distinct : ¬ ∀ g : Inner, g.Reachable → ∀ d, g.WellListed d := by
  intro h
  have hfresh : Inner.new.FreshCalls Sample.twins :=
    ⟨fun _ => rfl, fun _ => by decide, trivial⟩
  have hlisted := h _ (reachable_runCalls .refl hfresh) ⟨⟨7⟩⟩
  have heq : (⟨⟨1⟩⟩ : FileId) = ⟨⟨2⟩⟩ :=
    hlisted.distinct _ _ _ _ rfl rfl rfl rfl rfl
  exact absurd heq (by decide)

end Space
