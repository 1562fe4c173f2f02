import Mathlib.Data.List.Nodup
import Mathlib.Tactic.Common

/-! # JSON documents

    A `Json` is the document that a JSON text denotes. An object keeps its
    fields in the order of the text, and keeps a field that is there twice.

    The second half is what a derived `Deserialize` makes of a document: how
    it finds the fields of a struct, and which fields of the document no
    struct has asked for. `structFields_strict` is what it means to deny
    unknown fields: a field that nobody asked for can then only be inside
    the value of a field that somebody did. `FieldIs` is what is read of a
    struct when they are not denied. -/

namespace Data

/-- A JSON document. A number that is not an unsigned 64-bit integer is kept
    as its text. -/
inductive Json where
  | null
  | bool (b : Bool)
  | uint (n : UInt64)
  | number (text : String)
  | str (s : String)
  | arr (items : List Json)
  | obj (fields : List (String × Json))

namespace Json

/-! ## Section 1: Depth -/

mutual

/-- The document nests at most `n` arrays and objects, and all its numbers
    are unsigned integers. -/
def within (n : Nat) : Json → Bool
  | null => true
  | bool _ => true
  | uint _ => true
  | number _ => false
  | str _ => true
  | arr items => n != 0 && withinItems (n - 1) items
  | obj fields => n != 0 && withinFields (n - 1) fields

def withinItems (n : Nat) : List Json → Bool
  | [] => true
  | x :: xs => within n x && withinItems n xs

def withinFields (n : Nat) : List (String × Json) → Bool
  | [] => true
  | f :: fs => within n f.2 && withinFields n fs

end

theorem withinItems_eq {n : Nat} {xs : List Json} :
    withinItems n xs = xs.all (within n) := by
  induction xs with
  | nil => rfl
  | cons x xs ih => simp [withinItems, ih]

theorem withinFields_eq {n : Nat} {fs : List (String × Json)} :
    withinFields n fs = fs.all fun f => within n f.2 := by
  induction fs with
  | nil => rfl
  | cons f fs ih => simp [withinFields, ih]

/-! ## Section 2: Fields -/

mutual

/-- There is a field somewhere in the document. -/
def hasField : Json → Bool
  | arr items => anyHasField items
  | obj fields => !fields.isEmpty
  | _ => false

def anyHasField : List Json → Bool
  | [] => false
  | x :: xs => hasField x || anyHasField xs

end

/-- There is a field in the document that is not one of `inner`, or whose
    value has such a field. An array stands for the fields in their order. -/
def extraIn (inner : List (String × (Json → Bool))) : Json → Bool
  | obj fields => fields.any fun f =>
      match inner.lookup f.1 with
      | some extra => extra f.2
      | none => true
  | arr items => anyHasField (items.drop inner.length) ||
      (inner.zip items).any fun p => p.1.2 p.2
  | _ => false

/-- The same for a list whose items have the fields that `extra` looks at. -/
def extraEach (extra : Json → Bool) : Json → Bool
  | arr items => items.any extra
  | j => j.hasField

/-! ## Section 3: Structs

    What a derived `Deserialize` accepts: an object with the fields of the
    struct, or an array with the values of all of them. -/

/-- The fields of a struct that has these names. A field that is there twice
    is refused, and with `deny` also one that the struct does not have. -/
def structFields (deny : Bool) (names : List String) : Json → Option (List (String × Json))
  | obj fields =>
    if (deny && fields.any fun f => !names.contains f.1) ||
        names.any (fun name => 1 < fields.countP fun f => f.1 == name) then none
    else some fields
  | arr items => if items.length = names.length then some (names.zip items) else none
  | _ => none

section fields

variable {α : Type}

/-- A field that must be there. -/
def required (read : Json → Option α) (name : String) (fields : List (String × Json)) :
    Option α :=
  (fields.lookup name).bind read

/-- A field of type `Option`: absent, `null` or a value. -/
def optional (read : Json → Option α) (name : String) (fields : List (String × Json)) :
    Option (Option α) :=
  match fields.lookup name with
  | none => some none
  | some null => some none
  | some j => (read j).map some

/-- A field with a default. -/
def defaulted (read : Json → Option α) (value : α) (name : String)
    (fields : List (String × Json)) : Option α :=
  match fields.lookup name with
  | none => some value
  | some j => read j

/-- A list, read item by item. -/
def readList (read : Json → Option α) : Json → Option (List α)
  | arr items => items.mapM read
  | _ => none

def readString : Json → Option String
  | str s => some s
  | _ => none

def readU64 : Json → Option UInt64
  | uint n => some n
  | _ => none

/-- A `u32` is a number that fits. -/
def readU32 : Json → Option UInt32
  | uint n => if n.toNat < UInt32.size then some n.toUInt32 else none
  | _ => none

/-- A variant without data, by its name: the name alone, or as the key of
    `null`. -/
def readVariant (names : List (String × α)) : Json → Option α
  | str s => names.lookup s
  | obj [(s, null)] => names.lookup s
  | _ => none

/-! ## Section 4: Reading back what was written -/

theorem readList_map {read : Json → Option α} {write : α → Json}
    (h : ∀ a, read (write a) = some a) (as : List α) :
    readList read (arr (as.map write)) = some as := by
  show (as.map write).mapM read = some as
  induction as with
  | nil => rfl
  | cons a as ih => simp [h, ih]

@[simp] theorem readU32_toUInt64 (n : UInt32) : readU32 (uint n.toUInt64) = some n := by
  have hlt : n.toUInt64.toNat < UInt32.size := by
    rw [UInt32.toNat_toUInt64]
    exact n.toNat_lt
  rw [readU32, if_pos hlt, UInt32.toUInt32_toUInt64]

/-- An `Option` is written as its value or as `null`. -/
def ofOption (write : α → Json) : Option α → Json
  | none => null
  | some a => write a

theorem required_value {read : Json → Option α} {name : String} {fields : List (String × Json)}
    {j : Json} (hl : fields.lookup name = some j) : required read name fields = read j := by
  rw [required, hl]
  rfl

theorem optional_value {read : Json → Option α} {name : String} {fields : List (String × Json)}
    {j : Json} (hl : fields.lookup name = some j) (hnull : j ≠ null) :
    optional read name fields = (read j).map some := by
  unfold optional
  rw [hl]
  cases j with
  | null => exact absurd rfl hnull
  | _ => rfl

theorem optional_ofOption {read : Json → Option α} {write : α → Json} {name : String}
    {fields : List (String × Json)} {o : Option α} (h : ∀ a, read (write a) = some a)
    (hnull : ∀ a, write a ≠ null) (hl : fields.lookup name = some (ofOption write o)) :
    optional read name fields = some o := by
  cases o with
  | none =>
    unfold optional
    rw [hl]
    rfl
  | some a =>
    rw [optional_value hl (hnull a)]
    show (read (write a)).map some = _
    rw [h]
    rfl

/-- An `Option` that is left out when there is no value. -/
theorem optional_map {read : Json → Option α} {write : α → Json} {name : String}
    {fields : List (String × Json)} {o : Option α} (h : ∀ a ∈ o, read (write a) = some a)
    (hnull : ∀ a, write a ≠ null) (hl : fields.lookup name = o.map write) :
    optional read name fields = some o := by
  cases o with
  | none =>
    unfold optional
    rw [hl]
    rfl
  | some a =>
    rw [optional_value hl (hnull a), h a rfl]
    rfl

/-! ## Section 5: Denying unknown fields -/

theorem lookup_of_countP {fields : List (String × Json)} {name : String} {v : Json}
    (hmem : (name, v) ∈ fields) (honce : ¬ 1 < fields.countP fun f => f.1 == name) :
    fields.lookup name = some v := by
  induction fields with
  | nil => cases hmem
  | cons f rest ih =>
    obtain ⟨k, w⟩ := f
    by_cases hk : k = name
    · subst hk
      rw [List.countP_cons_of_pos (by simp)] at honce
      rcases List.mem_cons.mp hmem with heq | hrest
      · cases heq
        simp
      · -- the field would be there twice
        have hpos : 0 < rest.countP fun f => f.1 == k := List.countP_pos_iff.mpr ⟨_, hrest, by simp⟩
        omega
    · rw [List.countP_cons_of_neg (by simpa using hk)] at honce
      have hne : (name == k) = false := by simpa using Ne.symm hk
      rw [List.lookup_cons, hne]
      rcases List.mem_cons.mp hmem with heq | hrest
      · cases heq
        exact absurd rfl hk
      · exact ih hrest honce

/-- Fields with different names are each found. -/
theorem lookup_of_nodup {fields : List (String × Json)} {name : String} {v : Json}
    (hnodup : (fields.map Prod.fst).Nodup) (hmem : (name, v) ∈ fields) :
    fields.lookup name = some v := by
  apply lookup_of_countP hmem
  have hcount := List.nodup_iff_count_le_one.mp hnodup name
  rw [List.count_eq_countP, List.countP_map] at hcount
  exact Nat.not_lt.mpr hcount

/-- **Denying unknown fields**: when the struct is read, a field that it did
    not ask for can only be inside the value of one that it did. -/
theorem structFields_strict {inner : List (String × (Json → Bool))} {names : List String}
    {j : Json} {fields : List (String × Json)} (hextra : extraIn inner j = true)
    (hread : structFields true names j = some fields) (hinner : inner.map Prod.fst = names)
    (hnames : names.Nodup) : ∃ p ∈ inner, ∃ v, fields.lookup p.1 = some v ∧ p.2 v = true := by
  subst hinner
  cases j with
  | obj given =>
    simp only [structFields, Bool.true_and] at hread
    split at hread
    · cases hread
    · rename_i hpass
      cases hread
      simp only [Bool.or_eq_true, List.any_eq_true, Bool.not_eq_true', decide_eq_true_eq, not_or,
        not_exists, not_and, Bool.not_eq_false] at hpass
      -- an object that was read has known fields only, each at most once
      obtain ⟨hknown, honce⟩ := hpass
      obtain ⟨f, hf, hval⟩ := List.any_eq_true.mp hextra
      have hname : f.1 ∈ inner.map Prod.fst := by simpa using hknown f hf
      cases hl : inner.lookup f.1 with
      | none =>
        obtain ⟨p, hp, hpf⟩ := List.mem_map.mp hname
        have hno := List.lookup_eq_none_iff.mp hl p hp
        simp [hpf] at hno
      | some extra =>
        rw [hl] at hval
        obtain ⟨l₁, l₂, hsplit, _⟩ := List.lookup_eq_some_iff.mp hl
        have hp : (f.1, extra) ∈ inner := by
          rw [hsplit]
          exact List.mem_append_right _ List.mem_cons_self
        exact ⟨_, hp, f.2, lookup_of_countP hf (honce _ hname), hval⟩
  | arr items =>
    simp only [structFields] at hread
    split at hread
    · rename_i hlen
      cases hread
      -- an array has no names: it is read in the order of the fields
      rw [List.length_map] at hlen
      simp only [extraIn, ← hlen, List.drop_length, anyHasField, Bool.false_or,
        List.any_eq_true] at hextra
      obtain ⟨⟨p, v⟩, hmem, hval⟩ := hextra
      refine ⟨p, (List.of_mem_zip hmem).1, v, ?_, hval⟩
      have hkeys : ((inner.map Prod.fst).zip items).map Prod.fst = inner.map Prod.fst := by
        apply List.map_fst_zip
        simp [hlen]
      apply lookup_of_nodup
      · rw [hkeys]
        exact hnames
      · rw [List.zip_map_left]
        exact List.mem_map.mpr ⟨_, hmem, rfl⟩
    · cases hread
  | _ => cases hread

/-- A field that is there once is found. -/
theorem filter_eq_singleton_iff {fields : List (String × Json)} {name : String} {v : Json}
    (honce : ¬ 1 < fields.countP fun f => f.1 == name) :
    (fields.filter fun f => f.1 == name) = [(name, v)] ↔ fields.lookup name = some v := by
  constructor
  · intro h
    have hmem : (name, v) ∈ fields.filter fun f => f.1 == name := by
      rw [h]
      exact List.mem_singleton.mpr rfl
    exact lookup_of_countP (List.mem_filter.mp hmem).1 honce
  · intro h
    obtain ⟨l₁, l₂, hsplit, _⟩ := List.lookup_eq_some_iff.mp h
    have hmem : (name, v) ∈ fields.filter fun f => f.1 == name := by
      rw [hsplit]
      simp
    rw [List.countP_eq_length_filter] at honce
    cases hfilter : fields.filter fun f => f.1 == name with
    | nil =>
      rw [hfilter] at hmem
      cases hmem
    | cons f rest =>
      rw [hfilter] at hmem honce
      have hrest : rest = [] := by
        rw [List.length_cons] at honce
        exact List.eq_nil_of_length_eq_zero (by omega)
      rw [hrest] at hmem ⊢
      rw [List.mem_singleton.mp hmem]

/-- A struct with one field that denies others has nothing beside it. -/
theorem eq_of_structFields_singleton {name : String} {j v : Json} {fields : List (String × Json)}
    (hread : structFields true [name] j = some fields) (hl : fields.lookup name = some v) :
    j = obj [(name, v)] ∨ j = arr [v] := by
  cases j with
  | obj given =>
    simp only [structFields, Bool.true_and] at hread
    split at hread
    · cases hread
    · rename_i hpass
      cases hread
      simp only [Bool.or_eq_true, List.any_eq_true, Bool.not_eq_true', decide_eq_true_eq, not_or,
        not_exists, not_and, Bool.not_eq_false, List.contains_iff_mem, List.mem_singleton] at hpass
      obtain ⟨hknown, honce⟩ := hpass
      have hall : (fields.filter fun f => f.1 == name) = fields :=
        List.filter_eq_self.mpr fun f hf => by simpa using hknown f hf
      have hfilter := (filter_eq_singleton_iff (honce name rfl)).mpr hl
      rw [hall] at hfilter
      exact .inl (congrArg obj hfilter)
  | arr items =>
    simp only [structFields] at hread
    split at hread
    · rename_i hlen
      cases hread
      obtain ⟨item, rfl⟩ := List.length_eq_one_iff.mp hlen
      simp only [List.zip_cons_cons, List.zip_nil_right, List.lookup_cons, beq_self_eq_true,
        Option.some.injEq] at hl
      exact .inr (congrArg (fun item => arr [item]) hl)
    · cases hread
  | _ => cases hread

/-! ## Section 6: Ignoring unknown fields -/

/-- The value of the field `name` of a struct with the fields `names`,
    whatever other fields the document has: an object has it once, under its
    name, and an array has it in its place. -/
def FieldIs (names : List String) (name : String) (v : Json) : Json → Prop
  | obj fields => (fields.filter fun f => f.1 == name) = [(name, v)]
  | arr items => items.length = names.length ∧ (name, v) ∈ names.zip items
  | _ => False

/-- **What a struct finds under a name**, when it ignores unknown fields. -/
theorem lookup_eq_some_iff_fieldIs {names : List String} {j : Json}
    {fields : List (String × Json)} (hread : structFields false names j = some fields)
    (hnames : names.Nodup) {name : String} (hname : name ∈ names) {v : Json} :
    fields.lookup name = some v ↔ FieldIs names name v j := by
  cases j with
  | obj given =>
    simp only [structFields, Bool.false_and, Bool.false_or] at hread
    split at hread
    · cases hread
    · rename_i hpass
      cases hread
      simp only [List.any_eq_true, decide_eq_true_eq, not_exists, not_and] at hpass
      exact (filter_eq_singleton_iff (hpass name hname)).symm
  | arr items =>
    simp only [structFields] at hread
    split at hread
    · rename_i hlen
      cases hread
      have hkeys : (names.zip items).map Prod.fst = names := List.map_fst_zip (by omega)
      constructor
      · intro h
        obtain ⟨l₁, l₂, hsplit, _⟩ := List.lookup_eq_some_iff.mp h
        refine ⟨hlen, ?_⟩
        rw [hsplit]
        simp
      · intro h
        refine lookup_of_nodup ?_ h.2
        rw [hkeys]
        exact hnames
    · cases hread
  | _ => cases hread

theorem required_eq_some_iff {names : List String} {j : Json} {fields : List (String × Json)}
    (hread : structFields false names j = some fields) (hnames : names.Nodup) {name : String}
    (hname : name ∈ names) {read : Json → Option α} {a : α} :
    required read name fields = some a ↔ ∃ v, FieldIs names name v j ∧ read v = some a := by
  rw [required, Option.bind_eq_some_iff]
  simp only [lookup_eq_some_iff_fieldIs hread hnames hname]

/-- A document that has every field of the struct is read as one. -/
theorem structFields_of_fieldIs {names : List String} {j : Json} (hne : names ≠ [])
    (h : ∀ name ∈ names, ∃ v, FieldIs names name v j) :
    ∃ fields, structFields false names j = some fields := by
  obtain ⟨first, hfirst⟩ := List.exists_mem_of_ne_nil names hne
  obtain ⟨v, hv⟩ := h first hfirst
  cases j with
  | obj given =>
    refine ⟨given, ?_⟩
    simp only [structFields, Bool.false_and, Bool.false_or]
    rw [if_neg]
    simp only [List.any_eq_true, decide_eq_true_eq, not_exists, not_and]
    intro name hname
    obtain ⟨v, hv⟩ := h name hname
    have hfilter : (given.filter fun f => f.1 == name) = [(name, v)] := hv
    rw [List.countP_eq_length_filter, hfilter]
    exact Nat.lt_irrefl 1
  | arr items => exact ⟨names.zip items, if_pos hv.1⟩
  | _ => cases hv

theorem readU64_eq_some_iff {j : Json} {n : UInt64} : readU64 j = some n ↔ j = uint n := by
  cases j <;> simp [readU64]

/-- A list is read item by item. -/
theorem readList_eq_some_iff {read : Json → Option α} {j : Json} {as : List α} :
    readList read j = some as ↔
      ∃ items, j = arr items ∧ List.Forall₂ (fun item a => read item = some a) items as := by
  have hitems : ∀ (items : List Json) (as : List α), items.mapM read = some as ↔
      List.Forall₂ (fun item a => read item = some a) items as := by
    intro items
    induction items with
    | nil => simp
    | cons item items ih =>
      intro as
      simp only [List.mapM_cons, Option.bind_eq_bind, Option.bind_eq_some_iff, ih,
        List.forall₂_cons_left_iff, Option.pure_def, Option.some.injEq]
      constructor
      · rintro ⟨a, ha, rest, hrest, rfl⟩
        exact ⟨a, rest, ha, hrest, rfl⟩
      · rintro ⟨a, rest, ha, hrest, rfl⟩
        exact ⟨a, ha, rest, hrest, rfl⟩
  cases j with
  | arr items => simp [readList, hitems]
  | _ => simp [readList]

end fields

end Json

end Data
