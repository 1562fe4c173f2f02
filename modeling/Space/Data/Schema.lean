import Space.Data.Json

/-! # Schemas of documents

    The part of JSON Schema that an API description is written in: strings
    with their patterns and enumerations, integers, arrays, and objects with
    their properties. A schema may refer to another one by its name, and so
    to itself; `Accepts` is the least relation that unfolds the names.

    Formats such as `date-time` and `int64` are annotations and not part of
    a schema here. -/

namespace Data

/-! ## Section 1: Patterns -/

/-- A piece of a pattern. -/
inductive Piece where
  | text (s : String)
  /-- So many characters, each from one of the ranges. -/
  | chars (ranges : List (Char × Char)) (count : Nat)

def inRanges (ranges : List (Char × Char)) (c : Char) : Bool :=
  ranges.any fun r => r.1 ≤ c && c ≤ r.2

/-- What is left of a text after the piece. -/
def Piece.strip : Piece → List Char → Option (List Char)
  | .text s, cs => cs.dropPrefix? s.toList
  | .chars ranges count, cs =>
    if count ≤ cs.length && (cs.take count).all (inRanges ranges) then some (cs.drop count)
    else none

/-- A pattern that is anchored at the start of the text, and at its end when
    it is `closed`. -/
structure Pattern where
  pieces : List Piece
  closed : Bool

def stripPieces : List Piece → List Char → Option (List Char)
  | [], cs => some cs
  | p :: ps, cs => (p.strip cs).bind (stripPieces ps)

def Pattern.test (p : Pattern) (s : String) : Bool :=
  match stripPieces p.pieces s.toList with
  | some rest => !p.closed || rest.isEmpty
  | none => false

theorem strip_text {s : String} {cs rest : List Char} :
    (Piece.text s).strip cs = some rest ↔ cs = s.toList ++ rest := by
  rw [Piece.strip, List.dropPrefix?_eq_some_iff]
  constructor
  · intro h
    obtain ⟨front, hcs, hfront⟩ := h
    rw [hcs, eq_of_beq hfront]
  · intro h
    exact ⟨s.toList, h, beq_self_eq_true _⟩

theorem strip_chars {ranges : List (Char × Char)} {count : Nat} {cs rest : List Char} :
    (Piece.chars ranges count).strip cs = some rest ↔
      ∃ front, cs = front ++ rest ∧ front.length = count ∧
        ∀ c ∈ front, inRanges ranges c = true := by
  rw [Piece.strip]
  constructor
  · intro h
    split at h
    · rename_i hpass
      rw [Bool.and_eq_true, decide_eq_true_eq, List.all_eq_true] at hpass
      cases h
      exact ⟨cs.take count, (List.take_append_drop count cs).symm,
        List.length_take_of_le hpass.1, hpass.2⟩
    · cases h
  · intro h
    obtain ⟨front, rfl, rfl, hall⟩ := h
    have hlen : front.length ≤ (front ++ rest).length := by simp
    rw [List.take_left, List.drop_left, if_pos]
    rw [Bool.and_eq_true, decide_eq_true_eq, List.all_eq_true]
    exact ⟨hlen, hall⟩

theorem stripPieces_cons {p : Piece} {ps : List Piece} {cs rest : List Char} :
    stripPieces (p :: ps) cs = some rest ↔
      ∃ mid, p.strip cs = some mid ∧ stripPieces ps mid = some rest :=
  Option.bind_eq_some_iff

theorem Pattern.test_iff {p : Pattern} {s : String} : p.test s = true ↔
    ∃ rest, stripPieces p.pieces s.toList = some rest ∧ (p.closed = true → rest = []) := by
  unfold Pattern.test
  cases stripPieces p.pieces s.toList with
  | none => simp
  | some rest => cases p.closed <;> simp

/-! ## Section 2: Schemas -/

/-- What is asked of a string. -/
inductive StringRule where
  | any
  /-- `enum`, and `const` for a single value. -/
  | oneOf (values : List String)
  | pattern (p : Pattern)

def StringRule.holds : StringRule → String → Bool
  | .any, _ => true
  | .oneOf values, s => values.contains s
  | .pattern p, s => p.test s

/-- A schema, over the names `R` of other schemas. -/
inductive Schema (R : Type) where
  | ref (name : R)
  | string (rule : StringRule)
  /-- `const` is the only value that is allowed, if there is one. -/
  | integer (const : Option UInt64)
  | array (items : Schema R)
  /-- `closed` stands for `additionalProperties: false`. -/
  | object (closed : Bool) (required : List String) (properties : List (String × Schema R))
  /-- `nullable: true`. -/
  | nullable (s : Schema R)

/-- How a schema is read, where readers differ. -/
structure Reading where
  /-- Whether `nullable` has a meaning. Later versions of the standard have
      no such keyword, and ignore it. -/
  nullable : Bool
  /-- Whether an array may stand for an object, with the values of all its
      properties in their order. -/
  positional : Bool

/-- The text of a number denotes an integer: beyond the point that the
    exponent moves, all digits are zeros. -/
def denotesInteger (text : List Char) : Bool :=
  let digits := if text.head? = some '-' then text.tail else text
  let whole := digits.takeWhile Char.isDigit
  let rest := digits.dropWhile Char.isDigit
  let fraction := if rest.head? = some '.' then rest.tail.takeWhile Char.isDigit else []
  let rest := if rest.head? = some '.' then rest.tail.dropWhile Char.isDigit else rest
  let shift : Int := match rest with
    | _ :: '-' :: exponent => -(Nat.ofDigitChars 10 exponent 0 : Nat)
    | _ :: '+' :: exponent => Nat.ofDigitChars 10 exponent 0
    | _ :: exponent => Nat.ofDigitChars 10 exponent 0
    | [] => 0
  ((whole ++ fraction).drop (whole.length + shift).toNat).all (· == '0')

def Json.isInteger : Json → Bool
  | .uint _ => true
  | .number text => denotesInteger text.toList
  | _ => false

namespace Schema

variable {R : Type} {defs : R → Schema R} {mode : Reading}

/-- The document is one that the schema describes. -/
inductive Accepts (defs : R → Schema R) (mode : Reading) : Schema R → Json → Prop where
  | ref {name : R} {j : Json} : Accepts defs mode (defs name) j → Accepts defs mode (.ref name) j
  | string {rule : StringRule} {s : String} :
      rule.holds s = true → Accepts defs mode (.string rule) (.str s)
  | integer {const : Option UInt64} {j : Json} :
      j.isInteger = true → (∀ n, const = some n → j = .uint n) →
      Accepts defs mode (.integer const) j
  | array {s : Schema R} {items : List Json} :
      (∀ x ∈ items, Accepts defs mode s x) → Accepts defs mode (.array s) (.arr items)
  | object {closed : Bool} {required : List String} {properties : List (String × Schema R)}
      {fields : List (String × Json)} :
      (∀ name ∈ required, name ∈ fields.map Prod.fst) →
      (closed = true → ∀ f ∈ fields, f.1 ∈ properties.map Prod.fst) →
      (∀ f ∈ fields, ∀ s, properties.lookup f.1 = some s → Accepts defs mode s f.2) →
      Accepts defs mode (.object closed required properties) (.obj fields)
  | positional {closed : Bool} {required : List String} {properties : List (String × Schema R)}
      {items : List Json} :
      mode.positional = true → items.length = properties.length →
      (∀ p ∈ properties.zip items, Accepts defs mode p.1.2 p.2) →
      Accepts defs mode (.object closed required properties) (.arr items)
  | null {s : Schema R} : mode.nullable = true → Accepts defs mode (.nullable s) .null
  | value {s : Schema R} {j : Json} :
      Accepts defs mode s j → Accepts defs mode (.nullable s) j

/-! ## Section 3: One rule for each kind of schema -/

@[simp] theorem accepts_ref {name : R} {j : Json} :
    Accepts defs mode (.ref name) j ↔ Accepts defs mode (defs name) j := by
  constructor
  · intro h
    cases h with
    | ref h => exact h
  · exact .ref

@[simp] theorem accepts_str {rule : StringRule} {s : String} :
    Accepts defs mode (.string rule) (.str s) ↔ rule.holds s = true := by
  constructor
  · intro h
    cases h with
    | string h => exact h
  · exact .string

@[simp] theorem accepts_uint {const : Option UInt64} {n : UInt64} :
    Accepts defs mode (.integer const) (.uint n) ↔ ∀ m, const = some m → n = m := by
  constructor
  · intro h m hm
    cases h with
    | integer _ h => exact Json.uint.inj (h m hm)
  · intro h
    exact .integer rfl fun m hm => congrArg Json.uint (h m hm)

@[simp] theorem accepts_arr {s : Schema R} {items : List Json} :
    Accepts defs mode (.array s) (.arr items) ↔ ∀ x ∈ items, Accepts defs mode s x := by
  constructor
  · intro h
    cases h with
    | array h => exact h
  · exact .array

theorem accepts_obj {closed : Bool} {required : List String}
    {properties : List (String × Schema R)} {fields : List (String × Json)} :
    Accepts defs mode (.object closed required properties) (.obj fields) ↔
      (∀ name ∈ required, name ∈ fields.map Prod.fst) ∧
        (closed = true → ∀ f ∈ fields, f.1 ∈ properties.map Prod.fst) ∧
          ∀ f ∈ fields, ∀ s, properties.lookup f.1 = some s → Accepts defs mode s f.2 := by
  constructor
  · intro h
    cases h with
    | object hrequired hclosed hvalues => exact ⟨hrequired, hclosed, hvalues⟩
  · intro h
    exact .object h.1 h.2.1 h.2.2

/-- An optional value, written as itself or as `null`. -/
theorem accepts_ofOption {α : Type} {s : Schema R} {write : α → Json} {o : Option α}
    (hvalue : ∀ a, Accepts defs mode s (write a)) (hnull : ¬ Accepts defs mode s .null) :
    Accepts defs mode (.nullable s) (Json.ofOption write o) ↔
      mode.nullable = true ∨ o.isSome = true := by
  cases o with
  | none =>
    constructor
    · intro h
      cases h with
      | null h => exact .inl h
      | value h => exact absurd h hnull
    · intro h
      rcases h with h | h
      · exact .null h
      · cases h
  | some a =>
    constructor
    · intro _
      exact .inr rfl
    · intro _
      exact .value (hvalue a)

/-! ## Section 4: What a struct accepts

    A derived `Deserialize` reads the fields of a struct by their names, or
    takes an array for all of them. -/

/-- **What a struct is read from is described by its schema**, when the
    fields that it needs are there and the value of each property is. -/
theorem accepts_structFields {deny closed : Bool} {required : List String}
    {properties : List (String × Schema R)} {j : Json} {fields : List (String × Json)}
    (hmode : mode.positional = true)
    (hread : Json.structFields deny (properties.map Prod.fst) j = some fields)
    (hnodup : (properties.map Prod.fst).Nodup) (hdeny : closed = true → deny = true)
    (hrequired : ∀ name ∈ required, ∃ v, fields.lookup name = some v)
    (hvalues : ∀ p ∈ properties, ∀ v, fields.lookup p.1 = some v → Accepts defs mode p.2 v) :
    Accepts defs mode (.object closed required properties) j := by
  cases j with
  | obj given =>
    rw [Json.structFields] at hread
    split at hread
    · cases hread
    · rename_i hpass
      cases hread
      simp only [Bool.or_eq_true, Bool.and_eq_true, List.any_eq_true, Bool.not_eq_true',
        decide_eq_true_eq, not_or, not_and, not_exists, Bool.not_eq_false] at hpass
      obtain ⟨hknown, honce⟩ := hpass
      rw [accepts_obj]
      refine ⟨fun name hname => ?_, fun hclosed f hf => ?_, fun f hf s hs => ?_⟩
      · obtain ⟨v, hv⟩ := hrequired name hname
        obtain ⟨before, after, hsplit, _⟩ := List.lookup_eq_some_iff.mp hv
        rw [hsplit]
        simp
      · have hname := hknown (hdeny hclosed) f hf
        rwa [List.contains_iff_mem] at hname
      · -- the field is there once, so it is the one that was read
        obtain ⟨before, after, hsplit, _⟩ := List.lookup_eq_some_iff.mp hs
        have hmem : (f.1, s) ∈ properties := by
          rw [hsplit]
          exact List.mem_append_right _ List.mem_cons_self
        have hname : f.1 ∈ properties.map Prod.fst := List.mem_map.mpr ⟨_, hmem, rfl⟩
        exact hvalues _ hmem f.2 (Json.lookup_of_countP hf (honce f.1 hname))
  | arr items =>
    rw [Json.structFields] at hread
    split at hread
    · rename_i hlen
      cases hread
      rw [List.length_map] at hlen
      refine .positional hmode hlen fun p hp => hvalues p.1 (List.of_mem_zip hp).1 p.2 ?_
      -- the values are read in the order of the properties
      have hkeys : ((properties.map Prod.fst).zip items).map Prod.fst =
          properties.map Prod.fst := by
        apply List.map_fst_zip
        simp [hlen]
      apply Json.lookup_of_nodup
      · rw [hkeys]
        exact hnodup
      · rw [List.zip_map_left]
        exact List.mem_map.mpr ⟨p, hp, rfl⟩
    · cases hread
  | _ => cases hread

/-- A field that a struct needs. -/
theorem accepts_required {α : Type} {read : Json → Option α} {s : Schema R} {name : String}
    {fields : List (String × Json)} {a : α} (h : Json.required read name fields = some a)
    (hread : ∀ j, read j = some a → Accepts defs mode s j) :
    (∃ v, fields.lookup name = some v) ∧
      ∀ v, fields.lookup name = some v → Accepts defs mode s v := by
  obtain ⟨j, hl, hj⟩ := Option.bind_eq_some_iff.mp h
  refine ⟨⟨j, hl⟩, fun v hv => ?_⟩
  rw [hl] at hv
  cases hv
  exact hread j hj

/-- A field of type `Option`. -/
theorem accepts_optional {α : Type} {read : Json → Option α} {s : Schema R} {name : String}
    {fields : List (String × Json)} {o : Option α} (hmode : mode.nullable = true)
    (h : Json.optional read name fields = some o)
    (hread : ∀ j a, read j = some a → Accepts defs mode s j) (v : Json)
    (hv : fields.lookup name = some v) : Accepts defs mode (.nullable s) v := by
  by_cases hnull : v = .null
  · rw [hnull]
    exact .null hmode
  · rw [Json.optional_value hv hnull] at h
    obtain ⟨a, ha, _⟩ := Option.map_eq_some_iff.mp h
    exact .value (hread v a ha)

/-- A list of items that are each read. -/
theorem accepts_readList {α : Type} {read : Json → Option α} {s : Schema R} {j : Json}
    {as : List α} {P : α → Prop} (h : Json.readList read j = some as) (hP : ∀ a ∈ as, P a)
    (hread : ∀ x a, read x = some a → P a → Accepts defs mode s x) :
    Accepts defs mode (.array s) j := by
  cases j with
  | arr items =>
    rw [accepts_arr]
    replace h : items.mapM read = some as := h
    induction items generalizing as with
    | nil => simp
    | cons x items ih =>
      rw [List.mapM_cons] at h
      obtain ⟨a, ha, h⟩ := Option.bind_eq_some_iff.mp h
      obtain ⟨rest, hrest, h⟩ := Option.bind_eq_some_iff.mp h
      cases h
      rw [List.forall_mem_cons] at hP ⊢
      exact ⟨hread x a ha hP.1, ih hP.2 hrest⟩
  | _ => cases h

end Schema

end Data
