import Space.Data.Json
import Space.Rust.Text

/-! # JSON text

    The compact text of a document, as a serializer without options writes
    it, and a reader of such texts. `ofBytes_toBytes` is the round trip, for
    the documents that `Json.within` describes.

    The reader takes fuel; the length of the text is always enough
    (`readValue_compact`). -/

namespace Data

namespace Json

open Rust

/-! ## Section 1: Writing -/

/-- A character inside quotes. -/
def escape (c : Char) : List Char :=
  if c = '"' then ['\\', '"']
  else if c = '\\' then ['\\', '\\']
  else if c = '\n' then ['\\', 'n']
  else if c = '\r' then ['\\', 'r']
  else if c = '\t' then ['\\', 't']
  else if c = '\x08' then ['\\', 'b']
  else if c = '\x0c' then ['\\', 'f']
  else if c.toNat < 32 then
    ['\\', 'u', '0', '0', Nat.digitChar (c.toNat / 16), Nat.digitChar (c.toNat % 16)]
  else [c]

def quoted (s : String) : List Char := '"' :: s.toList.flatMap escape ++ ['"']

mutual

/-- The text of a document, without whitespace. -/
def compact : Json → List Char
  | null => ['n', 'u', 'l', 'l']
  | bool true => ['t', 'r', 'u', 'e']
  | bool false => ['f', 'a', 'l', 's', 'e']
  | uint n => (decimal n).toList
  | number text => text.toList
  | str s => quoted s
  | arr [] => ['[', ']']
  | arr (x :: xs) => '[' :: compact x ++ compactItems xs
  | obj [] => ['{', '}']
  | obj ((k, v) :: fs) => '{' :: quoted k ++ ':' :: compact v ++ compactFields fs

/-- The items after the first one, and the end of the array. -/
def compactItems : List Json → List Char
  | [] => [']']
  | x :: xs => ',' :: compact x ++ compactItems xs

def compactFields : List (String × Json) → List Char
  | [] => ['}']
  | (k, v) :: fs => ',' :: quoted k ++ ':' :: compact v ++ compactFields fs

end

/-! ## Section 2: Reading -/

/-- The rest of a quoted text, up to its closing quote. -/
def readQuoted : List Char → Option (List Char × List Char)
  | '"' :: rest => some ([], rest)
  | '\\' :: '"' :: rest => (readQuoted rest).map fun p => ('"' :: p.1, p.2)
  | '\\' :: '\\' :: rest => (readQuoted rest).map fun p => ('\\' :: p.1, p.2)
  | '\\' :: 'n' :: rest => (readQuoted rest).map fun p => ('\n' :: p.1, p.2)
  | '\\' :: 'r' :: rest => (readQuoted rest).map fun p => ('\r' :: p.1, p.2)
  | '\\' :: 't' :: rest => (readQuoted rest).map fun p => ('\t' :: p.1, p.2)
  | '\\' :: 'b' :: rest => (readQuoted rest).map fun p => ('\x08' :: p.1, p.2)
  | '\\' :: 'f' :: rest => (readQuoted rest).map fun p => ('\x0c' :: p.1, p.2)
  | '\\' :: 'u' :: '0' :: '0' :: hi :: lo :: rest => do
    let hi ← hexValue hi
    let lo ← hexValue lo
    let (s, rest) ← readQuoted rest
    return (Char.ofNat (16 * hi + lo) :: s, rest)
  | '\\' :: _ => none
  | c :: rest => (readQuoted rest).map fun p => (c :: p.1, p.2)
  | [] => none

/-- A key and the colon after it. -/
def readKey : List Char → Option (String × List Char)
  | '"' :: rest => do
    let (key, rest) ← readQuoted rest
    match rest with
    | ':' :: rest => return (String.ofList key, rest)
    | _ => none
  | _ => none

mutual

/-- A document and the text after it. -/
def readValue : Nat → List Char → Option (Json × List Char)
  | 0, _ => none
  | _ + 1, 'n' :: 'u' :: 'l' :: 'l' :: rest => some (null, rest)
  | _ + 1, 't' :: 'r' :: 'u' :: 'e' :: rest => some (bool true, rest)
  | _ + 1, 'f' :: 'a' :: 'l' :: 's' :: 'e' :: rest => some (bool false, rest)
  | _ + 1, '"' :: rest => (readQuoted rest).map fun p => (str (String.ofList p.1), p.2)
  | _ + 1, '[' :: ']' :: rest => some (arr [], rest)
  | n + 1, '[' :: rest => do
    let (x, rest) ← readValue n rest
    let (xs, rest) ← readItems n rest
    return (arr (x :: xs), rest)
  | _ + 1, '{' :: '}' :: rest => some (obj [], rest)
  | n + 1, '{' :: rest => do
    let (k, rest) ← readKey rest
    let (v, rest) ← readValue n rest
    let (fs, rest) ← readFields n rest
    return (obj ((k, v) :: fs), rest)
  | _ + 1, rest => do
    let n ← parseU64 (rest.takeWhile Char.isDigit)
    return (uint n, rest.dropWhile Char.isDigit)

def readItems : Nat → List Char → Option (List Json × List Char)
  | 0, _ => none
  | _ + 1, ']' :: rest => some ([], rest)
  | n + 1, ',' :: rest => do
    let (x, rest) ← readValue n rest
    let (xs, rest) ← readItems n rest
    return (x :: xs, rest)
  | _ + 1, _ => none

def readFields : Nat → List Char → Option (List (String × Json) × List Char)
  | 0, _ => none
  | _ + 1, '}' :: rest => some ([], rest)
  | n + 1, ',' :: rest => do
    let (k, rest) ← readKey rest
    let (v, rest) ← readValue n rest
    let (fs, rest) ← readFields n rest
    return ((k, v) :: fs, rest)
  | _ + 1, _ => none

end

/-- The document that a whole text denotes. -/
def read (text : List Char) : Option Json :=
  match readValue (text.length + 1) text with
  | some (j, []) => some j
  | _ => none

/-! ## Section 3: The round trip -/

/-- An escaped character is read as the character. -/
theorem readQuoted_escape (c : Char) (rest : List Char) :
    readQuoted (escape c ++ rest) = (readQuoted rest).map fun p => (c :: p.1, p.2) := by
  unfold escape
  -- the characters with an escape of their own, then the other control characters
  by_cases hquote : c = '"'
  · subst hquote
    simp [readQuoted]
  by_cases hslash : c = '\\'
  · subst hslash
    simp [readQuoted]
  by_cases hn : c = '\n'
  · subst hn
    simp [readQuoted]
  by_cases hr : c = '\r'
  · subst hr
    simp [readQuoted]
  by_cases ht : c = '\t'
  · subst ht
    simp [readQuoted]
  by_cases hb : c = '\x08'
  · subst hb
    simp [readQuoted]
  by_cases hf : c = '\x0c'
  · subst hf
    simp [readQuoted]
  by_cases hcontrol : c.toNat < 32
  · have hhi := hexValue_digitChar (d := c.toNat / 16) (by omega)
    have hlo := hexValue_digitChar (d := c.toNat % 16) (by omega)
    have hc : Char.ofNat (16 * (c.toNat / 16) + c.toNat % 16) = c := by
      rw [Nat.div_add_mod, Char.ofNat_toNat]
    simp only [hquote, hslash, hn, hr, ht, hb, hf, hcontrol, if_true, if_false, List.cons_append,
      List.nil_append, readQuoted, hhi, hlo]
    cases readQuoted rest <;> simp [hc]
  · simp [hquote, hslash, hn, hr, ht, hb, hf, hcontrol, readQuoted]

theorem readQuoted_flatMap (s rest : List Char) :
    readQuoted (s.flatMap escape ++ '"' :: rest) = some (s, rest) := by
  induction s with
  | nil => simp [readQuoted]
  | cons c s ih =>
    rw [List.flatMap_cons, List.append_assoc, readQuoted_escape, ih]
    rfl

theorem readKey_quoted (k : String) (rest : List Char) :
    readKey (quoted k ++ ':' :: rest) = some (k, rest) := by
  simp only [quoted, List.cons_append, List.append_assoc, List.nil_append, readKey,
    readQuoted_flatMap]
  simp

/-- No digit comes next, so a number that was read before ends there. -/
def EndsNumber (rest : List Char) : Prop := ∀ c ∈ rest.head?, c.isDigit = false

theorem endsNumber_nil : EndsNumber [] := fun _ hc => by cases hc

theorem endsNumber_items (xs : List Json) (rest : List Char) :
    EndsNumber (compactItems xs ++ rest) := by
  cases xs <;> simp [EndsNumber, compactItems]

theorem endsNumber_fields (fs : List (String × Json)) (rest : List Char) :
    EndsNumber (compactFields fs ++ rest) := by
  cases fs <;> simp [EndsNumber, compactFields]

theorem readNumber_decimal (n : UInt64) {rest : List Char} (h : EndsNumber rest) :
    parseU64 (((decimal n).toList ++ rest).takeWhile Char.isDigit) = some n ∧
      ((decimal n).toList ++ rest).dropWhile Char.isDigit = rest := by
  have hdigits : ∀ c ∈ (decimal n).toList, c.isDigit = true := (digits_decimal n).digits
  constructor
  · rw [List.takeWhile_append_of_pos hdigits]
    cases rest with
    | nil => simp [parseU64_decimal]
    | cons c rest => simp [h c rfl, parseU64_decimal]
  · rw [List.dropWhile_append_of_pos hdigits]
    cases rest with
    | nil => rfl
    | cons c rest => simp [h c rfl]

/-- A text that starts with a digit is read as a number. -/
theorem readValue_uint (n : UInt64) (fuel : Nat) {rest : List Char} (h : EndsNumber rest) :
    readValue (fuel + 1) ((decimal n).toList ++ rest) = some (uint n, rest) := by
  obtain ⟨hvalue, hrest⟩ := readNumber_decimal n h
  cases hd : (decimal n).toList with
  | nil => exact absurd hd (digits_decimal n).nonempty
  | cons d ds =>
    have hdigit : d.isDigit = true := (digits_decimal n).digits d (by simp [hd])
    rw [hd] at hvalue hrest
    -- a digit opens none of the other values
    have hne : ∀ c, c.isDigit = false → d ≠ c := by
      rintro c hc rfl
      rw [hdigit] at hc
      cases hc
    rw [List.cons_append] at hvalue hrest ⊢
    simp [readValue, hne 'n' (by decide), hne 't' (by decide), hne 'f' (by decide),
      hne '"' (by decide), hne '[' (by decide), hne '{' (by decide), hvalue, hrest]

/-- No document starts with a closing bracket. -/
theorem readValue_bracket (n : Nat) (rest : List Char) : readValue n (']' :: rest) = none := by
  cases n with
  | zero => rfl
  | succ n => simp [readValue, show ¬ (']').isDigit by decide, show parseU64 [] = none by decide]

mutual

/-- **Round trip**: the text of a document is read as the document, whatever
    comes after it. -/
theorem readValue_compact (j : Json) {k n : Nat} {t : List Char} (hj : j.within k = true)
    (hn : (compact j).length < n) (hrest : EndsNumber t) :
    readValue n (compact j ++ t) = some (j, t) := by
  cases n with
  | zero => omega
  | succ n =>
    match j with
    | null => rfl
    | bool true => rfl
    | bool false => rfl
    | number _ => cases hj
    | uint m => exact readValue_uint m n hrest
    | str s =>
      simp only [compact, quoted, List.cons_append, List.append_assoc, List.nil_append, readValue,
        readQuoted_flatMap]
      simp
    | arr [] => rfl
    | arr (x :: xs) =>
      simp only [within, withinItems, Bool.and_eq_true] at hj
      simp only [compact, List.length_cons, List.length_append] at hn
      have hx := readValue_compact x (t := compactItems xs ++ t) hj.2.1
        (show _ < n by omega) (endsNumber_items xs t)
      have hxs := readItems_compact xs (t := t) hj.2.2 (show _ < n by omega)
      -- the first item is not mistaken for the end of the array
      have hopen : ∀ tail, compact x ++ (compactItems xs ++ t) ≠ ']' :: tail := by
        intro tail heq
        rw [heq, readValue_bracket] at hx
        cases hx
      simp only [compact, List.cons_append, List.append_assoc]
      rw [readValue]
      · simp only [hx, hxs, Option.bind_eq_bind, Option.bind_some, Option.pure_def]
      · exact hopen
    | obj [] => rfl
    | obj ((key, v) :: fs) =>
      simp only [within, withinFields, Bool.and_eq_true] at hj
      simp only [compact, List.length_cons, List.length_append] at hn
      have hv := readValue_compact v (t := compactFields fs ++ t) hj.2.1
        (show _ < n by omega) (endsNumber_fields fs t)
      have hfs := readFields_compact fs (t := t) hj.2.2 (show _ < n by omega)
      have hkey := readKey_quoted key (compact v ++ (compactFields fs ++ t))
      -- nor the first field for the end of the object
      have hopen : ∀ tail,
          quoted key ++ ':' :: (compact v ++ (compactFields fs ++ t)) ≠ '}' :: tail := by
        intro tail heq
        cases heq
      simp only [compact, List.cons_append, List.append_assoc]
      rw [readValue]
      · simp only [hkey, hv, hfs, Option.bind_eq_bind, Option.bind_some, Option.pure_def]
      · exact hopen

theorem readItems_compact (xs : List Json) {k n : Nat} {t : List Char}
    (hxs : withinItems k xs = true) (hn : (compactItems xs).length < n) :
    readItems n (compactItems xs ++ t) = some (xs, t) := by
  cases n with
  | zero => omega
  | succ n =>
    match xs with
    | [] => rfl
    | x :: xs =>
      simp only [withinItems, Bool.and_eq_true] at hxs
      simp only [compactItems, List.length_cons, List.length_append] at hn
      have hx := readValue_compact x (t := compactItems xs ++ t) hxs.1
        (show _ < n by omega) (endsNumber_items xs t)
      have hxs := readItems_compact xs (t := t) hxs.2 (show _ < n by omega)
      simp only [compactItems, List.cons_append, List.append_assoc, readItems, hx, hxs,
        Option.bind_eq_bind, Option.bind_some, Option.pure_def]

theorem readFields_compact (fs : List (String × Json)) {k n : Nat} {t : List Char}
    (hfs : withinFields k fs = true) (hn : (compactFields fs).length < n) :
    readFields n (compactFields fs ++ t) = some (fs, t) := by
  cases n with
  | zero => omega
  | succ n =>
    match fs with
    | [] => rfl
    | (key, v) :: fs =>
      simp only [withinFields, Bool.and_eq_true] at hfs
      simp only [compactFields, List.length_cons, List.length_append] at hn
      have hv := readValue_compact v (t := compactFields fs ++ t) hfs.1
        (show _ < n by omega) (endsNumber_fields fs t)
      have hfs := readFields_compact fs (t := t) hfs.2 (show _ < n by omega)
      simp only [compactFields, List.cons_append, List.append_assoc, readFields, readKey_quoted,
        hv, hfs, Option.bind_eq_bind, Option.bind_some, Option.pure_def]

end

theorem read_compact {j : Json} {k : Nat} (hj : j.within k = true) :
    read (compact j) = some j := by
  have h := readValue_compact j (n := (compact j).length + 1) hj (Nat.lt_succ_self _)
    endsNumber_nil
  rw [List.append_nil] at h
  rw [read, h]

/-! ## Section 4: Bytes -/

/-- A text in UTF-8. -/
def utf8 (text : List Char) : List UInt8 := (String.ofList text).toByteArray.data.toList

def toBytes (j : Json) : List UInt8 := utf8 (compact j)

/-- The document that a UTF-8 text denotes. -/
def ofBytes (bytes : List UInt8) : Option Json := do
  let text ← (ByteArray.mk bytes.toArray).utf8Decode?
  read text.toList

theorem ofBytes_utf8 (text : List Char) : ofBytes (utf8 text) = read text := by
  unfold ofBytes utf8
  rw [Array.toArray_toList, String.toByteArray_ofList, List.utf8Decode?_utf8Encode]
  rfl

/-- **Round trip** in bytes. -/
theorem ofBytes_toBytes {j : Json} {k : Nat} (hj : j.within k = true) :
    ofBytes (toBytes j) = some j := by
  rw [toBytes, ofBytes_utf8, read_compact hj]

end Json

end Data
