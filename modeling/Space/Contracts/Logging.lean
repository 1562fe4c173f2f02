import Space.Data.Json
import Space.Data.Table

/-! # Log lines

    `contracts::logging`: every event becomes one JSON object. Its fields
    come from the event and from the spans around it, and a fixed list of
    keys is always there.

    The fields of all levels are merged into one table before the text of
    the line is taken out of it, under `message` first and then under `msg`.
    For every other key the level decides and the innermost one wins; for
    the text the spelling decides before the level. `line_merges_iff` says
    when that goes wrong. -/

namespace Space

open Data

/-! ## Section 1: The layer -/

/-- `REQUIRED_FIELDS`. -/
def requiredFields : List String :=
  ["ts", "level", "component", "request_id", "operation_id", "file_id", "version_id", "chunk_id",
    "operation", "duration_ms", "result", "error_code", "msg"]

/-- What a `Visit` is called with. Floats and all other types arrive as
    their `Debug` text. -/
inductive FieldValue where
  | debug (text : String)
  | str (s : String)
  | i64 (n : Int64)
  | u64 (n : UInt64)
  | bool (b : Bool)

/-- `Value::from`. -/
def FieldValue.toValue : FieldValue → Json
  | .debug text => .str text
  | .str s => .str s
  | .i64 n => if 0 ≤ n.toInt then .uint n.toUInt64 else .number (toString n.toInt)
  | .u64 n => .uint n
  | .bool b => .bool b

/-- A field of a span or an event, with its value. -/
abbrev Field := String × FieldValue

/-- `FieldBag`. -/
abbrev FieldBag := Table String Json

/-- `record`: each field is inserted in turn. -/
def FieldBag.record (bag : FieldBag) (fields : List Field) : FieldBag :=
  fields.foldl (fun bag f => bag.insert f.1 f.2.toValue) bag

/-- The fields a span was created with, and the updates that came later. -/
structure LogSpan where
  attrs : List Field
  updates : List (List Field)

/-- `on_new_span`: what becomes of the span's extension. -/
def onNewSpan (attrs : List Field) : Option FieldBag := some (FieldBag.record ∅ attrs)

/-- `on_record`. -/
def onRecord (values : List Field) (extension : Option FieldBag) : Option FieldBag :=
  extension.map fun bag => bag.record values

/-- The extension of a span, after all its updates. -/
def LogSpan.extension (s : LogSpan) : Option FieldBag :=
  s.updates.foldl (fun extension values => onRecord values extension) (onNewSpan s.attrs)

structure Event where
  level : String
  fields : List Field

/-- The loop over the span stack, outermost first. Inserting all of a bag
    lets it win. -/
def mergeSpans (merged : FieldBag) : List LogSpan → FieldBag
  | [] => merged
  | s :: inner =>
    match s.extension with
    | some bag => mergeSpans (bag ∪ merged) inner
    | none => mergeSpans merged inner

/-- The fields of all levels. -/
def mergedFields (spans : List LogSpan) (event : Event) : FieldBag :=
  FieldBag.record ∅ event.fields ∪ mergeSpans ∅ spans

/-- The text of the line, and what is left when it is taken out. -/
def takeMsg (merged : FieldBag) : Json × FieldBag :=
  match merged.lookup "message" with
  | some v => (v, merged.erase "message")
  | none => ((merged.lookup "msg").getD .null, merged.erase "msg")

/-- One required key of the line. The layer's own keys are not looked up. -/
def requiredField (ts level component : String) (msg : Json) (st : FieldBag × FieldBag)
    (key : String) : FieldBag × FieldBag :=
  if key = "ts" then (st.1.insert key (.str ts), st.2)
  else if key = "level" then (st.1.insert key (.str level), st.2)
  else if key = "component" then (st.1.insert key (.str component), st.2)
  else if key = "msg" then (st.1.insert key msg, st.2)
  else (st.1.insert key ((st.2.lookup key).getD .null), st.2.erase key)

/-- `on_event`: the object that is written. An extra field is kept unless
    its key is there already. -/
def onEvent (ts component : String) (spans : List LogSpan) (event : Event) : FieldBag :=
  let taken := takeMsg (mergedFields spans event)
  let st := requiredFields.foldl (requiredField ts event.level component taken.1) (∅, taken.2)
  st.1 ∪ st.2

/-! ## Section 2: What a log line should say -/

/-- The value that a list of fields gives a key: the last one counts. -/
def lastValue (key : String) : List Field → Option Json
  | [] => none
  | f :: fs => (lastValue key fs).or (if key = f.1 then some f.2.toValue else none)

def LogSpan.value (key : String) (s : LogSpan) : Option Json :=
  lastValue key (s.attrs ++ s.updates.flatten)

/-- The value of the innermost span that sets the key, for spans that are
    listed from the outside in. -/
def innermost (key : String) : List LogSpan → Option Json
  | [] => none
  | s :: inner => (innermost key inner).or (s.value key)

/-- The event's value if it sets the key, else the innermost span's. -/
def contextValue (key : String) (spans : List LogSpan) (event : Event) : Option Json :=
  (lastValue key event.fields).or (innermost key spans)

/-- The event's own text: its `message`, else its `msg`. -/
def Event.text (event : Event) : Option Json :=
  (lastValue "message" event.fields).or (lastValue "msg" event.fields)

/-- A value that some span sets under one of the two spellings. -/
def IsSpanText (spans : List LogSpan) (v : Json) : Prop :=
  ∃ s ∈ spans, s.value "message" = some v ∨ s.value "msg" = some v

/-- A line that merges its context correctly. The key `message` is a
    spelling of the text and not a field of its own. -/
structure MergesContext (ts component : String) (spans : List LogSpan) (event : Event)
    (line : FieldBag) : Prop where
  required : ∀ key ∈ requiredFields, key ∈ line
  ts : line.lookup "ts" = some (.str ts)
  level : line.lookup "level" = some (.str event.level)
  component : line.lookup "component" = some (.str component)
  context : ∀ key ∈ requiredFields, key ∉ ["ts", "level", "component", "msg"] →
    line.lookup key = some ((contextValue key spans event).getD .null)
  extra : ∀ key, key ∉ requiredFields → key ≠ "message" →
    line.lookup key = contextValue key spans event
  /-- The event's own text, whenever it has one. -/
  own : ∀ v, event.text = some v → line.lookup "msg" = some v
  /-- Else a span's text, and `null` when there is none. -/
  fallback : event.text = none → ∃ v, line.lookup "msg" = some v ∧
    (IsSpanText spans v ∨ v = .null ∧ ∀ w, ¬ IsSpanText spans w)

/-! ## Section 3: The merged table -/

theorem lookup_record (bag : FieldBag) (fields : List Field) (key : String) :
    (bag.record fields).lookup key = (lastValue key fields).or (bag.lookup key) := by
  unfold FieldBag.record
  induction fields generalizing bag with
  | nil => rfl
  | cons f fs ih =>
    rw [List.foldl_cons, ih, Table.lookup_insert_ite, lastValue, Option.or_assoc]
    by_cases hkey : key = f.1
    · rw [if_pos hkey, if_pos hkey, Option.some_or]
    · rw [if_neg hkey, if_neg hkey, Option.none_or]

theorem record_append (bag : FieldBag) (fields fields' : List Field) :
    (bag.record fields).record fields' = bag.record (fields ++ fields') := by
  unfold FieldBag.record
  rw [List.foldl_append]

/-- A span has a bag, with the last value of each of its fields. -/
theorem extension_eq (s : LogSpan) :
    s.extension = some (FieldBag.record ∅ (s.attrs ++ s.updates.flatten)) := by
  have hall : ∀ (updates : List (List Field)) (fields : List Field),
      updates.foldl (fun extension values => onRecord values extension)
        (some (FieldBag.record ∅ fields)) =
        some (FieldBag.record ∅ (fields ++ updates.flatten)) := by
    intro updates
    induction updates with
    | nil =>
      intro fields
      rw [List.flatten_nil, List.append_nil]
      rfl
    | cons values rest ih =>
      intro fields
      show rest.foldl _ (some ((FieldBag.record ∅ fields).record values)) = _
      rw [record_append, ih, List.flatten_cons, List.append_assoc]
  exact hall s.updates s.attrs

theorem lookup_mergeSpans (merged : FieldBag) (spans : List LogSpan) (key : String) :
    (mergeSpans merged spans).lookup key = (innermost key spans).or (merged.lookup key) := by
  induction spans generalizing merged with
  | nil => rfl
  | cons s inner ih =>
    rw [mergeSpans, extension_eq]
    show (mergeSpans _ inner).lookup key = _
    rw [ih, Table.lookup_union, lookup_record, Finmap.lookup_empty, Option.or_none, innermost,
      Option.or_assoc]
    rfl

/-- **The merge**: the event wins over the spans, and an inner span over an
    outer one. -/
theorem lookup_mergedFields (spans : List LogSpan) (event : Event) (key : String) :
    (mergedFields spans event).lookup key = contextValue key spans event := by
  rw [mergedFields, Table.lookup_union, lookup_record, lookup_mergeSpans, Finmap.lookup_empty,
    Option.or_none, Option.or_none, contextValue]

/-! ## Section 4: The line -/

section line

variable {ts level component : String} {msg : Json}

/-- What a required key is given when `merged` is what is left. -/
def requiredValue (ts level component : String) (msg : Json) (merged : FieldBag) (key : String) :
    Json :=
  if key = "ts" then .str ts
  else if key = "level" then .str level
  else if key = "component" then .str component
  else if key = "msg" then msg
  else (merged.lookup key).getD .null

theorem lookup_requiredField (ts level component : String) (msg : Json) (st : FieldBag × FieldBag)
    (key key' : String) :
    (requiredField ts level component msg st key).1.lookup key' =
        (if key' = key then some (requiredValue ts level component msg st.2 key)
          else st.1.lookup key') ∧
      (key' ≠ key →
        (requiredField ts level component msg st key).2.lookup key' = st.2.lookup key') := by
  unfold requiredField requiredValue
  split
  · exact ⟨Table.lookup_insert_ite _ _ _ _, fun _ => rfl⟩
  split
  · exact ⟨Table.lookup_insert_ite _ _ _ _, fun _ => rfl⟩
  split
  · exact ⟨Table.lookup_insert_ite _ _ _ _, fun _ => rfl⟩
  split
  · exact ⟨Table.lookup_insert_ite _ _ _ _, fun _ => rfl⟩
  · refine ⟨Table.lookup_insert_ite _ _ _ _, fun hne => ?_⟩
    rw [Table.lookup_erase_ite, if_neg hne]

/-- The loop over distinct keys gives each of them its value, and leaves the
    other fields alone. -/
theorem lookup_requiredFields (ts level component : String) (msg : Json) {keys : List String}
    (hnodup : keys.Nodup) (st : FieldBag × FieldBag) (key : String) :
    (keys.foldl (requiredField ts level component msg) st).1.lookup key =
        (if key ∈ keys then some (requiredValue ts level component msg st.2 key)
          else st.1.lookup key) ∧
      (key ∉ keys →
        (keys.foldl (requiredField ts level component msg) st).2.lookup key =
          st.2.lookup key) := by
  induction keys generalizing st with
  | nil => exact ⟨rfl, fun _ => rfl⟩
  | cons first rest ih =>
    obtain ⟨hfirst, hrest⟩ := List.nodup_cons.mp hnodup
    obtain ⟨hline, hleft⟩ := lookup_requiredField ts level component msg st first key
    obtain ⟨hline', hleft'⟩ := ih hrest (requiredField ts level component msg st first)
    rw [List.foldl_cons]
    constructor
    · rw [hline']
      by_cases hmem : key ∈ rest
      · -- the first key is another one, and did not touch this one
        have hne : key ≠ first := by
          rintro rfl
          exact hfirst hmem
        rw [if_pos hmem, if_pos (List.mem_cons_of_mem first hmem)]
        unfold requiredValue
        rw [hleft hne]
      · rw [if_neg hmem, hline]
        by_cases heq : key = first
        · subst heq
          rw [if_pos rfl, if_pos List.mem_cons_self]
        · have hno : key ∉ first :: rest := by
            rw [List.mem_cons, not_or]
            exact ⟨heq, hmem⟩
          rw [if_neg heq, if_neg hno]
    · intro hno
      rw [List.mem_cons, not_or] at hno
      rw [hleft' hno.2, hleft hno.1]

theorem requiredFields_nodup : requiredFields.Nodup := by decide

/-- The text: `message` from any level, before `msg` from any level. -/
theorem takeMsg_fst (merged : FieldBag) :
    (takeMsg merged).1 = ((merged.lookup "message").or (merged.lookup "msg")).getD .null := by
  unfold takeMsg
  cases merged.lookup "message" with
  | none => rfl
  | some v => rfl

/-- Taking the text out leaves the other keys alone. -/
theorem lookup_takeMsg (merged : FieldBag) {key : String} (hmessage : key ≠ "message")
    (hmsg : key ≠ "msg") : (takeMsg merged).2.lookup key = merged.lookup key := by
  unfold takeMsg
  cases merged.lookup "message" with
  | none =>
    show (merged.erase "msg").lookup key = _
    rw [Table.lookup_erase_ite, if_neg hmsg]
  | some v =>
    show (merged.erase "message").lookup key = _
    rw [Table.lookup_erase_ite, if_neg hmessage]

variable {spans : List LogSpan} {event : Event} {key : String}

/-- A required key of the line. -/
theorem lookup_onEvent_required (hkey : key ∈ requiredFields) :
    (onEvent ts component spans event).lookup key =
      some (requiredValue ts event.level component (takeMsg (mergedFields spans event)).1
        (takeMsg (mergedFields spans event)).2 key) := by
  unfold onEvent
  rw [Table.lookup_union, (lookup_requiredFields _ _ _ _ requiredFields_nodup _ key).1,
    if_pos hkey, Option.some_or]

/-- Any other key of the line. -/
theorem lookup_onEvent_extra (hkey : key ∉ requiredFields) (hmessage : key ≠ "message") :
    (onEvent ts component spans event).lookup key = contextValue key spans event := by
  have hmsg : key ≠ "msg" := by
    rintro rfl
    exact hkey (by decide)
  obtain ⟨hline, hleft⟩ := lookup_requiredFields ts event.level component
    (takeMsg (mergedFields spans event)).1 requiredFields_nodup
    (∅, (takeMsg (mergedFields spans event)).2) key
  unfold onEvent
  rw [Table.lookup_union, hline, if_neg hkey, hleft hkey, Finmap.lookup_empty, Option.none_or,
    lookup_takeMsg _ hmessage hmsg, lookup_mergedFields]

/-- The text of the line, as the code finds it. -/
theorem lookup_onEvent_msg : (onEvent ts component spans event).lookup "msg" =
    some (((contextValue "message" spans event).or (contextValue "msg" spans event)).getD
      .null) := by
  rw [lookup_onEvent_required (by decide), ← lookup_mergedFields, ← lookup_mergedFields,
    ← takeMsg_fst]
  rfl

end line

/-! ## Section 5: When the text is right -/

/-- The innermost value is some span's. -/
theorem innermost_mem {key : String} {spans : List LogSpan} {v : Json}
    (h : innermost key spans = some v) : ∃ s ∈ spans, s.value key = some v := by
  induction spans with
  | nil => cases h
  | cons s inner ih =>
    rw [innermost] at h
    cases hinner : innermost key inner with
    | some w =>
      rw [hinner, Option.some_or] at h
      obtain ⟨s', hs', hv⟩ := ih (hinner.trans h)
      exact ⟨s', List.mem_cons_of_mem s hs', hv⟩
    | none =>
      rw [hinner, Option.none_or] at h
      exact ⟨s, List.mem_cons_self, h⟩

theorem innermost_eq_none {key : String} {spans : List LogSpan} (h : innermost key spans = none) :
    ∀ s ∈ spans, s.value key = none := by
  induction spans with
  | nil => simp
  | cons s inner ih =>
    rw [innermost, Option.or_eq_none_iff] at h
    intro s' hs'
    rcases List.mem_cons.mp hs' with hs' | hs'
    · rw [hs']
      exact h.2
    · exact ih h.1 s' hs'

/-- An event without a text of its own gets a span's. -/
theorem span_text (spans : List LogSpan) {event : Event} (h : event.text = none) :
    ∃ v, ((contextValue "message" spans event).or (contextValue "msg" spans event)).getD .null =
      v ∧ (IsSpanText spans v ∨ v = .null ∧ ∀ w, ¬ IsSpanText spans w) := by
  rw [Event.text, Option.or_eq_none_iff] at h
  rw [contextValue, contextValue, h.1, h.2, Option.none_or, Option.none_or]
  cases hmessage : innermost "message" spans with
  | some v =>
    obtain ⟨s, hs, hv⟩ := innermost_mem hmessage
    exact ⟨v, rfl, .inl ⟨s, hs, .inl hv⟩⟩
  | none =>
    cases hmsg : innermost "msg" spans with
    | some v =>
      obtain ⟨s, hs, hv⟩ := innermost_mem hmsg
      exact ⟨v, rfl, .inl ⟨s, hs, .inr hv⟩⟩
    | none =>
      refine ⟨.null, rfl, .inr ⟨rfl, ?_⟩⟩
      intro w hw
      obtain ⟨s, hs, hv | hv⟩ := hw
      · rw [innermost_eq_none hmessage s hs] at hv
        cases hv
      · rw [innermost_eq_none hmsg s hs] at hv
        cases hv

/-- **When a log line merges its context correctly**: the event has its text
    under `message`, or has none, or no span around it has a `message` with
    another text. -/
theorem line_merges_iff (ts component : String) (spans : List LogSpan) (event : Event) :
    MergesContext ts component spans event (onEvent ts component spans event) ↔
      ∀ v w, lastValue "message" event.fields = none → lastValue "msg" event.fields = some v →
        innermost "message" spans = some w → w = v := by
  constructor
  · intro h v w hmessage hmsg hspan
    have hown : event.text = some v := by
      rw [Event.text, hmessage, hmsg, Option.none_or]
    have hline := h.own v hown
    rw [lookup_onEvent_msg, contextValue, hmessage, hspan] at hline
    exact Option.some.inj hline
  · intro h
    constructor
    · intro key hkey
      exact Finmap.mem_iff.mpr ⟨_, lookup_onEvent_required hkey⟩
    · rw [lookup_onEvent_required (by decide)]
      rfl
    · rw [lookup_onEvent_required (by decide)]
      rfl
    · rw [lookup_onEvent_required (by decide)]
      rfl
    · intro key hkey hown
      simp only [List.mem_cons, List.not_mem_nil, or_false, not_or] at hown
      have hmessage : key ≠ "message" := by
        rintro rfl
        exact absurd hkey (by decide)
      rw [lookup_onEvent_required hkey, requiredValue, if_neg hown.1, if_neg hown.2.1,
        if_neg hown.2.2.1, if_neg hown.2.2.2, lookup_takeMsg _ hmessage hown.2.2.2,
        lookup_mergedFields]
    · intro key hkey hmessage
      exact lookup_onEvent_extra hkey hmessage
    · intro v hv
      rw [lookup_onEvent_msg, contextValue, contextValue]
      rw [Event.text] at hv
      cases hmessage : lastValue "message" event.fields with
      | some u =>
        rw [hmessage, Option.some_or] at hv
        rw [Option.some_or, Option.some_or]
        exact hv
      | none =>
        rw [hmessage, Option.none_or] at hv
        rw [hv, Option.none_or, Option.some_or]
        -- a span's `message` comes first, so it has to be the same text
        cases hspan : innermost "message" spans with
        | none => rfl
        | some w => exact congrArg some (h v w hmessage hv hspan)
    · intro hnone
      obtain ⟨v, hv, htext⟩ := span_text spans hnone
      exact ⟨v, by rw [lookup_onEvent_msg, hv], htext⟩

namespace Sample

/-- A span with a `message`. -/
def upload : LogSpan where
  attrs := [("request_id", .str "r_1"), ("message", .str "upload")]
  updates := []

/-- An event with an explicit `msg`. -/
def retry : Event where
  level := "WARN"
  fields := [("msg", .str "retry")]

end Sample

/-- The text of the span is written in place of the event's own. -/
theorem span_text_wins : ¬ ∀ (ts component : String) (spans : List LogSpan) (event : Event),
    MergesContext ts component spans event (onEvent ts component spans event) := by
  intro h
  have hline := (h "" "api" [Sample.upload] Sample.retry).own (.str "retry") rfl
  rw [lookup_onEvent_msg] at hline
  have htext : ((contextValue "message" [Sample.upload] Sample.retry).or
      (contextValue "msg" [Sample.upload] Sample.retry)).getD .null = .str "upload" := rfl
  rw [htext, Option.some.injEq, Json.str.injEq] at hline
  exact absurd hline (by decide)

end Space
