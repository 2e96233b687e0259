import DecisionAssurance.ExportEvents
import DecisionAssurance.IsoTimes

/-!
# Envelopes of events

`EventRegistry.parse` with the envelope that it returns, `EventEnvelope.as_dict`, and the migration
of a value of version `0.9.0`. An envelope survives being written, whatever form and offset its
time was read in, and a migration loses no key.
-/

namespace DecisionAssurance.Export

open IsoTimes (DateTime isoformat readIso replace replaceChar)

structure EventEnvelope where
  eventType : PyString
  schemaVersion : PyString
  eventId : PyString
  occurredAt : DateTime
  tenantId : PyString
  actorId : PyString
  correlationId : PyString
  sourceComponent : PyString
  payload : List (PyString × RawJson)

/-- `occurred_at.isoformat().replace("+00:00", "Z")` -/
def writtenTime (t : DateTime) : PyString :=
  replace (py "+00:00") [.char 'Z'] ((isoformat t).map CodePoint.char)

def EventEnvelope.asDict (e : EventEnvelope) : List (PyString × RawJson) :=
  [(py "event_type", .str e.eventType), (py "schema_version", .str e.schemaVersion),
    (py "event_id", .str e.eventId), (py "timestamp", .str (writtenTime e.occurredAt)),
    (py "tenant_id", .str e.tenantId), (py "actor_id", .str e.actorId),
    (py "correlation_id", .str e.correlationId),
    (py "source_component", .str e.sourceComponent), (py "payload", .obj e.payload)]

structure MigrationResult where
  event : EventEnvelope
  sourceVersion : PyString
  targetVersion : PyString
  originalHash : PyString

def currentVersion : String := "1.0.0"

def legacyVersion : String := "0.9.0"

def eventKeys : List String :=
  ["event_type", "schema_version", "event_id", "timestamp", "tenant_id", "actor_id",
    "correlation_id", "source_component", "payload"]

def legacyEventKeys : List String :=
  ["event_type", "schema_version", "event_id", "timestamp", "tenant_id", "actor_id",
    "correlation_id", "source", "payload"]

/-! ## Dictionaries -/

/-- `value[key] = x` -/
def setItem (fields : List (PyString × RawJson)) (key : String) (x : RawJson) :
    List (PyString × RawJson) :=
  if py key ∈ fields.map Prod.fst then
    fields.map fun f => (f.1, if f.1 = py key then x else f.2)
  else fields ++ [(py key, x)]

/-- What `value.pop(key)` leaves. -/
def popItem (fields : List (PyString × RawJson)) (key : String) : List (PyString × RawJson) :=
  fields.filter fun f => f.1 ≠ py key

/-! ## The text of a legacy value -/

def CodePoint.toNat : CodePoint → ℕ
  | .char c => c.toNat
  | .surrogate n => 0xD800 + n

def escapePoint : CodePoint → List Char
  | .char c => Json.escapeAscii c
  | .surrogate n => '\\' :: 'u' :: Json.hexDigits (0xD800 + n)

def quotePoints (text : PyString) : List Char := '"' :: text.flatMap escapePoint ++ ['"']

def pointsLe (a b : PyString × List Char) : Prop :=
  a.1.map CodePoint.toNat ≤ b.1.map CodePoint.toNat

instance : DecidableRel pointsLe :=
  fun a b => inferInstanceAs (Decidable (a.1.map CodePoint.toNat ≤ b.1.map CodePoint.toNat))

mutual

/-- `json.dumps(value, sort_keys=True, separators=(",", ":"))` -/
def dumpsRaw : RawJson → List Char
  | .null => "null".toList
  | .bool true => "true".toList
  | .bool false => "false".toList
  | .int n => (toString n).toList
  | .float text => text.toList
  | .str text => quotePoints text
  | .arr items => '[' :: [','].intercalate (dumpsRawItems items) ++ [']']
  | .obj fields =>
    '{' :: [','].intercalate (((dumpsRawFields fields).insertionSort pointsLe).map
      fun f => quotePoints f.1 ++ ':' :: f.2) ++ ['}']

def dumpsRawItems : List RawJson → List (List Char)
  | [] => []
  | x :: xs => dumpsRaw x :: dumpsRawItems xs

def dumpsRawFields : List (PyString × RawJson) → List (PyString × List Char)
  | [] => []
  | (k, x) :: xs => (k, dumpsRaw x) :: dumpsRawFields xs

end

/-! ## `EventRegistry` -/

section Registry

variable (other : PyString → Option DateTime)

/-- `datetime.fromisoformat`: the form that `isoformat` writes, and its other forms. -/
def fromisoformat (text : PyString) : Option DateTime :=
  match (encodeText text).bind fun s => readIso s.toList with
  | some t => some t
  | none => other text

/-- `_text` -/
def textOr (code : String) (value : RawJson) : Except String PyString :=
  orRaise code (eventText value)

def payloadOf (value : List (PyString × RawJson)) : Option (List (PyString × RawJson)) :=
  match item value "payload" with
  | .obj payload => some payload
  | _ => none

def occurredOf (value : List (PyString × RawJson)) : Option DateTime :=
  (eventText (item value "timestamp")).bind fun text =>
    (fromisoformat other (replaceZulu text)).filter fun t => t.offset.isSome

def EventRegistry.parse (value : List (PyString × RawJson)) : Except String EventEnvelope :=
  if isText (item value "schema_version") currentVersion = false then
    .error "EVENT_VERSION_UNSUPPORTED"
  else if hasExactly value eventKeys = false then .error "EVENT_ENVELOPE_INVALID"
  else do
    let payload ← orRaise "EVENT_ENVELOPE_INVALID" (payloadOf value)
    let occurred ← orRaise "EVENT_TIMESTAMP_INVALID" (occurredOf other value)
    let eventType ← textOr "EVENT_TYPE_INVALID" (item value "event_type")
    if eventType ∉ supportedTypes.map py then .error "EVENT_TYPE_UNSUPPORTED"
    else do
      let eventId ← textOr "EVENT_ID_INVALID" (item value "event_id")
      let tenantId ← textOr "EVENT_TENANT_INVALID" (item value "tenant_id")
      let actorId ← textOr "EVENT_ACTOR_INVALID" (item value "actor_id")
      let correlationId ← textOr "EVENT_CORRELATION_INVALID" (item value "correlation_id")
      let sourceComponent ← textOr "EVENT_SOURCE_INVALID" (item value "source_component")
      return ⟨eventType, py currentVersion, eventId, occurred, tenantId, actorId, correlationId,
        sourceComponent, payload⟩

/-- The value that is parsed instead of a legacy one. -/
def migratedValue (value : List (PyString × RawJson)) (targetVersion : PyString) :
    List (PyString × RawJson) :=
  let versioned := setItem value "schema_version" (.str targetVersion)
  setItem (popItem versioned "source") "source_component" (item versioned "source")

def EventRegistry.migrate (sha256 : Bytes → String) (value : List (PyString × RawJson))
    (targetVersion : PyString) : Except String MigrationResult :=
  if isText (item value "schema_version") legacyVersion = false ∨
      targetVersion ≠ py currentVersion then
    .error "EVENT_MIGRATION_UNSUPPORTED"
  else if hasExactly value legacyEventKeys = false then .error "EVENT_MIGRATION_DATA_LOSS"
  else do
    let event ← EventRegistry.parse other (migratedValue value targetVersion)
    return ⟨event, py legacyVersion, py currentVersion,
      py ("sha256:" ++ sha256 (utf8 (dumpsRaw (.obj value))))⟩

/-! ## What is parsed -/

/-- What a value that is parsed says, and the envelope says after it. -/
structure Parsed (value : List (PyString × RawJson)) (e : EventEnvelope) : Prop where
  version : isText (item value "schema_version") currentVersion = true
  keys : hasExactly value eventKeys = true
  payload : item value "payload" = .obj e.payload
  time : occurredOf other value = some e.occurredAt
  eventType : eventText (item value "event_type") = some e.eventType
  supported : e.eventType ∈ supportedTypes.map py
  schema : e.schemaVersion = py currentVersion
  eventId : eventText (item value "event_id") = some e.eventId
  tenantId : eventText (item value "tenant_id") = some e.tenantId
  actorId : eventText (item value "actor_id") = some e.actorId
  correlationId : eventText (item value "correlation_id") = some e.correlationId
  sourceComponent : eventText (item value "source_component") = some e.sourceComponent

variable {other}

theorem payloadOf_eq {value payload : List (PyString × RawJson)} :
    payloadOf value = some payload ↔ item value "payload" = .obj payload := by
  unfold payloadOf
  cases item value "payload" <;> simp

theorem parsed_of_parse {value : List (PyString × RawJson)} {e : EventEnvelope}
    (h : EventRegistry.parse other value = .ok e) : Parsed other value e := by
  unfold EventRegistry.parse at h
  split_ifs at h with hversion hkeys
  obtain ⟨payload, hpayload, h⟩ := bind_ok_cases h
  obtain ⟨occurred, htime, h⟩ := bind_ok_cases h
  obtain ⟨eventType, htype, h⟩ := bind_ok_cases h
  split_ifs at h with hsupported
  obtain ⟨eventId, hevent, h⟩ := bind_ok_cases h
  obtain ⟨tenantId, htenant, h⟩ := bind_ok_cases h
  obtain ⟨actorId, hactor, h⟩ := bind_ok_cases h
  obtain ⟨correlationId, hcorrelation, h⟩ := bind_ok_cases h
  obtain ⟨sourceComponent, hsource, h⟩ := bind_ok_cases h
  cases h
  exact {
    version := by simpa using hversion
    keys := by simpa using hkeys
    payload := payloadOf_eq.mp (orRaise_ok.mp hpayload)
    time := orRaise_ok.mp htime
    eventType := orRaise_ok.mp htype
    supported := hsupported
    schema := rfl
    eventId := orRaise_ok.mp hevent
    tenantId := orRaise_ok.mp htenant
    actorId := orRaise_ok.mp hactor
    correlationId := orRaise_ok.mp hcorrelation
    sourceComponent := orRaise_ok.mp hsource }

theorem Parsed.parse {value : List (PyString × RawJson)} {e : EventEnvelope}
    (h : Parsed other value e) : EventRegistry.parse other value = .ok e := by
  have hpayload : orRaise "EVENT_ENVELOPE_INVALID" (payloadOf value) = .ok e.payload :=
    orRaise_ok.mpr (payloadOf_eq.mpr h.payload)
  have htime : orRaise "EVENT_TIMESTAMP_INVALID" (occurredOf other value) = .ok e.occurredAt :=
    orRaise_ok.mpr h.time
  have htext {code : String} {x : RawJson} {s : PyString} (hx : eventText x = some s) :
      textOr code x = .ok s := orRaise_ok.mpr hx
  have hschema := h.schema
  unfold EventRegistry.parse
  simp only [h.version, h.keys, hpayload, htime, htext h.eventType, h.supported, htext h.eventId,
    htext h.tenantId, htext h.actorId, htext h.correlationId, htext h.sourceComponent, ok_bind,
    Bool.true_eq_false, if_false, not_true_eq_false, ← hschema]
  rfl

end Registry

/-! ## Lookups -/

theorem hasExactly_iff {fields : List (PyString × RawJson)} {keys : List String} :
    hasExactly fields keys = true ↔
      ∀ name, name ∈ fields.map Prod.fst ↔ name ∈ keys.map py := by
  simp only [hasExactly, Bool.and_eq_true, List.all_eq_true, decide_eq_true_eq]
  constructor
  · rintro ⟨hknown, hpresent⟩ name
    constructor
    · intro h
      obtain ⟨f, hf, rfl⟩ := List.mem_map.mp h
      exact hknown f hf
    · intro h
      obtain ⟨key, hkey, rfl⟩ := List.mem_map.mp h
      exact hpresent key hkey
  · intro h
    exact ⟨fun f hf => (h f.1).mp (List.mem_map_of_mem hf),
      fun key hkey => (h (py key)).mpr (List.mem_map_of_mem hkey)⟩

theorem item_map {fields : List (PyString × RawJson)} {g : PyString × RawJson → PyString × RawJson}
    {key key' : String} (hname : ∀ f ∈ fields, (g f).1 = py key' ↔ f.1 = py key)
    (hvalue : ∀ f ∈ fields, f.1 = py key → (g f).2 = f.2) :
    item (fields.map g) key' = item fields key := by
  unfold item
  induction fields with
  | nil => rfl
  | cons f fields ih =>
    have hrest := ih (fun f hf => hname f (List.mem_cons_of_mem _ hf))
      (fun f hf => hvalue f (List.mem_cons_of_mem _ hf))
    have hhead := hname f List.mem_cons_self
    by_cases h : f.1 = py key
    · simp [hhead.mpr h, h, hvalue f List.mem_cons_self h]
    · have hne : (g f).1 ≠ py key' := fun heq => h (hhead.mp heq)
      simpa [List.find?_cons, hne, h] using hrest

theorem item_append_missing {fields rest : List (PyString × RawJson)} {key : String}
    (h : py key ∉ fields.map Prod.fst) : item (fields ++ rest) key = item rest key := by
  have hnone : fields.find? (fun f => decide (f.1 = py key)) = none := by
    rw [List.find?_eq_none]
    intro f hf heq
    exact h (List.mem_map.mpr ⟨f, hf, of_decide_eq_true heq⟩)
  rw [item, item, List.find?_append, hnone, Option.none_or]

theorem item_setItem_ne {fields : List (PyString × RawJson)} {key key' : String} (x : RawJson)
    (h : key' ≠ key) : item (setItem fields key x) key' = item fields key' := by
  have hne : py key' ≠ py key := fun heq => h (py_inj.mp heq)
  unfold setItem
  split_ifs with hmem
  · refine item_map (fun f _ => Iff.rfl) fun f _ hf => ?_
    rw [if_neg (by rw [hf]; exact hne)]
  · by_cases hmem' : py key' ∈ fields.map Prod.fst
    · obtain ⟨f, hf, hname⟩ := List.mem_map.mp hmem'
      have hsome : (fields.find? fun f => decide (f.1 = py key')).isSome = true := by
        rw [List.find?_isSome]
        exact ⟨f, hf, decide_eq_true hname⟩
      obtain ⟨g, hg⟩ := Option.isSome_iff_exists.mp hsome
      rw [item, item, List.find?_append, hg, Option.some_or]
    · have hempty : fields.find? (fun f => decide (f.1 = py key')) = none := by
        rw [List.find?_eq_none]
        intro f hf heq
        exact hmem' (List.mem_map.mpr ⟨f, hf, of_decide_eq_true heq⟩)
      rw [item_append_missing hmem', item_cons_ne (Ne.symm h), item, item, hempty]
      rfl

theorem item_setItem_self {fields : List (PyString × RawJson)} {key : String} (x : RawJson) :
    item (setItem fields key x) key = x := by
  unfold setItem
  split_ifs with hmem
  · induction fields with
    | nil => cases hmem
    | cons f fields ih =>
      by_cases h : f.1 = py key
      · simp [item, h]
      · have hrest := ih ((List.mem_cons.mp hmem).resolve_left (Ne.symm h))
        simpa [item, List.find?_cons, h] using hrest
  · rw [item_append_missing hmem, item_cons_self]

theorem item_popItem {fields : List (PyString × RawJson)} {key key' : String} (h : key' ≠ key) :
    item (popItem fields key) key' = item fields key' := by
  have hne : py key' ≠ py key := fun heq => h (py_inj.mp heq)
  unfold item popItem
  induction fields with
  | nil => rfl
  | cons f fields ih =>
    by_cases hkey : f.1 = py key
    · have hother : f.1 ≠ py key' := fun heq => hne (heq.symm.trans hkey)
      simpa [List.find?_cons, hkey, hother, Ne.symm hne] using ih
    · by_cases hfound : f.1 = py key'
      · simp [hfound, hne]
      · simpa [List.find?_cons, hkey, hfound] using ih

theorem keys_setItem {fields : List (PyString × RawJson)} {key : String} (x : RawJson)
    (name : PyString) : name ∈ (setItem fields key x).map Prod.fst ↔
      name = py key ∨ name ∈ fields.map Prod.fst := by
  unfold setItem
  split_ifs with hmem
  · rw [List.map_map, show Prod.fst ∘ (fun f : PyString × RawJson =>
      (f.1, if f.1 = py key then x else f.2)) = Prod.fst from rfl]
    constructor
    · exact Or.inr
    · rintro (rfl | h)
      · exact hmem
      · exact h
  · rw [List.map_append, List.mem_append, List.map_singleton, List.mem_singleton]
    exact or_comm

/-! ## Written envelopes -/

theorem eventText_eq {x : RawJson} {s : PyString} :
    eventText x = some s ↔ x = .str s ∧ s ≠ [] ∧ s.length ≤ 256 := by
  cases x with
  | str text =>
    simp only [eventText]
    split_ifs with h
    · constructor
      · rintro ⟨⟩
        exact ⟨rfl, h⟩
      · rintro ⟨⟨⟩, -⟩
        rfl
    · constructor
      · rintro ⟨⟩
      · rintro ⟨⟨⟩, hs⟩
        exact absurd hs h
  | null | bool b | int n | float text | arr items | obj fields => simp [eventText]

theorem eventText_str {x : RawJson} {s : PyString} (h : eventText x = some s) :
    eventText (.str s) = some s :=
  eventText_eq.mpr ⟨rfl, (eventText_eq.mp h).2⟩

theorem eventText_writtenTime (t : DateTime) :
    eventText (.str (writtenTime t)) = some (writtenTime t) := by
  obtain ⟨hpos, hlength⟩ := IsoTimes.length_isoformat t
  have hle := IsoTimes.length_replace (.char 'Z') (py "+00:00") ((isoformat t).map CodePoint.char)
  rw [List.length_map] at hle
  refine eventText_eq.mpr ⟨rfl, ?_, by unfold writtenTime; omega⟩
  apply IsoTimes.replace_ne_nil
  rw [← List.length_pos_iff, List.length_map]
  exact hpos

/-- The replacement in a time that is written is undone when it is read. -/
theorem replaceZulu_writtenTime (t : DateTime) :
    replaceZulu (writtenTime t) = (isoformat t).map CodePoint.char := by
  have hfresh : CodePoint.char 'Z' ∉ (isoformat t).map CodePoint.char := by
    intro h
    obtain ⟨c, hc, hz⟩ := List.mem_map.mp h
    cases hz
    exact IsoTimes.not_mem_isoformat t (by decide) hc
  have hutc : py "+00:00" ≠ [] := by decide
  exact IsoTimes.replaceChar_replace hutc hfresh

section Laws

variable {other : PyString → Option DateTime}

theorem fromisoformat_isoformat (t : DateTime) :
    fromisoformat other ((isoformat t).map CodePoint.char) = some t := by
  have hencoded := encodeText_chars (String.ofList (isoformat t))
  rw [String.toList_ofList] at hencoded
  rw [fromisoformat, hencoded, Option.bind_some, String.toList_ofList, IsoTimes.readIso_isoformat]

theorem occurredOf_some {value : List (PyString × RawJson)} {t : DateTime}
    (h : occurredOf other value = some t) : t.offset.isSome = true ∧
      ∃ text, item value "timestamp" = .str text ∧
        fromisoformat other (replaceZulu text) = some t := by
  obtain ⟨text, htext, h⟩ := Option.bind_eq_some_iff.mp h
  obtain ⟨hread, hoffset⟩ := Option.filter_eq_some_iff.mp h
  exact ⟨hoffset, text, (eventText_eq.mp htext).1, hread⟩

theorem occurredOf_written {value : List (PyString × RawJson)} {t : DateTime}
    (hitem : item value "timestamp" = .str (writtenTime t)) (hoffset : t.offset.isSome = true) :
    occurredOf other value = some t := by
  rw [occurredOf, hitem, eventText_writtenTime, Option.bind_some, replaceZulu_writtenTime,
    fromisoformat_isoformat]
  exact Option.filter_eq_some_iff.mpr ⟨rfl, hoffset⟩

theorem keys_asDict (e : EventEnvelope) : e.asDict.map Prod.fst = eventKeys.map py := rfl

theorem parsed_asDict {value : List (PyString × RawJson)} {e : EventEnvelope}
    (h : Parsed other value e) : Parsed other e.asDict e where
  version := by
    have hitem : item e.asDict "schema_version" = .str e.schemaVersion := by
      simp only [EventEnvelope.asDict, item_cons_self, item_cons_ne, ne_eq, String.reduceEq,
        not_false_eq_true]
    rw [hitem, h.schema, isText, decide_eq_true_eq]
  keys := by
    rw [hasExactly_iff, keys_asDict]
    exact fun _ => Iff.rfl
  payload := by
    simp only [EventEnvelope.asDict, item_cons_self, item_cons_ne, ne_eq, String.reduceEq,
      not_false_eq_true]
  time := by
    apply occurredOf_written _ (occurredOf_some h.time).1
    simp only [EventEnvelope.asDict, item_cons_self, item_cons_ne, ne_eq, String.reduceEq,
      not_false_eq_true]
  eventType := by
    simp only [EventEnvelope.asDict, item_cons_self, eventText_str h.eventType]
  supported := h.supported
  schema := h.schema
  eventId := by
    simp only [EventEnvelope.asDict, item_cons_self, item_cons_ne, ne_eq, String.reduceEq,
      not_false_eq_true, eventText_str h.eventId]
  tenantId := by
    simp only [EventEnvelope.asDict, item_cons_self, item_cons_ne, ne_eq, String.reduceEq,
      not_false_eq_true, eventText_str h.tenantId]
  actorId := by
    simp only [EventEnvelope.asDict, item_cons_self, item_cons_ne, ne_eq, String.reduceEq,
      not_false_eq_true, eventText_str h.actorId]
  correlationId := by
    simp only [EventEnvelope.asDict, item_cons_self, item_cons_ne, ne_eq, String.reduceEq,
      not_false_eq_true, eventText_str h.correlationId]
  sourceComponent := by
    simp only [EventEnvelope.asDict, item_cons_self, item_cons_ne, ne_eq, String.reduceEq,
      not_false_eq_true, eventText_str h.sourceComponent]

/-! ## Migration -/

/-- The current name of a key. -/
def newName (name : PyString) : PyString :=
  if name = py "source" then py "source_component" else name

/-- A value with the version replaced and `source` renamed, its keys in their places. -/
def renamedValue (value : List (PyString × RawJson)) (targetVersion : PyString) :
    List (PyString × RawJson) :=
  (setItem value "schema_version" (.str targetVersion)).map fun f => (newName f.1, f.2)

/-- Every field of a legacy value is the envelope's, and the keys are renamed alone. -/
structure Preserved (other : PyString → Option DateTime) (value : List (PyString × RawJson))
    (e : EventEnvelope) : Prop where
  version : e.schemaVersion = py currentVersion
  eventType : item value "event_type" = .str e.eventType
  eventId : item value "event_id" = .str e.eventId
  time : ∃ text, item value "timestamp" = .str text ∧
    fromisoformat other (replaceZulu text) = some e.occurredAt
  tenantId : item value "tenant_id" = .str e.tenantId
  actorId : item value "actor_id" = .str e.actorId
  correlationId : item value "correlation_id" = .str e.correlationId
  source : item value "source" = .str e.sourceComponent
  payload : item value "payload" = .obj e.payload
  keys : ∀ name, name ∈ e.asDict.map Prod.fst ↔ name ∈ (value.map Prod.fst).map newName

variable {value : List (PyString × RawJson)} {targetVersion : PyString}

theorem item_migratedValue {key : String} (hcomponent : key ≠ "source_component")
    (hsource : key ≠ "source") : item (migratedValue value targetVersion) key =
      item (setItem value "schema_version" (.str targetVersion)) key := by
  rw [migratedValue, item_setItem_ne _ hcomponent, item_popItem hsource]

theorem item_migratedValue_source : item (migratedValue value targetVersion) "source_component" =
    item (setItem value "schema_version" (.str targetVersion)) "source" :=
  item_setItem_self _

theorem keys_versioned (hkeys : hasExactly value legacyEventKeys = true) (name : PyString) :
    name ∈ (setItem value "schema_version" (.str targetVersion)).map Prod.fst ↔
      name ∈ legacyEventKeys.map py := by
  rw [keys_setItem, hasExactly_iff.mp hkeys]
  constructor
  · rintro (rfl | h)
    · exact List.mem_map_of_mem (by decide)
    · exact h
  · exact Or.inr

theorem item_renamedValue {key key' : String} (hkeys : hasExactly value legacyEventKeys = true)
    (hname : ∀ name ∈ legacyEventKeys.map py, newName name = py key' ↔ name = py key) :
    item (renamedValue value targetVersion) key' =
      item (setItem value "schema_version" (.str targetVersion)) key := by
  apply item_map
  · intro f hf
    exact hname f.1 ((keys_versioned hkeys f.1).mp (List.mem_map_of_mem hf))
  · intro f _ _
    rfl

/-- The value parsed in a migration and the renamed one have the same items. -/
theorem item_renamed_eq (hkeys : hasExactly value legacyEventKeys = true) {key : String}
    (hkey : key ∈ eventKeys) : item (renamedValue value targetVersion) key =
      item (migratedValue value targetVersion) key := by
  by_cases hcomponent : key = "source_component"
  · subst hcomponent
    rw [item_migratedValue_source]
    apply item_renamedValue hkeys
    decide
  · have hsource : key ≠ "source" := by
      rintro rfl
      revert hkey
      decide
    rw [item_migratedValue hcomponent hsource]
    apply item_renamedValue hkeys
    intro name hname
    unfold newName
    split_ifs with hold
    · subst hold
      rw [py_inj, py_inj]
      exact ⟨fun h => absurd h.symm hcomponent, fun h => absurd h.symm hsource⟩
    · exact Iff.rfl

theorem keys_renamedValue (hkeys : hasExactly value legacyEventKeys = true) :
    hasExactly (renamedValue value targetVersion) eventKeys = true := by
  rw [hasExactly_iff]
  intro name
  have hrenamed : (legacyEventKeys.map py).map newName = eventKeys.map py := by rfl
  rw [← hrenamed, renamedValue, List.map_map, show Prod.fst ∘ (fun f : PyString × RawJson =>
    (newName f.1, f.2)) = newName ∘ Prod.fst from rfl, ← List.map_map]
  simp only [List.mem_map (f := newName), keys_versioned hkeys]

theorem item_versioned {key : String} (h : key ≠ "schema_version") :
    item (setItem value "schema_version" (.str targetVersion)) key = item value key :=
  item_setItem_ne _ h

theorem parsed_renamedValue {e : EventEnvelope} (hkeys : hasExactly value legacyEventKeys = true)
    (h : Parsed other (migratedValue value targetVersion) e) :
    Parsed other (renamedValue value targetVersion) e := by
  have hitem (key : String) (hkey : key ∈ eventKeys) :
      item (renamedValue value targetVersion) key = item (migratedValue value targetVersion) key :=
    item_renamed_eq hkeys hkey
  exact {
    version := by rw [hitem _ (by decide)]; exact h.version
    keys := keys_renamedValue hkeys
    payload := by rw [hitem _ (by decide)]; exact h.payload
    time := by rw [occurredOf, hitem _ (by decide)]; exact h.time
    eventType := by rw [hitem _ (by decide)]; exact h.eventType
    supported := h.supported
    schema := h.schema
    eventId := by rw [hitem _ (by decide)]; exact h.eventId
    tenantId := by rw [hitem _ (by decide)]; exact h.tenantId
    actorId := by rw [hitem _ (by decide)]; exact h.actorId
    correlationId := by rw [hitem _ (by decide)]; exact h.correlationId
    sourceComponent := by rw [hitem _ (by decide)]; exact h.sourceComponent }

theorem preserved_of_parsed {e : EventEnvelope} (hkeys : hasExactly value legacyEventKeys = true)
    (h : Parsed other (migratedValue value targetVersion) e) : Preserved other value e := by
  have hitem (key : String) (hcomponent : key ≠ "source_component") (hsource : key ≠ "source")
      (hversion : key ≠ "schema_version") :
      item (migratedValue value targetVersion) key = item value key := by
    rw [item_migratedValue hcomponent hsource, item_versioned hversion]
  have htext {key : String} {s : PyString}
      (hs : eventText (item (migratedValue value targetVersion) key) = some s)
      (hcomponent : key ≠ "source_component") (hsource : key ≠ "source")
      (hversion : key ≠ "schema_version") : item value key = .str s := by
    rw [← hitem key hcomponent hsource hversion]
    exact (eventText_eq.mp hs).1
  have hsource : item value "source" = .str e.sourceComponent := by
    rw [← item_versioned (show "source" ≠ "schema_version" by decide), ← item_migratedValue_source]
    exact (eventText_eq.mp h.sourceComponent).1
  have hpayload : item value "payload" = .obj e.payload := by
    rw [← hitem "payload" (by decide) (by decide) (by decide)]
    exact h.payload
  obtain ⟨-, text, htime, hread⟩ := occurredOf_some h.time
  rw [hitem "timestamp" (by decide) (by decide) (by decide)] at htime
  refine {
    version := h.schema
    eventType := htext h.eventType (by decide) (by decide) (by decide)
    eventId := htext h.eventId (by decide) (by decide) (by decide)
    time := ⟨text, htime, hread⟩
    tenantId := htext h.tenantId (by decide) (by decide) (by decide)
    actorId := htext h.actorId (by decide) (by decide) (by decide)
    correlationId := htext h.correlationId (by decide) (by decide) (by decide)
    source := hsource
    payload := hpayload
    keys := ?_ }
  intro name
  have hrenamed : (legacyEventKeys.map py).map newName = eventKeys.map py := by rfl
  rw [keys_asDict, ← hrenamed]
  simp only [List.mem_map (f := newName), hasExactly_iff.mp hkeys]

theorem migrate_ok {sha256 : Bytes → String} {r : MigrationResult}
    (h : EventRegistry.migrate other sha256 value targetVersion = .ok r) :
    hasExactly value legacyEventKeys = true ∧
      EventRegistry.parse other (migratedValue value targetVersion) = .ok r.event := by
  unfold EventRegistry.migrate at h
  split_ifs at h with hversion hkeys
  obtain ⟨event, hparse, h⟩ := bind_ok_cases h
  cases h
  exact ⟨by simpa using hkeys, hparse⟩

end Laws

/-! ## Survival -/

/-- An envelope that was parsed is parsed again from what is written of it; a migrated envelope is
the one of the renamed value, with every other field of the legacy value and no key lost. -/
theorem envelopes_survive (other : PyString → Option DateTime) (sha256 : Bytes → String)
    (value : List (PyString × RawJson)) :
    (∀ e, EventRegistry.parse other value = .ok e →
      EventRegistry.parse other e.asDict = .ok e) ∧
    ∀ targetVersion r, EventRegistry.migrate other sha256 value targetVersion = .ok r →
      EventRegistry.parse other (renamedValue value targetVersion) = .ok r.event ∧
        Preserved other value r.event := by
  constructor
  · intro e h
    exact (parsed_asDict (parsed_of_parse h)).parse
  · intro targetVersion r h
    obtain ⟨hkeys, hparse⟩ := migrate_ok h
    have hparsed := parsed_of_parse hparse
    exact ⟨(parsed_renamedValue hkeys hparsed).parse, preserved_of_parsed hkeys hparsed⟩

def legacyEvent : List (PyString × RawJson) :=
  [(py "event_type", .str (py "export.signed")), (py "schema_version", .str (py "0.9.0")),
    (py "event_id", .str (py "event-1")),
    (py "timestamp", .str (py "2026-03-01T07:30:00.250000+05:30")),
    (py "tenant_id", .str (py "tenant")), (py "actor_id", .str (py "actor")),
    (py "correlation_id", .str (py "run")), (py "source", .str (py "export")),
    (py "payload", .obj [(py "result", .bool true)])]

theorem envelopes_survive_legacyEvent :
    (∃ e, EventRegistry.parse (fun _ => none) (renamedValue legacyEvent (py "1.0.0")) = .ok e ∧
      EventRegistry.parse (fun _ => none) e.asDict = .ok e) ∧
    ∃ r, EventRegistry.migrate (fun _ => none) (fun _ => "") legacyEvent (py "1.0.0") = .ok r ∧
      EventRegistry.parse (fun _ => none) (renamedValue legacyEvent (py "1.0.0")) = .ok r.event ∧
        Preserved (fun _ => none) legacyEvent r.event := by
  have hparse : (toOption (EventRegistry.parse (fun _ => none)
      (renamedValue legacyEvent (py "1.0.0")))).isSome = true := by rfl
  have hmigrate : (toOption (EventRegistry.migrate (fun _ => none) (fun _ => "") legacyEvent
      (py "1.0.0"))).isSome = true := by rfl
  obtain ⟨e, he⟩ := Option.isSome_iff_exists.mp hparse
  obtain ⟨r, hr⟩ := Option.isSome_iff_exists.mp hmigrate
  have hparsed := toOption_eq_some.mp he
  have hmigrated := toOption_eq_some.mp hr
  exact ⟨⟨e, hparsed, (envelopes_survive _ (fun _ => "") _).1 e hparsed⟩,
    r, hmigrated, (envelopes_survive _ (fun _ => "") _).2 _ r hmigrated⟩

end DecisionAssurance.Export
