import CoreLab.Frames
import CoreLab.Lib.Dumps
import CoreLab.CacheFrames

/-!
# CoreLab.FrameRoundTrip

The frames that are pushed without a request, and what becomes of a frame of
either kind on the wire: a payload is built by its model, put in an envelope,
dumped, and read by `parse_envelope` of the same library on the other side.

`agent.script.finished` is left out: its duration is a float, and the numbers
of `Json` are integers.

* `read_of_parseEnvelope` — what is read of a request or a response in
  `CoreLab.Frames` is read of it here;
* `settled_payloadModel` — every payload model takes its own defaults;
* `build_dump` — a payload that was built is built again from its dump;
* `frames_roundtrip` — every receiver reads a frame as it was built, and what
  one side has read it may send on.
-/

namespace CoreLab

namespace FrameRoundTrip

open Schema Frames

/-! ## pushed payloads -/

def agentHeartbeat : FieldType :=
  .model [required "uptime_seconds" (.intGe 0), nullable "agent_version" .str]

def gpuProcessSnapshot : FieldType :=
  .model [required "pid" .int, required "linux_username" .str, required "memory_mb" .int]

def gpuTelemetryEntry : FieldType :=
  .model [required "gpu_index" (.intGe 0), nullable "uuid" .str, nullable "model" .str,
    nullable "memory_total_mb" .int, nullable "compute_capability" .str,
    required "util_pct" (.intGe 0), nullable "memory_used_mb" .int,
    nullable "temperature_c" .int, nullable "power_w" .int,
    withDefault "processes" (.list gpuProcessSnapshot) (.arr [])]

def gpuTelemetry : FieldType := .model [required "gpus" (.list gpuTelemetryEntry)]

def pong : FieldType := .model [nullable "echo" .str]

/-- The fields of `ReverseLookupNotify`, with the time that fills in a missing one. -/
def reverseLookupNotifyFields (now : String) : List (String × FieldType × Option Json) :=
  [required "server_id" .int, required "linux_username" .str,
   nullable "observed_pid" .int, withDefault "observed_at" .datetime (.str now)]

def reverseLookupNotify (now : String) : FieldType := .model (reverseLookupNotifyFields now)

def accountScanEntry : FieldType :=
  .model [required "linux_username" (.strMax 32), nullable "uid" (.intGe 0),
    nullable "gid" (.intGe 0), nullable "home_directory" (.strMax 255),
    nullable "default_shell" (.strMax 100)]

def accountScanReport : FieldType :=
  .model [required "entries" (.list accountScanEntry), withDefault "mock" .bool (.bool false)]

def backendPing : FieldType := .model [nullable "echo" .str]

def backendAck : FieldType :=
  .model [withDefault "ok" .bool (.bool true), nullable "detail" .str]

def scriptStartedEvent : FieldType :=
  .model [required "reservation_id" .int, required "pid" .int, required "started_at" .datetime,
    nullable "log_path" .str]

def scriptOutputChunkEvent : FieldType :=
  .model [required "reservation_id" .int, required "stream" (.literal ["stdout", "stderr"]),
    required "text" .str, required "ts" .datetime]

def complianceViolationHolder : FieldType :=
  .model [required "user_id" .int, nullable "username" .str, nullable "reservation_id" .int]

def complianceViolationEvent : FieldType :=
  .model [required "server_id" .int, required "gpu_id" .int, required "policy_key" .str,
    required "severity" (.literal ["log_only", "notify", "warn", "auto_kill"]),
    nullable "linux_username" .str, nullable "linux_pid" .int,
    withDefault "linked_platform_user_ids" (.list .int) (.arr []),
    withDefault "current_reservation_holders" (.list complianceViolationHolder) (.arr []),
    withDefault "action_taken"
      (.literal ["log_only", "notify", "warn", "kill", "kill_downgraded_to_warn"]) (.str "notify"),
    nullable "memory_used_mb" .int, nullable "memory_declared_mb" .int, nullable "util_pct" .int,
    nullable "downgraded_from" (.literal ["auto_kill"]), nullable "details" .str,
    withDefault "applied" .bool (.bool false), nullable "etag_now" .str, nullable "error" .str]

/-! ## payload models -/

/-- The model of a payload, and the bounds that the types of its fields do not say. -/
structure PayloadModel where
  model : FieldType
  bounds : Json → Bool := fun _ => true

/-- `model_validate` of a payload, and the dump of what it returns. -/
def PayloadModel.validate (sc : Scalars) (m : PayloadModel) (v : Json) : Option Json :=
  (Schema.validate sc m.model v).filter m.bounds

/-- A bound on each entry of a list of the payload. -/
def eachOf (key : String) (bound : Json → Bool) (payload : Json) : Bool :=
  ((payload.get? key).bind Json.items?).all fun items => items.all bound

/-- `le=100` of `util_pct`. -/
def utilWithin (entry : Json) : Bool :=
  match entry.get? "util_pct" with
  | some (.num n) => decide (n ≤ 100)
  | _ => false

/-- `min_length=1` of `linux_username`. -/
def usernamePresent (entry : Json) : Bool :=
  ((entry.get? "linux_username").bind Json.text?).any fun s => decide (1 ≤ s.length)

/-- `max_length=4096` of `entries`. -/
def entriesWithin (payload : Json) : Bool :=
  ((payload.get? "entries").bind Json.items?).all fun items => decide (items.length ≤ 4096)

/-- `_PAYLOAD_FOR_TYPE`, on the types that answer no request. -/
def pushPayloads (now : String) : List (String × PayloadModel) :=
  [("agent.heartbeat", { model := agentHeartbeat }),
   ("agent.gpu.telemetry", { model := gpuTelemetry, bounds := eachOf "gpus" utilWithin }),
   ("agent.pong", { model := pong }),
   ("agent.reverse_lookup.notify", { model := reverseLookupNotify now }),
   ("agent.account_scan.report",
     { model := accountScanReport
       bounds := fun p => entriesWithin p && eachOf "entries" usernamePresent p }),
   ("backend.ping", { model := backendPing }),
   ("backend.ack", { model := backendAck }),
   ("agent.script.started", { model := scriptStartedEvent }),
   ("agent.script.output_chunk", { model := scriptOutputChunkEvent }),
   ("agent.compliance.violation", { model := complianceViolationEvent })]

/-- `_PAYLOAD_FOR_TYPE[type]`. -/
def payloadModel (now type : String) : Option PayloadModel :=
  ((pushPayloads now).lookup type).or ((payloadForType.lookup type).map fun t => { model := t })

/-! ## sending and reading -/

/-- What one side fills in where a frame leaves a field out: `_uuid()` and `_now()`. -/
structure Fresh where
  uuid : String
  now : String
  observedAt : String

/-- The times are texts that a datetime is dumped as. -/
structure Fresh.Dumped (sc : Scalars) (f : Fresh) : Prop where
  now : sc.datetime (.str f.now) = some f.now
  observedAt : sc.datetime (.str f.observedAt) = some f.observedAt

/-- `Model(...).model_dump(mode="json")`. -/
def build (sc : Scalars) (f : Fresh) (type : String) (kwargs : Json) : Option Json :=
  (payloadModel f.observedAt type).bind fun m => m.validate sc kwargs

/-- `MessageEnvelope(type=..., payload=..., correlation_id=...)`, dumped. -/
def send (sc : Scalars) (f : Fresh) (type : String) (payload : Json)
    (correlationId : Option String) : Option Json :=
  validate sc (messageEnvelope f.uuid f.now)
    (.obj [("type", .str type), ("payload", payload),
           ("correlation_id", .ofOption .str correlationId)])

/-- `parse_envelope`: the dumps of the envelope and of the payload. -/
def read (sc : Scalars) (f : Fresh) (raw : Json) : Option (Json × Json) := do
  let envelope ← validate sc (messageEnvelope f.uuid f.now) raw
  let type ← (← envelope.get? "type").text?
  let payload ← build sc f type (← envelope.get? "payload")
  some (envelope, payload)

/-- The frame with the payload as it was read. -/
def relay (envelope payload : Json) : Json :=
  match envelope with
  | .obj es => .obj (es.map fun e => if e.1 = "payload" then (e.1, payload) else e)
  | v => v

/-! ## the payload models are settled -/

/-- The type is a model. -/
def isModel : FieldType → Bool
  | .model _ => true
  | _ => false

/-- The types of the pushed payloads. -/
def pushTypes : List String :=
  ["agent.heartbeat", "agent.gpu.telemetry", "agent.pong", "agent.reverse_lookup.notify",
   "agent.account_scan.report", "backend.ping", "backend.ack", "agent.script.started",
   "agent.script.output_chunk", "agent.compliance.violation"]

theorem map_fst_pushPayloads (now : String) : (pushPayloads now).map Prod.fst = pushTypes := rfl

variable {sc : Scalars}

theorem mem_of_lookup {α : Type} {l : List (String × α)} {key : String} {a : α}
    (h : l.lookup key = some a) : (key, a) ∈ l := by
  obtain ⟨l₁, l₂, rfl, -⟩ := List.lookup_eq_some_iff.mp h
  exact List.mem_append_right _ List.mem_cons_self

/-- A payload model comes from one of the two tables. -/
theorem mem_of_payloadModel {now type : String} {m : PayloadModel}
    (h : payloadModel now type = some m) :
    (type, m) ∈ pushPayloads now ∨ ∃ t, (type, t) ∈ payloadForType ∧ m = { model := t } := by
  rcases Option.or_eq_some_iff.mp h with hpush | ⟨-, hrpc⟩
  · exact Or.inl (mem_of_lookup hpush)
  · obtain ⟨t, ht, rfl⟩ := Option.map_eq_some_iff.mp hrpc
    exact Or.inr ⟨t, mem_of_lookup ht, rfl⟩

/-- A type that has a payload model is a message type. -/
theorem mem_messageTypes_of_payloadModel {now type : String} {m : PayloadModel}
    (h : payloadModel now type = some m) : type ∈ messageTypes := by
  have hpush : ∀ t ∈ pushTypes, t ∈ messageTypes := by decide
  have hrpc : ∀ e ∈ payloadForType, e.1 ∈ messageTypes := by decide
  rcases mem_of_payloadModel h with hmem | ⟨t, hmem, -⟩
  · exact hpush type (map_fst_pushPayloads now ▸ List.mem_map_of_mem hmem)
  · exact hrpc (type, t) hmem

theorem settled_reverseLookupNotify (h : sc.Lawful) {now : String}
    (hnow : sc.datetime (.str now) = some now) : Settled sc (reverseLookupNotify now) := by
  have hrest : SettledFields sc [required "server_id" .int, required "linux_username" .str,
      nullable "observed_pid" .int] := settledFields_of_plain h _ (by decide)
  obtain ⟨hserver, hserverDefault, huser, huserDefault, hpid, hpidDefault, -⟩ := hrest
  refine ⟨?_, hserver, hserverDefault, huser, huserDefault, hpid, hpidDefault, trivial, ?_, trivial⟩
  · show ["server_id", "linux_username", "observed_pid", "observed_at"].Nodup
    decide
  · intro d hd
    obtain rfl : .str now = d := Option.some.inj hd
    exact validate_stamp hnow

/-- **Every payload model** takes its own defaults as they are. -/
theorem settled_payloadModel (h : sc.Lawful) {now type : String} {m : PayloadModel}
    (hnow : sc.datetime (.str now) = some now) (hm : payloadModel now type = some m) :
    ∃ fields, m.model = .model fields ∧ Settled sc (.model fields) := by
  have hsettled : isModel m.model = true ∧ Settled sc m.model := by
    rcases mem_of_payloadModel hm with hmem | ⟨t, hmem, rfl⟩
    · simp only [pushPayloads, List.mem_cons, Prod.mk.injEq, List.not_mem_nil, or_false] at hmem
      rcases hmem with ⟨-, rfl⟩ | ⟨-, rfl⟩ | ⟨-, rfl⟩ | ⟨-, rfl⟩ | ⟨-, rfl⟩ | ⟨-, rfl⟩ |
        ⟨-, rfl⟩ | ⟨-, rfl⟩ | ⟨-, rfl⟩ | ⟨-, rfl⟩
      case inr.inr.inr.inl => exact ⟨rfl, settled_reverseLookupNotify h hnow⟩
      all_goals exact ⟨rfl, settled_of_plain h _ (by decide)⟩
    · have hplain : ∀ e ∈ payloadForType, isModel e.2 = true ∧ plain e.2 = true := by decide
      obtain ⟨hmodel, hplain⟩ := hplain (type, t) hmem
      exact ⟨hmodel, settled_of_plain h t hplain⟩
  obtain ⟨hmodel, hsettled⟩ := hsettled
  obtain ⟨model, bounds⟩ := m
  cases model with
  | model fields => exact ⟨fields, rfl, hsettled⟩
  | _ => cases hmodel

/-- Only `observed_at` of `ReverseLookupNotify` has a default that depends on the reader. -/
theorem payloadModel_congr {now type : String} {m : PayloadModel}
    (hm : payloadModel now type = some m) (now' : String) :
    ∃ m', payloadModel now' type = some m' ∧ m'.bounds = m.bounds ∧
      (m'.model = m.model ∨ m.model = reverseLookupNotify now ∧
        m'.model = reverseLookupNotify now') := by
  by_cases htype : type = "agent.reverse_lookup.notify"
  · subst htype
    obtain rfl : { model := reverseLookupNotify now } = m := Option.some.inj hm
    exact ⟨{ model := reverseLookupNotify now' }, rfl, rfl, Or.inr ⟨rfl, rfl⟩⟩
  · have hsame : payloadModel now' type = payloadModel now type := by
      simp only [payloadModel, pushPayloads, List.lookup_cons, beq_false_of_ne htype]
    exact ⟨m, hsame ▸ hm, rfl, Or.inl rfl⟩

/-- **A payload that was built** is built again from its dump, on either side. -/
theorem build_dump (h : sc.Lawful) (hstable : sc.Stable) {f g : Fresh} {type : String}
    {kwargs p : Json} (hf : f.Dumped sc) (hp : build sc f type kwargs = some p) :
    (∃ fields, p = .obj fields) ∧ type ∈ messageTypes ∧ build sc g type p = some p := by
  obtain ⟨m, hm, hvalid⟩ := Option.bind_eq_some_iff.mp hp
  obtain ⟨hmodel, hbounds⟩ := Option.filter_eq_some_iff.mp hvalid
  obtain ⟨fields, hfields, hsettled⟩ := settled_payloadModel h hf.observedAt hm
  obtain ⟨m', hm', hbounds', hsame⟩ := payloadModel_congr hm g.observedAt
  have hkept : Schema.validate sc m'.model p = some p := by
    rcases hsame with hsame | ⟨hnotify, hnotify'⟩
    · exact hsame ▸ hfields ▸ validate_dump h hstable _ hsettled _ _ (hfields ▸ hmodel)
    · rw [hnotify, reverseLookupNotify] at hmodel
      rw [hnotify', reverseLookupNotify]
      have hsame : (reverseLookupNotifyFields f.observedAt).map (fun e => (e.1, e.2.1)) =
          (reverseLookupNotifyFields g.observedAt).map fun e => (e.1, e.2.1) := rfl
      exact validate_dump_model h hstable (settled_reverseLookupNotify h hf.observedAt) hsame hmodel
  refine ⟨?_, mem_messageTypes_of_payloadModel hm, ?_⟩
  · obtain ⟨-, ws, -, rfl⟩ := exists_fields_of_validate (hfields ▸ hmodel)
    exact ⟨ws, rfl⟩
  · rw [build, hm', Option.bind_some, PayloadModel.validate, hkept]
    exact Option.filter_eq_some_iff.mpr ⟨rfl, hbounds' ▸ hbounds⟩

/-! ## the envelope -/

theorem settled_messageEnvelope (h : sc.Lawful) {f : Fresh} (hf : f.Dumped sc) :
    Settled sc (messageEnvelope f.uuid f.now) := by
  have hrest : SettledFields sc [required "type" (.literal messageTypes),
      withDefault "payload" (.dict .any) (.obj []), nullable "correlation_id" .str] :=
    settledFields_of_plain h _ (by decide)
  obtain ⟨htype, htypeDefault, hpayload, hpayloadDefault, hcorrelation, hcorrelationDefault, -⟩ :=
    hrest
  refine ⟨?_, htype, htypeDefault, trivial, ?_, trivial, ?_, hpayload, hpayloadDefault,
    hcorrelation, hcorrelationDefault, trivial⟩
  · show ["type", "id", "ts", "payload", "correlation_id"].Nodup
    decide
  · intro d hd
    obtain rfl : .str f.uuid = d := Option.some.inj hd
    exact validate_str h f.uuid
  · intro d hd
    obtain rfl : .str f.now = d := Option.some.inj hd
    exact validate_stamp hf.now

/-- **What an envelope dumps** is a frame. -/
theorem eq_frame_of_validate (h : sc.Lawful) (hstable : sc.Stable) {f : Fresh}
    (hf : f.Dumped sc) {raw envelope : Json}
    (hread : validate sc (messageEnvelope f.uuid f.now) raw = some envelope) :
    ∃ type id ts fields correlationId, type ∈ messageTypes ∧ sc.datetime (.str ts) = some ts ∧
      envelope = frame type id ts (.obj fields) correlationId := by
  obtain ⟨es, ws, hws, rfl⟩ := exists_fields_of_validate hread
  obtain ⟨hnames, hkept⟩ :=
    validateFields_dump h hstable _ (settled_messageEnvelope h hf).2 es ws hws
  obtain ⟨type, ws, rfl, htype, hnames, hkept⟩ := exists_cons_of_validateInOrder hnames hkept
  obtain ⟨id, ws, rfl, hid, hnames, hkept⟩ := exists_cons_of_validateInOrder hnames hkept
  obtain ⟨ts, ws, rfl, hts, hnames, hkept⟩ := exists_cons_of_validateInOrder hnames hkept
  obtain ⟨payload, ws, rfl, hpayload, hnames, hkept⟩ :=
    exists_cons_of_validateInOrder hnames hkept
  obtain ⟨correlation, ws, rfl, hcorrelation, hnames, -⟩ :=
    exists_cons_of_validateInOrder hnames hkept
  obtain rfl : ws = [] := List.map_eq_nil_iff.mp hnames
  -- what each field holds, from the type that kept it
  obtain ⟨typeText, hmem, rfl⟩ := exists_text_of_literal htype
  obtain ⟨idText, -, rfl⟩ := Option.map_eq_some_iff.mp hid
  obtain ⟨text, htext, rfl⟩ := Option.map_eq_some_iff.mp hts
  obtain ⟨fields, rfl⟩ := exists_fields_of_dict hpayload
  obtain ⟨correlationId, rfl⟩ := exists_ofOption_of_optional hcorrelation
  exact ⟨typeText, idText, text, fields, correlationId, hmem, htext, rfl⟩

/-- A frame is read by what the model of its type makes of the payload. -/
theorem read_frame (h : sc.Lawful) (f : Fresh) {type id ts : String}
    {fields : List (String × Json)} {correlationId : Option String} (htype : type ∈ messageTypes)
    (hts : sc.datetime (.str ts) = some ts) :
    read sc f (frame type id ts (.obj fields) correlationId) =
      (build sc f type (.obj fields)).map fun p =>
        (frame type id ts (.obj fields) correlationId, p) := by
  have hnodup : ((messageEnvelopeFields f.uuid f.now).map Prod.fst).Nodup := by
    show ["type", "id", "ts", "payload", "correlation_id"].Nodup
    decide
  have henvelope : validate sc (messageEnvelope f.uuid f.now)
      (frame type id ts (.obj fields) correlationId) =
      some (frame type id ts (.obj fields) correlationId) := by
    rw [messageEnvelope, frame, validate_model (by rfl) hnodup]
    simp only [messageEnvelopeFields, required, withDefault, nullable, validateInOrder,
      validate_literal htype, validate_stamp hts, validate_str h, validate_dict_any,
      validate_optional_str h, Option.bind_some, Option.map_some]
  rw [read, henvelope]
  cases hbuilt : build sc f type (.obj fields) <;>
    simp [frame, Json.get?, Json.text?, List.lookup_cons, hbuilt]

/-- **Every payload that is an object** has a frame, filled in with the id and the time. -/
theorem send_eq_frame (h : sc.Lawful) (f : Fresh) {type : String} (htype : type ∈ messageTypes)
    (fields : List (String × Json)) (correlationId : Option String) :
    send sc f type (.obj fields) correlationId =
      some (frame type f.uuid f.now (.obj fields) correlationId) := by
  rw [send, messageEnvelope, validate_model_obj]
  refine (if_pos (by simp [messageEnvelopeFields, required, withDefault, nullable])).trans ?_
  simp [messageEnvelopeFields, required, withDefault, nullable, validateFields_cons,
    List.lookup_cons, validate_literal htype, validate_dict_any, validate_optional_str h,
    validateFields, frame]

/-- A request or a response has no bounds beside its types. -/
theorem build_of_rpc (f : Fresh) {type : String} {t : FieldType}
    (ht : payloadForType.lookup type = some t) (v : Json) :
    build sc f type v = validate sc t v := by
  have hapart : ∀ e ∈ payloadForType, e.1 ∉ pushTypes := by decide
  have hpush : (pushPayloads f.observedAt).lookup type = none := by
    refine List.lookup_eq_none_iff.mpr fun e he => bne_iff_ne.mpr ?_
    rintro rfl
    exact hapart (e.1, t) (mem_of_lookup ht)
      (map_fst_pushPayloads f.observedAt ▸ List.mem_map_of_mem he)
  rw [build, payloadModel, hpush, ht, Option.none_or, Option.map_some, Option.bind_some,
    PayloadModel.validate]
  cases validate sc t v <;> rfl

theorem eq_str_of_text {v : Json} {s : String} (h : v.text? = some s) : v = .str s := by
  cases v with
  | str s' => exact congrArg _ (Option.some.inj h)
  | _ => cases h

/-- **What is read of an RPC frame** is read of it here. -/
theorem read_of_parseEnvelope (f : Fresh) {raw : Json} {e : Envelope}
    (h : parseEnvelope sc f.uuid f.now raw = some e) :
    ∃ envelope, read sc f raw = some (envelope, e.payload) ∧
      envelope.get? "type" = some (.str e.type) ∧ envelope.get? "id" = some (.str e.id) ∧
      (envelope.get? "correlation_id").bind Json.text? = e.correlationId := by
  simp only [parseEnvelope, Option.bind_eq_bind, Option.bind_eq_some_iff] at h
  obtain ⟨envelope, henvelope, v, hv, type, htype, t, ht, payload, hpayload, w, hw, u, hu, id,
    hid, he⟩ := h
  obtain rfl := Option.some.inj he
  obtain rfl := eq_str_of_text htype
  obtain rfl := eq_str_of_text hid
  refine ⟨envelope, ?_, hv, hu, rfl⟩
  simp [read, henvelope, hv, hpayload, htype, build_of_rpc f ht, hw]

/-- **A frame survives the wire.**  A payload that one side built is read as it was built by
every receiver, in the envelope that it was sent in; and what has been read of any frame may
be sent on, to be read the same. -/
theorem frames_roundtrip (h : sc.Lawful) (hstable : sc.Stable) {f : Fresh} (hf : f.Dumped sc) :
    (∀ (type : String) (kwargs p : Json) (correlationId : Option String),
        build sc f type kwargs = some p →
        ∃ envelope, send sc f type p correlationId = some envelope ∧
          envelope = frame type f.uuid f.now p correlationId ∧
          ∀ g : Fresh, read sc g envelope = some (envelope, p)) ∧
      ∀ raw envelope p : Json, read sc f raw = some (envelope, p) →
        ∀ g : Fresh, read sc g (relay envelope p) = some (relay envelope p, p) := by
  constructor
  · intro type kwargs p correlationId hp
    obtain ⟨⟨fields, rfl⟩, htype, -⟩ := build_dump (g := f) h hstable hf hp
    refine ⟨_, send_eq_frame h f htype fields correlationId, rfl, fun g => ?_⟩
    obtain ⟨-, -, hkept⟩ := build_dump (g := g) h hstable hf hp
    rw [read_frame h g htype hf.now, hkept, Option.map_some]
  · intro raw envelope p hread g
    simp only [read, Option.bind_eq_bind, Option.bind_eq_some_iff] at hread
    obtain ⟨env, henvelope, v, hv, type, htype, payload, hpayload, q, hq, heq⟩ := hread
    obtain ⟨rfl, rfl⟩ := Prod.mk.injEq .. ▸ Option.some.inj heq
    obtain ⟨type', id, ts, fields, correlationId, hmem, hts, rfl⟩ :=
      eq_frame_of_validate h hstable hf henvelope
    obtain rfl : .str type' = v := Option.some.inj hv
    obtain rfl : type' = type := Option.some.inj htype
    obtain ⟨⟨ws, rfl⟩, -, hkept⟩ := build_dump (g := g) h hstable hf hq
    have hrelay : relay (frame type' id ts (.obj fields) correlationId) (.obj ws) =
        frame type' id ts (.obj ws) correlationId := by
      simp [relay, frame]
    rw [hrelay, read_frame h g hmem hts, hkept, Option.map_some]

/-- A frame library that reads only the datetimes it would dump, as they are. -/
def normalScalars : Scalars :=
  { CacheFrames.zuluScalars with
    datetime := fun v => (CacheFrames.zuluScalars.datetime v).filter fun s => v.text? == some s }

theorem lawful_normalScalars : normalScalars.Lawful :=
  ⟨fun _ => rfl, fun _ => rfl, rfl, fun _ => rfl⟩

theorem stable_normalScalars : normalScalars.Stable := by
  intro v s h
  obtain ⟨-, htext⟩ := Option.filter_eq_some_iff.mp h
  obtain rfl := eq_str_of_text (eq_of_beq htext)
  exact h

/-- What an agent fills in. -/
def agentFresh : Fresh :=
  { uuid := "5f0c", now := "2026-01-01T08:00:00Z", observedAt := "2026-01-01T08:00:00Z" }

theorem dumped_agentFresh : agentFresh.Dumped normalScalars :=
  ⟨by decide +kernel, by decide +kernel⟩

/-- A heartbeat without a version is read with the `null` that its model filled in, and a
ping that leaves out everything but its type is sent on with what the agent filled in. -/
theorem frames_roundtrip_heartbeat :
    (∃ envelope, send normalScalars agentFresh "agent.heartbeat"
        (.obj [("uptime_seconds", .num 30), ("agent_version", .null)]) none = some envelope ∧
      read normalScalars ⟨"other", "", ""⟩ envelope =
        some (envelope, .obj [("uptime_seconds", .num 30), ("agent_version", .null)])) ∧
      read normalScalars ⟨"other", "", ""⟩
          (frame "backend.ping" "5f0c" "2026-01-01T08:00:00Z" (.obj [("echo", .null)]) none) =
        some (frame "backend.ping" "5f0c" "2026-01-01T08:00:00Z" (.obj [("echo", .null)]) none,
          .obj [("echo", .null)]) := by
  have hframes := frames_roundtrip lawful_normalScalars stable_normalScalars dumped_agentFresh
  obtain ⟨envelope, hsend, -, hread⟩ := hframes.1 "agent.heartbeat"
    (.obj [("uptime_seconds", .num 30)])
    (.obj [("uptime_seconds", .num 30), ("agent_version", .null)]) none rfl
  exact ⟨⟨envelope, hsend, hread _⟩,
    hframes.2 (.obj [("type", .str "backend.ping")])
      (frame "backend.ping" "5f0c" "2026-01-01T08:00:00Z" (.obj []) none)
      (.obj [("echo", .null)]) rfl _⟩

end FrameRoundTrip

end CoreLab
