import CoreLab.Lib.Schema

/-!
# CoreLab.Frames

The frame protocol between the backend and an agent: the message types, the
envelope, and the models of the payloads that are sent across.

* `parse_envelope` of a well-formed frame is the validation of its payload by
  the model of its type (`parseEnvelope_frame`);
* every request type has a response type, and both are message types
  (`mem_rpcRequestToResponse`).
-/

namespace CoreLab

namespace Frames

open Schema

/-! ## message types -/

/-- `RPC_REQUEST_TO_RESPONSE`. -/
def rpcRequestToResponse : List (String × String) :=
  [("backend.ssh.verify_sig", "agent.ssh.verify_sig.response"),
   ("backend.pam.verify", "agent.pam.verify.response"),
   ("backend.authorized_key.push", "agent.authorized_key.push.response"),
   ("backend.authorized_key.revoke", "agent.authorized_key.revoke.response"),
   ("backend.authorized_key.read", "agent.authorized_key.read.response"),
   ("backend.script.execute", "agent.script.execute.response"),
   ("backend.script.cancel", "agent.script.cancel.response"),
   ("backend.policy.sync", "agent.policy.sync.response"),
   ("backend.account_link_cache.sync", "agent.account_link_cache.sync.response"),
   ("backend.linux.useradd", "agent.linux.useradd.response"),
   ("backend.linux.userdel", "agent.linux.userdel.response"),
   ("backend.gpu.kill_process", "agent.gpu.kill_process.response"),
   ("backend.config.update_urls", "agent.config.update_urls.ack"),
   ("backend.capability.sync", "agent.capability.sync.ack")]

/-- `MessageType`. -/
def messageTypes : List String :=
  ["agent.heartbeat", "agent.gpu.telemetry", "agent.pong", "agent.reverse_lookup.notify",
   "agent.account_scan.report", "backend.ping", "backend.ack",
   "backend.ssh.verify_sig", "agent.ssh.verify_sig.response",
   "backend.pam.verify", "agent.pam.verify.response",
   "backend.authorized_key.push", "agent.authorized_key.push.response",
   "backend.authorized_key.revoke", "agent.authorized_key.revoke.response",
   "backend.authorized_key.read", "agent.authorized_key.read.response",
   "backend.script.execute", "agent.script.execute.response",
   "backend.script.cancel", "agent.script.cancel.response",
   "agent.script.started", "agent.script.output_chunk", "agent.script.finished",
   "backend.policy.sync", "agent.policy.sync.response",
   "backend.account_link_cache.sync", "agent.account_link_cache.sync.response",
   "agent.compliance.violation",
   "backend.linux.useradd", "agent.linux.useradd.response",
   "backend.linux.userdel", "agent.linux.userdel.response",
   "backend.gpu.kill_process", "agent.gpu.kill_process.response",
   "backend.config.update_urls", "agent.config.update_urls.ack",
   "backend.capability.sync", "agent.capability.sync.ack"]

/-- A request type and its response type are message types. -/
theorem mem_rpcRequestToResponse {request response : String}
    (h : (request, response) ∈ rpcRequestToResponse) :
    request ∈ messageTypes ∧ response ∈ messageTypes := by
  have hall : ∀ e ∈ rpcRequestToResponse, e.1 ∈ messageTypes ∧ e.2 ∈ messageTypes := by decide
  exact hall (request, response) h

/-! ## payload models -/

def sshVerifySigRequest : FieldType :=
  .model [required "linux_username" .str, required "nonce" .str,
    withDefault "namespace" .str (.str "corelab"), required "signature_armored" .str]

def pamVerifyRequest : FieldType :=
  .model [required "linux_username" .str, required "password" .str]

def authorizedKeyPushRequest : FieldType :=
  .model [required "linux_username" .str, required "public_key" .str, required "label" .str]

def authorizedKeyRevokeRequest : FieldType :=
  .model [required "linux_username" .str, required "fingerprint" .str]

def authorizedKeyReadRequest : FieldType := .model [required "linux_username" .str]

def executeScriptRequest : FieldType :=
  .model [required "reservation_id" .int, required "linux_username" .str, required "script" .str,
    nullable "working_directory" .str, withDefault "env" (.dict .str) (.obj []),
    nullable "max_runtime_seconds" .int, required "stdout_log_path_hint" .str,
    withDefault "max_log_size_bytes" .int (.num 4194304)]

def cancelScriptRequest : FieldType :=
  .model [required "reservation_id" .int,
    required "reason" (.literal ["user_cancel", "admin_cancel", "system_timeout"])]

def policyEntry : FieldType :=
  .model [required "key" .str, required "enabled" .bool,
    required "severity" (.literal ["log_only", "notify", "warn", "auto_kill"]),
    nullable "threshold_value" (.dict .any), nullable "grace_period_seconds" .int,
    withDefault "notify_admin" .bool (.bool true)]

def policySyncRequest : FieldType :=
  .model [required "server_id" .int, required "policies" (.list policyEntry), required "etag" .str]

/-- The fields of `ActiveReservationSnapshot`. -/
def activeReservationFields : List (String × FieldType × Option Json) :=
  [required "reservation_id" .int, required "gpu_id" .int, required "start_at" .datetime,
   required "end_at" .datetime, required "status" (.literal ["scheduled", "active"]),
   nullable "gpu_memory_mb" .int, nullable "gpu_compute_share_pct" .int,
   required "source" (.literal
     ["ssh_challenge", "password_pam", "admin_prepared_then_ssh", "admin_declared"])]

def activeReservationSnapshot : FieldType := .model activeReservationFields

/-- The fields of `AccountLinkCacheEntry`. -/
def accountLinkCacheEntryFields : List (String × FieldType × Option Json) :=
  [required "linux_username" .str, required "user_ids" (.list .int),
   withDefault "active_reservations" (.dict (.list activeReservationSnapshot)) (.obj [])]

def accountLinkCacheEntry : FieldType := .model accountLinkCacheEntryFields

/-- The fields of `AccountLinkCacheSyncRequest`. -/
def accountLinkCacheSyncFields : List (String × FieldType × Option Json) :=
  [required "server_id" .int, required "mode" (.literal ["full", "incremental"]),
   withDefault "entries" (.list accountLinkCacheEntry) (.arr []),
   withDefault "removed_linux_usernames" (.list .str) (.arr []), required "etag" .str]

def accountLinkCacheSyncRequest : FieldType := .model accountLinkCacheSyncFields

def linuxUseraddRequest : FieldType :=
  .model [required "linux_username" .str, nullable "uid" .int, nullable "gid" .int,
    nullable "home_directory" .str, nullable "default_shell" .str]

def linuxUserdelRequest : FieldType :=
  .model [required "linux_username" .str, withDefault "remove_home" .bool (.bool false)]

def gpuKillProcessRequest : FieldType :=
  .model [required "pid" (.intGe 1), nullable "linux_username" .str,
    nullable "reason" (.strMax 500)]

def backendConfigUpdateUrlsRequest : FieldType := .model [required "urls" (.list .str)]

def capabilityEntry : FieldType := .model [required "key" .str, required "enabled" .bool]

def backendCapabilitySync : FieldType := .model [required "capabilities" (.list capabilityEntry)]

def sshVerifySigResponse : FieldType :=
  .model [required "ok" .bool, nullable "signer_fingerprint" .str, nullable "error" .str]

def pamVerifyResponse : FieldType :=
  .model [required "verify_ok" .bool, nullable "mock_warning" .str, nullable "error" .str]

def authorizedKeyPushResponse : FieldType :=
  .model [required "installed_path" .str, required "fingerprint" .str, nullable "mock_warning" .str]

def authorizedKeyRevokeResponse : FieldType :=
  .model [required "revoked" .bool, nullable "mock_warning" .str]

def authorizedKeyReadEntry : FieldType :=
  .model [required "line_number" (.intGe 1), required "fingerprint_sha256" .str,
    nullable "key_type" .str, nullable "comment" .str]

def authorizedKeyReadResponse : FieldType :=
  .model [required "ok" .bool, nullable "authorized_keys_path" .str,
    withDefault "line_count" (.intGe 0) (.num 0),
    withDefault "invalid_line_count" (.intGe 0) (.num 0),
    withDefault "keys" (.list authorizedKeyReadEntry) (.arr []), nullable "mock_warning" .str,
    nullable "error" .str]

def executeScriptResponse : FieldType :=
  .model [required "ok" .bool, withDefault "started" .bool (.bool false), nullable "pid" .int,
    nullable "log_path" .str, nullable "error" .str, nullable "mock_warning" .str]

def cancelScriptResponse : FieldType :=
  .model [required "ok" .bool, required "cancelled" .bool, nullable "detail" .str,
    nullable "mock_warning" .str]

def policySyncResponse : FieldType :=
  .model [required "ok" .bool, withDefault "applied" .bool (.bool false), nullable "etag_now" .str,
    nullable "error" .str]

def accountLinkCacheSyncResponse : FieldType :=
  .model [required "ok" .bool, withDefault "applied" .bool (.bool false),
    withDefault "entries_count" .int (.num 0), nullable "error" .str]

def linuxUseraddResponse : FieldType :=
  .model [required "ok" .bool, nullable "uid" .int, nullable "gid" .int,
    nullable "home_directory" .str, nullable "default_shell" .str, nullable "error" .str,
    nullable "mock_warning" .str]

def linuxUserdelResponse : FieldType :=
  .model [required "ok" .bool, nullable "error" .str, nullable "mock_warning" .str]

def gpuKillProcessResponse : FieldType :=
  .model [required "ok" .bool, withDefault "killed" .bool (.bool false), nullable "error" .str,
    nullable "mock_warning" .str]

def agentConfigUpdateUrlsAck : FieldType :=
  .model [required "ok" .bool, required "applied_urls" (.list .str), nullable "error" .str]

def agentCapabilitySyncAck : FieldType :=
  .model [required "ok" .bool, withDefault "applied_count" .int (.num 0), nullable "error" .str]

/-- `_PAYLOAD_FOR_TYPE`, on the types of requests and responses. -/
def payloadForType : List (String × FieldType) :=
  [("backend.ssh.verify_sig", sshVerifySigRequest),
   ("agent.ssh.verify_sig.response", sshVerifySigResponse),
   ("backend.pam.verify", pamVerifyRequest),
   ("agent.pam.verify.response", pamVerifyResponse),
   ("backend.authorized_key.push", authorizedKeyPushRequest),
   ("agent.authorized_key.push.response", authorizedKeyPushResponse),
   ("backend.authorized_key.revoke", authorizedKeyRevokeRequest),
   ("agent.authorized_key.revoke.response", authorizedKeyRevokeResponse),
   ("backend.authorized_key.read", authorizedKeyReadRequest),
   ("agent.authorized_key.read.response", authorizedKeyReadResponse),
   ("backend.script.execute", executeScriptRequest),
   ("agent.script.execute.response", executeScriptResponse),
   ("backend.script.cancel", cancelScriptRequest),
   ("agent.script.cancel.response", cancelScriptResponse),
   ("backend.policy.sync", policySyncRequest),
   ("agent.policy.sync.response", policySyncResponse),
   ("backend.account_link_cache.sync", accountLinkCacheSyncRequest),
   ("agent.account_link_cache.sync.response", accountLinkCacheSyncResponse),
   ("backend.linux.useradd", linuxUseraddRequest),
   ("agent.linux.useradd.response", linuxUseraddResponse),
   ("backend.linux.userdel", linuxUserdelRequest),
   ("agent.linux.userdel.response", linuxUserdelResponse),
   ("backend.gpu.kill_process", gpuKillProcessRequest),
   ("agent.gpu.kill_process.response", gpuKillProcessResponse),
   ("backend.config.update_urls", backendConfigUpdateUrlsRequest),
   ("agent.config.update_urls.ack", agentConfigUpdateUrlsAck),
   ("backend.capability.sync", backendCapabilitySync),
   ("agent.capability.sync.ack", agentCapabilitySyncAck)]

/-- Both types of a round trip have a payload model. -/
theorem payloadForType_isSome {request response : String}
    (h : (request, response) ∈ rpcRequestToResponse) :
    (payloadForType.lookup request).isSome ∧ (payloadForType.lookup response).isSome := by
  have hall : ∀ e ∈ rpcRequestToResponse,
      (payloadForType.lookup e.1).isSome ∧ (payloadForType.lookup e.2).isSome := by decide
  exact hall (request, response) h

/-! ## the envelope -/

/-- The fields of `MessageEnvelope`, with the id and the time that fill in missing ones. -/
def messageEnvelopeFields (uuid now : String) : List (String × FieldType × Option Json) :=
  [required "type" (.literal messageTypes),
   withDefault "id" .str (.str uuid),
   withDefault "ts" .datetime (.str now),
   withDefault "payload" (.dict .any) (.obj []),
   nullable "correlation_id" .str]

/-- `MessageEnvelope`. -/
def messageEnvelope (uuid now : String) : FieldType := .model (messageEnvelopeFields uuid now)

/-- What the receiver of a frame uses of it. -/
structure Envelope where
  type : String
  id : String
  payload : Json
  correlationId : Option String

/-- `parse_envelope` of a request or a response; `none` is its `ValidationError`. -/
def parseEnvelope (sc : Scalars) (uuid now : String) (raw : Json) : Option Envelope := do
  let envelope ← validate sc (messageEnvelope uuid now) raw
  let type ← (← envelope.get? "type").text?
  let payload ← validate sc (← payloadForType.lookup type) (← envelope.get? "payload")
  some { type := type, id := ← (← envelope.get? "id").text?, payload := payload
         correlationId := (envelope.get? "correlation_id").bind Json.text? }

/-- A frame as both sides write it. -/
def frame (type id ts : String) (payload : Json) (correlationId : Option String) : Json :=
  .obj [("type", .str type), ("id", .str id), ("ts", .str ts), ("payload", payload),
        ("correlation_id", .ofOption .str correlationId)]

theorem validate_dict_any (sc : Scalars) (fields : List (String × Json)) :
    validate sc (.dict .any) (.obj fields) = some (.obj fields) := by
  have hkept : (fields.mapM fun e => (validate sc .any e.2).map fun v => (e.1, v)) = some fields := by
    induction fields with
    | nil => rfl
    | cons e fields ih =>
        rw [List.mapM_cons, validate_any_eq, ih]
        rfl
  rw [validate_dict_obj, hkept, Option.map_some]

/-- **A well-formed frame** is parsed exactly when the model of its type takes its payload. -/
theorem parseEnvelope_frame {sc : Scalars} (hsc : sc.Lawful) {uuid now type id ts : String}
    {model : FieldType} {fields : List (String × Json)} {correlationId : Option String}
    (htype : type ∈ messageTypes) (hmodel : payloadForType.lookup type = some model)
    (hts : (sc.datetime (.str ts)).isSome) :
    parseEnvelope sc uuid now (frame type id ts (.obj fields) correlationId) =
      (validate sc model (.obj fields)).map fun payload =>
        { type := type, id := id, payload := payload, correlationId := correlationId } := by
  obtain ⟨text, hts⟩ := Option.isSome_iff_exists.mp hts
  have henvelope : validate sc (messageEnvelope uuid now)
      (frame type id ts (.obj fields) correlationId) =
      some (frame type id text (.obj fields) correlationId) := by
    have htext : validate sc .datetime (.str ts) = some (.str text) := by
      rw [validate_datetime_eq, hts, Option.map_some]
    have hnodup : ((messageEnvelopeFields uuid now).map Prod.fst).Nodup := by
      show ["type", "id", "ts", "payload", "correlation_id"].Nodup
      decide
    rw [messageEnvelope, frame, validate_model (by rfl) hnodup]
    simp only [messageEnvelopeFields, required, withDefault, nullable, validateInOrder,
      validate_literal htype, htext, validate_str hsc, validate_dict_any,
      validate_optional_str hsc, Option.bind_some, Option.map_some, frame]
  rw [parseEnvelope, henvelope]
  cases hpayload : validate sc model (.obj fields) with
  | none => simp [frame, Json.get?, Json.text?, List.lookup_cons, hmodel, hpayload]
  | some payload =>
      cases correlationId <;>
        simp [frame, Json.get?, Json.text?, List.lookup_cons, hmodel, hpayload, Json.ofOption]

end Frames

end CoreLab
