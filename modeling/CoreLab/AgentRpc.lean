import CoreLab.HandlerReturns
import CoreLab.Lib.Transition

/-!
# CoreLab.AgentRpc

The agent's receive loop: a request frame goes to the handler of its type, the
result of the handler into the response frame.  An exception of a handler leaves
the loop and takes the connection with it.

* `answers_of_dispatch` — a handler that returns is answered by the response of
  its request, with a payload that the response model takes;
* `dispatch_iff` — which requests are answered;
* `pump_total_iff` — a run answers every frame and keeps the connection exactly
  when each of its frames is such a request.
-/

namespace CoreLab

namespace AgentRpc

open Loops Schema Frames AgentHost Transition
open CacheFrames (CachedItem natJson)

/-! ## requests -/

/-- One entry of a cache sync, dumped. -/
structure SyncEntry where
  linuxUsername : String
  userIds : List Int
  activeReservations : List (String × List CachedItem)

/-- The payload of a request, by its model. -/
inductive Request where
  | sshVerifySig (linuxUsername nonce ns signatureArmored : String)
  | pamVerify (linuxUsername password : String)
  | authorizedKeyPush (linuxUsername publicKey label : String)
  | authorizedKeyRevoke (linuxUsername fingerprint : String)
  | authorizedKeyRead (linuxUsername : String)
  | executeScript (p : ExecuteScriptRequest)
  | cancelScript (reservationId : Int) (reason : String)
  | capabilitySync (capabilities : List (String × Bool))
  | gpuKillProcess (pid : Int)
  | linuxUseradd (linuxUsername : String) (uid gid : Option Int)
      (homeDirectory defaultShell : Option String)
  | linuxUserdel (linuxUsername : String) (removeHome : Bool)
  | policySync (serverId : Int) (policies : List PolicyEntry) (etag : String)
  | configUpdateUrls (urls : List String)
  | accountLinkCacheSync (serverId : Int) (full : Bool) (entries : List SyncEntry)
      (removedLinuxUsernames : List String)

/-- The type of the frame that carries the request. -/
def Request.type : Request → String
  | sshVerifySig .. => "backend.ssh.verify_sig"
  | pamVerify .. => "backend.pam.verify"
  | authorizedKeyPush .. => "backend.authorized_key.push"
  | authorizedKeyRevoke .. => "backend.authorized_key.revoke"
  | authorizedKeyRead .. => "backend.authorized_key.read"
  | executeScript .. => "backend.script.execute"
  | cancelScript .. => "backend.script.cancel"
  | capabilitySync .. => "backend.capability.sync"
  | gpuKillProcess .. => "backend.gpu.kill_process"
  | linuxUseradd .. => "backend.linux.useradd"
  | linuxUserdel .. => "backend.linux.userdel"
  | policySync .. => "backend.policy.sync"
  | configUpdateUrls .. => "backend.config.update_urls"
  | accountLinkCacheSync .. => "backend.account_link_cache.sync"

/-! ## the caches -/

/-- `apply_sync` of the policies: those of the server are replaced. -/
def applyPolicies (a : Agent) (serverId : Int) (policies : List PolicyEntry) : Agent :=
  let others := a.policies.dropKeys fun k => k.1 = serverId
  { a with policies := policies.foldl (fun d p => d.set (serverId, p.key) p) others }

/-- `_parse_active_reservations`; a key that is no integer is skipped. -/
def parseActiveReservations (raw : List (String × List CachedItem)) : Dict Nat (List CachedItem) :=
  raw.foldl (fun out e =>
    match readInt e.1 with
    | none => out
    | some userId => out.set userId e.2) .empty

/-- Take the entries of a sync over. -/
def cacheEntries (serverId : Int) (entries : List SyncEntry)
    (cache : Dict (Int × String) (List Int × Dict Nat (List CachedItem))) :
    Dict (Int × String) (List Int × Dict Nat (List CachedItem)) :=
  entries.foldl (fun c e => c.set (serverId, e.linuxUsername)
    (e.userIds, parseActiveReservations e.activeReservations)) cache

/-- `apply_full_snapshot` and `apply_incremental`. -/
def applyCacheSync (a : Agent) (serverId : Int) (full : Bool) (entries : List SyncEntry)
    (removedLinuxUsernames : List String) : Agent :=
  { a with reverseCache :=
      if full then cacheEntries serverId entries (a.reverseCache.dropKeys fun k => k.1 = serverId)
      else (cacheEntries serverId entries a.reverseCache).dropKeys fun k =>
        k.1 = serverId && removedLinuxUsernames.contains k.2 }

/-- The entries cached for a server. -/
def entryCount (a : Agent) (serverId : Int) : Nat :=
  (a.reverseCache.entries.filter fun e => e.1.1 = serverId).length

/-! ## the dispatch -/

/-- What a handler hands back: the agent, the response type and its payload. -/
abbrev Handled := Agent × String × List (String × Json)

/-- The update of the addresses: the agent, the applied addresses and the error; an
`OSError` of the file is reported. -/
def updateUrls (a : Agent) (h : Host) (urls : List String) :
    Except Exc (Agent × List String × Option String) :=
  if urls = [] then .ok (a, [], some "empty url list")
  else
    let updated := { a with backendUrls := urls }
    if !a.hasConfigPath then .ok (updated, urls, none)
    else match h.persistUrls urls with
    | .ok _ => .ok (updated, urls, none)
    | .error (.os _ text) => .ok (updated, [], some ("persist failed: " ++ text))
    | .error f => .error (.fault f)

/-- One key of a read. -/
def keyJson (k : ReadKeyEntry) : Json :=
  .obj [("line_number", natJson k.lineNumber), ("fingerprint_sha256", .str k.fingerprintSha256),
        ("key_type", .ofOption .str k.keyType), ("comment", .ofOption .str k.comment)]

/-- The payload of a read that came to its end. -/
def readPayload (r : ReadResult) : List (String × Json) :=
  [("ok", .bool true), ("authorized_keys_path", .str r.authorizedKeysPath),
   ("line_count", natJson r.lineCount), ("invalid_line_count", natJson r.invalidLineCount),
   ("keys", .arr (r.keys.map keyJson)), ("mock_warning", .ofOption .str r.mockWarning), ("error", .null)]

/-- The payload of a read that was refused. -/
def readRefused (text : String) : List (String × Json) :=
  [("ok", .bool false), ("authorized_keys_path", .null), ("line_count", natJson 0),
   ("invalid_line_count", natJson 0), ("keys", .arr []), ("mock_warning", .null),
   ("error", .str text)]

/-- `_invoke_handler`. -/
def invokeHandler (a : Agent) (h : Host) : Request → Except Exc Handled
  | .sshVerifySig linuxUsername nonce ns signatureArmored => do
    let r ← verifySig a h linuxUsername nonce ns signatureArmored
    .ok (a, "agent.ssh.verify_sig.response",
      [("ok", .bool r.ok), ("signer_fingerprint", .ofOption .str r.signerFingerprint),
       ("error", .ofOption .str r.error)])
  | .pamVerify linuxUsername password => do
    let r ← pamVerify a h linuxUsername password
    .ok (a, "agent.pam.verify.response",
      [("verify_ok", .bool r.verifyOk), ("mock_warning", .ofOption .str r.mockWarning),
       ("error", .ofOption .str r.error)])
  | .authorizedKeyPush linuxUsername publicKey label => do
    let r ← push a h linuxUsername publicKey label
    .ok (a, "agent.authorized_key.push.response",
      [("installed_path", .str r.installedPath), ("fingerprint", .str r.fingerprint),
       ("mock_warning", .ofOption .str r.mockWarning)])
  | .authorizedKeyRevoke linuxUsername fingerprint => do
    let r ← revoke a h linuxUsername fingerprint
    .ok (a, "agent.authorized_key.revoke.response",
      [("revoked", .bool r.revoked), ("mock_warning", .ofOption .str r.mockWarning)])
  | .authorizedKeyRead linuxUsername =>
    -- the one handler whose errors are caught
    match read a h linuxUsername with
    | .ok r => .ok (a, "agent.authorized_key.read.response", readPayload r)
    | .error (.authorizedKeys text) =>
      .ok (a, "agent.authorized_key.read.response", readRefused text)
    | .error e => .error e
  | .executeScript p => do
    let (a', r) ← execute a h p
    .ok (a', "agent.script.execute.response",
      [("ok", .bool r.ok), ("started", .bool r.started), ("pid", .ofOption natJson r.pid),
       ("log_path", .ofOption .str r.logPath), ("error", .ofOption .str r.error),
       ("mock_warning", .ofOption .str r.mockWarning)])
  | .cancelScript reservationId reason => do
    let (a', r) ← cancel a h reservationId reason
    .ok (a', "agent.script.cancel.response",
      [("ok", .bool r.ok), ("cancelled", .bool r.cancelled), ("detail", .ofOption .str r.detail),
       ("mock_warning", .ofOption .str r.mockWarning)])
  | .capabilitySync capabilities =>
    .ok ({ a with capabilities := capabilities.foldl (fun d e => d.set e.1 e.2) a.capabilities },
      "agent.capability.sync.ack",
      [("ok", .bool true), ("applied_count", natJson capabilities.length), ("error", .null)])
  | .gpuKillProcess pid => do
    let r ← killPid a h pid
    .ok (a, "agent.gpu.kill_process.response",
      [("ok", .bool r.ok), ("killed", .bool r.killed), ("error", .ofOption .str r.error),
       ("mock_warning", .ofOption .str r.mockWarning)])
  | .linuxUseradd linuxUsername uid gid homeDirectory defaultShell => do
    let r ← useradd a h linuxUsername uid gid homeDirectory defaultShell
    .ok (a, "agent.linux.useradd.response",
      [("ok", .bool r.ok), ("uid", .ofOption .num r.uid), ("gid", .ofOption .num r.gid),
       ("home_directory", .ofOption .str r.homeDirectory),
       ("default_shell", .ofOption .str r.defaultShell), ("error", .ofOption .str r.error),
       ("mock_warning", .ofOption .str r.mockWarning)])
  | .linuxUserdel linuxUsername removeHome => do
    let r ← userdel a h linuxUsername removeHome
    .ok (a, "agent.linux.userdel.response",
      [("ok", .bool r.ok), ("error", .ofOption .str r.error),
       ("mock_warning", .ofOption .str r.mockWarning)])
  | .policySync serverId policies etag =>
    .ok (applyPolicies a serverId policies, "agent.policy.sync.response",
      [("ok", .bool true), ("applied", .bool true), ("etag_now", .str etag), ("error", .null)])
  | .configUpdateUrls urls => do
    let (a', applied, error) ← updateUrls a h urls
    .ok (a', "agent.config.update_urls.ack",
      [("ok", .bool error.isNone), ("applied_urls", .arr (applied.map .str)),
       ("error", .ofOption .str error)])
  | .accountLinkCacheSync serverId full entries removedLinuxUsernames =>
    let a' := applyCacheSync a serverId full entries removedLinuxUsernames
    .ok (a', "agent.account_link_cache.sync.response",
      [("ok", .bool true), ("applied", .bool true),
       ("entries_count", natJson (entryCount a' serverId)), ("error", .null)])

/-- A request frame, parsed. -/
structure RequestFrame where
  id : String
  request : Request

/-- A response frame. -/
structure Reply where
  type : String
  payload : Json
  correlationId : String

/-- `_maybe_dispatch_rpc` of a request: the reply it sends. -/
def maybeDispatchRpc (a : Agent) (h : Host) (f : RequestFrame) : Except Exc (Agent × Reply) := do
  let (a', type, fields) ← invokeHandler a h f.request
  .ok (a', { type := type, payload := .obj fields, correlationId := f.id })

/-! ## the answer -/

/-- The reply to a request: of the response type of the request, with the id of its
frame and a payload that the response model takes. -/
structure Answers (sc : Scalars) (f : RequestFrame) (r : Reply) : Prop where
  type : (f.request.type, r.type) ∈ rpcRequestToResponse
  correlationId : r.correlationId = f.id
  payload : ∃ model, payloadForType.lookup r.type = some model ∧
    (validate sc model r.payload).isSome

/-- A handler's result fits the request it was called for. -/
structure Fits (sc : Scalars) (request : Request) (result : Handled) : Prop where
  type : (request.type, result.2.1) ∈ rpcRequestToResponse
  payload : ∃ model, payloadForType.lookup result.2.1 = some model ∧
    (validate sc model (.obj result.2.2)).isSome

/-- A payload of the fields of its response model, in order, fits. -/
theorem fits_of_validateInOrder {sc : Scalars} {request : Request} {a : Agent} {type : String}
    {model : List (String × FieldType × Option Json)} {fields : List (String × Json)}
    (htype : rpcRequestToResponse.elem (request.type, type) = true)
    (hmodel : payloadForType.lookup type = some (.model model))
    (hnames : fields.map Prod.fst = model.map Prod.fst) (hnodup : (model.map Prod.fst).Nodup)
    (hfields : (validateInOrder sc model fields).isSome) : Fits sc request (a, type, fields) :=
  ⟨List.mem_of_elem_eq_true htype, _, hmodel, by
    rw [validate_model hnames hnodup, Option.isSome_map]
    exact hfields⟩

section Fits

variable {sc : Scalars} (hsc : sc.Lawful)
include hsc

theorem validate_natJson (n : Nat) : validate sc .int (natJson n) = some (natJson n) :=
  validate_int hsc n

theorem validate_natJson_ge {bound : Int} {n : Nat} (h : bound ≤ n) :
    validate sc (.intGe bound) (natJson n) = some (natJson n) :=
  validate_intGe hsc h

theorem validate_optional_natJson (n : Option Nat) :
    validate sc (.optional .int) (.ofOption natJson n) = some (.ofOption natJson n) := by
  cases n with
  | none => rfl
  | some n => exact validate_natJson hsc n

omit hsc in
/-- The entries of a summary are numbered from one. -/
theorem summarizeAuthorizedKeys_lineNumber {digest : AuthorizedKeys.Digest} {text : List Char} :
    ∀ k ∈ (summarizeAuthorizedKeys digest text).1, 1 ≤ k.lineNumber := by
  have hloop : ∀ (lines : List (Lines.Line × Nat)) (acc : List ReadKeyEntry × Nat × Nat),
      (∀ k ∈ acc.1, 1 ≤ k.lineNumber) →
      ∀ k ∈ (lines.foldl (summarizeLine digest) acc).1, 1 ≤ k.lineNumber := by
    intro lines
    induction lines with
    | nil => exact fun acc hacc => hacc
    | cons line lines ih =>
        intro acc hacc
        obtain ⟨keys, count, invalid⟩ := acc
        obtain ⟨raw, index⟩ := line
        refine ih _ fun k hk => ?_
        simp only [summarizeLine] at hk
        split at hk
        · exact hacc k hk
        · split at hk
          · rcases List.mem_append.mp hk with hk | hk
            · exact hacc k hk
            · obtain rfl := List.mem_singleton.mp hk
              exact Nat.le_add_left 1 _
          · exact hacc k hk
  exact hloop _ ([], 0, 0) fun _ hk => nomatch hk

theorem validate_readKeyEntry {k : ReadKeyEntry} (hk : 1 ≤ k.lineNumber) :
    validate sc authorizedKeyReadEntry (keyJson k) = some (keyJson k) := by
  have hline : validate sc (.intGe 1) (natJson k.lineNumber) = some (natJson k.lineNumber) :=
    validate_natJson_ge hsc (by omega)
  rw [authorizedKeyReadEntry, keyJson, validate_model (by rfl) (by decide)]
  simp [validateInOrder, required, nullable, validate_str hsc, validate_optional_str hsc, hline]

omit hsc in
theorem lineNumber_of_read {a : Agent} {h : Host} {linuxUsername : String} {r : ReadResult}
    (hr : read a h linuxUsername = .ok r) : ∀ k ∈ r.keys, 1 ≤ k.lineNumber := by
  obtain ⟨-, -, hr⟩ := bind_eq_ok_iff.mp hr
  split at hr
  · obtain rfl := Except.ok.inj hr
    exact fun _ hk => nomatch hk
  · obtain ⟨found, -, hr⟩ := bind_eq_ok_iff.mp hr
    cases found with
    | none => cases hr
    | some info =>
        obtain ⟨paths, -, hr⟩ := bind_eq_ok_iff.mp hr
        obtain ⟨text, -, hr⟩ := bind_eq_ok_iff.mp hr
        obtain rfl := Except.ok.inj hr
        exact summarizeAuthorizedKeys_lineNumber

/-- **The result of a handler** is the response of its request, and its model takes it. -/
theorem fits_of_invokeHandler {a : Agent} {h : Host} {request : Request} {result : Handled}
    (hresult : invokeHandler a h request = .ok result) : Fits sc request result := by
  cases request with
  | sshVerifySig u n ns s =>
      obtain ⟨r, -, hr⟩ := bind_eq_ok_iff.mp hresult
      obtain rfl := Except.ok.inj hr
      refine fits_of_validateInOrder rfl rfl rfl (by decide) ?_
      simp [validateInOrder, required, nullable, validate_bool hsc, validate_optional_str hsc]
  | pamVerify u p =>
      obtain ⟨r, -, hr⟩ := bind_eq_ok_iff.mp hresult
      obtain rfl := Except.ok.inj hr
      refine fits_of_validateInOrder rfl rfl rfl (by decide) ?_
      simp [validateInOrder, required, nullable, validate_bool hsc, validate_optional_str hsc]
  | authorizedKeyPush u k l =>
      obtain ⟨r, -, hr⟩ := bind_eq_ok_iff.mp hresult
      obtain rfl := Except.ok.inj hr
      refine fits_of_validateInOrder rfl rfl rfl (by decide) ?_
      simp [validateInOrder, required, nullable, validate_str hsc, validate_optional_str hsc]
  | authorizedKeyRevoke u f =>
      obtain ⟨r, -, hr⟩ := bind_eq_ok_iff.mp hresult
      obtain rfl := Except.ok.inj hr
      refine fits_of_validateInOrder rfl rfl rfl (by decide) ?_
      simp [validateInOrder, required, nullable, validate_bool hsc, validate_optional_str hsc]
  | authorizedKeyRead u =>
      have hcount : ∀ n, validate sc (.intGe 0) (natJson n) = some (natJson n) :=
        fun n => validate_natJson_ge hsc (Int.natCast_nonneg n)
      rw [invokeHandler] at hresult
      split at hresult
      · next r hr =>
          obtain rfl := Except.ok.inj hresult
          refine fits_of_validateInOrder rfl rfl rfl (by decide) ?_
          have hpath : validate sc (.optional .str) (.str r.authorizedKeysPath) =
              some (.str r.authorizedKeysPath) :=
            validate_optional_str hsc (some r.authorizedKeysPath)
          have hkeys : validate sc (.list authorizedKeyReadEntry) (.arr (r.keys.map keyJson)) =
              some (.arr (r.keys.map keyJson)) := by
            rw [validate_list_arr, mapM_map_eq_some fun k hk =>
              validate_readKeyEntry hsc (lineNumber_of_read hr k hk), Option.map_some]
          simp [readPayload, validateInOrder, required, nullable, withDefault, validate_bool hsc,
            validate_optional_str hsc, hcount, hkeys, hpath]
      · next text _ =>
          obtain rfl := Except.ok.inj hresult
          refine fits_of_validateInOrder rfl rfl rfl (by decide) ?_
          have hkeys : validate sc (.list authorizedKeyReadEntry) (.arr []) = some (.arr []) :=
            rfl
          have htext : validate sc (.optional .str) (.str text) = some (.str text) :=
            validate_optional_str hsc (some text)
          simp [readRefused, validateInOrder, required, nullable, withDefault, validate_bool hsc,
            hcount, hkeys, htext]
      · cases hresult
  | executeScript p =>
      obtain ⟨⟨a', r⟩, -, hr⟩ := bind_eq_ok_iff.mp hresult
      obtain rfl := Except.ok.inj hr
      refine fits_of_validateInOrder rfl rfl rfl (by decide) ?_
      simp [validateInOrder, required, nullable, withDefault, validate_bool hsc,
        validate_optional_str hsc, validate_optional_natJson hsc]
  | cancelScript id reason =>
      obtain ⟨⟨a', r⟩, -, hr⟩ := bind_eq_ok_iff.mp hresult
      obtain rfl := Except.ok.inj hr
      refine fits_of_validateInOrder rfl rfl rfl (by decide) ?_
      simp [validateInOrder, required, nullable, validate_bool hsc, validate_optional_str hsc]
  | capabilitySync capabilities =>
      obtain rfl := Except.ok.inj hresult
      refine fits_of_validateInOrder rfl rfl rfl (by decide) ?_
      simp [validateInOrder, required, nullable, withDefault, validate_bool hsc,
        validate_natJson hsc]
  | gpuKillProcess pid =>
      obtain ⟨r, -, hr⟩ := bind_eq_ok_iff.mp hresult
      obtain rfl := Except.ok.inj hr
      refine fits_of_validateInOrder rfl rfl rfl (by decide) ?_
      simp [validateInOrder, required, nullable, withDefault, validate_bool hsc,
        validate_optional_str hsc]
  | linuxUseradd u uid gid home shell =>
      obtain ⟨r, -, hr⟩ := bind_eq_ok_iff.mp hresult
      obtain rfl := Except.ok.inj hr
      refine fits_of_validateInOrder rfl rfl rfl (by decide) ?_
      simp [validateInOrder, required, nullable, validate_bool hsc, validate_optional_str hsc,
        validate_optional_int hsc]
  | linuxUserdel u remove =>
      obtain ⟨r, -, hr⟩ := bind_eq_ok_iff.mp hresult
      obtain rfl := Except.ok.inj hr
      refine fits_of_validateInOrder rfl rfl rfl (by decide) ?_
      simp [validateInOrder, required, nullable, validate_bool hsc, validate_optional_str hsc]
  | policySync server policies etag =>
      obtain rfl := Except.ok.inj hresult
      refine fits_of_validateInOrder rfl rfl rfl (by decide) ?_
      have hetag : validate sc (.optional .str) (.str etag) = some (.str etag) :=
        validate_optional_str hsc (some etag)
      simp [validateInOrder, required, nullable, withDefault, validate_bool hsc, hetag]
  | configUpdateUrls urls =>
      obtain ⟨⟨a', applied, error⟩, -, hr⟩ := bind_eq_ok_iff.mp hresult
      obtain rfl := Except.ok.inj hr
      refine fits_of_validateInOrder rfl rfl rfl (by decide) ?_
      have hurls : validate sc (.list .str) (.arr (applied.map .str)) =
          some (.arr (applied.map .str)) := by
        rw [validate_list_arr, mapM_map_eq_some fun url _ => validate_str hsc url, Option.map_some]
      simp [validateInOrder, required, nullable, validate_bool hsc, validate_optional_str hsc, hurls]
  | accountLinkCacheSync server full entries removed =>
      obtain rfl := Except.ok.inj hresult
      refine fits_of_validateInOrder rfl rfl rfl (by decide) ?_
      simp [validateInOrder, required, nullable, withDefault, validate_bool hsc,
        validate_natJson hsc]

end Fits

/-! ## which requests are answered -/

/-- A request that is answered: its switch is on and its arguments are taken, where its
handler raises otherwise, and the host raises nothing that the handler does not catch. -/
def Answerable (a : Agent) (h : Host) : Request → Prop
  | .sshVerifySig linuxUsername nonce ns signatureArmored =>
      Admitted a "ssh.verify_signature" linuxUsername ∧
        (a.mockMode = false → ∃ sigFile, h.makeVerifyDir nonce signatureArmored = .ok sigFile ∧
          Returns h.removeVerifyDir ∧
          Caught IsFileNotFound (h.run (verifyCommand linuxUsername ns sigFile)))
  | .pamVerify linuxUsername _ =>
      Admitted a "pam.authenticate" linuxUsername ∧
        (a.mockMode = false → ∀ f, h.importPamela ≠ .error (.fault f))
  | .authorizedKeyPush linuxUsername publicKey label =>
      Admitted a "ssh.push_authorized_key" linuxUsername ∧
        ∃ line, AuthorizedKeys.authorizedKeyLine h.digest publicKey.toList label.toList = .ok line ∧
          (a.mockMode = false → PushesLine h linuxUsername line)
  | .authorizedKeyRevoke linuxUsername fingerprint =>
      Admitted a "ssh.remove_authorized_key" linuxUsername ∧
        (a.mockMode = false → RevokesKey h linuxUsername fingerprint)
  | .authorizedKeyRead linuxUsername =>
      usernameRe linuxUsername = true → a.mockMode = false → ReadsOrRefuses h linuxUsername
  | .executeScript p =>
      a.isEnabled "script.execute_as_user" true = true → a.running.get? p.reservationId = none →
        (a.mockMode = true → Returns (h.writeMockLog (mockLogPath p.reservationId))) ∧
        (a.mockMode = false → AnswersScript h p)
  | .cancelScript reservationId _ =>
      ∀ entry, a.running.get? reservationId = some entry → entry.hasProcess = true →
        Caught IsProcessLookup h.terminate
  | .gpuKillProcess pid =>
      a.isEnabled "gpu.kill_process" false = true → a.mockMode = false → AnswersKill h pid
  | .linuxUseradd linuxUsername uid gid homeDirectory defaultShell =>
      Admitted a "linux.useradd" linuxUsername ∧
        UseraddValid uid gid homeDirectory defaultShell ∧
        (a.mockMode = false → AnswersUseradd h linuxUsername
          (useraddCommand h linuxUsername uid gid
            (orElse (homeDirectory.getD "") ("/home/" ++ linuxUsername))
            (orElse (defaultShell.getD "") "/bin/bash")))
  | .linuxUserdel linuxUsername removeHome =>
      Admitted a "linux.userdel" linuxUsername ∧
        (a.mockMode = false →
          AnswersUserdel h linuxUsername (userdelCommand h linuxUsername removeHome))
  | .configUpdateUrls urls =>
      urls ≠ [] → a.hasConfigPath = true → Caught IsOsError (h.persistUrls urls)
  | .capabilitySync _ | .policySync .. | .accountLinkCacheSync .. => True

theorem updateUrls_returns_iff {a : Agent} {h : Host} {urls : List String} :
    Returns (updateUrls a h urls) ↔
      (urls ≠ [] → a.hasConfigPath = true → Caught IsOsError (h.persistUrls urls)) := by
  unfold updateUrls
  by_cases hurls : urls = []
  · simp [hurls]
  · cases a.hasConfigPath with
    | false => simp [hurls]
    | true =>
        simp only [hurls, if_false, Bool.not_true, Bool.false_eq_true, ne_eq, not_false_eq_true,
          forall_const]
        cases h.persistUrls urls with
        | ok _ => exact iff_of_true (returns_ok _) (caught_ok _)
        | error f => cases f <;> simp [Caught, IsOsError]

/-- Wrapping a result up does not raise. -/
theorem returns_bind_ok_iff {ε α β : Type} {x : Except ε α} {f : α → β} :
    Returns (x >>= fun a => .ok (f a)) ↔ Returns x := by
  rw [returns_bind_iff]
  exact exists_congr fun a => and_iff_left (returns_ok (f a))

theorem invokeHandler_returns_iff {a : Agent} {h : Host} {request : Request} :
    Returns (invokeHandler a h request) ↔ Answerable a h request := by
  cases request with
  | sshVerifySig => exact returns_bind_ok_iff.trans verifySig_returns_iff
  | pamVerify => exact returns_bind_ok_iff.trans pamVerify_returns_iff
  | authorizedKeyPush => exact returns_bind_ok_iff.trans push_returns_iff
  | authorizedKeyRevoke => exact returns_bind_ok_iff.trans revoke_returns_iff
  | authorizedKeyRead u =>
      refine Iff.trans ?_ read_ownErrors_iff
      rw [invokeHandler, OwnErrors]
      cases read a h u with
      | ok r => simp
      | error e => cases e <;> simp
  | executeScript => exact returns_bind_ok_iff.trans execute_returns_iff
  | cancelScript => exact returns_bind_ok_iff.trans cancel_returns_iff
  | gpuKillProcess => exact returns_bind_ok_iff.trans killPid_returns_iff
  | linuxUseradd => exact returns_bind_ok_iff.trans useradd_returns_iff
  | linuxUserdel => exact returns_bind_ok_iff.trans userdel_returns_iff
  | configUpdateUrls => exact returns_bind_ok_iff.trans updateUrls_returns_iff
  | capabilitySync => exact iff_of_true (returns_ok _) True.intro
  | policySync => exact iff_of_true (returns_ok _) True.intro
  | accountLinkCacheSync => exact iff_of_true (returns_ok _) True.intro

/-- **Which requests are answered.** -/
theorem dispatch_iff {a : Agent} {h : Host} {f : RequestFrame} :
    Returns (maybeDispatchRpc a h f) ↔ Answerable a h f.request := by
  unfold maybeDispatchRpc
  rw [← invokeHandler_returns_iff]
  exact returns_bind_ok_iff

/-- **A reply that is sent answers its frame.** -/
theorem answers_of_dispatch {sc : Scalars} (hsc : sc.Lawful) {a a' : Agent} {h : Host}
    {f : RequestFrame} {r : Reply} (hr : maybeDispatchRpc a h f = .ok (a', r)) : Answers sc f r := by
  obtain ⟨⟨b, type, fields⟩, hresult, hr⟩ := bind_eq_ok_iff.mp hr
  obtain ⟨rfl, rfl⟩ := Prod.mk.inj (Except.ok.inj hr)
  have hfits := fits_of_invokeHandler hsc hresult
  exact ⟨hfits.type, rfl, hfits.payload⟩

/-! ## the receive loop -/

/-- The loop on one connection: the agent, what was sent and whether the loop still runs. -/
structure Pump where
  agent : Agent
  sent : List Reply
  up : Bool

/-- What happens next: a frame arrives and the host answers the calls of its handler, or
the task of a script removes its entry. -/
inductive Action where
  | frame (h : Host) (f : RequestFrame)
  | scriptEnds (reservationId : Int)

/-- `_pump`: an exception leaves the loop, after which nothing is received. -/
def step (p : Pump) : Action → Option Pump
  | .frame h f =>
    if !p.up then none
    else match maybeDispatchRpc p.agent h f with
    | .ok (a', r) => some { p with agent := a', sent := p.sent ++ [r] }
    | .error _ => some { p with up := false }
  | .scriptEnds reservationId =>
    some { p with
      agent := { p.agent with running := p.agent.running.dropKeys fun k => k = reservationId } }

/-- The frames of a run. -/
def framesOf : List Action → List RequestFrame
  | [] => []
  | .frame _ f :: actions => f :: framesOf actions
  | .scriptEnds _ :: actions => framesOf actions

/-- Each frame is one that is answered where it arrives. -/
def FramesAnswerable (p : Pump) : Action → Prop
  | .frame h f => Answerable p.agent h f.request
  | .scriptEnds _ => True

/-- A run in which each frame was answered, once and in order, and that left the loop running. -/
def Total (sc : Scalars) (p : Pump) (actions : List Action) : Prop :=
  ∃ p' replies, exec step p actions = some p' ∧ p'.up = true ∧ p'.sent = p.sent ++ replies ∧
    List.Forall₂ (Answers sc) (framesOf actions) replies

/-- A frame that is answered adds its reply. -/
theorem step_frame_ok {p : Pump} (hup : p.up = true) {h : Host} {f : RequestFrame} {a' : Agent}
    {r : Reply} (hr : maybeDispatchRpc p.agent h f = .ok (a', r)) :
    step p (.frame h f) = some { p with agent := a', sent := p.sent ++ [r] } := by
  simp [step, hup, hr]

/-- A frame whose handler raises ends the loop. -/
theorem step_frame_error {p : Pump} (hup : p.up = true) {h : Host} {f : RequestFrame} {e : Exc}
    (he : maybeDispatchRpc p.agent h f = .error e) :
    step p (.frame h f) = some { p with up := false } := by
  simp [step, hup, he]

/-- The end of a script leaves the connection as it is. -/
theorem step_scriptEnds (p : Pump) (reservationId : Int) :
    ∃ t, step p (.scriptEnds reservationId) = some t ∧ t.sent = p.sent ∧ t.up = p.up :=
  ⟨_, rfl, rfl, rfl⟩

/-- A step only adds replies, and is not taken back into a loop that was left. -/
theorem step_kept {p t : Pump} {a : Action} (h : step p a = some t) :
    (t.up = true → p.up = true) ∧ ∃ more, t.sent = p.sent ++ more := by
  cases a with
  | scriptEnds reservationId =>
      obtain rfl := Option.some.inj h
      exact ⟨fun hp => hp, [], (List.append_nil _).symm⟩
  | frame host f =>
      cases hup : p.up with
      | false => simp [step, hup] at h
      | true =>
          refine ⟨fun _ => rfl, ?_⟩
          cases hr : maybeDispatchRpc p.agent host f with
          | ok result =>
              obtain rfl := Option.some.inj ((step_frame_ok hup hr).symm.trans h)
              exact ⟨[result.2], rfl⟩
          | error e =>
              obtain rfl := Option.some.inj ((step_frame_error hup hr).symm.trans h)
              exact ⟨[], (List.append_nil _).symm⟩

theorem exec_kept {p p' : Pump} {actions : List Action} (h : exec step p actions = some p') :
    (p'.up = true → p.up = true) ∧ ∃ more, p'.sent = p.sent ++ more := by
  induction actions generalizing p with
  | nil =>
      obtain rfl := Option.some.inj h
      exact ⟨id, [], (List.append_nil _).symm⟩
  | cons a actions ih =>
      obtain ⟨t, ht, h⟩ := exec_cons_eq_some.mp h
      obtain ⟨hup, more, hmore⟩ := step_kept ht
      obtain ⟨hup', more', hmore'⟩ := ih h
      exact ⟨fun hp => hup (hup' hp), more ++ more', by rw [hmore', hmore, List.append_assoc]⟩

/-- A run that starts with an answered frame is total exactly when the rest of it is. -/
theorem total_frame_iff {sc : Scalars} (hsc : sc.Lawful) {p : Pump} (hup : p.up = true) {h : Host}
    {f : RequestFrame} {a' : Agent} {r : Reply}
    (hr : maybeDispatchRpc p.agent h f = .ok (a', r)) (actions : List Action) :
    Total sc p (.frame h f :: actions) ↔
      Total sc { p with agent := a', sent := p.sent ++ [r] } actions := by
  constructor
  · rintro ⟨p', replies, hexec, hup', hsent, hall⟩
    obtain ⟨t, ht, hexec⟩ := exec_cons_eq_some.mp hexec
    obtain rfl := Option.some.inj ((step_frame_ok hup hr).symm.trans ht)
    cases hall with
    | cons _ hall =>
        -- the first reply of the run is the one of this frame
        obtain ⟨-, more, hmore⟩ := exec_kept hexec
        rw [hmore, List.append_assoc, List.append_cancel_left_eq] at hsent
        obtain ⟨-, rfl⟩ := List.cons_eq_cons.mp hsent
        exact ⟨p', more, hexec, hup', hmore, hall⟩
  · rintro ⟨p', replies, hexec, hup', hsent, hall⟩
    refine ⟨p', r :: replies, exec_cons_eq_some.mpr ⟨_, step_frame_ok hup hr, hexec⟩, hup', ?_,
      .cons (answers_of_dispatch hsc hr) hall⟩
    rw [hsent, List.append_assoc]
    rfl

/-- **Totality of the receive loop**: over any run, every frame is answered by exactly one
reply of its response type, with its id and a valid payload, and the connection stays
up, exactly when every frame is answerable where it arrives. -/
theorem pump_total_iff {sc : Scalars} (hsc : sc.Lawful) {p : Pump} (hup : p.up = true)
    (actions : List Action) :
    Total sc p actions ↔ Meets step FramesAnswerable p actions := by
  induction actions generalizing p with
  | nil => exact iff_of_true ⟨p, [], rfl, hup, (List.append_nil _).symm, .nil⟩ True.intro
  | cons a actions ih =>
      cases a with
      | scriptEnds reservationId =>
          obtain ⟨t, ht, hsent, hup'⟩ := step_scriptEnds p reservationId
          have hrest := ih (hup'.trans hup)
          constructor
          · rintro ⟨p', replies, hexec, hrun⟩
            obtain ⟨t', ht', hexec⟩ := exec_cons_eq_some.mp hexec
            obtain rfl := Option.some.inj (ht.symm.trans ht')
            refine ⟨True.intro, fun t' ht' => ?_⟩
            obtain rfl := Option.some.inj (ht.symm.trans ht')
            exact hrest.mp ⟨p', replies, hexec, hsent ▸ hrun⟩
          · rintro ⟨-, hmeets⟩
            obtain ⟨p', replies, hexec, hrun⟩ := hrest.mpr (hmeets t ht)
            exact ⟨p', replies, exec_cons_eq_some.mpr ⟨t, ht, hexec⟩, hsent ▸ hrun⟩
      | frame h f =>
          cases hr : maybeDispatchRpc p.agent h f with
          | ok result =>
              obtain ⟨a', r⟩ := result
              have hstep := step_frame_ok hup hr
              have hrest : Total sc p (.frame h f :: actions) ↔
                  Meets step FramesAnswerable { p with agent := a', sent := p.sent ++ [r] } actions :=
                (total_frame_iff hsc hup hr actions).trans (ih hup)
              have hok : FramesAnswerable p (.frame h f) := dispatch_iff.mp ⟨_, hr⟩
              refine hrest.trans
                ⟨fun hmeets => ⟨hok, fun t ht => ?_⟩, fun hmeets => hmeets.2 _ hstep⟩
              obtain rfl := Option.some.inj ((step_frame_ok hup hr).symm.trans ht)
              exact hmeets
          | error e =>
              refine iff_of_false ?_ fun hmeets => ?_
              · rintro ⟨p', -, hexec, hup', -⟩
                obtain ⟨t, ht, hexec⟩ := exec_cons_eq_some.mp hexec
                obtain rfl := Option.some.inj ((step_frame_error hup hr).symm.trans ht)
                exact Bool.false_ne_true ((exec_kept hexec).1 hup')
              · obtain ⟨result, hresult⟩ := dispatch_iff.mpr hmeets.1
                rw [hr] at hresult
                cases hresult

/-- A host on which nothing fails. -/
def quietHost : Host where
  repr s := "'" ++ s ++ "'"
  digest _ := .ok "SHA256:x"
  run _ := .ok { returncode := 0, stdout := "", stderr := "" }
  which _ := none
  getpwnam _ := .ok none
  getpwnamAgain _ := .ok none
  groupNameForGid _ := ""
  makeVerifyDir _ _ := .ok "/tmp/sig"
  removeVerifyDir := .ok ()
  importPamela := .ok ()
  authenticate _ _ := .ok ()
  writeTempFile _ := .ok "/tmp/keys"
  unlink _ := .ok ()
  sigterm := .ok ()
  probe := .ok ()
  sigkill := .ok ()
  killBin := none
  makeLogDir _ := .ok ()
  touchLog _ := .ok ()
  spawnScript _ _ _ := .ok 1
  writeMockLog _ := .ok ()
  terminate := .ok ()
  persistUrls _ := .ok ()
  platform := "LINUX"

/-- A mock agent with the given switches, before its first frame. -/
def freshPump (capabilities : List (String × Bool)) : Pump where
  agent := { mockMode := true
             capabilities := capabilities.foldl (fun d e => d.set e.1 e.2) .empty
             running := .empty
             policies := .empty
             reverseCache := .empty
             backendUrls := []
             hasConfigPath := false }
  sent := []
  up := true

/-- A check of a password. -/
def pamFrame : RequestFrame := { id := "f1", request := .pamVerify "mia" "secret" }

theorem total_pamFrame :
    Total CacheFrames.zuluScalars (freshPump []) [.frame quietHost pamFrame] := by
  refine (pump_total_iff CacheFrames.reads_zuluScalars.scalars rfl _).mpr
    ⟨⟨⟨by decide, by decide⟩, fun hmock => ?_⟩, fun _ _ => True.intro⟩
  cases hmock

/-- A password check that the agent's switches do not allow is not answered, and it
takes the connection down. -/
theorem pump_not_total : ¬ ∀ (sc : Scalars), sc.Lawful → ∀ p : Pump, p.up = true →
    ∀ actions, Total sc p actions := by
  intro h
  obtain ⟨p', replies, hexec, hup, -⟩ := h CacheFrames.zuluScalars
    CacheFrames.reads_zuluScalars.scalars (freshPump [("pam.authenticate", false)]) rfl
    [.frame quietHost pamFrame]
  have hdown : exec step (freshPump [("pam.authenticate", false)]) [.frame quietHost pamFrame] =
      some { freshPump [("pam.authenticate", false)] with up := false } := rfl
  obtain rfl := Option.some.inj (hdown.symm.trans hexec)
  cases hup

end AgentRpc

end CoreLab
