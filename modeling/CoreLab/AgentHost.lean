import CoreLab.AuthorizedKeys
import CoreLab.CacheFrames

/-!
# CoreLab.AgentHost

The agent's handlers on its host: signature and password checks, the
`authorized_keys` file, Linux users, the kill of a process and the scripts of
reservations.  What the host answers to each call is an argument, so that a
statement about every host is one about every outcome; an exception is the
error of the `Except` a handler returns in.  `CoreLab.HandlerReturns` says when
each handler returns.
-/

namespace CoreLab

namespace AgentHost

open Lines Loops AuthorizedKeys

/-! ## the host -/

/-- The subclasses of `OSError` that the handlers tell apart. -/
inductive OsErrorKind where
  | fileNotFound | permission | processLookup | other
deriving DecidableEq, Repr

/-- An exception that a call to the host raises: an `OSError`, or one of another
class (a `ValueError` of a NUL in an argument, an `OverflowError` of a pid). -/
inductive Fault where
  | os (kind : OsErrorKind) (text : String)
  | other (text : String)
deriving DecidableEq, Repr

/-- An exception that leaves a handler. -/
inductive Exc where
  | capabilityDisabled (text : String)
  | invalidUsername (text : String)
  | authorizedKeys (text : String)
  | linuxUser (text : String)
  | fault (f : Fault)
deriving DecidableEq, Repr

structure CommandResult where
  returncode : Int
  stdout : String := ""
  stderr : String := ""
deriving DecidableEq, Repr

structure UserInfo where
  uid : Nat
  gid : Nat
  homeDirectory : String
  defaultShell : String
deriving DecidableEq, Repr

/-- Why `import pamela` failed. -/
inductive ImportFailure where
  | importError (text : String)
  | fault (f : Fault)
deriving DecidableEq, Repr

/-- Why `pamela.authenticate` failed. -/
inductive PamFailure where
  | pamError (text : String)
  | other (className : String)
deriving DecidableEq, Repr

/-- What the host answers while one frame is handled.  A call that a handler makes
twice, with something done in between, has a field for each time. -/
structure Host where
  /-- `repr` of a text. -/
  repr : String → String
  digest : Digest
  /-- Spawn a command, feed it and wait for its end. -/
  run : List String → Except Fault CommandResult
  /-- `shutil.which`. -/
  which : String → Option String
  /-- `pwd.getpwnam`; no entry is `none`. -/
  getpwnam : String → Except Fault (Option UserInfo)
  getpwnamAgain : String → Except Fault (Option UserInfo)
  /-- `_group_name_for_gid`. -/
  groupNameForGid : Nat → String
  /-- Make the directory of a signature check and write the nonce and the signature into
  it; the path of the signature file. -/
  makeVerifyDir : String → String → Except Fault String
  removeVerifyDir : Except Fault Unit
  importPamela : Except ImportFailure Unit
  authenticate : String → String → Except PamFailure Unit
  /-- Write the temporary file of an install; its path. -/
  writeTempFile : List Char → Except Fault String
  unlink : String → Except Fault Unit
  /-- `os.kill` with `SIGTERM`, with 0 and with `SIGKILL`. -/
  sigterm : Except Fault Unit
  probe : Except Fault Unit
  sigkill : Except Fault Unit
  /-- `_kill_bin`. -/
  killBin : Option String
  makeLogDir : String → Except Fault Unit
  touchLog : String → Except Fault Unit
  /-- Spawn the script with its environment and directory; its pid. -/
  spawnScript : List String → Dict String String → Option String → Except Fault Nat
  writeMockLog : String → Except Fault Unit
  /-- `process.terminate()` of a running script. -/
  terminate : Except Fault Unit
  /-- `_persist_backend_urls`. -/
  persistUrls : List String → Except Fault Unit
  /-- `sys.platform.upper()`. -/
  platform : String

/-- A call to the host from a handler. -/
def call {α : Type} (x : Except Fault α) : Except Exc α := x.mapError .fault

/-! ## the agent -/

/-- One entry of `ScriptRunner._running`; a mock script has no process. -/
structure RunningEntry where
  hasProcess : Bool
  logPath : String
  killedReason : Option String := none
deriving DecidableEq, Repr

/-- `PolicyEntry`. -/
structure PolicyEntry where
  key : String
  enabled : Bool
  severity : String
  thresholdValue : Option Schema.Json
  gracePeriodSeconds : Option Int
  notifyAdmin : Bool

/-- What the handlers read and write of the agent. -/
structure Agent where
  mockMode : Bool
  /-- `_cache` of the capability module. -/
  capabilities : Dict String Bool
  running : Dict Int RunningEntry
  policies : Dict (Int × String) PolicyEntry
  reverseCache : Dict (Int × String) (List Int × Dict Nat (List CacheFrames.CachedItem))
  backendUrls : List String
  /-- There is a `agent.toml` to write the addresses to. -/
  hasConfigPath : Bool

/-- `is_enabled`. -/
def Agent.isEnabled (a : Agent) (key : String) (default : Bool) : Bool :=
  (a.capabilities.get? key).getD default

/-- `require_enabled`. -/
def Agent.requireEnabled (a : Agent) (key : String) : Except Exc Unit :=
  raiseIf (!a.isEnabled key true)
    (.capabilityDisabled ("capability '" ++ key ++ "' is disabled on this agent"))

/-- `_USERNAME_RE`: `^[a-z_][a-z0-9_-]{0,31}$`. -/
def usernameRe (s : String) : Bool :=
  match s.toList with
  | [] => false
  | c :: cs => (c.isLower || c = '_') && decide (cs.length ≤ 31) &&
      cs.all fun c => c.isLower || c.isDigit || c = '_' || c = '-'

/-- `_validate_username`, with the exception class of the module. -/
def validateUsername (h : Host) (raises : String → Exc) (linuxUsername : String) : Except Exc Unit :=
  raiseIf (!usernameRe linuxUsername) (raises ("invalid linux_username " ++ h.repr linuxUsername))

/-- `a or b`, of texts. -/
def orElse (a b : String) : String := if a = "" then b else a

/-- `str.strip`. -/
def stripped (s : String) : String := String.ofList (strip s.toList)

/-- Whether a text contains another. -/
def containsText (needle text : List Char) : Bool := text.tails.any fun t => needle.isPrefixOf t

/-! ## signatures and passwords -/

structure VerifyResult where
  ok : Bool
  signerFingerprint : Option String
  error : Option String := none
deriving DecidableEq, Repr

/-- `_parse_fingerprint`: the first `SHA256:` with at least one character of base64 behind it. -/
def parseFingerprint (text : String) : Option String :=
  text.toList.tails.findSome? fun t =>
    if "SHA256:".toList.isPrefixOf t then
      match (t.drop 7).takeWhile fun c =>
        c.isAlphanum || c = '+' || c = '/' || c = '=' with
      | [] => none
      | body => some ("SHA256:" ++ String.ofList body)
    else none

def verifyMockFingerprint : String := "SHA256:MOCK-MAC-NO-VERIFY"

/-- The command of a signature check. -/
def verifyCommand (linuxUsername ns sigFile : String) : List String :=
  ["sudo", "-n", "-u", linuxUsername, "ssh-keygen", "-Y", "verify", "-f",
   "/home/" ++ linuxUsername ++ "/.ssh/authorized_keys", "-I", "", "-n", ns, "-s", sigFile]

/-- `verify_sig`. -/
def verifySig (a : Agent) (h : Host) (linuxUsername nonce ns signatureArmored : String) :
    Except Exc VerifyResult := do
  a.requireEnabled "ssh.verify_signature"
  validateUsername h .invalidUsername linuxUsername
  if a.mockMode then .ok { ok := true, signerFingerprint := some verifyMockFingerprint }
  else
    let sigFile ← call (h.makeVerifyDir nonce signatureArmored)
    let result := h.run (verifyCommand linuxUsername ns sigFile)
    -- the directory is removed on the way out, also on an exception
    call h.removeVerifyDir
    match result with
    | .error (.os .fileNotFound text) =>
      .ok { ok := false, signerFingerprint := none, error := some text }
    | .error f => .error (.fault f)
    | .ok r =>
      if r.returncode = 0 then
        .ok { ok := true
              signerFingerprint := (parseFingerprint r.stdout).orElse fun _ =>
                parseFingerprint r.stderr }
      else
        .ok { ok := false, signerFingerprint := none
              error := some (orElse (stripped r.stderr) "verify_failed") }

structure PamResult where
  verifyOk : Bool
  mockWarning : Option String := none
  error : Option String := none
deriving DecidableEq, Repr

def pamMockWarning : String := "platform=Darwin, no real PAM — verify_ok faked by mock_mode"

/-- `pam_handler.verify`. -/
def pamVerify (a : Agent) (h : Host) (linuxUsername password : String) : Except Exc PamResult := do
  a.requireEnabled "pam.authenticate"
  validateUsername h .invalidUsername linuxUsername
  if a.mockMode then
    if password = "" then .ok { verifyOk := false, error := some "empty_password" }
    else .ok { verifyOk := true, mockWarning := some pamMockWarning }
  else
    match h.importPamela with
    | .error (.importError text) =>
      .ok { verifyOk := false, error := some ("pamela_unavailable: " ++ text) }
    | .error (.fault f) => .error (.fault f)
    | .ok _ =>
      match h.authenticate linuxUsername password with
      | .ok _ => .ok { verifyOk := true }
      | .error (.pamError text) => .ok { verifyOk := false, error := some text }
      | .error (.other className) =>
        .ok { verifyOk := false, error := some ("pam_internal: " ++ className) }

/-! ## authorized keys -/

structure PushResult where
  installedPath : String
  fingerprint : String
  mockWarning : Option String := none
deriving DecidableEq, Repr

structure RevokeResult where
  revoked : Bool
  mockWarning : Option String := none
deriving DecidableEq, Repr

structure ReadKeyEntry where
  lineNumber : Nat
  fingerprintSha256 : String
  keyType : Option String
  comment : Option String
deriving DecidableEq, Repr

structure ReadResult where
  authorizedKeysPath : String
  lineCount : Nat
  invalidLineCount : Nat
  keys : List ReadKeyEntry
  mockWarning : Option String := none
deriving DecidableEq, Repr

def mockPath : String := "/dev/null/mock-mac"
def keysMockWarning : String := "platform=Darwin, no real authorized_keys mutation"

/-- A refused key. -/
def keyCheck {α : Type} (x : Except KeyError α) : Except Exc α :=
  x.mapError fun e => .authorizedKeys e.text

/-- `str(Path(text))`: empty parts and single dots are dropped, two leading slashes are kept. -/
def pathText (text : String) : String :=
  let parts := (text.toList.splitOnP (· = '/')).filter fun p => p ≠ [] && p ≠ ['.']
  let root := if "//".toList.isPrefixOf text.toList && !"///".toList.isPrefixOf text.toList then "//"
    else if "/".toList.isPrefixOf text.toList then "/" else ""
  orElse (root ++ String.ofList (['/'].intercalate parts)) "."

/-- `_HOME_RE` without a parent directory: `/home/` and one name. -/
def supportedHome (home : String) : Bool :=
  "/home/".toList.isPrefixOf home.toList &&
    let name := home.toList.drop 6
    decide (name ≠ []) && decide (name ≠ ['.', '.']) &&
      name.all fun c => c.isAlphanum || c = '.' || c = '_' || c = '-'

/-- `_authorized_key_paths`: the directory and the file. -/
def authorizedKeyPaths (h : Host) (info : UserInfo) : Except Exc (String × String) :=
  let home := pathText info.homeDirectory
  if supportedHome home then .ok (home ++ "/.ssh", home ++ "/.ssh/authorized_keys")
  else .error (.authorizedKeys
    ("authorized_keys mutation only supports /home/<user> homes, got " ++ h.repr home))

/-- `_missing_file`. -/
def missingFile (r : CommandResult) : Bool :=
  containsText "no such file".toList ((r.stderr ++ "\n" ++ r.stdout).toLower.toList)

/-- `_command_error`. -/
def commandError (operation : String) (r : CommandResult) : Exc :=
  .authorizedKeys (orElse (stripped r.stderr) (orElse (stripped r.stdout) (operation ++ "_failed")))

def installBin (h : Host) : String := (h.which "install").getD "/usr/bin/install"
def catBin (h : Host) : String := (h.which "cat").getD "/usr/bin/cat"

def ensureDirCommand (h : Host) (linuxUsername groupName sshDir : String) : List String :=
  ["sudo", "-n", installBin h, "-m", "700", "-o", linuxUsername, "-g", groupName, "-d", sshDir]

def catCommand (h : Host) (path : String) : List String := ["sudo", "-n", catBin h, path]

def installCommand (h : Host) (linuxUsername groupName temp path : String) : List String :=
  ["sudo", "-n", installBin h, "-m", "600", "-o", linuxUsername, "-g", groupName, temp, path]

/-- `_ensure_ssh_dir`. -/
def ensureSshDir (h : Host) (linuxUsername groupName sshDir : String) : Except Exc Unit := do
  let r ← call (h.run (ensureDirCommand h linuxUsername groupName sshDir))
  raiseIf (decide (r.returncode ≠ 0)) (commandError "authorized_keys_ensure_dir" r)

/-- The text of the file, of what `cat` answered; a missing file is empty. -/
def fileText (r : CommandResult) : Option (List Char) :=
  if r.returncode = 0 then some r.stdout.toList
  else if missingFile r then some []
  else none

/-- `_read_authorized_keys`. -/
def readAuthorizedKeys (h : Host) (path : String) : Except Exc (List Char) := do
  let r ← call (h.run (catCommand h path))
  match fileText r with
  | some text => .ok text
  | none => .error (commandError "authorized_keys_read" r)

/-- `os.unlink` under `suppress(FileNotFoundError)`. -/
def unlinkTemp (h : Host) (temp : String) : Except Exc Unit :=
  match h.unlink temp with
  | .ok _ | .error (.os .fileNotFound _) => .ok ()
  | .error f => .error (.fault f)

/-- `_install_authorized_keys`. -/
def installAuthorizedKeys (h : Host) (content : List Char) (linuxUsername groupName path : String) :
    Except Exc Unit := do
  let temp ← call (h.writeTempFile content)
  let result := h.run (installCommand h linuxUsername groupName temp path)
  unlinkTemp h temp
  let r ← call result
  raiseIf (decide (r.returncode ≠ 0)) (commandError "authorized_keys_install" r)

/-- `push` from the lookup of the user on. -/
def pushOnHost (h : Host) (linuxUsername fingerprint : String) (line : Line) :
    Except Exc PushResult := do
  match ← call (h.getpwnam linuxUsername) with
  | none => .error (.authorizedKeys ("linux user " ++ h.repr linuxUsername ++ " not found"))
  | some info =>
    let groupName := h.groupNameForGid info.gid
    let (sshDir, path) ← authorizedKeyPaths h info
    ensureSshDir h linuxUsername groupName sshDir
    let existing ← readAuthorizedKeys h path
    let desired ← keyCheck (rewriteForPush h.digest existing line)
    if desired ≠ existing then
      installAuthorizedKeys h desired linuxUsername groupName path
    .ok { installedPath := path, fingerprint := fingerprint }

/-- `push`. -/
def push (a : Agent) (h : Host) (linuxUsername publicKey label : String) :
    Except Exc PushResult := do
  a.requireEnabled "ssh.push_authorized_key"
  validateUsername h .authorizedKeys linuxUsername
  let fingerprint ← keyCheck (fingerprintForPubkey h.digest publicKey.toList)
  let line ← keyCheck (authorizedKeyLine h.digest publicKey.toList label.toList)
  if a.mockMode then
    .ok { installedPath := mockPath, fingerprint := fingerprint, mockWarning := some keysMockWarning }
  else pushOnHost h linuxUsername fingerprint line

/-- `revoke` from the lookup of the user on. -/
def revokeOnHost (h : Host) (linuxUsername fingerprint : String) : Except Exc RevokeResult := do
  match ← call (h.getpwnam linuxUsername) with
  | none => .ok { revoked := false }
  | some info =>
    let groupName := h.groupNameForGid info.gid
    let (_, path) ← authorizedKeyPaths h info
    let existing ← readAuthorizedKeys h path
    let (desired, removed) := rewriteForRevoke h.digest existing fingerprint
    if removed && decide (desired ≠ existing) then
      installAuthorizedKeys h desired linuxUsername groupName path
    .ok { revoked := removed }

/-- `revoke`. -/
def revoke (a : Agent) (h : Host) (linuxUsername fingerprint : String) :
    Except Exc RevokeResult := do
  a.requireEnabled "ssh.remove_authorized_key"
  validateUsername h .authorizedKeys linuxUsername
  if a.mockMode then .ok { revoked := true, mockWarning := some keysMockWarning }
  else revokeOnHost h linuxUsername fingerprint

/-- `_summarize_authorized_key_line`: the type of the key, and what stands behind its body. -/
def summarizeWords : List Line → Option (Line × List Line)
  | part :: body :: rest =>
    if isKeyType part then some (part, rest) else summarizeWords (body :: rest)
  | _ => none

/-- One line of `_summarize_authorized_keys`: the entries, and the counts of key lines and
of invalid ones. -/
def summarizeLine (digest : Digest) (acc : List ReadKeyEntry × Nat × Nat) (numbered : Line × Nat) :
    List ReadKeyEntry × Nat × Nat :=
  let (keys, lines, invalid) := acc
  let (raw, index) := numbered
  if !isKeyLine (strip raw) then acc
  else match summarizeWords (split (strip raw)), fingerprintForPubkey digest (strip raw) with
    | some (keyType, comment), .ok fingerprint =>
      (keys ++ [{ lineNumber := index + 1, fingerprintSha256 := fingerprint
                  keyType := some (String.ofList keyType)
                  comment := if comment = [] then none
                    else some (String.ofList ([' '].intercalate comment)) }], lines + 1, invalid)
    | _, _ => (keys, lines + 1, invalid + 1)

/-- `_summarize_authorized_keys`. -/
def summarizeAuthorizedKeys (digest : Digest) (text : List Char) : List ReadKeyEntry × Nat × Nat :=
  (splitlines text).zipIdx.foldl (summarizeLine digest) ([], 0, 0)

/-- `read` of the file at its path. -/
def readFile (h : Host) (path : String) : Except Exc ReadResult := do
  let existing ← readAuthorizedKeys h path
  let (keys, lines, invalid) := summarizeAuthorizedKeys h.digest existing
  .ok { authorizedKeysPath := path, lineCount := lines, invalidLineCount := invalid
        keys := keys }

/-- `read` from the lookup of the user on. -/
def readOnHost (h : Host) (linuxUsername : String) : Except Exc ReadResult := do
  match ← call (h.getpwnam linuxUsername) with
  | none => .error (.authorizedKeys ("linux user " ++ h.repr linuxUsername ++ " not found"))
  | some info =>
    let (_, path) ← authorizedKeyPaths h info
    readFile h path

/-- `read`. -/
def read (a : Agent) (h : Host) (linuxUsername : String) : Except Exc ReadResult := do
  validateUsername h .authorizedKeys linuxUsername
  if a.mockMode then
    .ok { authorizedKeysPath := mockPath, lineCount := 0, invalidLineCount := 0, keys := []
          mockWarning := some keysMockWarning }
  else readOnHost h linuxUsername

/-! ## Linux users -/

structure UseraddResult where
  ok : Bool
  uid : Option Int := none
  gid : Option Int := none
  homeDirectory : Option String := none
  defaultShell : Option String := none
  error : Option String := none
  mockWarning : Option String := none
deriving DecidableEq, Repr

structure UserdelResult where
  ok : Bool
  error : Option String := none
  mockWarning : Option String := none
deriving DecidableEq, Repr

def usersMockWarning : String := "platform=Darwin, no real Linux user mutation"

/-- `_ABS_PATH_RE`: `^/[A-Za-z0-9._/+:-]+$`. -/
def absPathRe (s : String) : Bool :=
  match s.toList with
  | '/' :: cs => decide (cs ≠ []) && cs.all fun c =>
      c.isAlphanum || c = '.' || c = '_' || c = '/' || c = '+' || c = ':' || c = '-'
  | _ => false

/-- `_validate_id`. -/
def validateId (value : Option Int) (field : String) : Except Exc Unit :=
  raiseIf (value.any fun n => decide (n < 1000)) (.linuxUser (field ++ " must be >= 1000"))

/-- `_validate_optional_abs_path`. -/
def validateOptionalAbsPath (h : Host) (value : Option String) (field : String) : Except Exc Unit :=
  raiseIf (value.any fun s => !absPathRe s)
    (.linuxUser ("invalid " ++ field ++ " " ++ h.repr (value.getD "")))

/-- `_result_from_info`. -/
def resultFromInfo (info : UserInfo) : UseraddResult :=
  { ok := true, uid := some info.uid, gid := some info.gid
    homeDirectory := some info.homeDirectory, defaultShell := some info.defaultShell }

/-- The command of a `useradd`. -/
def useraddCommand (h : Host) (linuxUsername : String) (uid gid : Option Int) (home shell : String) :
    List String :=
  ["sudo", "-n", (h.which "useradd").getD "/usr/sbin/useradd", "-m", "-s", shell, "-d", home] ++
    uid.elim [] (fun n => ["-u", toString n]) ++ gid.elim [] (fun n => ["-g", toString n]) ++
    [linuxUsername]

/-- `useradd`. -/
def useradd (a : Agent) (h : Host) (linuxUsername : String) (uid gid : Option Int)
    (homeDirectory defaultShell : Option String) : Except Exc UseraddResult := do
  a.requireEnabled "linux.useradd"
  validateUsername h .linuxUser linuxUsername
  validateId uid "uid"
  validateId gid "gid"
  validateOptionalAbsPath h homeDirectory "home_directory"
  validateOptionalAbsPath h defaultShell "default_shell"
  let shell := orElse (defaultShell.getD "") "/bin/bash"
  let home := orElse (homeDirectory.getD "") ("/home/" ++ linuxUsername)
  if a.mockMode then
    .ok { ok := true, uid := some (uid.getD 20000), gid := some ((gid.orElse fun _ => uid).getD 20000)
          homeDirectory := some home, defaultShell := some shell
          mockWarning := some usersMockWarning }
  else
    match ← call (h.getpwnam linuxUsername) with
    | some info => .ok (resultFromInfo info)
    | none =>
      let r ← call (h.run (useraddCommand h linuxUsername uid gid home shell))
      if r.returncode ≠ 0 then
        .ok { ok := false
              error := some (orElse (stripped r.stderr) (orElse (stripped r.stdout) "useradd_failed")) }
      else
        match ← call (h.getpwnamAgain linuxUsername) with
        | none => .ok { ok := false, error := some "useradd_succeeded_but_user_not_found" }
        | some info => .ok (resultFromInfo info)

/-- The command of a `userdel`. -/
def userdelCommand (h : Host) (linuxUsername : String) (removeHome : Bool) : List String :=
  ["sudo", "-n", (h.which "userdel").getD "/usr/sbin/userdel"] ++ (if removeHome then ["-r"] else []) ++
    [linuxUsername]

/-- `userdel`. -/
def userdel (a : Agent) (h : Host) (linuxUsername : String) (removeHome : Bool) :
    Except Exc UserdelResult := do
  a.requireEnabled "linux.userdel"
  validateUsername h .linuxUser linuxUsername
  if a.mockMode then .ok { ok := true, mockWarning := some usersMockWarning }
  else
    match ← call (h.getpwnam linuxUsername) with
    | none => .ok { ok := true }
    | some _ =>
      let r ← call (h.run (userdelCommand h linuxUsername removeHome))
      if r.returncode ≠ 0 then
        .ok { ok := false
              error := some (orElse (stripped r.stderr) (orElse (stripped r.stdout) "userdel_failed")) }
      else .ok { ok := true }

/-! ## the kill of a process -/

structure KillResult where
  ok : Bool
  killed : Bool := false
  error : Option String := none
  mockWarning : Option String := none
deriving DecidableEq, Repr

structure SignalAttempt where
  ok : Bool
  missing : Bool := false
  error : Option String := none
deriving DecidableEq, Repr

/-- `_looks_missing`. -/
def looksMissing (message : String) : Bool :=
  containsText "no such process".toList message.toLower.toList ||
    containsText "not found".toList message.toLower.toList

/-- `_sudo_signal`. -/
def sudoSignal (h : Host) (pid : Int) (flag : String) : Except Exc SignalAttempt :=
  match h.which "sudo", h.killBin with
  | none, _ => .ok { ok := false, error := some "sudo not found" }
  | _, none => .ok { ok := false, error := some "kill binary not found" }
  | some sudoBin, some killBin => do
    let r ← call (h.run [sudoBin, "-n", killBin, flag, toString pid])
    if r.returncode = 0 then .ok { ok := true }
    else
      let error := orElse (stripped (orElse r.stderr r.stdout))
        ("sudo kill exited " ++ toString r.returncode)
      if looksMissing error then .ok { ok := true, missing := true, error := some error }
      else .ok { ok := false, error := some error }

/-- `_send_signal`, where `os.kill` answers `answer`. -/
def sendSignal (h : Host) (pid : Int) (flag : String) (answer : Except Fault Unit) :
    Except Exc SignalAttempt :=
  match answer with
  | .ok _ => .ok { ok := true }
  | .error (.os .processLookup _) => .ok { ok := true, missing := true }
  | .error (.os .permission text) => do
    let attempt ← sudoSignal h pid flag
    if attempt.ok then .ok attempt
    else .ok { ok := false
               error := some ("permission denied; sudo fallback failed: " ++
                 orElse (attempt.error.getD "") text) }
  | .error f => .error (.fault f)

/-- `_alive`. -/
def alive (h : Host) : Except Exc Bool :=
  match h.probe with
  | .ok _ => .ok true
  | .error (.os .processLookup _) => .ok false
  | .error (.os .permission _) => .ok true
  | .error f => .error (.fault f)

/-- `kill_pid`. -/
def killPid (a : Agent) (h : Host) (pid : Int) : Except Exc KillResult := do
  if !a.isEnabled "gpu.kill_process" false then
    .ok { ok := false, error := some "gpu.kill_process capability is disabled" }
  else if a.mockMode then
    .ok { ok := true, killed := true
          mockWarning := some "MOCK-MAC-NO-KILL: no process was signalled" }
  else
    let term ← sendSignal h pid "-TERM" h.sigterm
    if term.missing then
      .ok { ok := true, killed := false, error := some "process not found (already exited)" }
    else if !term.ok then
      .ok { ok := false
            error := some ("permission denied signalling pid " ++ toString pid ++ ": " ++
              term.error.getD "None") }
    else if ← alive h then
      let kill ← sendSignal h pid "-KILL" h.sigkill
      if !kill.ok && !kill.missing then
        .ok { ok := false
              error := some ("SIGKILL permission denied for pid " ++ toString pid ++ ": " ++
                kill.error.getD "None") }
      else .ok { ok := true, killed := true }
    else .ok { ok := true, killed := true }

/-! ## scripts -/

/-- `ExecuteScriptRequest`. -/
structure ExecuteScriptRequest where
  reservationId : Int
  linuxUsername : String
  script : String
  workingDirectory : Option String
  env : Dict String String
  maxRuntimeSeconds : Option Int
  stdoutLogPathHint : String

structure ExecuteScriptResponse where
  ok : Bool
  started : Bool
  pid : Option Nat := none
  logPath : Option String := none
  error : Option String := none
  mockWarning : Option String := none
deriving DecidableEq, Repr

structure CancelScriptResponse where
  ok : Bool
  cancelled : Bool
  detail : Option String := none
  mockWarning : Option String := none
deriving DecidableEq, Repr

def refused (error : String) : ExecuteScriptResponse :=
  { ok := false, started := false, error := some error }

/-- The command of a script, and the environment it gets. -/
def scriptCommand (p : ExecuteScriptRequest) : List String :=
  ["sudo", "-u", p.linuxUsername, "-i", "/bin/bash", "-c", p.script]

def scriptEnv (p : ExecuteScriptRequest) : Dict String String :=
  p.env.entries.foldl (fun d e => d.set e.1 e.2)
    (Dict.empty.set "PATH" "/usr/local/bin:/usr/bin:/bin")

def mockLogPath (reservationId : Int) : String :=
  "/tmp/corelab-agent/script-mock/reservation-" ++ toString reservationId ++ ".log"

/-- `_execute_linux`. -/
def executeLinux (a : Agent) (h : Host) (p : ExecuteScriptRequest) :
    Except Exc (Agent × ExecuteScriptResponse) := do
  match ← call (h.getpwnam p.linuxUsername) with
  | none => .ok (a, refused "USER_NOT_FOUND")
  | some info =>
    if info.uid < 1000 then .ok (a, refused "UID_BELOW_THRESHOLD")
    else if (h.which "sudo").isNone then .ok (a, refused "SUDO_NOT_FOUND")
    else match h.makeLogDir p.stdoutLogPathHint with
    | .error (.os _ text) => .ok (a, refused ("LOG_DIR_MKDIR_FAILED: " ++ text))
    | .error f => .error (.fault f)
    | .ok _ =>
      match h.touchLog p.stdoutLogPathHint with
      | .error (.os _ text) => .ok (a, refused ("LOG_OPEN_FAILED: " ++ text))
      | .error f => .error (.fault f)
      | .ok _ =>
        match h.spawnScript (scriptCommand p) (scriptEnv p) p.workingDirectory with
        | .error (.os _ text) => .ok (a, refused ("SUBPROCESS_SPAWN_FAILED: " ++ text))
        | .error f => .error (.fault f)
        | .ok pid =>
          let entry : RunningEntry := { hasProcess := true, logPath := p.stdoutLogPathHint }
          .ok ({ a with running := a.running.set p.reservationId entry },
            { ok := true, started := true, pid := some pid, logPath := some p.stdoutLogPathHint })

/-- `_execute_mock`. -/
def executeMock (a : Agent) (h : Host) (p : ExecuteScriptRequest) :
    Except Exc (Agent × ExecuteScriptResponse) := do
  let logPath := mockLogPath p.reservationId
  call (h.writeMockLog logPath)
  let entry : RunningEntry := { hasProcess := false, logPath := logPath }
  .ok ({ a with running := a.running.set p.reservationId entry },
    { ok := true, started := true, logPath := some logPath
      mockWarning := some ("MOCK-" ++ h.platform ++ "-NO-SUBPROCESS") })

/-- `ScriptRunner.execute`. -/
def execute (a : Agent) (h : Host) (p : ExecuteScriptRequest) :
    Except Exc (Agent × ExecuteScriptResponse) :=
  if !a.isEnabled "script.execute_as_user" true then .ok (a, refused "CAPABILITY_DISABLED")
  else if (a.running.get? p.reservationId).isSome then .ok (a, refused "ALREADY_RUNNING")
  else if a.mockMode then executeMock a h p
  else executeLinux a h p

/-- `ScriptRunner.cancel`. -/
def cancel (a : Agent) (h : Host) (reservationId : Int) (reason : String) :
    Except Exc (Agent × CancelScriptResponse) :=
  match a.running.get? reservationId with
  | none => .ok (a, { ok := true, cancelled := false
                      detail := some "no live process for this reservation" })
  | some entry =>
    let marked :=
      { a with running := a.running.set reservationId { entry with killedReason := some reason } }
    if !entry.hasProcess then
      .ok (marked, { ok := true, cancelled := true, mockWarning := some "MOCK-MAC-NO-PROCESS" })
    else match h.terminate with
    | .ok _ => .ok (marked, { ok := true, cancelled := true })
    | .error (.os .processLookup _) =>
      .ok (marked, { ok := true, cancelled := false, detail := some "already exited" })
    | .error f => .error (.fault f)

end AgentHost

end CoreLab
