import CoreLab.AgentHost

/-!
# CoreLab.HandlerReturns

When the agent's handlers return, exactly: one theorem for each handler, in the
switches, the arguments and the answers of the host.

* `verifySig_returns_iff`, `push_returns_iff`, `revoke_returns_iff`,
  `useradd_returns_iff` and their siblings — a capability that is off, a refused
  argument and a failing host are raised;
* `read_ownErrors_iff` — a reading of the keys turns these into its own errors,
  which its caller catches.
-/

namespace CoreLab

namespace AgentHost

open Lines Loops AuthorizedKeys

/-! ## when a handler returns -/

/-- The host did what was asked, or raised an exception that the handler catches. -/
def Caught {α : Type} (caught : Fault → Prop) (x : Except Fault α) : Prop :=
  ∀ f, x = .error f → caught f

theorem caught_ok {α : Type} {caught : Fault → Prop} (v : α) :
    Caught caught (.ok v : Except Fault α) := fun _ h => nomatch h

/-- A handler catches the missing file only. -/
def IsFileNotFound (f : Fault) : Prop := ∃ text, f = .os .fileNotFound text

/-- A handler catches every `OSError`. -/
def IsOsError (f : Fault) : Prop := ∃ kind text, f = .os kind text

/-- The capability is on, and the user name fits the pattern. -/
def Admitted (a : Agent) (key linuxUsername : String) : Prop :=
  a.isEnabled key true = true ∧ usernameRe linuxUsername = true

theorem returns_requireEnabled_iff {a : Agent} {key : String} :
    Returns (a.requireEnabled key) ↔ a.isEnabled key true = true := by
  simp [Agent.requireEnabled]

theorem returns_validateUsername_iff {h : Host} {raises : String → Exc} {linuxUsername : String} :
    Returns (validateUsername h raises linuxUsername) ↔ usernameRe linuxUsername = true := by
  simp [validateUsername]

@[simp] theorem returns_call_iff {α : Type} {x : Except Fault α} : Returns (call x) ↔ Returns x := by
  simp [call]

@[simp] theorem call_eq_ok_iff {α : Type} {x : Except Fault α} {v : α} :
    call x = .ok v ↔ x = .ok v := by
  simp [call]

/-- **A signature check** returns exactly when it is admitted and, outside the mock
mode, its directory could be written and removed and the command was at most missing. -/
theorem verifySig_returns_iff {a : Agent} {h : Host} {linuxUsername nonce ns signature : String} :
    Returns (verifySig a h linuxUsername nonce ns signature) ↔
      Admitted a "ssh.verify_signature" linuxUsername ∧
        (a.mockMode = false → ∃ sigFile, h.makeVerifyDir nonce signature = .ok sigFile ∧
          Returns h.removeVerifyDir ∧
          Caught IsFileNotFound (h.run (verifyCommand linuxUsername ns sigFile))) := by
  unfold verifySig
  rw [returns_check_bind_iff, returns_check_bind_iff, returns_requireEnabled_iff,
    returns_validateUsername_iff, Admitted, and_assoc]
  refine and_congr_right fun _ => and_congr_right fun _ => ?_
  cases a.mockMode with
  | true => simp
  | false =>
      simp only [Bool.false_eq_true, if_false, forall_const, returns_bind_iff, call_eq_ok_iff]
      refine exists_congr fun sigFile => and_congr_right fun _ => ?_
      rw [exists_and_right]
      refine and_congr_right fun _ => ?_
      cases h.run (verifyCommand linuxUsername ns sigFile) with
      | ok r =>
          simp only [caught_ok, iff_true]
          split <;> exact returns_ok _
      | error f =>
          cases f with
          | other text => simp [Caught, IsFileNotFound]
          | os kind text => cases kind <;> simp [Caught, IsFileNotFound]

/-- **A password check** returns exactly when it is admitted and, outside the mock mode,
the import of the library at most raised an `ImportError`. -/
theorem pamVerify_returns_iff {a : Agent} {h : Host} {linuxUsername password : String} :
    Returns (pamVerify a h linuxUsername password) ↔
      Admitted a "pam.authenticate" linuxUsername ∧
        (a.mockMode = false → ∀ f, h.importPamela ≠ .error (.fault f)) := by
  unfold pamVerify
  rw [returns_check_bind_iff, returns_check_bind_iff, returns_requireEnabled_iff,
    returns_validateUsername_iff, Admitted, and_assoc]
  refine and_congr_right fun _ => and_congr_right fun _ => ?_
  cases a.mockMode with
  | true =>
      simp only [if_true, Bool.true_eq_false, false_implies, iff_true]
      split <;> exact returns_ok _
  | false =>
      simp only [Bool.false_eq_true, if_false, forall_const]
      cases h.importPamela with
      | error e => cases e <;> simp
      | ok _ =>
          simp only [ne_eq, reduceCtorEq, not_false_eq_true, implies_true, iff_true]
          split <;> exact returns_ok _

/-! ### the file of keys -/

/-- `cat` shows the file, or that there is none; the text of it. -/
def Shows (h : Host) (path : String) (text : List Char) : Prop :=
  ∃ r, h.run (catCommand h path) = .ok r ∧ fileText r = some text

/-- A command ran and succeeded. -/
def Succeeds (x : Except Fault CommandResult) : Prop := ∃ r, x = .ok r ∧ r.returncode = 0

/-- The file is installed: the temporary file is written, installed, and removed or gone. -/
def Installs (h : Host) (content : List Char) (linuxUsername groupName path : String) : Prop :=
  ∃ temp, h.writeTempFile content = .ok temp ∧ Caught IsFileNotFound (h.unlink temp) ∧
    Succeeds (h.run (installCommand h linuxUsername groupName temp path))

theorem readAuthorizedKeys_eq_ok_iff {h : Host} {path : String} {text : List Char} :
    readAuthorizedKeys h path = .ok text ↔ Shows h path text := by
  simp only [readAuthorizedKeys, bind_eq_ok_iff, call_eq_ok_iff, Shows]
  refine exists_congr fun r => and_congr_right fun _ => ?_
  cases fileText r <;> simp

theorem returns_unlinkTemp_iff {h : Host} {temp : String} :
    Returns (unlinkTemp h temp) ↔ Caught IsFileNotFound (h.unlink temp) := by
  unfold unlinkTemp
  cases h.unlink temp with
  | ok _ => simp [Caught]
  | error f =>
      cases f with
      | other text => simp [Caught, IsFileNotFound]
      | os kind text => cases kind <;> simp [Caught, IsFileNotFound]

theorem returns_installAuthorizedKeys_iff {h : Host} {content : List Char}
    {linuxUsername groupName path : String} :
    Returns (installAuthorizedKeys h content linuxUsername groupName path) ↔
      Installs h content linuxUsername groupName path := by
  unfold installAuthorizedKeys Installs
  simp only [returns_bind_iff, call_eq_ok_iff]
  refine exists_congr fun temp => and_congr_right fun _ => ?_
  rw [exists_and_right, ← returns_unlinkTemp_iff]
  refine and_congr Iff.rfl (exists_congr fun r => and_congr_right fun _ => ?_)
  simp

theorem returns_ensureSshDir_iff {h : Host} {linuxUsername groupName sshDir : String} :
    Returns (ensureSshDir h linuxUsername groupName sshDir) ↔
      Succeeds (h.run (ensureDirCommand h linuxUsername groupName sshDir)) := by
  unfold ensureSshDir Succeeds
  simp only [returns_bind_iff, call_eq_ok_iff]
  refine exists_congr fun r => and_congr_right fun _ => ?_
  simp

/-- The home of an account is one the file is kept in: its directory and file. -/
def KeysAt (info : UserInfo) (sshDir path : String) : Prop :=
  supportedHome (pathText info.homeDirectory) = true ∧
    sshDir = pathText info.homeDirectory ++ "/.ssh" ∧
    path = pathText info.homeDirectory ++ "/.ssh/authorized_keys"

theorem authorizedKeyPaths_eq_ok_iff {h : Host} {info : UserInfo} {sshDir path : String} :
    authorizedKeyPaths h info = .ok (sshDir, path) ↔ KeysAt info sshDir path := by
  unfold authorizedKeyPaths KeysAt
  by_cases hsupported : supportedHome (pathText info.homeDirectory) = true
  · simp only [hsupported, if_true, Except.ok.injEq, Prod.mk.injEq, true_and]
    exact and_congr eq_comm eq_comm
  · simp [hsupported]

/-- The host carries a push of a line out. -/
def PushesLine (h : Host) (linuxUsername : String) (line : Line) : Prop :=
  ∃ info sshDir path text, h.getpwnam linuxUsername = .ok (some info) ∧ KeysAt info sshDir path ∧
    Succeeds (h.run (ensureDirCommand h linuxUsername (h.groupNameForGid info.gid) sshDir)) ∧
    Shows h path text ∧
    ∀ desired, rewriteForPush h.digest text line = .ok desired → desired ≠ text →
      Installs h desired linuxUsername (h.groupNameForGid info.gid) path

theorem returns_pushOnHost_iff {h : Host} {linuxUsername fingerprint : String} {line : Line}
    (hline : Returns (fingerprintForPubkey h.digest line)) :
    Returns (pushOnHost h linuxUsername fingerprint line) ↔ PushesLine h linuxUsername line := by
  have hrewrite : ∀ text, ∃ desired, rewriteForPush h.digest text line = .ok desired := by
    intro text
    obtain ⟨target, htarget⟩ := hline
    unfold rewriteForPush
    rw [htarget]
    by_cases hfound : (splitlines text).any (hasFingerprint h.digest target) = true
    · exact ⟨_, if_pos hfound⟩
    · exact ⟨_, if_neg hfound⟩
  unfold pushOnHost PushesLine
  rw [returns_bind_iff]
  constructor
  · rintro ⟨info, hinfo, hrest⟩
    cases info with
    | none => exact absurd hrest (not_returns_error _)
    | some info =>
        obtain ⟨⟨sshDir, path⟩, hpaths, hrest⟩ := returns_bind_iff.mp hrest
        obtain ⟨hdir, hrest⟩ := returns_check_bind_iff.mp hrest
        obtain ⟨text, htext, hrest⟩ := returns_bind_iff.mp hrest
        obtain ⟨desired, hdesired, hrest⟩ := returns_bind_iff.mp hrest
        refine ⟨info, sshDir, path, text, call_eq_ok_iff.mp hinfo,
          authorizedKeyPaths_eq_ok_iff.mp hpaths, returns_ensureSshDir_iff.mp hdir,
          readAuthorizedKeys_eq_ok_iff.mp htext, fun d hd hne => ?_⟩
        rw [keyCheck, mapError_eq_ok_iff, hd, Except.ok.injEq] at hdesired
        subst hdesired
        exact returns_installAuthorizedKeys_iff.mp (returns_ite_check_iff.mp hrest hne)
  · rintro ⟨info, sshDir, path, text, hinfo, hpaths, hdir, htext, hinstall⟩
    obtain ⟨desired, hdesired⟩ := hrewrite text
    refine ⟨some info, call_eq_ok_iff.mpr hinfo, ?_⟩
    refine returns_bind_iff.mpr ⟨(sshDir, path), authorizedKeyPaths_eq_ok_iff.mpr hpaths, ?_⟩
    refine returns_check_bind_iff.mpr ⟨returns_ensureSshDir_iff.mpr hdir, ?_⟩
    refine returns_bind_iff.mpr ⟨text, readAuthorizedKeys_eq_ok_iff.mpr htext, ?_⟩
    refine returns_bind_iff.mpr ⟨desired, mapError_eq_ok_iff.mpr hdesired, ?_⟩
    exact returns_ite_check_iff.mpr fun hne =>
      returns_installAuthorizedKeys_iff.mpr (hinstall desired hdesired hne)

/-- **A push** returns exactly when it is admitted with a valid key and label and,
outside the mock mode, the host carries it out. -/
theorem push_returns_iff {a : Agent} {h : Host} {linuxUsername publicKey label : String} :
    Returns (push a h linuxUsername publicKey label) ↔
      Admitted a "ssh.push_authorized_key" linuxUsername ∧
        ∃ line, authorizedKeyLine h.digest publicKey.toList label.toList = .ok line ∧
          (a.mockMode = false → PushesLine h linuxUsername line) := by
  unfold push
  rw [returns_check_bind_iff, returns_check_bind_iff, returns_requireEnabled_iff,
    returns_validateUsername_iff, Admitted, and_assoc]
  refine and_congr_right fun _ => and_congr_right fun _ => ?_
  simp only [keyCheck, returns_bind_iff, mapError_eq_ok_iff]
  cases hline : authorizedKeyLine h.digest publicKey.toList label.toList with
  | error e => simp
  | ok line =>
      obtain ⟨fingerprint, hfp⟩ : ∃ fp, fingerprintForPubkey h.digest publicKey.toList = .ok fp := by
        simp only [authorizedKeyLine, bind_eq_ok_iff] at hline
        obtain ⟨key, hkey, -, -, fp, hfp, -⟩ := hline
        obtain ⟨rfl, -, -⟩ := validateSingleLine_ok hkey
        exact ⟨fp, fingerprint_strip _ ▸ hfp⟩
      have hreturns : Returns (fingerprintForPubkey h.digest line) :=
        ⟨_, fingerprint_authorizedKeyLine hline hfp⟩
      simp only [hfp, Except.ok.injEq, exists_eq_left']
      cases a.mockMode with
      | true => simp
      | false => simp [returns_pushOnHost_iff hreturns]

/-- The host carries a revocation out; a user it does not know has no keys. -/
def RevokesKey (h : Host) (linuxUsername fingerprint : String) : Prop :=
  h.getpwnam linuxUsername = .ok none ∨
    ∃ info sshDir path text, h.getpwnam linuxUsername = .ok (some info) ∧
      KeysAt info sshDir path ∧ Shows h path text ∧
      ∀ desired, rewriteForRevoke h.digest text fingerprint = (desired, true) → desired ≠ text →
        Installs h desired linuxUsername (h.groupNameForGid info.gid) path

theorem returns_revokeOnHost_iff {h : Host} {linuxUsername fingerprint : String} :
    Returns (revokeOnHost h linuxUsername fingerprint) ↔ RevokesKey h linuxUsername fingerprint := by
  unfold revokeOnHost RevokesKey
  rw [returns_bind_iff]
  constructor
  · rintro ⟨info, hinfo, hrest⟩
    cases info with
    | none => exact Or.inl (call_eq_ok_iff.mp hinfo)
    | some info =>
        obtain ⟨⟨sshDir, path⟩, hpaths, hrest⟩ := returns_bind_iff.mp hrest
        obtain ⟨text, htext, hrest⟩ := returns_bind_iff.mp hrest
        refine Or.inr ⟨info, sshDir, path, text, call_eq_ok_iff.mp hinfo,
          authorizedKeyPaths_eq_ok_iff.mp hpaths, readAuthorizedKeys_eq_ok_iff.mp htext,
          fun desired hdesired hne => ?_⟩
        simp only [hdesired] at hrest
        exact returns_installAuthorizedKeys_iff.mp (returns_ite_check_iff.mp hrest (by simp [hne]))
  · rintro (hnone | ⟨info, sshDir, path, text, hinfo, hpaths, htext, hinstall⟩)
    · exact ⟨none, call_eq_ok_iff.mpr hnone, returns_ok _⟩
    · refine ⟨some info, call_eq_ok_iff.mpr hinfo, ?_⟩
      refine returns_bind_iff.mpr ⟨(sshDir, path), authorizedKeyPaths_eq_ok_iff.mpr hpaths, ?_⟩
      refine returns_bind_iff.mpr ⟨text, readAuthorizedKeys_eq_ok_iff.mpr htext, ?_⟩
      cases hrewrite : rewriteForRevoke h.digest text fingerprint with
      | mk desired removed =>
          refine returns_ite_check_iff.mpr fun hchanged => ?_
          simp only [Bool.and_eq_true, decide_eq_true_eq] at hchanged
          obtain ⟨rfl, hne⟩ := hchanged
          exact returns_installAuthorizedKeys_iff.mpr (hinstall desired hrewrite hne)

/-- **A revocation** returns exactly when it is admitted and, outside the mock mode, the
host carries it out. -/
theorem revoke_returns_iff {a : Agent} {h : Host} {linuxUsername fingerprint : String} :
    Returns (revoke a h linuxUsername fingerprint) ↔
      Admitted a "ssh.remove_authorized_key" linuxUsername ∧
        (a.mockMode = false → RevokesKey h linuxUsername fingerprint) := by
  unfold revoke
  rw [returns_check_bind_iff, returns_check_bind_iff, returns_requireEnabled_iff,
    returns_validateUsername_iff, Admitted, and_assoc]
  refine and_congr_right fun _ => and_congr_right fun _ => ?_
  cases a.mockMode with
  | true => simp
  | false => simp [returns_revokeOnHost_iff]

/-- The host lets a reading come to its end: the user is looked up, and where the home is
a supported one the command runs, with whatever result. -/
def ReadsOrRefuses (h : Host) (linuxUsername : String) : Prop :=
  ∃ found, h.getpwnam linuxUsername = .ok found ∧
    ∀ info sshDir path, found = some info → KeysAt info sshDir path →
      Returns (h.run (catCommand h path))

/-- The only exceptions are those of the module itself. -/
def OwnErrors {α : Type} (x : Except Exc α) : Prop :=
  ∀ e, x = .error e → ∃ text, e = .authorizedKeys text

theorem ownErrors_ok {α : Type} (v : α) : OwnErrors (.ok v) := fun _ h => nomatch h

theorem ownErrors_authorizedKeys {α : Type} (text : String) :
    OwnErrors (.error (.authorizedKeys text) : Except Exc α) :=
  fun _ h => ⟨text, (Except.error.inj h).symm⟩

theorem not_ownErrors_fault {α : Type} (f : Fault) :
    ¬ OwnErrors (.error (.fault f) : Except Exc α) := by
  intro h
  obtain ⟨text, htext⟩ := h _ rfl
  cases htext

theorem ownErrors_readFile_iff {h : Host} {path : String} :
    OwnErrors (readFile h path) ↔ Returns (h.run (catCommand h path)) := by
  unfold readFile readAuthorizedKeys
  cases h.run (catCommand h path) with
  | error e => exact iff_of_false (not_ownErrors_fault e) (not_returns_error e)
  | ok r =>
      refine iff_of_true ?_ (returns_ok r)
      cases htext : fileText r with
      | some text => simp [call, htext, OwnErrors, bind, Except.bind]
      | none => simp [call, htext, OwnErrors, bind, Except.bind, commandError]

theorem ownErrors_readOnHost_iff {h : Host} {linuxUsername : String} :
    OwnErrors (readOnHost h linuxUsername) ↔ ReadsOrRefuses h linuxUsername := by
  unfold ReadsOrRefuses
  cases hget : h.getpwnam linuxUsername with
  | error f =>
      have hread : readOnHost h linuxUsername = .error (.fault f) := by rw [readOnHost, hget]; rfl
      rw [hread]
      refine iff_of_false (not_ownErrors_fault f) ?_
      rintro ⟨found, hfound, -⟩
      cases hfound
  | ok found =>
      simp only [Except.ok.injEq, exists_eq_left']
      cases found with
      | none =>
          have hread : readOnHost h linuxUsername = .error (.authorizedKeys
              ("linux user " ++ h.repr linuxUsername ++ " not found")) := by
            rw [readOnHost, hget]
            rfl
          rw [hread]
          exact iff_of_true (ownErrors_authorizedKeys _) fun _ _ _ hnone => nomatch hnone
      | some info =>
          have hread : readOnHost h linuxUsername =
              authorizedKeyPaths h info >>= fun paths => readFile h paths.2 := by
            rw [readOnHost, hget]
            rfl
          rw [hread]
          by_cases hsupported : supportedHome (pathText info.homeDirectory) = true
          · rw [authorizedKeyPaths_eq_ok_iff.mpr ⟨hsupported, rfl, rfl⟩]
            refine (ownErrors_readFile_iff).trans ⟨fun hrun => ?_, fun hrun => ?_⟩
            · rintro _ _ _ ⟨⟩ ⟨-, -, rfl⟩
              exact hrun
            · exact hrun info _ _ rfl ⟨hsupported, rfl, rfl⟩
          · have hpaths : authorizedKeyPaths h info = .error (.authorizedKeys _) :=
              if_neg hsupported
            rw [hpaths]
            refine iff_of_true (ownErrors_authorizedKeys _) ?_
            rintro _ _ _ ⟨⟩ hkeys
            exact absurd hkeys.1 hsupported

/-- **A reading** returns or raises the error of its own module exactly when the name is
refused, or the mode is the mock mode, or the host lets it come to its end. -/
theorem read_ownErrors_iff {a : Agent} {h : Host} {linuxUsername : String} :
    OwnErrors (read a h linuxUsername) ↔
      (usernameRe linuxUsername = true → a.mockMode = false →
        ReadsOrRefuses h linuxUsername) := by
  unfold read validateUsername
  cases usernameRe linuxUsername with
  | false => exact iff_of_true (ownErrors_authorizedKeys _) fun h => nomatch h
  | true =>
      cases a.mockMode with
      | true => exact iff_of_true (ownErrors_ok _) fun _ h => nomatch h
      | false =>
          simp only [forall_const]
          exact ownErrors_readOnHost_iff

/-! ### Linux users -/

/-- The arguments of a `useradd` pass the checks. -/
def UseraddValid (uid gid : Option Int) (homeDirectory defaultShell : Option String) : Prop :=
  (∀ n ∈ uid, 1000 ≤ n) ∧ (∀ n ∈ gid, 1000 ≤ n) ∧ (∀ s ∈ homeDirectory, absPathRe s = true) ∧
    (∀ s ∈ defaultShell, absPathRe s = true)

/-- The host answers a `useradd`: the lookup, the command and the second lookup. -/
def AnswersUseradd (h : Host) (linuxUsername : String) (command : List String) : Prop :=
  ∃ found, h.getpwnam linuxUsername = .ok found ∧
    (found = none → ∃ r, h.run command = .ok r ∧
      (r.returncode = 0 → Returns (h.getpwnamAgain linuxUsername)))

/-- The host answers a `userdel`: the lookup and, for a user it knows, the command. -/
def AnswersUserdel (h : Host) (linuxUsername : String) (command : List String) : Prop :=
  ∃ found, h.getpwnam linuxUsername = .ok found ∧ (found ≠ none → Returns (h.run command))

theorem returns_validateId_iff {value : Option Int} {field : String} :
    Returns (validateId value field) ↔ ∀ n ∈ value, 1000 ≤ n := by
  cases value <;> simp [validateId]

theorem returns_validateOptionalAbsPath_iff {h : Host} {value : Option String} {field : String} :
    Returns (validateOptionalAbsPath h value field) ↔ ∀ s ∈ value, absPathRe s = true := by
  cases value <;> simp [validateOptionalAbsPath]

/-- **A `useradd`** returns exactly when it is admitted with valid arguments and, outside
the mock mode, the host answers. -/
theorem useradd_returns_iff {a : Agent} {h : Host} {linuxUsername : String} {uid gid : Option Int}
    {homeDirectory defaultShell : Option String} :
    Returns (useradd a h linuxUsername uid gid homeDirectory defaultShell) ↔
      Admitted a "linux.useradd" linuxUsername ∧
        UseraddValid uid gid homeDirectory defaultShell ∧
        (a.mockMode = false → AnswersUseradd h linuxUsername
          (useraddCommand h linuxUsername uid gid
            (orElse (homeDirectory.getD "") ("/home/" ++ linuxUsername))
            (orElse (defaultShell.getD "") "/bin/bash"))) := by
  unfold useradd UseraddValid
  simp only [returns_check_bind_iff, returns_requireEnabled_iff, returns_validateUsername_iff,
    returns_validateId_iff, returns_validateOptionalAbsPath_iff, Admitted, and_assoc]
  refine and_congr_right fun _ => and_congr_right fun _ => and_congr_right fun _ =>
    and_congr_right fun _ => and_congr_right fun _ => and_congr_right fun _ => ?_
  cases a.mockMode with
  | true => simp
  | false =>
      simp only [Bool.false_eq_true, if_false, forall_const, returns_bind_iff, call_eq_ok_iff,
        AnswersUseradd]
      refine exists_congr fun found => and_congr_right fun _ => ?_
      cases found with
      | some info => simp
      | none =>
          simp only [returns_bind_iff, call_eq_ok_iff, forall_const]
          refine exists_congr fun r => and_congr_right fun _ => ?_
          by_cases hcode : r.returncode = 0
          · rw [if_neg (not_not.mpr hcode), returns_bind_iff]
            simp only [call_eq_ok_iff, hcode, forall_const]
            refine exists_congr fun found => and_iff_left ?_
            cases found <;> exact returns_ok _
          · rw [if_pos hcode]
            simp [hcode]

/-- **A `userdel`** returns exactly when it is admitted and, outside the mock mode, the
host answers. -/
theorem userdel_returns_iff {a : Agent} {h : Host} {linuxUsername : String} {removeHome : Bool} :
    Returns (userdel a h linuxUsername removeHome) ↔
      Admitted a "linux.userdel" linuxUsername ∧
        (a.mockMode = false →
          AnswersUserdel h linuxUsername (userdelCommand h linuxUsername removeHome)) := by
  unfold userdel
  simp only [returns_check_bind_iff, returns_requireEnabled_iff, returns_validateUsername_iff,
    Admitted, and_assoc]
  refine and_congr_right fun _ => and_congr_right fun _ => ?_
  cases a.mockMode with
  | true => simp
  | false =>
      simp only [Bool.false_eq_true, if_false, forall_const, returns_bind_iff, call_eq_ok_iff,
        AnswersUserdel]
      refine exists_congr fun found => and_congr_right fun _ => ?_
      cases found with
      | none => simp
      | some info =>
          simp only [returns_bind_iff, call_eq_ok_iff, ne_eq, reduceCtorEq, not_false_eq_true,
            forall_const]
          refine exists_congr fun r => and_iff_left ?_
          split <;> exact returns_ok _

/-! ### signals -/

/-- A handler catches the process that is gone. -/
def IsProcessLookup (f : Fault) : Prop := ∃ text, f = .os .processLookup text

/-- A handler catches the process that is gone and the one it may not signal. -/
def IsSignalError (f : Fault) : Prop :=
  IsProcessLookup f ∨ ∃ text, f = .os .permission text

/-- The command of the `sudo` fallback, where both binaries are there. -/
def sudoCommand (h : Host) (pid : Int) (flag : String) : Option (List String) :=
  (h.which "sudo").bind fun sudoBin => h.killBin.map fun killBin =>
    [sudoBin, "-n", killBin, flag, toString pid]

/-- A signal is answered: sent, or refused in a way the handler knows, and then the
`sudo` fallback runs. -/
def SignalAnswered (h : Host) (pid : Int) (flag : String) (answer : Except Fault Unit) : Prop :=
  Caught IsSignalError answer ∧
    ∀ text, answer = .error (.os .permission text) →
      ∀ command, sudoCommand h pid flag = some command → Returns (h.run command)

/-- A signal reached the process, from the agent or through `sudo`. -/
def Delivered (h : Host) (pid : Int) (flag : String) (answer : Except Fault Unit) : Prop :=
  answer = .ok () ∨
    ∃ text command, answer = .error (.os .permission text) ∧
      sudoCommand h pid flag = some command ∧ Succeeds (h.run command)

theorem returns_sudoSignal_iff {h : Host} {pid : Int} {flag : String} :
    Returns (sudoSignal h pid flag) ↔
      ∀ command, sudoCommand h pid flag = some command → Returns (h.run command) := by
  unfold sudoSignal sudoCommand
  cases h.which "sudo" with
  | none => simp
  | some sudoBin =>
      cases h.killBin with
      | none => simp
      | some killBin =>
          simp only [Option.bind_some, Option.map_some, Option.some.injEq, forall_eq',
            returns_bind_iff, call_eq_ok_iff]
          refine exists_congr fun r => and_iff_left ?_
          split
          · exact returns_ok _
          · split <;> exact returns_ok _

theorem sudoSignal_ok {h : Host} {pid : Int} {flag : String} {attempt : SignalAttempt}
    (hattempt : sudoSignal h pid flag = .ok attempt) :
    attempt.ok = true ∧ attempt.missing = false ↔
      ∃ command, sudoCommand h pid flag = some command ∧ Succeeds (h.run command) := by
  unfold sudoSignal at hattempt
  unfold sudoCommand Succeeds
  cases hsudo : h.which "sudo" with
  | none =>
      simp only [hsudo] at hattempt
      obtain rfl := Except.ok.inj hattempt
      simp
  | some sudoBin =>
      cases hkill : h.killBin with
      | none =>
          simp only [hsudo, hkill] at hattempt
          obtain rfl := Except.ok.inj hattempt
          simp
      | some killBin =>
          simp only [hsudo, hkill] at hattempt
          obtain ⟨r, hr, hattempt⟩ := bind_eq_ok_iff.mp hattempt
          rw [call_eq_ok_iff] at hr
          simp only [Option.bind_some, Option.map_some, Option.some.injEq, exists_eq_left', hr,
            Except.ok.injEq]
          by_cases hcode : r.returncode = 0
          · rw [if_pos hcode] at hattempt
            obtain rfl := Except.ok.inj hattempt
            simp [hcode]
          · rw [if_neg hcode] at hattempt
            split at hattempt
            · obtain rfl := Except.ok.inj hattempt
              simp [hcode]
            · obtain rfl := Except.ok.inj hattempt
              simp [hcode]

theorem returns_sendSignal_iff {h : Host} {pid : Int} {flag : String} {answer : Except Fault Unit} :
    Returns (sendSignal h pid flag answer) ↔ SignalAnswered h pid flag answer := by
  unfold sendSignal SignalAnswered
  cases answer with
  | ok _ => simp [Caught]
  | error f =>
      cases f with
      | other text => simp [Caught, IsSignalError, IsProcessLookup]
      | os kind text =>
          cases kind with
          | permission =>
              have hcaught : Caught IsSignalError (.error (.os .permission text) : Except Fault Unit) :=
                fun f hf => Or.inr ⟨text, (Except.error.inj hf).symm⟩
              simp only [hcaught, true_and, Except.error.injEq, Fault.os.injEq, forall_eq',
                ← returns_sudoSignal_iff]
              rw [returns_bind_iff]
              refine exists_congr fun attempt => and_iff_left ?_
              split <;> exact returns_ok _
          | _ => simp [Caught, IsSignalError, IsProcessLookup]

theorem sendSignal_ok {h : Host} {pid : Int} {flag : String} {answer : Except Fault Unit}
    {attempt : SignalAttempt} (hattempt : sendSignal h pid flag answer = .ok attempt) :
    attempt.ok = true ∧ attempt.missing = false ↔ Delivered h pid flag answer := by
  unfold sendSignal at hattempt
  unfold Delivered
  cases answer with
  | ok _ =>
      obtain rfl := Except.ok.inj hattempt
      simp
  | error f =>
      cases f with
      | other text => cases hattempt
      | os kind text =>
          cases kind with
          | processLookup =>
              obtain rfl := Except.ok.inj hattempt
              simp
          | permission =>
              obtain ⟨sudoAttempt, hsudo, hattempt⟩ := bind_eq_ok_iff.mp hattempt
              have hspec := sudoSignal_ok hsudo
              simp only [reduceCtorEq, false_or, Except.error.injEq, Fault.os.injEq, true_and,
                exists_and_left, exists_eq_left', ← hspec]
              split at hattempt
              · next hok =>
                  obtain rfl := Except.ok.inj hattempt
                  simp
              · next hok =>
                  obtain rfl := Except.ok.inj hattempt
                  simp [hok]
          | _ => cases hattempt

/-- The process is there after the first signal. -/
def StillAlive (h : Host) : Prop :=
  h.probe = .ok () ∨ ∃ text, h.probe = .error (.os .permission text)

/-- The host answers a kill: the first signal; where it was delivered, the probe; and
where the process is still there, the second signal. -/
def AnswersKill (h : Host) (pid : Int) : Prop :=
  SignalAnswered h pid "-TERM" h.sigterm ∧
    (Delivered h pid "-TERM" h.sigterm → Caught IsSignalError h.probe ∧
      (StillAlive h → SignalAnswered h pid "-KILL" h.sigkill))

theorem alive_spec (h : Host) :
    (Returns (alive h) ↔ Caught IsSignalError h.probe) ∧ (alive h = .ok true ↔ StillAlive h) := by
  unfold alive StillAlive
  cases h.probe with
  | ok _ => simp [Caught]
  | error f =>
      cases f with
      | other text => simp [Caught, IsSignalError, IsProcessLookup]
      | os kind text => cases kind <;> simp [Caught, IsSignalError, IsProcessLookup]

/-- The part of a kill after the delivered first signal. -/
theorem returns_rest_iff {h : Host} {pid : Int} {refusedText : SignalAttempt → String} :
    Returns (do
      if ← alive h then
        let kill ← sendSignal h pid "-KILL" h.sigkill
        if !kill.ok && !kill.missing then
          .ok { ok := false, error := some (refusedText kill) }
        else .ok { ok := true, killed := true }
      else .ok { ok := true, killed := true } : Except Exc KillResult) ↔
      Caught IsSignalError h.probe ∧ (StillAlive h → SignalAnswered h pid "-KILL" h.sigkill) := by
  rw [returns_bind_iff, ← (alive_spec h).1, ← (alive_spec h).2, ← returns_sendSignal_iff]
  constructor
  · rintro ⟨there, hthere, hrest⟩
    refine ⟨⟨there, hthere⟩, fun htrue => ?_⟩
    obtain rfl : there = true := Except.ok.inj (hthere.symm.trans htrue)
    obtain ⟨kill, hkill, -⟩ := returns_bind_iff.mp hrest
    exact ⟨kill, hkill⟩
  · rintro ⟨⟨there, hthere⟩, hrest⟩
    refine ⟨there, hthere, ?_⟩
    cases there with
    | false => exact returns_ok _
    | true =>
        obtain ⟨kill, hkill⟩ := hrest hthere
        refine returns_bind_iff.mpr ⟨kill, hkill, ?_⟩
        split <;> exact returns_ok _

/-- **A kill** returns exactly when its capability is off, or the mode is the mock mode,
or the host answers. -/
theorem killPid_returns_iff {a : Agent} {h : Host} {pid : Int} :
    Returns (killPid a h pid) ↔
      (a.isEnabled "gpu.kill_process" false = true → a.mockMode = false → AnswersKill h pid) := by
  unfold killPid AnswersKill
  cases a.isEnabled "gpu.kill_process" false with
  | false => simp
  | true =>
      cases a.mockMode with
      | true => simp
      | false =>
          simp only [Bool.not_true, Bool.false_eq_true, if_false, forall_const]
          rw [returns_bind_iff]
          constructor
          · rintro ⟨term, hterm, hrest⟩
            refine ⟨returns_sendSignal_iff.mp ⟨term, hterm⟩, fun hdelivered => ?_⟩
            obtain ⟨hok, hmissing⟩ := (sendSignal_ok hterm).mpr hdelivered
            simp only [hok, hmissing, Bool.false_eq_true, Bool.not_true, if_false] at hrest
            exact returns_rest_iff.mp hrest
          · rintro ⟨hanswered, hrest⟩
            obtain ⟨term, hterm⟩ := returns_sendSignal_iff.mpr hanswered
            refine ⟨term, hterm, ?_⟩
            cases hmissing : term.missing with
            | true => exact returns_ok _
            | false =>
                cases hok : term.ok with
                | false => exact returns_ok _
                | true => exact returns_rest_iff.mpr (hrest ((sendSignal_ok hterm).mp ⟨hok, hmissing⟩))

/-! ### scripts -/

/-- The host answers the spawn of a script: the lookup, the log file and the spawn, each
of which may fail with an `OSError`. -/
def AnswersScript (h : Host) (p : ExecuteScriptRequest) : Prop :=
  ∃ found, h.getpwnam p.linuxUsername = .ok found ∧
    ∀ info, found = some info → 1000 ≤ info.uid → (h.which "sudo").isSome →
      Caught IsOsError (h.makeLogDir p.stdoutLogPathHint) ∧
      (Returns (h.makeLogDir p.stdoutLogPathHint) →
        Caught IsOsError (h.touchLog p.stdoutLogPathHint) ∧
        (Returns (h.touchLog p.stdoutLogPathHint) →
          Caught IsOsError (h.spawnScript (scriptCommand p) (scriptEnv p) p.workingDirectory)))

theorem returns_executeLinux_iff {a : Agent} {h : Host} {p : ExecuteScriptRequest} :
    Returns (executeLinux a h p) ↔ AnswersScript h p := by
  unfold executeLinux AnswersScript
  simp only [returns_bind_iff, call_eq_ok_iff]
  refine exists_congr fun found => and_congr_right fun _ => ?_
  cases found with
  | none => simp
  | some info =>
      simp only [Option.some.injEq, forall_eq']
      by_cases huid : info.uid < 1000
      · rw [if_pos huid]
        exact iff_of_true (returns_ok _) fun hle => absurd huid (by omega)
      · rw [if_neg huid]
        simp only [show 1000 ≤ info.uid by omega, forall_const]
        cases h.which "sudo" with
        | none => simp
        | some sudoBin =>
            simp only [Option.isNone_some, Bool.false_eq_true, if_false, Option.isSome_some,
              forall_const]
            cases h.makeLogDir p.stdoutLogPathHint with
            | error f => cases f <;> simp [Caught, IsOsError]
            | ok _ =>
                rw [and_iff_right (caught_ok _), returns_ok_imp_iff]
                cases h.touchLog p.stdoutLogPathHint with
                | error f => cases f <;> simp [Caught, IsOsError]
                | ok _ =>
                    rw [and_iff_right (caught_ok _), returns_ok_imp_iff]
                    cases h.spawnScript (scriptCommand p) (scriptEnv p) p.workingDirectory with
                    | error f => cases f <;> simp [Caught, IsOsError]
                    | ok pid => exact iff_of_true (returns_ok _) (caught_ok _)

/-- **A script** is answered for exactly when its capability is off, or it is running, or
the mock log could be written, or the host answers. -/
theorem execute_returns_iff {a : Agent} {h : Host} {p : ExecuteScriptRequest} :
    Returns (execute a h p) ↔
      (a.isEnabled "script.execute_as_user" true = true →
        a.running.get? p.reservationId = none →
        (a.mockMode = true → Returns (h.writeMockLog (mockLogPath p.reservationId))) ∧
        (a.mockMode = false → AnswersScript h p)) := by
  unfold execute
  cases a.isEnabled "script.execute_as_user" true with
  | false => simp
  | true =>
      cases hrunning : a.running.get? p.reservationId with
      | some entry => simp
      | none =>
          cases a.mockMode with
          | true =>
              simp [executeMock, returns_check_bind_iff]
          | false =>
              simp only [Bool.not_true, Bool.false_eq_true, if_false, Option.isSome_none, forall_const,
                false_implies, true_and]
              exact returns_executeLinux_iff

/-- **The cancel of a script** is answered for exactly when there is no process to end,
or ending it at most finds it gone. -/
theorem cancel_returns_iff {a : Agent} {h : Host} {reservationId : Int} {reason : String} :
    Returns (cancel a h reservationId reason) ↔
      ∀ entry, a.running.get? reservationId = some entry → entry.hasProcess = true →
        Caught IsProcessLookup h.terminate := by
  unfold cancel
  cases a.running.get? reservationId with
  | none => simp
  | some entry =>
      cases hprocess : entry.hasProcess with
      | false => simp [hprocess]
      | true =>
          simp only [Bool.not_true, Bool.false_eq_true, if_false, Option.some.injEq, forall_eq',
            hprocess, forall_const]
          cases h.terminate with
          | ok _ => simp [Caught]
          | error f =>
              cases f with
              | other text => simp [Caught, IsProcessLookup]
              | os kind text => cases kind <;> simp [Caught, IsProcessLookup]

end AgentHost

end CoreLab
