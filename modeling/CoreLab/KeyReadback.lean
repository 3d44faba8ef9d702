import CoreLab.AgentHost
import CoreLab.KeyLines
import CoreLab.Lib.Words

/-!
# CoreLab.KeyReadback

A public key on its way through both programs: the backend parses it and keeps its fingerprint, the
agent writes its text into an `authorized_keys` file and takes it out again, and the backend reads
the fingerprints of the file back.

* `fingerprint_of_parsePublicKey` — the two programs agree on the fingerprint of a key;
* `listed_push`, `listed_revoke` — what a rewrite does to the fingerprints that a file is read back
  as;
* `readback_run` — so a file is read back as the ledger of what was pushed and revoked.
-/

namespace CoreLab

open Lines Transition

namespace KeyReadback

open AgentHost (ReadKeyEntry summarizeWords summarizeLine summarizeAuthorizedKeys)
open AuthorizedKeys (Digest Action push revoke step authorizedKeyLine fingerprintForPubkey keyBody
  isKeyType isKeyLine hasFingerprint hasKey ReadBack sampleDigest sampleFile)

/-! ## the backend's reading of a key -/

/-- `ALLOWED_KEY_TYPES`. -/
def allowedKeyTypes : List Line :=
  ["ssh-ed25519".toList, "ssh-rsa".toList, "ecdsa-sha2-nistp256".toList,
    "ecdsa-sha2-nistp384".toList, "ecdsa-sha2-nistp521".toList,
    "sk-ssh-ed25519@openssh.com".toList, "sk-ecdsa-sha2-nistp256@openssh.com".toList]

/-- The text of an `InvalidPublicKeyError` of the backend. -/
inductive InvalidPublicKey where
  | notSingleLine
  | noBlob
  | unsupportedType (keyType : Line)
  | badBlob
deriving DecidableEq

def InvalidPublicKey.text : InvalidPublicKey → String
  | notSingleLine => "public key must be a single line"
  | noBlob => "public key needs at least <type> <blob>"
  | unsupportedType keyType => "unsupported key type: " ++ String.ofList keyType
  | badBlob => "public key blob is not valid base64"

structure PublicKey where
  keyType : Line
  blob : Line
  comment : Option Line
deriving DecidableEq

/-- `parse_public_key`. -/
def parsePublicKey (digest : Digest) (raw : Line) : Except InvalidPublicKey PublicKey :=
  let cleaned := strip raw
  if '\n' ∈ cleaned ∨ '\r' ∈ cleaned then .error .notSingleLine
  else
    match splitMax 2 cleaned with
    | keyType :: blob :: rest =>
      if keyType ∉ allowedKeyTypes then .error (.unsupportedType keyType)
      else
        match digest blob with
        | .error _ => .error .badBlob
        | .ok _ => .ok ⟨keyType, blob, rest.head?⟩
    | _ => .error .noBlob

/-- The fingerprint that `add_key` keeps of a key: `fingerprint_sha256` of its blob. -/
def keptFingerprint (digest : Digest) (raw : Line) : Option String :=
  match parsePublicKey digest raw with
  | .error _ => none
  | .ok key => (digest key.blob).toOption

theorem parsePublicKey_ok {digest : Digest} {raw : Line} {key : PublicKey}
    (h : parsePublicKey digest raw = .ok key) : key.keyType ∈ allowedKeyTypes ∧
      (∃ fp, digest key.blob = .ok fp) ∧ ∃ more, split raw = key.keyType :: key.blob :: more := by
  simp only [parsePublicKey] at h
  split at h
  · cases h
  · split at h
    · next keyType blob rest hwords =>
        split at h
        · cases h
        · next htype =>
            split at h
            · cases h
            · next fp hdigest =>
                obtain rfl := Except.ok.inj h
                obtain ⟨more, hsplit⟩ := split_of_splitMax hwords
                rw [split_strip] at hsplit
                exact ⟨not_not.mp htype, ⟨fp, hdigest⟩, more, hsplit⟩
    · cases h

/-- The blanks around a key are stripped. -/
theorem keptFingerprint_strip (digest : Digest) (raw : Line) :
    keptFingerprint digest (strip raw) = keptFingerprint digest raw := by
  rw [keptFingerprint, keptFingerprint, parsePublicKey, parsePublicKey, strip_strip]

theorem parsePublicKey_of_keptFingerprint {digest : Digest} {raw : Line} {fp : String}
    (h : keptFingerprint digest raw = some fp) : ∃ key, parsePublicKey digest raw = .ok key := by
  unfold keptFingerprint at h
  split at h
  · cases h
  · next key hparse => exact ⟨key, hparse⟩

theorem isKeyType_of_allowed {keyType : Line} (h : keyType ∈ allowedKeyTypes) :
    isKeyType keyType = true :=
  List.all_eq_true.mp (by decide : allowedKeyTypes.all isKeyType = true) keyType h

/-- **The two programs agree** on the fingerprint of a key. -/
theorem fingerprint_of_parsePublicKey {digest : Digest} {raw : Line} {fp : String}
    (h : keptFingerprint digest raw = some fp) : fingerprintForPubkey digest raw = .ok fp := by
  unfold keptFingerprint at h
  split at h
  · cases h
  · next key hparse =>
      obtain ⟨htype, ⟨fp', hdigest⟩, more, hsplit⟩ := parsePublicKey_ok hparse
      rw [hdigest] at h
      obtain rfl := Option.some.inj h
      have hbody : keyBody (split (strip raw)) = some key.blob := by
        rw [split_strip, hsplit, keyBody, if_pos (isKeyType_of_allowed htype)]
      simp only [fingerprintForPubkey, hbody, hdigest]

/-- A line begins with its first word. -/
theorem split_of_head {l : Line} {c : Char} (h : (strip l).head? = some c) :
    ∃ w ws, split l = (c :: w) :: ws := by
  have hprefix : strip l <+: lstrip l := List.rdropWhile_prefix _ _
  obtain ⟨cs, hstrip⟩ := List.head?_eq_some_iff.mp h
  obtain ⟨more, hmore⟩ := hprefix
  rw [hstrip, List.cons_append] at hmore
  have hne : lstrip l ≠ [] := by simp [← hmore]
  have hc : isSpace c = false := by
    have hhead : isSpace ((lstrip l).head hne) = false := List.head_dropWhile_not isSpace hne
    simpa [← hmore] using hhead
  rw [split_eq_cons hne, ← hmore, List.takeWhile_cons]
  simp [hc]

/-- What the agent writes of an accepted key is neither blank nor a comment. -/
theorem isKeyLine_of_keptFingerprint {digest : Digest} {publicKey : Line} {fp : String}
    (h : keptFingerprint digest publicKey = some fp) (label : Line) :
    isKeyLine (strip (strip publicKey ++ ' ' :: label)) = true := by
  obtain ⟨key, hparse⟩ := parsePublicKey_of_keptFingerprint h
  obtain ⟨htype, -, more, hsplit⟩ := parsePublicKey_ok hparse
  have hwords : split (strip publicKey ++ ' ' :: label) =
      key.keyType :: key.blob :: (more ++ split label) := by
    rw [split_append_sep (by decide), split_strip, hsplit]
    rfl
  rw [isKeyLine, Bool.and_eq_true, decide_eq_true_eq, decide_eq_true_eq]
  constructor
  · intro hnil
    rw [← split_strip, hnil] at hwords
    cases hwords
  · intro hhash
    obtain ⟨w, ws, hfirst⟩ := split_of_head hhash
    rw [hwords] at hfirst
    obtain ⟨hkeyType, -⟩ := List.cons.inj hfirst
    have hall : allowedKeyTypes.all (fun t => t.head? ≠ some '#') = true := by decide
    have hnot := List.all_eq_true.mp hall key.keyType htype
    simp [hkeyType] at hnot

/-- What the agent writes of an accepted key has the fingerprint that the backend keeps. -/
theorem hasFingerprint_of_keptFingerprint {digest : Digest} {publicKey label line : Line} {fp : String}
    (h : keptFingerprint digest publicKey = some fp)
    (hline : authorizedKeyLine digest publicKey label = .ok line) :
    hasFingerprint digest fp line = true := by
  have hkey := AuthorizedKeys.fingerprint_authorizedKeyLine hline (fingerprint_of_parsePublicKey h)
  obtain ⟨rfl, -, -⟩ := AuthorizedKeys.authorizedKeyLine_ok hline
  rw [hasFingerprint, isKeyLine_of_keptFingerprint h, AuthorizedKeys.fingerprint_strip, hkey]
  simp

/-! ## the fingerprints of a file -/

/-- The fingerprint that a line is read back as. -/
def lineFingerprint (digest : Digest) (line : Line) : Option String :=
  if isKeyLine (strip line) then (fingerprintForPubkey digest (strip line)).toOption else none

/-- The fingerprints that the agent reads a file back as. -/
def listed (digest : Digest) (file : List Char) : List String :=
  (summarizeAuthorizedKeys digest file).1.map (·.fingerprintSha256)

section Listed

variable {digest : Digest} {file desired : List Char} {line publicKey label : Line} {fp : String}

theorem summarizeWords_isSome (words : List Line) :
    (summarizeWords words).isSome = (keyBody words).isSome := by
  induction words with
  | nil => rfl
  | cons part words ih =>
      cases words with
      | nil => rfl
      | cons body rest =>
          rw [summarizeWords, keyBody]
          split
          · rfl
          · exact ih

theorem summarizeLine_fingerprints (acc : List ReadKeyEntry × Nat × Nat) (numbered : Line × Nat) :
    (summarizeLine digest acc numbered).1.map (·.fingerprintSha256) =
      acc.1.map (·.fingerprintSha256) ++ (lineFingerprint digest numbered.1).toList := by
  obtain ⟨keys, lines, invalid⟩ := acc
  obtain ⟨raw, index⟩ := numbered
  simp only [summarizeLine, lineFingerprint]
  cases hline : isKeyLine (strip raw) with
  | false => simp
  | true =>
      simp only [Bool.not_true, Bool.false_eq_true, if_false, if_true]
      have hsome := summarizeWords_isSome (split (strip raw))
      split
      · next keyType comment fingerprint _ hfp => simp [hfp, Except.toOption]
      · next hnone =>
          cases hfp : fingerprintForPubkey digest (strip raw) with
          | error e => simp [Except.toOption]
          | ok fingerprint =>
              -- a line with a fingerprint has a key type and a body
              exfalso
              have hbody : (keyBody (split (strip raw))).isSome = true := by
                cases hb : keyBody (split (strip raw)) with
                | some body => rfl
                | none => simp [fingerprintForPubkey, split_strip] at hfp hb; simp [hb] at hfp
              rw [← hsome, Option.isSome_iff_exists] at hbody
              obtain ⟨⟨keyType, comment⟩, hwords⟩ := hbody
              exact hnone keyType comment fingerprint hwords hfp

theorem listed_eq (digest : Digest) (file : List Char) :
    listed digest file = (splitlines file).filterMap (lineFingerprint digest) := by
  have hfold (numbered : List (Line × Nat)) (acc : List ReadKeyEntry × Nat × Nat) :
      (numbered.foldl (summarizeLine digest) acc).1.map (·.fingerprintSha256) =
        acc.1.map (·.fingerprintSha256) ++
          (numbered.map Prod.fst).filterMap (lineFingerprint digest) := by
    induction numbered generalizing acc with
    | nil => simp
    | cons n numbered ih =>
        rw [List.foldl_cons, ih, summarizeLine_fingerprints, List.map_cons]
        cases hn : lineFingerprint digest n.1 <;> simp [hn]
  rw [listed, summarizeAuthorizedKeys, hfold, List.map_nil, List.nil_append]
  congr 1
  simp

theorem hasFingerprint_iff (line : Line) :
    hasFingerprint digest fp line = true ↔ lineFingerprint digest line = some fp := by
  rw [hasFingerprint, lineFingerprint]
  cases isKeyLine (strip line) with
  | false => simp
  | true => cases fingerprintForPubkey digest (strip line) <;> simp [Except.toOption]

theorem hasKey_iff : hasKey digest fp file = true ↔ fp ∈ listed digest file := by
  rw [hasKey, List.any_eq_true, listed_eq, List.mem_filterMap]
  exact exists_congr fun line => and_congr_right fun _ => hasFingerprint_iff line

/-- **A revoke** takes out its fingerprint, and no other. -/
theorem listed_revoke (digest : Digest) (file : List Char) (fp : String) :
    listed digest (revoke digest file fp) = (listed digest file).filter (· ≠ fp) := by
  rw [listed_eq, listed_eq, AuthorizedKeys.splitlines_revoke]
  refine DropAbove.filterMap_popAbove (fun line => hasFingerprint_iff line) (fun line hnote => ?_) _
  cases hline : lineFingerprint digest line with
  | none => rfl
  | some f =>
      have hno := AuthorizedKeys.not_isCorelabComment_of_hasFingerprint line
        ((hasFingerprint_iff line).mpr hline)
      rw [hnote] at hno
      cases hno

/-- **A push** of a line that is read back adds its fingerprint, where it is missing. -/
theorem listed_push (hkey : fingerprintForPubkey digest publicKey = .ok fp)
    (hline : authorizedKeyLine digest publicKey label = .ok line) (hread : ReadBack line)
    (hpush : push digest file publicKey label = .ok (desired, fp)) :
    listed digest desired =
      if fp ∈ listed digest file then listed digest file else listed digest file ++ [fp] := by
  have hframe := ((AuthorizedKeys.pushLaws_iff hline hkey hpush).mpr (Or.inr hread)).frame
  rw [listed_eq digest desired, hframe, List.filterMap_append, ← listed_eq]
  by_cases hhas : hasKey digest fp file = true
  · rw [if_pos hhas, if_pos (hasKey_iff.mp hhas), List.filterMap_nil, List.append_nil]
  · rw [if_neg hhas, if_neg (hasKey_iff.not.mp hhas)]
    have hmine : lineFingerprint digest line = some fp := by
      rw [lineFingerprint, if_pos hread.1, AuthorizedKeys.fingerprint_strip,
        AuthorizedKeys.fingerprint_authorizedKeyLine hline hkey]
      rfl
    simp [hmine]

end Listed

/-! ## keys that the backend has accepted -/

/-- A text that is one line however it is cut, blanks around it apart. -/
def Plain (text : Line) : Prop := ∀ c ∈ strip text, isLineBreak c = false ∧ c.toNat ≠ 0

instance (text : Line) : Decidable (Plain text) :=
  List.decidableBAll (fun c => isLineBreak c = false ∧ c.toNat ≠ 0) (strip text)

/-- A pushed key is one that `add_key` has accepted, and it and its label are plain. -/
def Pushable (digest : Digest) : Action → Prop
  | .push publicKey label => (keptFingerprint digest publicKey).isSome = true ∧ Plain publicKey ∧
      Plain label ∧ strip label ≠ []
  | .revoke _ => True

instance (digest : Digest) : (a : Action) → Decidable (Pushable digest a)
  | .push publicKey label =>
    inferInstanceAs (Decidable ((keptFingerprint digest publicKey).isSome = true ∧
      Plain publicKey ∧ Plain label ∧ strip label ≠ []))
  | .revoke _ => .isTrue True.intro

/-- What the fingerprints of a file are after a call, by the fingerprints that the backend keeps. -/
def ledgerStep (digest : Digest) (ledger : List String) : Action → List String
  | .push publicKey _ =>
    match keptFingerprint digest publicKey with
    | none => ledger
    | some fp => if fp ∈ ledger then ledger else ledger ++ [fp]
  | .revoke fp => ledger.filter (· ≠ fp)

section Pushable

variable {digest : Digest} {file : List Char} {publicKey label : Line}

theorem validateSingleLine_of_plain {text : Line} (field : String) (h : Plain text)
    (hne : strip text ≠ []) :
    AuthorizedKeys.validateSingleLine text field = .ok (strip text) := by
  have hnone : (strip text).any (fun c => c = '\n' || c = '\r' || c.toNat = 0) = false := by
    rw [List.any_eq_false]
    intro c hc
    obtain ⟨hbreak, hnul⟩ := h c hc
    simp only [Bool.or_eq_true, decide_eq_true_eq, not_or]
    refine ⟨⟨?_, ?_⟩, hnul⟩
    · rintro rfl
      exact absurd hbreak (by decide)
    · rintro rfl
      exact absurd hbreak (by decide)
  simp only [AuthorizedKeys.validateSingleLine, hne, hnone, decide_false, Loops.raiseIf,
    Bool.false_eq_true, if_false, bind, Except.bind]

/-- The line of a pushable key is written, and is read back. -/
theorem Pushable.line (h : Pushable digest (.push publicKey label)) :
    ∃ fp line, keptFingerprint digest publicKey = some fp ∧
      fingerprintForPubkey digest publicKey = .ok fp ∧
      authorizedKeyLine digest publicKey label = .ok line ∧ ReadBack line := by
  obtain ⟨hkept, hkey, hlabel, hne⟩ := h
  obtain ⟨fp, hfp⟩ := Option.isSome_iff_exists.mp hkept
  have hfingerprint := fingerprint_of_parsePublicKey hfp
  obtain ⟨key, hparse⟩ := parsePublicKey_of_keptFingerprint hfp
  obtain ⟨-, -, more, hsplit⟩ := parsePublicKey_ok hparse
  have hkeyNe : strip publicKey ≠ [] := by
    intro hnil
    have hwords := split_strip publicKey
    rw [hnil, hsplit] at hwords
    cases hwords
  have hline : authorizedKeyLine digest publicKey label =
      .ok (strip publicKey ++ ' ' :: strip label) := by
    simp only [authorizedKeyLine, validateSingleLine_of_plain _ hkey hkeyNe,
      validateSingleLine_of_plain _ hlabel hne, AuthorizedKeys.fingerprint_strip, hfingerprint, bind,
      Except.bind]
  refine ⟨fp, _, hfp, hfingerprint, hline, isKeyLine_of_keptFingerprint hfp _, fun c hc => ?_⟩
  rcases List.mem_append.mp hc with hc | hc
  · exact (hkey c hc).1
  · rcases List.mem_cons.mp hc with rfl | hc
    · decide
    · exact (hlabel c hc).1

/-- One call does to a file what it does to the ledger. -/
theorem listed_step (file : List Char) {a : Action} (h : Pushable digest a) : ∃ file',
    step digest file a = some file' ∧
      listed digest file' = ledgerStep digest (listed digest file) a := by
  cases a with
  | revoke fp => exact ⟨_, rfl, listed_revoke digest file fp⟩
  | push publicKey label =>
      obtain ⟨fp, line, hkept, hkey, hline, hread⟩ := h.line
      have hpush := AuthorizedKeys.push_eq hline hkey file
      refine ⟨_, by rw [step, hpush], ?_⟩
      rw [listed_push hkey hline hread hpush]
      simp only [ledgerStep, hkept]

/-- **A file refines the ledger** over any run of accepted keys and revokes. -/
theorem listed_run (digest : Digest) (file : List Char) (as : List Action)
    (hok : ∀ a ∈ as, Pushable digest a) : ∃ file', exec (step digest) file as = some file' ∧
      listed digest file' = as.foldl (ledgerStep digest) (listed digest file) := by
  induction as generalizing file with
  | nil => exact ⟨file, rfl, rfl⟩
  | cons a as ih =>
      obtain ⟨mid, hmid, hlisted⟩ := listed_step file (hok a List.mem_cons_self)
      obtain ⟨file', hfile', hrest⟩ := ih mid fun b hb => hok b (List.mem_cons_of_mem _ hb)
      exact ⟨file', exec_cons_eq_some.mpr ⟨mid, hmid, hfile'⟩, by rw [hrest, hlisted]; rfl⟩

end Pushable

/-! ## reading back -/

/-- A row of the managed keys of an account: its entry and the fingerprint of its key. -/
structure ManagedRow where
  entryId : Nat
  sshPublicKeyId : Nat
  pushedForUserId : Nat
  fingerprintSha256 : String
deriving DecidableEq

/-- What `read_authorized_keys_from_host` answers of the keys. -/
structure Readback where
  hostKeys : List ReadKeyEntry
  /-- The managed rows, and whether each is present on the host. -/
  managedEntries : List (ManagedRow × Bool)
  unknownHostKeys : List ReadKeyEntry
deriving DecidableEq

/-- `read_authorized_keys_from_host`, from the keys of the agent's answer on. -/
def readAuthorizedKeysFromHost (managedRows : List ManagedRow) (hostKeys : List ReadKeyEntry) :
    Readback where
  hostKeys := hostKeys
  managedEntries := managedRows.map fun m =>
    (m, decide (m.fingerprintSha256 ∈ hostKeys.map (·.fingerprintSha256)))
  unknownHostKeys := hostKeys.filter fun k =>
    decide (k.fingerprintSha256 ∉ managedRows.map (·.fingerprintSha256))

/-- The readback is that of a ledger of fingerprints. -/
structure Tells (r : Readback) (managedRows : List ManagedRow) (ledger : List String) : Prop where
  host : r.hostKeys.map (·.fingerprintSha256) = ledger
  managed : r.managedEntries =
    managedRows.map fun m => (m, decide (m.fingerprintSha256 ∈ ledger))
  unknown : r.unknownHostKeys.map (·.fingerprintSha256) =
    ledger.filter fun fp => decide (fp ∉ managedRows.map (·.fingerprintSha256))

/-- **The readback tells the ledger**: whatever the file held, after any run of pushes of accepted
keys and of revokes it is read back as the keys that the backend pushed and did not revoke, and
those that were there and were not revoked. -/
theorem readback_run (digest : Digest) (file : List Char) (as : List Action)
    (managedRows : List ManagedRow) (hok : ∀ a ∈ as, Pushable digest a) :
    ∃ file', exec (step digest) file as = some file' ∧
      Tells (readAuthorizedKeysFromHost managedRows (summarizeAuthorizedKeys digest file').1)
        managedRows (as.foldl (ledgerStep digest) (listed digest file)) := by
  obtain ⟨file', hexec, hlisted⟩ := listed_run digest file as hok
  refine ⟨file', hexec, hlisted, ?_, ?_⟩
  · rw [← hlisted]
    rfl
  · rw [← hlisted, listed, List.filter_map]
    rfl

/-- The label of the first push of a request. -/
def requestLabel (requesterUserId requestId : Nat) : Line :=
  "corelab:user=".toList ++ Nat.toDigits 10 requesterUserId ++ ";link_request=".toList ++
    Nat.toDigits 10 requestId

/-- Bob's key is pushed, with the blank that the textarea left before it, and Alice's revoked. -/
def sampleCalls : List Action :=
  [.push " ssh-ed25519 AAAB bob@lab".toList (requestLabel 7 3),
    .revoke "SHA256:cJ6AyISHokEeHuTfufIqhhSS0gxHZRUMDHlKvXD4FHw"]

/-- The row that the push left. -/
def sampleRows : List ManagedRow :=
  [⟨5, 2, 7, "SHA256:z3YF7RvHNfbIJVVBVGJ0Z+HKyd9UzuhpkhjtQ0YDxWg"⟩]

theorem readback_run_sample : ∃ file',
    exec (step sampleDigest) sampleFile sampleCalls = some file' ∧
      Tells (readAuthorizedKeysFromHost sampleRows (summarizeAuthorizedKeys sampleDigest file').1)
        sampleRows (sampleCalls.foldl (ledgerStep sampleDigest) (listed sampleDigest sampleFile)) :=
  readback_run sampleDigest sampleFile sampleCalls sampleRows (by decide +kernel)

end KeyReadback

end CoreLab
