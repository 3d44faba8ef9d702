import CoreLab.Lib.Lines
import CoreLab.Lib.Loops
import CoreLab.Lib.Transition
import Mathlib.Data.List.Perm.Subperm

/-!
# CoreLab.AuthorizedKeys

The agent's rewrites of an `authorized_keys` file, against the way `sshd` reads
it.  `push` and `revoke` cut the file with `str.splitlines` and write the pieces
back with a line end each; `sshd` ends a line at the line end only.

* `effectiveKeys_joinLines` — what `sshd` reads of a file the agent wrote;
* `sameReading_exec` — files whose two readings agree keep agreeing, as long as
  no pushed line reads differently;
* `rewrites_confined` — a rewrite of such a file adds at most the pushed key.
-/

namespace CoreLab

open Lines Loops Transition

namespace AuthorizedKeys

/-! ## keys -/

/-- `InvalidPublicKeyError`, by its reason. -/
inductive KeyError where
  | emptyField (field : String)
  | notSingleLine (field : String)
  | missingBody
  | decodeFailed (detail : String)
deriving DecidableEq, Repr

/-- The message of the error. -/
def KeyError.text : KeyError → String
  | emptyField field => s!"{field} is empty"
  | notSingleLine field => s!"{field} must be a single line"
  | missingBody => "public_key missing base64 body"
  | decodeFailed detail => s!"public_key base64 decode failed: {detail}"

/-- `_validate_single_line`. -/
def validateSingleLine (value : Line) (field : String) : Except KeyError Line := do
  let stripped := strip value
  raiseIf (decide (stripped = [])) (.emptyField field)
  raiseIf (stripped.any fun c => c = '\n' || c = '\r' || c.toNat = 0) (.notSingleLine field)
  .ok stripped

/-- `_is_key_type`. -/
def isKeyType (part : Line) : Bool :=
  "ssh-".toList.isPrefixOf part || "ecdsa-".toList.isPrefixOf part || "sk-".toList.isPrefixOf part ||
    "rsa-sha2-".toList.isPrefixOf part

/-- The word after the first key type; a key type in last place has none. -/
def keyBody : List Line → Option Line
  | part :: body :: rest => if isKeyType part then some body else keyBody (body :: rest)
  | _ => none

/-- What the digest of a key body is: its base64 decoding, SHA-256 and the text
of the hash, or the reason the body does not decode. -/
abbrev Digest := Line → Except String String

/-- `_fingerprint_for_pubkey`. -/
def fingerprintForPubkey (digest : Digest) (publicKey : Line) : Except KeyError String :=
  match keyBody (split (strip publicKey)) with
  | none => .error .missingBody
  | some body =>
    match digest body with
    | .error detail => .error (.decodeFailed detail)
    | .ok fingerprint => .ok fingerprint

/-- `_authorized_key_line`. -/
def authorizedKeyLine (digest : Digest) (publicKey label : Line) : Except KeyError Line := do
  let key ← validateSingleLine publicKey "public_key"
  let comment ← validateSingleLine label "label"
  let _ ← fingerprintForPubkey digest key
  .ok (key ++ ' ' :: comment)

/-! ## rewriting -/

/-- A stripped line that is neither blank nor a comment. -/
def isKeyLine (l : Line) : Bool := decide (l ≠ []) && decide (l.head? ≠ some '#')

/-- The line is a key with this fingerprint. -/
def hasFingerprint (digest : Digest) (fingerprint : String) (line : Line) : Bool :=
  isKeyLine (strip line) && match fingerprintForPubkey digest (strip line) with
    | .ok f => decide (f = fingerprint)
    | .error _ => false

/-- `_rewrite_authorized_keys_for_push`. -/
def rewriteForPush (digest : Digest) (existing : List Char) (line : Line) :
    Except KeyError (List Char) := do
  let lines := splitlines existing
  let target ← fingerprintForPubkey digest line
  if lines.any (hasFingerprint digest target) then .ok (joinLines lines)
  else .ok (joinLines (lines ++ [line]))

/-- One line of the revoking loop: a matching key goes, and with it the CoreLab
comment right above it. -/
def revokeLine (digest : Digest) (fingerprint : String) (acc : List Line × Bool) (line : Line) :
    List Line × Bool :=
  if hasFingerprint digest fingerprint line then
    (if acc.1.getLast?.any fun kept => "# corelab".toList.isPrefixOf (lstrip kept) then
      acc.1.dropLast else acc.1, true)
  else (acc.1 ++ [line], acc.2)

/-- `_rewrite_authorized_keys_for_revoke`. -/
def rewriteForRevoke (digest : Digest) (existing : List Char) (fingerprint : String) :
    List Char × Bool :=
  let (kept, removed) := (splitlines existing).foldl (revokeLine digest fingerprint) ([], false)
  (joinLines kept, removed)

/-- `push` on a file: the new file and the reported fingerprint. -/
def push (digest : Digest) (existing : List Char) (publicKey label : Line) :
    Except KeyError (List Char × String) := do
  let fingerprint ← fingerprintForPubkey digest publicKey
  let line ← authorizedKeyLine digest publicKey label
  let desired ← rewriteForPush digest existing line
  .ok (desired, fingerprint)

/-- `revoke` on a file: it is written only when a key was removed. -/
def revoke (digest : Digest) (existing : List Char) (fingerprint : String) : List Char :=
  let (desired, removed) := rewriteForRevoke digest existing fingerprint
  if removed then desired else existing

/-! ## runs -/

/-- One call of the agent. -/
inductive Action where
  | push (publicKey label : Line)
  | revoke (fingerprint : String)

/-- The file after a call; a refused push writes nothing. -/
def step (digest : Digest) (file : List Char) : Action → Option (List Char)
  | .push publicKey label =>
    match push digest file publicKey label with
    | .error _ => some file
    | .ok (desired, _) => some desired
  | .revoke fingerprint => some (revoke digest file fingerprint)

/-! ## the two readings -/

/-- The key lines among some lines, up to the blanks around them. -/
def keyLines (ls : List Line) : List Line := (ls.map strip).filter isKeyLine

/-- The keys `sshd` reads: lines end at the line end only. -/
def effectiveKeys (file : List Char) : List Line := keyLines (file.splitOnP (· = '\n'))

/-- The keys the agent reads. -/
def agentKeys (file : List Char) : List Line := keyLines (splitlines file)

/-- Agent and `sshd` read the same keys. -/
def SameReading (file : List Char) : Prop := (agentKeys file).Perm (effectiveKeys file)

/-- What a call may do to the keys `sshd` reads: a push adds at most one, of the
fingerprint it reports, and a revoke adds none. -/
def Confined (digest : Digest) (file : List Char) (a : Action) (file' : List Char) : Prop :=
  match a with
  | .push publicKey label =>
    match push digest file publicKey label with
    | .error _ => file' = file
    | .ok (_, fingerprint) => ∃ added : List Line, added.length ≤ 1 ∧
        (effectiveKeys file').Perm (effectiveKeys file ++ added) ∧
          ∀ l ∈ added, fingerprintForPubkey digest l = .ok fingerprint
  | .revoke _ => (effectiveKeys file').Subperm (effectiveKeys file)

/-- A call that rewrites the file finds its two readings agreed. -/
def RewritesAgreed (digest : Digest) (file : List Char) : Action → Prop
  | .push publicKey label =>
      (∃ line, authorizedKeyLine digest publicKey label = .ok line) → SameReading file
  | .revoke fingerprint =>
      (splitlines file).any (hasFingerprint digest fingerprint) = true → SameReading file

instance : DecidablePred SameReading := fun _ => inferInstanceAs (Decidable (List.Perm _ _))

instance (digest : Digest) (file : List Char) : ∀ a, Decidable (RewritesAgreed digest file a)
  | .push publicKey label =>
      match h : authorizedKeyLine digest publicKey label with
      | .ok line =>
          decidable_of_iff (SameReading file) ⟨fun hsame _ => hsame, fun hsame => hsame ⟨line, h⟩⟩
      | .error _ => .isTrue fun ⟨_, hline⟩ => nomatch h.symm.trans hline
  | .revoke _ => inferInstanceAs (Decidable (_ → _))

/-- A pushed line is read alike by both. -/
def PushesAlike (digest : Digest) : Action → Prop
  | .push publicKey label =>
      ∀ line, authorizedKeyLine digest publicKey label = .ok line → SameReading line
  | .revoke _ => True

variable {digest : Digest}

/-! ## reading back what the agent wrote -/

theorem keyLines_append (a b : List Line) : keyLines (a ++ b) = keyLines a ++ keyLines b := by
  rw [keyLines, List.map_append, List.filter_append]
  rfl

@[simp] theorem keyLines_blank : keyLines [[]] = [] := rfl

/-- `sshd` reads the lines that the agent wrote, if they are single lines. -/
theorem effectiveKeys_joinLines {ls : List Line} (h : ∀ l ∈ ls, '\n' ∉ l) :
    effectiveKeys (joinLines ls) = keyLines ls := by
  have hends : ∀ l ∈ ls, ∀ c ∈ l, decide (c = '\n') = false := by
    intro l hl c hc
    rw [decide_eq_false_iff_not]
    rintro rfl
    exact h l hl hc
  rw [effectiveKeys, splitOnP_joinLines (by decide) hends, keyLines_append, keyLines_blank,
    List.append_nil]

theorem newline_not_mem_splitlines {text : List Char} {l : Line} (h : l ∈ splitlines text) :
    '\n' ∉ l := fun hmem => nomatch not_isLineBreak_of_mem_splitlines h '\n' hmem

/-! ## the pushed line -/

theorem validateSingleLine_ok {value l : Line} {field : String}
    (h : validateSingleLine value field = .ok l) : l = strip value ∧ '\n' ∉ l ∧ '\r' ∉ l := by
  simp only [validateSingleLine, check_bind_eq_ok_iff, raiseIf_eq_ok_iff, Except.ok.injEq,
    List.any_eq_false, Bool.or_eq_true, decide_eq_true_eq] at h
  obtain ⟨-, hchars, rfl⟩ := h
  exact ⟨rfl, fun hmem => hchars _ hmem (Or.inl (Or.inl rfl)),
    fun hmem => hchars _ hmem (Or.inl (Or.inr rfl))⟩

theorem authorizedKeyLine_ok {publicKey label line : Line}
    (h : authorizedKeyLine digest publicKey label = .ok line) :
    line = strip publicKey ++ ' ' :: strip label ∧ '\n' ∉ line ∧ '\r' ∉ line := by
  simp only [authorizedKeyLine, bind_eq_ok_iff, Except.ok.injEq] at h
  obtain ⟨key, hkey, comment, hcomment, -, -, rfl⟩ := h
  obtain ⟨rfl, hkn, hkr⟩ := validateSingleLine_ok hkey
  obtain ⟨rfl, hcn, hcr⟩ := validateSingleLine_ok hcomment
  exact ⟨rfl, by simp [hkn, hcn], by simp [hkr, hcr]⟩

/-- More words behind a key leave its body where it is. -/
theorem keyBody_append {a b : List Line} {body : Line} (h : keyBody a = some body) :
    keyBody (a ++ b) = some body := by
  induction a with
  | nil => cases h
  | cons part a ih =>
      cases a with
      | nil => cases h
      | cons next a =>
          rw [keyBody] at h
          rw [List.cons_append, List.cons_append, keyBody]
          split at h
          · next hkey => rw [if_pos hkey]; exact h
          · next hkey => rw [if_neg hkey]; exact ih h

/-- Blanks around a line do not change its fingerprint. -/
theorem fingerprint_strip (l : Line) :
    fingerprintForPubkey digest (strip l) = fingerprintForPubkey digest l := by
  rw [fingerprintForPubkey, fingerprintForPubkey, split_strip, split_strip]

/-- **The fingerprint of the written line** is the one of the pushed key. -/
theorem fingerprint_authorizedKeyLine {publicKey label line : Line} {fingerprint : String}
    (hline : authorizedKeyLine digest publicKey label = .ok line)
    (hkey : fingerprintForPubkey digest publicKey = .ok fingerprint) :
    fingerprintForPubkey digest line = .ok fingerprint := by
  obtain ⟨rfl, -, -⟩ := authorizedKeyLine_ok hline
  unfold fingerprintForPubkey at hkey ⊢
  rw [split_strip] at hkey ⊢
  rw [split_append_sep (by decide), split_strip]
  cases hbody : keyBody (split publicKey) with
  | none => rw [hbody] at hkey; cases hkey
  | some body =>
      rw [hbody] at hkey
      rw [keyBody_append hbody]
      exact hkey

/-! ## one rewrite -/

theorem push_ok {file desired : List Char} {publicKey label : Line} {fingerprint : String}
    (h : push digest file publicKey label = .ok (desired, fingerprint)) :
    ∃ line, authorizedKeyLine digest publicKey label = .ok line ∧
      fingerprintForPubkey digest line = .ok fingerprint ∧
      desired = joinLines (if (splitlines file).any (hasFingerprint digest fingerprint) then
        splitlines file else splitlines file ++ [line]) := by
  simp only [push, rewriteForPush, bind_eq_ok_iff, Except.ok.injEq, Prod.mk.injEq] at h
  obtain ⟨f, hkey, line, hline, d, ⟨target, htarget, hd⟩, rfl, rfl⟩ := h
  have hfingerprint := fingerprint_authorizedKeyLine hline hkey
  obtain rfl : f = target := Except.ok.inj (hfingerprint.symm.trans htarget)
  refine ⟨line, hline, hfingerprint, ?_⟩
  split at hd
  · next hfound => rw [if_pos hfound]; exact (Except.ok.inj hd).symm
  · next hfound => rw [if_neg hfound]; exact (Except.ok.inj hd).symm

/-- **A push** adds at most its own line to what `sshd` reads. -/
theorem confined_push {file file' : List Char} {publicKey label : Line}
    (hok : RewritesAgreed digest file (.push publicKey label))
    (h : step digest file (.push publicKey label) = some file') :
    Confined digest file (.push publicKey label) file' := by
  simp only [step, Confined] at h ⊢
  cases hpush : push digest file publicKey label with
  | error e =>
      rw [hpush] at h
      exact (Option.some.inj h).symm
  | ok result =>
      obtain ⟨desired, fingerprint⟩ := result
      simp only [hpush, Option.some.injEq] at h ⊢
      subst h
      obtain ⟨line, hline, hfingerprint, rfl⟩ := push_ok hpush
      have hsame : (agentKeys file).Perm (effectiveKeys file) := hok ⟨line, hline⟩
      obtain ⟨-, hnewline, -⟩ := authorizedKeyLine_ok hline
      split
      · -- the key is there already: only the line ends are rewritten
        refine ⟨[], Nat.zero_le 1, ?_, fun l hl => nomatch hl⟩
        rw [effectiveKeys_joinLines fun l hl => newline_not_mem_splitlines hl, List.append_nil]
        exact hsame
      · refine ⟨keyLines [line], ?_, ?_, ?_⟩
        · exact List.length_filter_le _ _
        · rw [effectiveKeys_joinLines, keyLines_append]
          · exact hsame.append_right _
          · intro l hl
            rcases List.mem_append.mp hl with hl | hl
            · exact newline_not_mem_splitlines hl
            · exact List.mem_singleton.mp hl ▸ hnewline
        · intro l hl
          obtain rfl := List.mem_singleton.mp (List.mem_filter.mp hl).1
          rw [fingerprint_strip]
          exact hfingerprint

/-- The revoking loop keeps some of the lines, and reports a removal only of a
line with the fingerprint. -/
theorem foldl_revokeLine (digest : Digest) (fingerprint : String) (lines : List Line)
    (acc : List Line × Bool) :
    ((lines.foldl (revokeLine digest fingerprint) acc).1).Sublist (acc.1 ++ lines) ∧
      ((lines.foldl (revokeLine digest fingerprint) acc).2 = true →
        acc.2 = true ∨ lines.any (hasFingerprint digest fingerprint) = true) := by
  induction lines generalizing acc with
  | nil => exact ⟨by simp, Or.inl⟩
  | cons line lines ih =>
      obtain ⟨hkept, hremoved⟩ := ih (revokeLine digest fingerprint acc line)
      have hstep : (revokeLine digest fingerprint acc line).1.Sublist (acc.1 ++ [line]) := by
        unfold revokeLine
        split
        · dsimp only
          split
          · exact (List.dropLast_sublist _).trans (List.sublist_append_left _ _)
          · exact List.sublist_append_left _ _
        · exact List.Sublist.refl _
      refine ⟨?_, fun h => ?_⟩
      · rw [List.foldl_cons]
        have happend := hkept.trans (hstep.append_right lines)
        rwa [List.append_assoc, List.singleton_append] at happend
      · rw [List.any_cons, Bool.or_eq_true]
        rcases hremoved h with hflag | hlater
        · unfold revokeLine at hflag
          split at hflag
          · next hmatch => exact Or.inr (Or.inl hmatch)
          · exact Or.inl hflag
        · exact Or.inr (Or.inr hlater)

theorem keyLines_sublist {a b : List Line} (h : a.Sublist b) : (keyLines a).Sublist (keyLines b) :=
  (h.map strip).filter isKeyLine

/-- A revoke leaves the file alone, or writes some of its lines when one of them
has the fingerprint. -/
theorem revoke_cases (digest : Digest) (file : List Char) (fingerprint : String) :
    revoke digest file fingerprint = file ∨
      (splitlines file).any (hasFingerprint digest fingerprint) = true ∧
        ∃ kept, kept.Sublist (splitlines file) ∧
          revoke digest file fingerprint = joinLines kept := by
  have hfold := foldl_revokeLine digest fingerprint (splitlines file) ([], false)
  unfold revoke rewriteForRevoke
  cases hresult : (splitlines file).foldl (revokeLine digest fingerprint) ([], false) with
  | mk kept removed =>
      rw [hresult] at hfold
      obtain ⟨hkept, hremoved⟩ := hfold
      cases removed with
      | false => exact Or.inl rfl
      | true => exact Or.inr ⟨(hremoved rfl).resolve_left Bool.false_ne_true, kept, hkept, rfl⟩

/-- **A revoke** adds nothing to what `sshd` reads. -/
theorem confined_revoke {file file' : List Char} {fingerprint : String}
    (hok : RewritesAgreed digest file (.revoke fingerprint))
    (h : step digest file (.revoke fingerprint) = some file') :
    Confined digest file (.revoke fingerprint) file' := by
  obtain rfl := Option.some.inj h
  simp only [Confined]
  rcases revoke_cases digest file fingerprint with hsame | ⟨hany, kept, hkept, hwritten⟩
  · rw [hsame]
  · have hagreed : (agentKeys file).Perm (effectiveKeys file) := hok hany
    rw [hwritten, effectiveKeys_joinLines fun l hl => newline_not_mem_splitlines (hkept.subset hl)]
    exact (keyLines_sublist hkept).subperm.trans hagreed.subperm

/-- **The keys of a file are confined**: in every run of pushes and revokes in
which the agent rewrites only files it reads as `sshd` does, a push adds at most
one effective line, of the fingerprint it reports, and a revoke adds none. -/
theorem rewrites_confined {file : List Char} {as : List Action}
    (hok : Meets (step digest) (RewritesAgreed digest) file as) :
    Along (step digest) (Confined digest) file as := by
  refine along_of_invariant (I := fun _ => True) (fun s a t _ hok ht => ⟨True.intro, ?_⟩)
    True.intro hok
  cases a with
  | push publicKey label => exact confined_push hok ht
  | revoke fingerprint => exact confined_revoke hok ht

/-! ## three keys -/

/-- The digests of three key bodies. -/
def sampleDigest : Digest := fun body =>
  if body = "AAAA".toList then .ok "SHA256:cJ6AyISHokEeHuTfufIqhhSS0gxHZRUMDHlKvXD4FHw"
  else if body = "AAAB".toList then .ok "SHA256:z3YF7RvHNfbIJVVBVGJ0Z+HKyd9UzuhpkhjtQ0YDxWg"
  else if body = "AAAC".toList then .ok "SHA256:ZdJ6SN/vQG249fQ3Qjv6X5yD13v8EvihS4zj7eWJL7U"
  else .error "Incorrect padding"

/-- A file of one CoreLab key. -/
def sampleFile : List Char := "# corelab alice\nssh-ed25519 AAAA alice\n".toList

/-- A label that holds a key behind a line separator. -/
def hiddenLabel : Line := "alice\u2028ssh-ed25519 AAAC x".toList

/-- A second key is pushed and the first one revoked. -/
theorem rewrites_confined_sample :
    Along (step sampleDigest) (Confined sampleDigest) sampleFile
      [.push "ssh-ed25519 AAAB".toList "bob".toList,
        .revoke "SHA256:cJ6AyISHokEeHuTfufIqhhSS0gxHZRUMDHlKvXD4FHw"] :=
  rewrites_confined (by decide +kernel)

/-- The first push into an empty file hides a key in its label; the second one
makes it effective besides its own. -/
theorem rewrites_not_confined :
    ¬ ∀ (digest : Digest) (file : List Char) (as : List Action),
      Along (step digest) (Confined digest) file as := by
  intro hall
  let first : Action := .push "ssh-ed25519 AAAA".toList hiddenLabel
  let second : Action := .push "ssh-ed25519 AAAB".toList "bob".toList
  let file := "ssh-ed25519 AAAA alice\u2028ssh-ed25519 AAAC x\n".toList
  let file' := "ssh-ed25519 AAAA alice\nssh-ed25519 AAAC x\nssh-ed25519 AAAB bob\n".toList
  have hfirst : exec (step sampleDigest) [] [first] = some file := by decide +kernel
  have hsecond : step sampleDigest file second = some file' := by decide +kernel
  have hconfined : Confined sampleDigest file second file' :=
    (hall sampleDigest [] ([first] ++ [second])).step_of_exec hfirst hsecond
  obtain ⟨added, hlength, hperm, -⟩ := hconfined
  have hbefore : (effectiveKeys file).length = 1 := by decide +kernel
  have hafter : (effectiveKeys file').length = 3 := by decide +kernel
  have hgrown := hperm.length_eq
  rw [List.length_append, hbefore, hafter] at hgrown
  omega

/-! ## files that stay confined -/

theorem agentKeys_eq (text : List Char) :
    agentKeys text = keyLines ((crlf text).splitOnP isLineBreak) := by
  unfold agentKeys splitlines cut
  dsimp only
  split
  · next hlast =>
      have hsplit := List.dropLast_append_getLast? [] hlast
      rw [← hsplit, keyLines_append, keyLines_blank, List.append_nil, List.dropLast_concat]
  · rfl

theorem agentKeys_append_newline {line : Line} (h : '\r' ∉ line) :
    agentKeys (line ++ ['\n']) = agentKeys line := by
  have hreturn : '\r' ∉ line ++ ['\n'] := by simpa using h
  rw [agentKeys_eq, agentKeys_eq, crlf_eq_self hreturn, crlf_eq_self h,
    List.splitOnP_append_cons _ _ (by decide), List.splitOnP_nil, keyLines_append, keyLines_blank,
    List.append_nil]

/-- What the agent reads of a file it wrote from its own lines and one more. -/
theorem agentKeys_joinLines {ls : List Line} {line : Line}
    (h : ∀ l ∈ ls, ∀ c ∈ l, isLineBreak c = false) (hline : '\r' ∉ line) :
    agentKeys (joinLines (ls ++ [line])) = keyLines ls ++ agentKeys line := by
  have hjoin : joinLines (ls ++ [line]) = joinLines ls ++ (line ++ ['\n']) := by
    simp [joinLines]
  rw [agentKeys, hjoin, splitlines_joinLines_append h (by simpa using hline), keyLines_append,
    ← agentKeys_append_newline hline]
  rfl

/-- What the agent reads of a file it wrote from its own lines. -/
theorem agentKeys_joinLines_own {ls : List Line} (h : ∀ l ∈ ls, ∀ c ∈ l, isLineBreak c = false) :
    agentKeys (joinLines ls) = keyLines ls := by
  rw [agentKeys, splitlines_joinLines h]

/-- Lines of the agent's own make a file that both read alike. -/
theorem sameReading_joinLines {ls : List Line} (h : ∀ l ∈ ls, ∀ c ∈ l, isLineBreak c = false) :
    SameReading (joinLines ls) := by
  have hnewline : ∀ l ∈ ls, '\n' ∉ l := fun l hl hmem => nomatch h l hl _ hmem
  rw [SameReading, agentKeys_joinLines_own h, effectiveKeys_joinLines hnewline]

theorem sameReading_step {file file' : List Char} {a : Action} (hfile : SameReading file)
    (hok : PushesAlike digest a) (h : step digest file a = some file') : SameReading file' := by
  cases a with
  | revoke fingerprint =>
      obtain rfl := Option.some.inj h
      rcases revoke_cases digest file fingerprint with hsame | ⟨-, kept, hkept, hwritten⟩
      · exact hsame.symm ▸ hfile
      · rw [hwritten]
        exact sameReading_joinLines fun l hl => not_isLineBreak_of_mem_splitlines (hkept.subset hl)
  | push publicKey label =>
      simp only [step] at h
      split at h
      · exact Option.some.inj h ▸ hfile
      · next desired fingerprint hpush =>
          obtain rfl := Option.some.inj h
          obtain ⟨line, hline, -, rfl⟩ := push_ok hpush
          obtain ⟨-, hnewline, hcr⟩ := authorizedKeyLine_ok hline
          have hown : ∀ l ∈ splitlines file, ∀ c ∈ l, isLineBreak c = false := fun l hl =>
            not_isLineBreak_of_mem_splitlines hl
          split
          · exact sameReading_joinLines hown
          · have halike : (agentKeys line).Perm (effectiveKeys line) := hok line hline
            have hsingle : effectiveKeys line = keyLines [line] := by
              rw [effectiveKeys, List.splitOnP_eq_singleton]
              intro c hc
              rw [decide_eq_false_iff_not]
              exact fun he => hnewline (he ▸ hc)
            have hread : ∀ l ∈ splitlines file ++ [line], '\n' ∉ l := by
              intro l hl
              rcases List.mem_append.mp hl with hl | hl
              · exact newline_not_mem_splitlines hl
              · exact List.mem_singleton.mp hl ▸ hnewline
            rw [SameReading, agentKeys_joinLines hown hcr, effectiveKeys_joinLines hread,
              keyLines_append, ← hsingle]
            exact halike.append_left _

/-- **Files stay confined**: a file that agent and `sshd` read alike is read
alike after every run of revokes and of pushes of lines that are read alike. -/
theorem sameReading_exec {file file' : List Char} {as : List Action} (hfile : SameReading file)
    (hok : Meets (step digest) (fun _ => PushesAlike digest) file as)
    (h : exec (step digest) file as = some file') : SameReading file' :=
  exec_invariant (fun _ _ _ hI hok ht => sameReading_step hI hok ht) hfile hok h

end AuthorizedKeys

end CoreLab
