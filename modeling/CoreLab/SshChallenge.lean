import CoreLab.AgentRpc
import CoreLab.Lib.Transition
import CoreLab.Models
import Mathlib

/-!
# CoreLab.SshChallenge

The SSH challenge protocol: a challenge is minted for a user, a server, an
account and a key, spent by `verify` or by an upgrade of a declared link, and its
nonce checked by the agent against the `authorized_keys` of the account.

* `signedBytes_ne_fedBytes` — what the returned command signs is never what the
  agent checks;
* `exclusive_step` — a challenge is in Redis, with one request, or spent on one
  link;
* `protocol_run` — a link is of the user and the account of its challenge, after
  a signature over its nonce; the key is the one of the challenge only where the
  signer used it.
-/

namespace CoreLab

open Relational Transition AgentHost

namespace SshChallenge

/-! ## the bytes that are signed -/

/-- What `secrets.token_urlsafe(32)` returns. -/
structure Nonce where
  text : List Char
  urlSafe : ∀ c ∈ text, c.isAlphanum ∨ c = '-' ∨ c = '_'
  nonempty : text ≠ []

/-- `SIGNING_NAMESPACE`. -/
def signingNamespace : String := "corelab"

/-- `_sign_command`. -/
def signCommand (nonce : String) : String :=
  "echo \"" ++ nonce ++ "\" | ssh-keygen -Y sign -n " ++ signingNamespace ++ " -f ~/.ssh/id_ed25519"

/-- The word that a command has between its double quotes. -/
def quotedWord (command : List Char) : List Char :=
  ((command.dropWhile (· ≠ '"')).drop 1).takeWhile (· ≠ '"')

/-- An operand that the shell's `echo` takes for options. -/
def isEchoOption : List Char → Bool
  | '-' :: c :: cs => (c :: cs).all fun c => c = 'n' || c = 'e' || c = 'E'
  | _ => false

/-- What `echo` prints of one operand. -/
def echo (word : List Char) : List Char :=
  if isEchoOption word then if 'n' ∈ word then [] else ['\n'] else word ++ ['\n']

/-- The bytes that the returned command pipes into `ssh-keygen -Y sign`. -/
def signedBytes (nonce : Nonce) : ByteArray :=
  (String.ofList (echo (quotedWord (signCommand (String.ofList nonce.text)).toList))).toUTF8

/-- The bytes that the agent feeds to `ssh-keygen -Y verify`: the nonce file. -/
def fedBytes (nonce : String) : ByteArray := nonce.toUTF8

theorem quotedWord_signCommand (nonce : Nonce) :
    quotedWord (signCommand (String.ofList nonce.text)).toList = nonce.text := by
  have hquote : ∀ c ∈ nonce.text, decide (c ≠ '"') = true := by
    intro c hc
    rcases nonce.urlSafe c hc with halnum | rfl | rfl
    · refine decide_eq_true ?_
      rintro rfl
      exact absurd halnum (by decide)
    · decide
    · decide
  have hlist : (signCommand (String.ofList nonce.text)).toList =
      "echo ".toList ++ '"' :: (nonce.text ++ '"' ::
        " | ssh-keygen -Y sign -n corelab -f ~/.ssh/id_ed25519".toList) := by
    simp [signCommand, signingNamespace]
  have hdrop : ∀ l, (("echo ".toList ++ '"' :: l).dropWhile (· ≠ '"')).drop 1 = l := fun _ => rfl
  rw [quotedWord, hlist, hdrop, List.takeWhile_append_of_pos hquote]
  exact List.append_nil _

/-- `echo` prints something else than its operand. -/
theorem echo_ne {word : List Char} (h : word ≠ []) : echo word ≠ word := by
  unfold echo
  split
  · next hoption =>
      split
      · exact h.symm
      · rintro rfl
        cases hoption
  · intro heq
    have hlength := congrArg List.length heq
    rw [List.length_append, List.length_singleton] at hlength
    omega

/-- **The returned command signs other bytes** than the agent checks, for every nonce. -/
theorem signedBytes_ne_fedBytes (nonce : Nonce) :
    signedBytes nonce ≠ fedBytes (String.ofList nonce.text) := by
  intro heq
  rw [signedBytes, fedBytes, quotedWord_signCommand, String.toUTF8_eq_toByteArray,
    String.toUTF8_eq_toByteArray, String.toByteArray_inj] at heq
  exact echo_ne nonce.nonempty (String.ofList_injective heq)

/-! ## ssh-keygen -/

/-- A fingerprint: `SHA256:` and base64. -/
structure Fingerprint where
  body : List Char
  base64 : ∀ c ∈ body, (c.isAlphanum || c = '+' || c = '/' || c = '=') = true
  nonempty : body ≠ []
deriving DecidableEq

def Fingerprint.text (f : Fingerprint) : String := "SHA256:" ++ String.ofList f.body

/-- What a signature is over, and the key it was made with. -/
structure Signed where
  message : ByteArray
  ns : String
  key : Fingerprint

/-- The signature format: what an armored text is the signature of. -/
abbrev SignatureFormat := String → Option Signed

/-- `ssh-keygen -Y verify` accepts exactly the signatures over the bytes it is fed, in
the namespace, by a key of the `authorized_keys` file. -/
def sshKeygenVerify (format : SignatureFormat) (authorizedKeys : List Fingerprint) (ns : String)
    (input : ByteArray) (signatureArmored : String) : Option Fingerprint :=
  (format signatureArmored).bind fun s =>
    if s.message = input ∧ s.ns = ns ∧ s.key ∈ authorizedKeys then some s.key else none

/-- What it prints of a good signature, up to the fingerprint. -/
def verdict : List Char := "Good \"corelab\" signature with ED25519 key ".toList

/-- What it prints of a good signature. -/
def goodSignature (key : Fingerprint) : String :=
  String.ofList (verdict ++ ("SHA256:".toList ++ (key.body ++ ['\n'])))

/-- The host of the agent while it checks a signature: its one command is
`ssh-keygen -Y verify`. -/
def verifyHost (h : Host) (format : SignatureFormat) (authorizedKeys : List Fingerprint)
    (nonce ns signatureArmored : String) : Host :=
  { h with run := fun _ =>
      match sshKeygenVerify format authorizedKeys ns (fedBytes nonce) signatureArmored with
      | some key => .ok { returncode := 0, stdout := goodSignature key }
      | none => .ok { returncode := 255, stderr := "Signature verification failed" } }

theorem findSome?_tails_append {β : Type} {g : List Char → Option β} {pre post : List Char}
    (h : ∀ c ∈ pre, ∀ t, g (c :: t) = none) :
    (pre ++ post).tails.findSome? g = post.tails.findSome? g := by
  induction pre with
  | nil => rfl
  | cons c pre ih =>
      rw [List.cons_append, List.tails, List.findSome?_cons, h c List.mem_cons_self]
      exact ih fun d hd => h d (List.mem_cons_of_mem c hd)

theorem findSome?_tails_of_head {β : Type} {g : List Char → Option β} {l : List Char} {b : β}
    (h : g l = some b) : l.tails.findSome? g = some b := by
  cases l with
  | nil => rw [List.tails, List.findSome?_cons, h]
  | cons c l => rw [List.tails, List.findSome?_cons, h]

/-- The agent finds the fingerprint in what `ssh-keygen` prints. -/
theorem parseFingerprint_goodSignature (key : Fingerprint) :
    parseFingerprint (goodSignature key) = some key.text := by
  have hpre : ∀ c ∈ verdict, c ≠ 'S' := by
    have hall : verdict.all (· ≠ 'S') = true := by decide +kernel
    exact fun c hc => of_decide_eq_true (List.all_eq_true.mp hall c hc)
  have hlist : (goodSignature key).toList =
      verdict ++ ("SHA256:".toList ++ (key.body ++ ['\n'])) := String.toList_ofList
  rw [parseFingerprint, hlist, findSome?_tails_append]
  · apply findSome?_tails_of_head
    have hstarts : "SHA256:".toList.isPrefixOf ("SHA256:".toList ++ (key.body ++ ['\n'])) = true :=
      List.isPrefixOf_iff_prefix.mpr (List.prefix_append _ _)
    have hdrop : ("SHA256:".toList ++ (key.body ++ ['\n'])).drop 7 = key.body ++ ['\n'] := rfl
    rw [if_pos hstarts, hdrop, List.takeWhile_append_of_pos key.base64]
    have htail : ['\n'].takeWhile (fun c => c.isAlphanum || c = '+' || c = '/' || c = '=') = [] := by
      decide
    rw [htail, List.append_nil]
    cases hbody : key.body with
    | nil => exact absurd hbody key.nonempty
    | cons c cs => simp only [Fingerprint.text, hbody]
  · intro c hc t
    have hne : ('S' == c) = false := beq_eq_false_iff_ne.mpr (hpre c hc).symm
    have hstarts : "SHA256:".toList.isPrefixOf (c :: t) = false := by
      have hhead : "SHA256:".toList.isPrefixOf (c :: t) =
          ('S' == c && "HA256:".toList.isPrefixOf t) := rfl
      rw [hhead, hne, Bool.false_and]
    rw [if_neg (by rw [hstarts]; decide)]

/-- A check that the agent makes and that succeeds had a signature over its nonce. -/
theorem verifySig_ok {a : Agent} {h : Host} {format : SignatureFormat}
    {authorizedKeys : List Fingerprint} {linuxUsername nonce ns signatureArmored : String}
    {r : VerifyResult} (hmock : a.mockMode = false)
    (hr : verifySig a (verifyHost h format authorizedKeys nonce ns signatureArmored) linuxUsername
      nonce ns signatureArmored = .ok r) (hok : r.ok = true) :
    ∃ s, format signatureArmored = some s ∧ s.message = fedBytes nonce ∧
      s.key ∈ authorizedKeys ∧ r.signerFingerprint = some s.key.text := by
  simp only [verifySig, hmock, Bool.false_eq_true, if_false, Loops.bind_eq_ok_iff,
    verifyHost] at hr
  obtain ⟨-, -, -, -, sigFile, -, -, -, hr⟩ := hr
  cases hkeygen : sshKeygenVerify format authorizedKeys ns (fedBytes nonce) signatureArmored with
  | none =>
      -- a signature that is refused is reported as such
      rw [hkeygen] at hr
      obtain rfl := Except.ok.inj hr
      cases hok
  | some key =>
      rw [hkeygen] at hr
      obtain rfl := Except.ok.inj hr
      obtain ⟨s, hs, hkey⟩ := Option.bind_eq_some_iff.mp hkeygen
      split at hkey
      · next haccepted =>
          obtain rfl := Option.some.inj hkey
          refine ⟨s, hs, haccepted.1, haccepted.2.2, ?_⟩
          simp only [parseFingerprint_goodSignature]
          rfl
      · cases hkey

/-! ## the protocol -/

/-- The columns of `ssh_public_key` that the protocol reads. -/
structure SshPublicKey where
  id : Nat
  userId : Nat
  fingerprint : String
  isActive : Bool
deriving DecidableEq, Repr

instance : Keyed SshPublicKey := ⟨SshPublicKey.id⟩

/-- What Redis keeps under the id of a challenge. -/
structure ChallengeContext where
  userId : Nat
  serverId : Nat
  physicalAccountId : Nat
  sshPublicKeyId : Nat
  nonce : String
deriving DecidableEq, Repr

/-- Where a request is; it holds the challenge that it has spent. -/
inductive Phase where
  | received
  | consumed (ctx : ChallengeContext)
  /-- The agent accepted the signature, and reported the signer. -/
  | verified (ctx : ChallengeContext) (signerFingerprint : Option String)
  | answered
deriving DecidableEq, Repr

/-- The challenge a request holds. -/
def Phase.context? : Phase → Option ChallengeContext
  | consumed ctx | verified ctx _ => some ctx
  | received | answered => none

/-- A `verify` request, or an upgrade of the user's declared link to an account. -/
structure Request where
  id : Nat
  userId : Nat
  challengeId : String
  signatureArmored : String
  upgrades : Option Nat
  phase : Phase
deriving DecidableEq, Repr

instance : Keyed Request := ⟨Request.id⟩

/-- A link that was established through a challenge. -/
structure Established where
  userId : Nat
  physicalAccountId : Nat
  challengeId : String
  signerFingerprint : String
deriving DecidableEq, Repr

/-- `minted` keeps every challenge there ever was; only the choice of fresh ids
reads it. -/
structure World where
  db : Db
  keys : Table SshPublicKey
  redis : Dict String ChallengeContext
  minted : Dict String ChallengeContext
  requests : Table Request
  links : List Established

/-- One atomic step; `establish` has the database's answer, which refuses a link
that is active already or, for an upgrade, none or no declared one to flip. -/
inductive Action where
  | challenge (userId labId serverId : Nat) (linuxUsername : String) (sshPublicKeyId : Nat)
      (challengeId : String) (nonce : Nonce)
  | expire (challengeId : String)
  | verify (userId : Nat) (challengeId signatureArmored : String)
  | upgrade (userId linkId : Nat) (challengeId signatureArmored : String)
  | consume (request : Nat)
  | agentChecks (request : Nat) (a : Agent) (h : Host) (authorizedKeys : List Fingerprint)
  | rpcFails (request : Nat)
  | establish (request : Nat) (accepted : Bool)
  | commit (db : Db) (keys : Table SshPublicKey)

namespace World

/-- `mint`, after the checks of `create_challenge`: the server, an active account of
it, and a key that is active in the user's profile. -/
def challenge (w : World) (userId labId serverId : Nat) (linuxUsername : String)
    (sshPublicKeyId : Nat) (challengeId : String) (nonce : Nonce) : Option World := do
  let server ← w.db.servers.get? serverId
  let account ← w.db.physicalAccounts.rows.find? fun p =>
    p.serverId = serverId && p.linuxUsername = linuxUsername && p.isActive
  let key ← w.keys.get? sshPublicKeyId
  if server.labId = labId ∧ key.userId = userId ∧ key.isActive = true ∧
      w.minted.get? challengeId = none then
    let ctx : ChallengeContext :=
      { userId := userId, serverId := serverId, physicalAccountId := account.id
        sshPublicKeyId := sshPublicKeyId, nonce := String.ofList nonce.text }
    some { w with redis := w.redis.set challengeId ctx, minted := w.minted.set challengeId ctx }
  else none

/-- A request arrives. -/
def receive (w : World) (userId : Nat) (challengeId signatureArmored : String)
    (upgrades : Option Nat) : World :=
  { w with requests := w.requests.append ⟨fun id =>
      { id := id, userId := userId, challengeId := challengeId, signatureArmored := signatureArmored
        upgrades := upgrades, phase := .received }, fun _ => rfl⟩ }

/-- A request goes on. -/
def moveTo (w : World) (r : Request) (phase : Phase) : World :=
  { w with requests := w.requests.put { r with phase := phase } }

/-- `consume`: the challenge is taken out whoever asks; an upgrade is refused that
spent the challenge of another account. -/
def consume (w : World) (r : Request) : World :=
  match w.redis.get? r.challengeId with
  | none => w.moveTo r .answered
  | some ctx =>
    let w := { w with redis := w.redis.erase r.challengeId }
    if ctx.userId ≠ r.userId then w.moveTo r .answered
    else if r.upgrades.all (· = ctx.physicalAccountId) then w.moveTo r (.consumed ctx)
    else w.moveTo r .answered

/-- `backend.ssh.verify_sig`, answered by the agent `a` of the server. -/
def agentChecks (format : SignatureFormat) (w : World) (r : Request) (ctx : ChallengeContext)
    (a : Agent) (h : Host) (authorizedKeys : List Fingerprint) : World :=
  match w.db.physicalAccounts.get? ctx.physicalAccountId with
  | none => w.moveTo r .answered
  | some account =>
    match verifySig a
      (verifyHost h format authorizedKeys ctx.nonce signingNamespace r.signatureArmored)
      account.linuxUsername ctx.nonce signingNamespace r.signatureArmored with
    | .error _ => w.moveTo r .answered
    | .ok result =>
      if result.ok then w.moveTo r (.verified ctx result.signerFingerprint)
      else w.moveTo r .answered

/-- `establish_via_ssh_challenge`, and the flip of an upgrade; a response without a
fingerprint does not validate, which rolls the link back. -/
def establish (w : World) (r : Request) (ctx : ChallengeContext) (fingerprint : Option String)
    (accepted : Bool) : World :=
  match fingerprint, accepted with
  | some fingerprint, true =>
    { w.moveTo r .answered with links := w.links ++
        [{ userId := if r.upgrades.isSome then r.userId else ctx.userId
           physicalAccountId := ctx.physicalAccountId, challengeId := r.challengeId
           signerFingerprint := fingerprint }] }
  | _, _ => w.moveTo r .answered

/-- Keys keep their owner and their fingerprint. -/
def keepsKeys (keys keys' : Table SshPublicKey) : Bool :=
  keys.rows.all fun k => (keys'.get? k.id).any fun k' =>
    k'.userId = k.userId && k'.fingerprint = k.fingerprint

/-- One step. -/
def step (format : SignatureFormat) (w : World) : Action → Option World
  | .challenge userId labId serverId linuxUsername sshPublicKeyId challengeId nonce =>
    w.challenge userId labId serverId linuxUsername sshPublicKeyId challengeId nonce
  | .expire challengeId => some { w with redis := w.redis.erase challengeId }
  | .verify userId challengeId signatureArmored =>
    some (w.receive userId challengeId signatureArmored none)
  | .upgrade userId linkId challengeId signatureArmored =>
    (w.db.accountLinks.get? linkId).bind fun link =>
      if link.userId = userId ∧ link.source = .adminDeclared then
        some (w.receive userId challengeId signatureArmored (some link.physicalAccountId))
      else none
  | .consume request => (w.requests.get? request).bind fun r =>
    if r.phase = .received then some (w.consume r) else none
  | .agentChecks request a h authorizedKeys => (w.requests.get? request).bind fun r =>
    match r.phase with
    | .consumed ctx => some (w.agentChecks format r ctx a h authorizedKeys)
    | _ => none
  | .rpcFails request => (w.requests.get? request).bind fun r =>
    match r.phase with
    | .consumed _ => some (w.moveTo r .answered)
    | _ => none
  | .establish request accepted => (w.requests.get? request).bind fun r =>
    match r.phase with
    | .verified ctx fingerprint => some (w.establish r ctx fingerprint accepted)
    | _ => none
  | .commit db keys => if keepsKeys w.keys keys then some { w with db := db, keys := keys } else none

end World

open World

/-! ## the property and its condition -/

/-- A link that a request may establish: its user and account are those of the
challenge, whose nonce was signed with the key of the challenge, active in the
profile of its user; and no link came from the challenge before. -/
structure Legit (format : SignatureFormat) (w : World) (r : Request) (l : Established) : Prop where
  bound : ∃ m, w.minted.get? l.challengeId = some m ∧ l.userId = m.userId ∧
    l.physicalAccountId = m.physicalAccountId ∧
    ∃ s key, format r.signatureArmored = some s ∧ s.message = fedBytes m.nonce ∧
      w.keys.get? m.sshPublicKeyId = some key ∧ key.userId = m.userId ∧ key.isActive = true ∧
      s.key.text = key.fingerprint
  once : ∀ k ∈ w.links, k.challengeId ≠ l.challengeId

/-- Every link is established by a request that may do so. -/
def Sound (format : SignatureFormat) (w : World) (a : Action) (w' : World) : Prop :=
  w'.links = w.links ∨ ∃ request accepted r l, a = .establish request accepted ∧
    w.requests.get? request = some r ∧ w'.links = w.links ++ [l] ∧ Legit format w r l

/-- The agent does check signatures, and a link is established only with the key of
its challenge, while it is active. -/
def BoundKey (format : SignatureFormat) (w : World) : Action → Prop
  | .agentChecks _ a _ _ => a.mockMode = false
  | .establish request _ => ∀ r ∈ w.requests.get? request, ∀ ctx ∈ r.phase.context?,
      ∀ s ∈ format r.signatureArmored, ∀ key ∈ w.keys.get? ctx.sshPublicKeyId,
        s.key.text = key.fingerprint ∧ key.isActive = true
  | _ => True

instance (format : SignatureFormat) (w : World) : ∀ a, Decidable (BoundKey format w a)
  | .agentChecks _ a _ _ => inferInstanceAs (Decidable (a.mockMode = false))
  | .establish request _ => inferInstanceAs (Decidable (∀ r ∈ w.requests.get? request,
      ∀ ctx ∈ r.phase.context?, ∀ s ∈ format r.signatureArmored,
        ∀ key ∈ w.keys.get? ctx.sshPublicKeyId,
          s.key.text = key.fingerprint ∧ key.isActive = true))
  | .challenge .. | .expire _ | .verify .. | .upgrade .. | .consume _ | .rpcFails _
  | .commit _ _ => .isTrue True.intro

/-- No challenge was minted yet. -/
def Started (w : World) : Prop :=
  w.redis.entries = [] ∧ w.minted.entries = [] ∧ w.requests.rows = [] ∧ w.links = []

/-! ## one challenge, one holder -/

/-- Where the challenges are: in Redis, with the one request that has spent it, or
behind a link. -/
structure Exclusive (format : SignatureFormat) (w : World) : Prop where
  redis : ∀ c m, w.redis.get? c = some m → w.minted.get? c = some m
  key : ∀ c m, w.minted.get? c = some m →
    ∃ key, w.keys.get? m.sshPublicKeyId = some key ∧ key.userId = m.userId
  held : ∀ id r ctx, w.requests.get? id = some r → r.phase.context? = some ctx →
    w.minted.get? r.challengeId = some ctx ∧ ctx.userId = r.userId ∧ w.redis.get? r.challengeId = none
  single : ∀ id id' r r', w.requests.get? id = some r → w.requests.get? id' = some r' →
    r.phase.context?.isSome → r'.phase.context?.isSome → r.challengeId = r'.challengeId → id = id'
  spent : ∀ l ∈ w.links, (w.minted.get? l.challengeId).isSome ∧ w.redis.get? l.challengeId = none ∧
    ∀ id r, w.requests.get? id = some r → r.phase.context?.isSome → r.challengeId ≠ l.challengeId
  signed : ∀ id r ctx fp, w.requests.get? id = some r → r.phase = .verified ctx fp →
    ∃ s, format r.signatureArmored = some s ∧ s.message = fedBytes ctx.nonce

section Steps

variable {format : SignatureFormat} {w w' : World} {r : Request}

theorem get?_moveTo (hr : w.requests.get? r.id = some r) (phase : Phase) (k : Nat) :
    (w.moveTo r phase).requests.get? k =
      if k = r.id then some { r with phase := phase } else w.requests.get? k := by
  have hput : (w.requests.put { r with phase := phase }).get? r.id = some { r with phase := phase } :=
    Table.get?_put_self hr
  split
  · next hk =>
      subst hk
      exact hput
  · next hk =>
      have hne : Keyed.key { r with phase := phase } ≠ k := Ne.symm hk
      exact Table.get?_put_ne hne

/-- A request goes on with the challenge it holds, or without it. -/
theorem Exclusive.moveTo {phase : Phase} (h : Exclusive format w)
    (hr : w.requests.get? r.id = some r)
    (hphase : ∀ ctx, phase.context? = some ctx → r.phase.context? = some ctx)
    (hsigned : ∀ ctx fp, phase = .verified ctx fp →
      ∃ s, format r.signatureArmored = some s ∧ s.message = fedBytes ctx.nonce) :
    Exclusive format (w.moveTo r phase) := by
  have hget := get?_moveTo hr phase
  -- what holds a challenge now did so before, under the same id
  have hbefore : ∀ k q, (w.moveTo r phase).requests.get? k = some q → ∀ ctx, q.phase.context? = some ctx →
      ∃ p, w.requests.get? k = some p ∧ p.challengeId = q.challengeId ∧ p.userId = q.userId ∧
        p.phase.context? = some ctx := by
    intro k q hq ctx hctx
    rw [hget] at hq
    split at hq
    · next hk =>
        obtain rfl := Option.some.inj hq
        exact ⟨r, hk ▸ hr, rfl, rfl, hphase ctx hctx⟩
    · exact ⟨q, hq, rfl, rfl, hctx⟩
  refine ⟨h.redis, h.key, fun k q ctx hq hctx => ?_, fun k k' q q' hq hq' hs hs' heq => ?_,
    fun l hl => ?_, fun k q ctx fp hq hverified => ?_⟩
  · obtain ⟨p, hp, hchallenge, huser, hpctx⟩ := hbefore k q hq ctx hctx
    exact hchallenge ▸ huser ▸ h.held k p ctx hp hpctx
  · obtain ⟨ctx, hctx⟩ := Option.isSome_iff_exists.mp hs
    obtain ⟨ctx', hctx'⟩ := Option.isSome_iff_exists.mp hs'
    obtain ⟨p, hp, hchallenge, -, hpctx⟩ := hbefore k q hq ctx hctx
    obtain ⟨p', hp', hchallenge', -, hpctx'⟩ := hbefore k' q' hq' ctx' hctx'
    exact h.single k k' p p' hp hp' (by rw [hpctx]; rfl) (by rw [hpctx']; rfl)
      (hchallenge.trans (heq.trans hchallenge'.symm))
  · obtain ⟨hminted, hredis, hfree⟩ := h.spent l hl
    refine ⟨hminted, hredis, fun k q hq hs => ?_⟩
    obtain ⟨ctx, hctx⟩ := Option.isSome_iff_exists.mp hs
    obtain ⟨p, hp, hchallenge, -, hpctx⟩ := hbefore k q hq ctx hctx
    exact hchallenge ▸ hfree k p hp (by rw [hpctx]; rfl)
  · rw [hget] at hq
    split at hq
    · obtain rfl := Option.some.inj hq
      exact hsigned ctx fp hverified
    · exact h.signed k q ctx fp hq hverified

theorem Exclusive.answered (h : Exclusive format w) (hr : w.requests.get? r.id = some r) :
    Exclusive format (w.moveTo r .answered) :=
  h.moveTo hr (fun _ hctx => nomatch hctx) fun _ _ hv => nomatch hv

/-- A challenge is gone from Redis, unspent. -/
theorem Exclusive.erase (h : Exclusive format w) (c : String) :
    Exclusive format { w with redis := w.redis.erase c } := by
  have hnone : ∀ d, w.redis.get? d = none → (w.redis.erase c).get? d = none := by
    intro d hd
    rw [Dict.get?_erase]
    split
    · rfl
    · exact hd
  refine ⟨fun d m hm => ?_, h.key, fun k q ctx hq hctx => ?_, h.single, fun l hl => ?_, h.signed⟩
  · rw [Dict.get?_erase] at hm
    split at hm
    · cases hm
    · exact h.redis d m hm
  · obtain ⟨hminted, huser, hredis⟩ := h.held k q ctx hq hctx
    exact ⟨hminted, huser, hnone _ hredis⟩
  · obtain ⟨hminted, hredis, hfree⟩ := h.spent l hl
    exact ⟨hminted, hnone _ hredis, hfree⟩

/-- A fresh challenge. -/
theorem Exclusive.mint {c : String} {m : ChallengeContext} {key : SshPublicKey}
    (h : Exclusive format w) (hfresh : w.minted.get? c = none)
    (hkey : w.keys.get? m.sshPublicKeyId = some key) (huser : key.userId = m.userId) :
    Exclusive format { w with redis := w.redis.set c m, minted := w.minted.set c m } := by
  have hminted : ∀ d n, w.minted.get? d = some n → d ≠ c := by
    rintro d n hd rfl
    rw [hfresh] at hd
    cases hd
  refine ⟨fun d n hn => ?_, fun d n hn => ?_, fun k q ctx hq hctx => ?_, h.single, fun l hl => ?_,
    h.signed⟩
  · rw [Dict.get?_set] at hn ⊢
    split
    · next hd => rwa [if_pos hd] at hn
    · next hd => exact h.redis d n (by rwa [if_neg hd] at hn)
  · rw [Dict.get?_set] at hn
    split at hn
    · obtain rfl := Option.some.inj hn
      exact ⟨key, hkey, huser⟩
    · exact h.key d n hn
  · obtain ⟨hm, hu, hredis⟩ := h.held k q ctx hq hctx
    have hne := hminted _ _ hm
    exact ⟨(Dict.get?_set ..).trans ((if_neg hne).trans hm), hu,
      (Dict.get?_set ..).trans ((if_neg hne).trans hredis)⟩
  · obtain ⟨hm, hredis, hfree⟩ := h.spent l hl
    obtain ⟨n, hn⟩ := Option.isSome_iff_exists.mp hm
    have hne := hminted _ _ hn
    refine ⟨?_, (Dict.get?_set ..).trans ((if_neg hne).trans hredis), hfree⟩
    exact Option.isSome_iff_exists.mpr ⟨n, (Dict.get?_set ..).trans ((if_neg hne).trans hn)⟩

/-- A request that arrives holds nothing yet. -/
theorem Exclusive.receive (h : Exclusive format w) (userId : Nat) (challengeId signatureArmored : String)
    (upgrades : Option Nat) : Exclusive format (w.receive userId challengeId signatureArmored upgrades) := by
  have hbefore : ∀ k q, (w.receive userId challengeId signatureArmored upgrades).requests.get? k = some q →
      q.phase = .received ∨ w.requests.get? k = some q := by
    intro k q hq
    obtain ⟨hmem, hid⟩ := Table.get?_eq_some_iff.mp hq
    rcases List.mem_append.mp hmem with hold | hnew
    · exact Or.inr (Table.get?_eq_some_iff.mpr ⟨hold, hid⟩)
    · exact Or.inl (List.mem_singleton.mp hnew ▸ rfl)
  have hheld : ∀ k q, (w.receive userId challengeId signatureArmored upgrades).requests.get? k = some q →
      q.phase.context?.isSome → w.requests.get? k = some q := by
    intro k q hq hs
    refine (hbefore k q hq).resolve_left fun hphase => ?_
    rw [hphase] at hs
    cases hs
  refine ⟨h.redis, h.key, fun k q ctx hq hctx => ?_, fun k k' q q' hq hq' hs hs' => ?_, fun l hl => ?_,
    fun k q ctx fp hq hverified => ?_⟩
  · exact h.held k q ctx (hheld k q hq (by rw [hctx]; rfl)) hctx
  · exact h.single k k' q q' (hheld k q hq hs) (hheld k' q' hq' hs') hs hs'
  · obtain ⟨hminted, hredis, hfree⟩ := h.spent l hl
    exact ⟨hminted, hredis, fun k q hq hs => hfree k q (hheld k q hq hs) hs⟩
  · exact h.signed k q ctx fp (hheld k q hq (by rw [hverified]; rfl)) hverified

/-- A request takes a challenge out of Redis. -/
theorem Exclusive.take {ctx : ChallengeContext} (h : Exclusive format w)
    (hr : w.requests.get? r.id = some r)
    (hctx : w.redis.get? r.challengeId = some ctx) (huser : ctx.userId = r.userId) :
    Exclusive format (({ w with redis := w.redis.erase r.challengeId } : World).moveTo r (.consumed ctx)) := by
  have herased := h.erase r.challengeId
  have hget := get?_moveTo (w := { w with redis := w.redis.erase r.challengeId }) hr (.consumed ctx)
  have hgone : (w.redis.erase r.challengeId).get? r.challengeId = none :=
    (Dict.get?_erase ..).trans (if_pos rfl)
  -- no other request holds a challenge that is in Redis
  have hother : ∀ k q, w.requests.get? k = some q → q.phase.context?.isSome →
      q.challengeId ≠ r.challengeId := by
    intro k q hq hs heq
    obtain ⟨ctx', hctx'⟩ := Option.isSome_iff_exists.mp hs
    have hredis := (h.held k q ctx' hq hctx').2.2
    rw [heq, hctx] at hredis
    cases hredis
  refine ⟨herased.redis, h.key, fun k q ctx' hq hctx' => ?_, fun k k' q q' hq hq' hs hs' heq => ?_,
    fun l hl => ?_, fun k q ctx' fp hq hverified => ?_⟩
  · rw [hget] at hq
    split at hq
    · obtain rfl := Option.some.inj hq
      obtain rfl := Option.some.inj hctx'
      exact ⟨h.redis _ _ hctx, huser, hgone⟩
    · exact herased.held k q ctx' hq hctx'
  · rw [hget] at hq hq'
    split at hq <;> split at hq'
    · next hk hk' => rw [hk, hk']
    · obtain rfl := Option.some.inj hq
      exact absurd heq.symm (hother k' q' hq' hs')
    · obtain rfl := Option.some.inj hq'
      exact absurd heq (hother k q hq hs)
    · exact h.single k k' q q' hq hq' hs hs' heq
  · obtain ⟨hminted, hredis, hfree⟩ := herased.spent l hl
    refine ⟨hminted, hredis, fun k q hq hs => ?_⟩
    rw [hget] at hq
    split at hq
    · obtain rfl := Option.some.inj hq
      rintro heq
      have hspent := (h.spent l hl).2.1
      rw [← show r.challengeId = l.challengeId from heq, hctx] at hspent
      cases hspent
    · exact hfree k q hq hs
  · rw [hget] at hq
    split at hq
    · obtain rfl := Option.some.inj hq
      cases hverified
    · exact h.signed k q ctx' fp hq hverified

theorem Exclusive.consume (h : Exclusive format w) (hr : w.requests.get? r.id = some r) :
    Exclusive format (w.consume r) := by
  unfold World.consume
  split
  · exact h.answered hr
  · next ctx hctx =>
      dsimp only
      split
      · exact (h.erase r.challengeId).answered hr
      · next huser =>
          split
          · exact h.take hr hctx (not_not.mp huser)
          · exact (h.erase r.challengeId).answered hr

theorem Exclusive.agentChecks {ctx : ChallengeContext} {a : Agent} {host : Host}
    {authorizedKeys : List Fingerprint} (h : Exclusive format w) (hmock : a.mockMode = false)
    (hr : w.requests.get? r.id = some r) (hphase : r.phase = .consumed ctx) :
    Exclusive format (w.agentChecks format r ctx a host authorizedKeys) := by
  unfold World.agentChecks
  split
  · exact h.answered hr
  · split
    · exact h.answered hr
    · next result hresult =>
        split
        · next hok =>
            obtain ⟨s, hs, hmessage, -, -⟩ := verifySig_ok hmock hresult hok
            refine h.moveTo hr (fun ctx' hctx' => ?_) fun ctx' fp hverified => ?_
            · rw [hphase]
              exact hctx'
            · obtain ⟨rfl, -⟩ := Phase.verified.inj hverified
              exact ⟨s, hs, hmessage⟩
        · exact h.answered hr

/-- A link spends the challenge of the request that establishes it. -/
theorem Exclusive.link {l : Established} {ctx : ChallengeContext} (h : Exclusive format w)
    (hr : w.requests.get? r.id = some r) (hctx : r.phase.context? = some ctx)
    (hl : l.challengeId = r.challengeId) :
    Exclusive format { w.moveTo r .answered with links := w.links ++ [l] } := by
  have hanswered := h.answered hr
  obtain ⟨hminted, -, hredis⟩ := h.held r.id r ctx hr hctx
  refine ⟨hanswered.redis, hanswered.key, hanswered.held, hanswered.single, fun k hk => ?_,
    hanswered.signed⟩
  rcases List.mem_append.mp hk with hold | hnew
  · exact hanswered.spent k hold
  · obtain rfl := List.mem_singleton.mp hnew
    rw [hl]
    refine ⟨by rw [show (w.moveTo r .answered).minted = w.minted from rfl, hminted]; rfl, hredis,
      fun id q hq hs heq => ?_⟩
    have hq' := (get?_moveTo hr .answered id).symm.trans hq
    split at hq'
    · rw [← Option.some.inj hq'] at hs
      cases hs
    · next hne => exact hne (h.single id r.id q r hq' hr hs (by rw [hctx]; rfl) heq)

theorem Exclusive.establish {ctx : ChallengeContext} {fp : Option String} {accepted : Bool}
    (h : Exclusive format w) (hr : w.requests.get? r.id = some r)
    (hphase : r.phase = .verified ctx fp) :
    Exclusive format (w.establish r ctx fp accepted) := by
  unfold World.establish
  split
  · exact h.link hr (by rw [hphase]; rfl) rfl
  · exact h.answered hr

theorem Exclusive.commit {db : Db} {keys : Table SshPublicKey} (h : Exclusive format w)
    (hkeys : keepsKeys w.keys keys = true) : Exclusive format { w with db := db, keys := keys } := by
  refine ⟨h.redis, fun c m hm => ?_, h.held, h.single, h.spent, h.signed⟩
  obtain ⟨key, hkey, huser⟩ := h.key c m hm
  have hid : key.id = m.sshPublicKeyId := Table.key_of_get? hkey
  have hkept := List.all_eq_true.mp hkeys key (Table.mem_of_get? hkey)
  obtain ⟨key', hkey', hsame⟩ := Option.any_eq_true .. |>.mp hkept
  simp only [Bool.and_eq_true, decide_eq_true_eq] at hsame
  exact ⟨key', hid ▸ hkey', hsame.1.trans huser⟩

/-- **One holder**: every step keeps each challenge in one place. -/
theorem exclusive_step {a : Action} (h : Exclusive format w) (hok : BoundKey format w a)
    (hstep : w.step format a = some w') : Exclusive format w' := by
  cases a with
  | challenge userId labId serverId linuxUsername sshPublicKeyId challengeId nonce =>
      simp only [World.step, World.challenge, Option.bind_eq_bind, Option.bind_eq_some_iff] at hstep
      obtain ⟨server, -, account, -, key, hkey, hstep⟩ := hstep
      split at hstep
      · next hchecks =>
          obtain rfl := Option.some.inj hstep
          exact h.mint hchecks.2.2.2 hkey hchecks.2.1
      · cases hstep
  | expire challengeId => exact Option.some.inj hstep ▸ h.erase challengeId
  | verify userId challengeId signatureArmored =>
      exact Option.some.inj hstep ▸ h.receive userId challengeId signatureArmored none
  | upgrade userId linkId challengeId signatureArmored =>
      obtain ⟨link, -, hstep⟩ := Option.bind_eq_some_iff.mp hstep
      simp only [Option.ite_none_right_eq_some, Option.some.injEq] at hstep
      exact hstep.2 ▸ h.receive userId challengeId signatureArmored _
  | consume request =>
      obtain ⟨r, hr, hmove⟩ := Option.bind_eq_some_iff.mp hstep
      obtain rfl : r.id = request := Table.key_of_get? hr
      simp only [Option.ite_none_right_eq_some, Option.some.injEq] at hmove
      exact hmove.2 ▸ h.consume hr
  | agentChecks request a host authorizedKeys =>
      obtain ⟨r, hr, hmove⟩ := Option.bind_eq_some_iff.mp hstep
      obtain rfl : r.id = request := Table.key_of_get? hr
      split at hmove
      · next ctx hphase => exact Option.some.inj hmove ▸ h.agentChecks hok hr hphase
      · cases hmove
  | rpcFails request =>
      obtain ⟨r, hr, hmove⟩ := Option.bind_eq_some_iff.mp hstep
      obtain rfl : r.id = request := Table.key_of_get? hr
      split at hmove
      · exact Option.some.inj hmove ▸ h.answered hr
      · cases hmove
  | establish request accepted =>
      obtain ⟨r, hr, hmove⟩ := Option.bind_eq_some_iff.mp hstep
      obtain rfl : r.id = request := Table.key_of_get? hr
      split at hmove
      · next ctx fp hphase => exact Option.some.inj hmove ▸ h.establish hr hphase
      · cases hmove
  | commit db keys =>
      simp only [World.step, Option.ite_none_right_eq_some, Option.some.injEq] at hstep
      exact hstep.2 ▸ h.commit hstep.1

/-! ## soundness -/

/-- The link of a request whose signature was made with the key of its challenge. -/
theorem legit_establish {ctx : ChallengeContext} {fp : Option String} {l : Established}
    (h : Exclusive format w) (hr : w.requests.get? r.id = some r) (hphase : r.phase = .verified ctx fp)
    (hok : ∀ s ∈ format r.signatureArmored, ∀ key ∈ w.keys.get? ctx.sshPublicKeyId,
      s.key.text = key.fingerprint ∧ key.isActive = true)
    (huser : l.userId = ctx.userId) (haccount : l.physicalAccountId = ctx.physicalAccountId)
    (hchallenge : l.challengeId = r.challengeId) : Legit format w r l := by
  have hctx : r.phase.context? = some ctx := by rw [hphase]; rfl
  obtain ⟨hminted, -, -⟩ := h.held r.id r ctx hr hctx
  obtain ⟨s, hs, hmessage⟩ := h.signed r.id r ctx fp hr hphase
  obtain ⟨key, hkey, howner⟩ := h.key _ _ hminted
  obtain ⟨hsame, hactive⟩ := hok s hs key hkey
  refine ⟨⟨ctx, hchallenge ▸ hminted, huser, haccount, s, key, hs, hmessage, hkey, howner, hactive,
    hsame⟩, fun k hk heq => ?_⟩
  exact (h.spent k hk).2.2 r.id r hr (by rw [hctx]; rfl) (hchallenge.symm.trans heq.symm)

theorem links_consume (w : World) (r : Request) : (w.consume r).links = w.links := by
  unfold World.consume
  split
  · rfl
  · dsimp only
    split
    · rfl
    · split <;> rfl

theorem links_agentChecks (w : World) (r : Request) (ctx : ChallengeContext) (a : Agent) (host : Host)
    (authorizedKeys : List Fingerprint) :
    (w.agentChecks format r ctx a host authorizedKeys).links = w.links := by
  unfold World.agentChecks
  split
  · rfl
  · split
    · rfl
    · split <;> rfl

theorem sound_step {a : Action} (h : Exclusive format w) (hok : BoundKey format w a)
    (hstep : w.step format a = some w') : Sound format w a w' := by
  cases a with
  | challenge userId labId serverId linuxUsername sshPublicKeyId challengeId nonce =>
      simp only [World.step, World.challenge, Option.bind_eq_bind, Option.bind_eq_some_iff] at hstep
      obtain ⟨server, -, account, -, key, -, hstep⟩ := hstep
      split at hstep
      · exact Or.inl (Option.some.inj hstep ▸ rfl)
      · cases hstep
  | expire challengeId => exact Or.inl (Option.some.inj hstep ▸ rfl)
  | verify userId challengeId signatureArmored => exact Or.inl (Option.some.inj hstep ▸ rfl)
  | upgrade userId linkId challengeId signatureArmored =>
      obtain ⟨link, -, hstep⟩ := Option.bind_eq_some_iff.mp hstep
      simp only [Option.ite_none_right_eq_some, Option.some.injEq] at hstep
      exact Or.inl (hstep.2 ▸ rfl)
  | consume request =>
      obtain ⟨r, -, hmove⟩ := Option.bind_eq_some_iff.mp hstep
      simp only [Option.ite_none_right_eq_some, Option.some.injEq] at hmove
      exact Or.inl (hmove.2 ▸ links_consume w r)
  | agentChecks request a host authorizedKeys =>
      obtain ⟨r, -, hmove⟩ := Option.bind_eq_some_iff.mp hstep
      split at hmove
      · next ctx _ => exact Or.inl (Option.some.inj hmove ▸ links_agentChecks w r ctx a host _)
      · cases hmove
  | rpcFails request =>
      obtain ⟨r, -, hmove⟩ := Option.bind_eq_some_iff.mp hstep
      split at hmove
      · exact Or.inl (Option.some.inj hmove ▸ rfl)
      · cases hmove
  | establish request accepted =>
      obtain ⟨r, hr, hmove⟩ := Option.bind_eq_some_iff.mp hstep
      obtain rfl : r.id = request := Table.key_of_get? hr
      split at hmove
      · next ctx fp hphase =>
          obtain rfl := Option.some.inj hmove
          have hctx : r.phase.context? = some ctx := by rw [hphase]; rfl
          obtain ⟨-, huser, -⟩ := h.held r.id r ctx hr hctx
          unfold World.establish
          split
          · next fingerprint =>
              refine Or.inr ⟨r.id, true, r, _, rfl, hr, rfl, ?_⟩
              refine legit_establish h hr hphase (hok r hr ctx hctx) ?_ rfl rfl
              dsimp only
              split
              · exact huser.symm
              · rfl
          · exact Or.inl rfl
      · cases hmove
  | commit db keys =>
      simp only [World.step, Option.ite_none_right_eq_some, Option.some.injEq] at hstep
      exact Or.inl (hstep.2 ▸ rfl)

end Steps

/-- **The challenge protocol**: in every interleaving in which the agents check
signatures and the signers use the keys of their challenges, each link is legitimate;
but what the returned command signs is never what the agent checks. -/
theorem protocol_run {format : SignatureFormat} {w : World} {as : List Action} (hw : Started w)
    (hok : Meets (step format) (BoundKey format) w as) :
    Along (step format) (Sound format) w as ∧
      ∀ nonce : Nonce, signedBytes nonce ≠ fedBytes (String.ofList nonce.text) := by
  refine ⟨?_, signedBytes_ne_fedBytes⟩
  obtain ⟨hredis, hminted, hrequests, hlinks⟩ := hw
  have hnone : ∀ {d : Dict String ChallengeContext}, d.entries = [] → ∀ c m, ¬ d.get? c = some m := by
    intro d hd c m hm
    rw [Dict.get?_eq_some_iff, hd] at hm
    cases hm
  have hempty : ∀ id r, ¬ w.requests.get? id = some r := by
    intro id r hr
    have hmem := Table.mem_of_get? hr
    rw [Table.mem_def, hrequests] at hmem
    cases hmem
  have hinit : Exclusive format w := by
    refine ⟨fun c m hm => absurd hm (hnone hredis c m), fun c m hm => absurd hm (hnone hminted c m),
      fun id r _ hr => absurd hr (hempty id r), fun id _ r _ hr => absurd hr (hempty id r),
      fun l hl => ?_, fun id r _ _ hr => absurd hr (hempty id r)⟩
    rw [hlinks] at hl
    cases hl
  exact along_of_invariant
    (fun _ _ _ hs hok ht => ⟨exclusive_step hs hok ht, sound_step hs hok ht⟩) hinit hok

/-- A key with a one-letter fingerprint. -/
def fingerprintB : Fingerprint := ⟨['b'], List.all_eq_true.mp (by decide), by decide⟩

def fingerprintC : Fingerprint := ⟨['c'], List.all_eq_true.mp (by decide), by decide⟩

/-- The nonce of the examples. -/
def nonceN : Nonce := ⟨['n'], List.forall_mem_singleton.mpr (by decide), by decide⟩

/-- Two signatures over the nonce, with either key. -/
def twoSigners : SignatureFormat := fun armored =>
  if armored = "by b" then some ⟨fedBytes "n", signingNamespace, fingerprintB⟩
  else if armored = "by c" then some ⟨fedBytes "n", signingNamespace, fingerprintC⟩
  else none

/-- User 42 has a key, and so has user 43; both may log in to the account `alice`. -/
def twoKeys : World :=
  { db := smallLab .empty
    keys := (Table.single ⟨1, 42, fingerprintB.text, true⟩).append
      ⟨fun id => ⟨id, 43, fingerprintC.text, true⟩, fun _ => rfl⟩
    redis := .empty, minted := .empty, requests := .empty, links := [] }

/-- A challenge for the key of user 42, spent with a signature. -/
def spentWith (signatureArmored : String) : List Action :=
  [.challenge 42 1 1 "alice" 1 "c" nonceN, .verify 42 "c" signatureArmored, .consume 1,
   .agentChecks 1 { (AgentRpc.freshPump []).agent with mockMode := false } AgentRpc.quietHost
     [fingerprintB, fingerprintC]]

theorem protocol_run_spent :
    (exec (step twoSigners) twoKeys (spentWith "by b" ++ [.establish 1 true])).map (·.links) =
      some [⟨42, 21, "c", "SHA256:b"⟩] ∧
    (Along (step twoSigners) (Sound twoSigners) twoKeys (spentWith "by b" ++ [.establish 1 true]) ∧
      ∀ nonce : Nonce, signedBytes nonce ≠ fedBytes (String.ofList nonce.text)) :=
  ⟨by decide +kernel, protocol_run ⟨rfl, rfl, rfl, rfl⟩ (by decide +kernel)⟩

/-- The signature that was checked is of the other user's key. -/
def otherSigner : World :=
  (exec (step twoSigners) twoKeys (spentWith "by c")).get (by decide +kernel)

theorem not_protocol :
    ¬ ((∀ (format : SignatureFormat) (w : World) (as : List Action), Started w →
        Along (step format) (Sound format) w as) ∧
      ∀ nonce : Nonce, signedBytes nonce = fedBytes (String.ofList nonce.text)) := by
  rintro ⟨hsound, -⟩
  have halong := hsound twoSigners twoKeys (spentWith "by c" ++ [.establish 1 true])
    ⟨rfl, rfl, rfl, rfl⟩
  have hstep : otherSigner.step twoSigners (.establish 1 true) =
      some ((otherSigner.step twoSigners (.establish 1 true)).get (by decide +kernel)) :=
    (Option.some_get _).symm
  have hlinked : Sound twoSigners otherSigner (.establish 1 true) _ :=
    halong.step_of_exec (Option.some_get _).symm hstep
  rcases hlinked with hsame | ⟨request, accepted, r, l, ha, hr, hl, hlegit⟩
  · exact absurd (congrArg List.length hsame) (by decide +kernel)
  · obtain ⟨rfl, -⟩ := Action.establish.inj ha
    -- the challenge is bound to the key 1, the signature is of the key 2
    have hchallenge : l.challengeId = "c" := by
      have hlast := congrArg (fun ls => ls.getLast?.map Established.challengeId) hl
      rw [List.getLast?_concat] at hlast
      exact Option.some.inj (hlast.symm.trans (by decide +kernel))
    have harmored : (otherSigner.requests.get? 1).map (·.signatureArmored) = some "by c" := by
      decide +kernel
    rw [hr, Option.map_some, Option.some.injEq] at harmored
    obtain ⟨m, hm, -, -, s, key, hs, -, hkey, -, -, hsame⟩ := hlegit.bound
    have hbound : (otherSigner.minted.get? "c").map (·.sshPublicKeyId) = some 1 := by
      decide +kernel
    rw [← hchallenge, hm, Option.map_some, Option.some.injEq] at hbound
    have hfingerprint : (otherSigner.keys.get? 1).map (·.fingerprint) = some fingerprintB.text := by
      decide +kernel
    rw [← hbound, hkey, Option.map_some, Option.some.injEq] at hfingerprint
    rw [harmored] at hs
    obtain rfl := Option.some.inj hs
    exact absurd (hsame.trans hfingerprint) (by decide +kernel)

end SshChallenge

end CoreLab
