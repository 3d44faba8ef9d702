import CoreLab.AuthorizedKeys
import CoreLab.Lib.DropAbove

/-!
# CoreLab.KeyLines

What `push` and `revoke` do to the lines of an `authorized_keys` file, whatever is
on them.

* `pushLaws_iff` — the pushed lines that keep the frame, and come back;
* `splitlines_revoke_iff` — the files from which a revoke takes the key lines and the
  CoreLab comments right above them only;
* `frameLaws_iff` — both.
-/

namespace CoreLab

open Lines Loops

namespace AuthorizedKeys

/-! ## what is promised -/

/-- A CoreLab comment. -/
def isCorelabComment (line : Line) : Bool := "# corelab".toList.isPrefixOf (lstrip line)

/-- The lines without those of a fingerprint and the CoreLab comments right above them. -/
def withoutKey (digest : Digest) (fingerprint : String) (lines : List Line) : List Line :=
  DropAbove.dropAbove (hasFingerprint digest fingerprint) isCorelabComment lines

/-- Some line of the file has the fingerprint. -/
def hasKey (digest : Digest) (fingerprint : String) (file : List Char) : Bool :=
  (splitlines file).any (hasFingerprint digest fingerprint)

/-- What a push promises that has written `desired` over `file`. -/
structure PushLaws (digest : Digest) (file : List Char) (publicKey label line : Line)
    (desired : List Char) (fingerprint : String) : Prop where
  frame : splitlines desired =
    splitlines file ++ if hasKey digest fingerprint file then [] else [line]
  idempotent : push digest desired publicKey label = .ok (desired, fingerprint)
  undone : hasKey digest fingerprint file = false →
    (splitlines file).getLast?.any isCorelabComment = false →
      splitlines (revoke digest desired fingerprint) = splitlines file

/-- What pushes on and revokes from a file promise. -/
structure FrameLaws (digest : Digest) (file : List Char) (publicKey label : Line)
    (revoked : String) : Prop where
  push : ∀ line desired fingerprint, authorizedKeyLine digest publicKey label = .ok line →
    push digest file publicKey label = .ok (desired, fingerprint) →
      PushLaws digest file publicKey label line desired fingerprint
  revoke : splitlines (revoke digest file revoked) =
    withoutKey digest revoked (splitlines file)

/-- The line is read back as one line, which is not a comment. -/
def ReadBack (line : Line) : Prop :=
  isKeyLine (strip line) = true ∧ ∀ c ∈ line, isLineBreak c = false

/-- The condition: a pushed line is read back or is not needed, and no stretch of CoreLab
comments and key lines starts with two comments and ends with two keys. -/
structure FrameSafe (digest : Digest) (file : List Char) (publicKey label : Line)
    (revoked : String) : Prop where
  push : ∀ line fingerprint, authorizedKeyLine digest publicKey label = .ok line →
    fingerprintForPubkey digest line = .ok fingerprint →
      hasKey digest fingerprint file = true ∨ ReadBack line
  revoke : ¬ DropAbove.Stretch (hasFingerprint digest revoked) isCorelabComment (splitlines file)

variable {digest : Digest}

/-! ## reading lines back -/

/-- The lines of a file are read back from what is written of them. -/
theorem splitlines_joinLines_own {file : List Char} {ls : List Line} (h : ls ⊆ splitlines file) :
    splitlines (joinLines ls) = ls :=
  splitlines_joinLines fun _ hl => not_isLineBreak_of_mem_splitlines (h hl)

theorem joinLines_ne_concat (ls : List Line) (line : Line) :
    joinLines (ls ++ [line]) ≠ joinLines ls := by
  intro h
  have hlength := congrArg List.length h
  simp [joinLines] at hlength

/-! ## revoking -/

theorem revokeLine_fst (fingerprint : String) (acc : List Line × Bool) (line : Line) :
    (revokeLine digest fingerprint acc line).1 =
      DropAbove.popStep (hasFingerprint digest fingerprint) isCorelabComment acc.1 line := by
  unfold revokeLine DropAbove.popStep isCorelabComment
  split
  · split <;> rfl
  · rfl

theorem foldl_revokeLine_fst (digest : Digest) (fingerprint : String) (lines : List Line)
    (acc : List Line × Bool) :
    (lines.foldl (revokeLine digest fingerprint) acc).1 = lines.foldl
      (DropAbove.popStep (hasFingerprint digest fingerprint) isCorelabComment) acc.1 := by
  induction lines generalizing acc with
  | nil => rfl
  | cons line lines ih => rw [List.foldl_cons, List.foldl_cons, ih, revokeLine_fst]

theorem foldl_revokeLine_snd (digest : Digest) (fingerprint : String) (lines : List Line)
    (acc : List Line × Bool) :
    (lines.foldl (revokeLine digest fingerprint) acc).2 =
      (acc.2 || lines.any (hasFingerprint digest fingerprint)) := by
  induction lines generalizing acc with
  | nil => simp
  | cons line lines ih =>
      rw [List.foldl_cons, ih, List.any_cons, revokeLine]
      split <;> simp [*]

/-- A comment is no key line. -/
theorem not_isCorelabComment_of_hasFingerprint {fingerprint : String} (line : Line)
    (h : hasFingerprint digest fingerprint line = true) : isCorelabComment line = false := by
  rw [hasFingerprint, Bool.and_eq_true, isKeyLine, Bool.and_eq_true, decide_eq_true_eq,
    decide_eq_true_eq] at h
  obtain ⟨⟨hne, hhead⟩, -⟩ := h
  by_contra hcomment
  rw [Bool.not_eq_false, isCorelabComment, List.isPrefixOf_iff_prefix] at hcomment
  obtain ⟨rest, hrest⟩ := hcomment
  have hprefix : strip line <+: lstrip line := List.rdropWhile_prefix _ _
  cases hstrip : strip line with
  | nil => exact hne hstrip
  | cons c cs =>
      rw [hstrip, ← hrest] at hprefix
      obtain ⟨more, hmore⟩ := hprefix
      obtain ⟨rfl, -⟩ := List.cons.inj hmore
      exact hhead (by rw [hstrip]; rfl)

/-- Without a line of the fingerprint nothing goes. -/
theorem withoutKey_of_not_any {fingerprint : String} {lines : List Line}
    (h : lines.any (hasFingerprint digest fingerprint) = false) :
    withoutKey digest fingerprint lines = lines := by
  unfold withoutKey
  induction lines with
  | nil => rfl
  | cons line lines ih =>
      rw [List.any_cons, Bool.or_eq_false_iff] at h
      have hnext : lines.head?.any (hasFingerprint digest fingerprint) = false := by
        cases lines <;> simp_all
      rw [DropAbove.dropAbove, h.1, hnext, ih h.2]
      simp

theorem popAbove_of_not_any {fingerprint : String} {lines : List Line}
    (h : lines.any (hasFingerprint digest fingerprint) = false) :
    DropAbove.popAbove (hasFingerprint digest fingerprint) isCorelabComment lines = lines := by
  rw [(DropAbove.popAbove_eq_dropAbove_iff not_isCorelabComment_of_hasFingerprint lines).mpr]
  · exact withoutKey_of_not_any h
  · rintro ⟨pre, a, b, mid, x, y, post, rfl, -, -, -, hx, -⟩
    rw [List.any_eq_false] at h
    exact h x (by simp) hx

/-- **The lines after a revoke**: what the loop keeps. -/
theorem splitlines_revoke (file : List Char) (fingerprint : String) :
    splitlines (revoke digest file fingerprint) =
      DropAbove.popAbove (hasFingerprint digest fingerprint) isCorelabComment (splitlines file) := by
  have hkept := foldl_revokeLine_fst digest fingerprint (splitlines file) ([], false)
  have hremoved := foldl_revokeLine_snd digest fingerprint (splitlines file) ([], false)
  have hsublist := (foldl_revokeLine digest fingerprint (splitlines file) ([], false)).1
  unfold revoke rewriteForRevoke
  cases hany : (splitlines file).any (hasFingerprint digest fingerprint) with
  | true =>
      rw [hany, Bool.or_true] at hremoved
      simp only [hremoved, if_true]
      rw [splitlines_joinLines_own hsublist.subset, hkept]
      rfl
  | false =>
      rw [hany, Bool.or_false] at hremoved
      simp only [hremoved, Bool.false_eq_true, if_false]
      exact (popAbove_of_not_any hany).symm

theorem splitlines_revoke_iff (file : List Char) (fingerprint : String) :
    splitlines (revoke digest file fingerprint) =
        withoutKey digest fingerprint (splitlines file) ↔
      ¬ DropAbove.Stretch (hasFingerprint digest fingerprint) isCorelabComment
        (splitlines file) := by
  rw [splitlines_revoke, withoutKey]
  exact DropAbove.popAbove_eq_dropAbove_iff not_isCorelabComment_of_hasFingerprint _

/-! ## pushing -/

section Push

variable {file desired : List Char} {publicKey label line : Line} {fingerprint : String}

theorem fingerprint_of_authorizedKeyLine
    (hline : authorizedKeyLine digest publicKey label = .ok line) :
    ∃ fingerprint, fingerprintForPubkey digest publicKey = .ok fingerprint := by
  simp only [authorizedKeyLine, bind_eq_ok_iff] at hline
  obtain ⟨key, hkey, comment, -, fingerprint, hfp, -⟩ := hline
  obtain ⟨rfl, -, -⟩ := validateSingleLine_ok hkey
  exact ⟨fingerprint, by rwa [fingerprint_strip] at hfp⟩

/-- What a push writes. -/
theorem push_eq (hline : authorizedKeyLine digest publicKey label = .ok line)
    (hkey : fingerprintForPubkey digest publicKey = .ok fingerprint) (file : List Char) :
    push digest file publicKey label = .ok (joinLines
      (if hasKey digest fingerprint file then splitlines file else splitlines file ++ [line]),
        fingerprint) := by
  have hfp := fingerprint_authorizedKeyLine hline hkey
  simp only [push, rewriteForPush, hline, hkey, hfp, bind, Except.bind]
  rw [← hasKey]
  cases hasKey digest fingerprint file <;> rfl

theorem push_ok_iff (hline : authorizedKeyLine digest publicKey label = .ok line)
    (hkey : fingerprintForPubkey digest publicKey = .ok fingerprint) {other : String} :
    push digest file publicKey label = .ok (desired, other) ↔ other = fingerprint ∧
      desired = joinLines
        (if hasKey digest fingerprint file then splitlines file else splitlines file ++ [line]) := by
  rw [push_eq hline hkey, Except.ok.injEq, Prod.mk.injEq]
  exact ⟨fun h => ⟨h.2.symm, h.1.symm⟩, fun h => ⟨h.2.symm, h.1.symm⟩⟩

/-- A key that is there is pushed again to no effect. -/
theorem pushLaws_of_hasKey (hline : authorizedKeyLine digest publicKey label = .ok line)
    (hkey : fingerprintForPubkey digest publicKey = .ok fingerprint)
    (hhas : hasKey digest fingerprint file = true) :
    PushLaws digest file publicKey label line (joinLines (splitlines file)) fingerprint := by
  have hown := splitlines_joinLines_own (List.Subset.refl (splitlines file))
  have hagain : hasKey digest fingerprint (joinLines (splitlines file)) = true := by
    rw [hasKey, hown]
    exact hhas
  refine ⟨by simp [hown, hhas], ?_, fun hno => absurd hhas (by simp [hno])⟩
  rw [push_eq hline hkey, if_pos hagain, hown]

/-- A line that is read back is found by the next push, and taken back by a revoke. -/
theorem pushLaws_of_readBack (hline : authorizedKeyLine digest publicKey label = .ok line)
    (hkey : fingerprintForPubkey digest publicKey = .ok fingerprint)
    (hno : hasKey digest fingerprint file = false) (hread : ReadBack line) :
    PushLaws digest file publicKey label line (joinLines (splitlines file ++ [line])) fingerprint := by
  obtain ⟨hkeyLine, hbreaks⟩ := hread
  have hback : splitlines (joinLines (splitlines file ++ [line])) = splitlines file ++ [line] := by
    refine splitlines_joinLines fun l hl => ?_
    rcases List.mem_append.mp hl with hl | hl
    · exact not_isLineBreak_of_mem_splitlines hl
    · exact List.mem_singleton.mp hl ▸ hbreaks
  have hmine : hasFingerprint digest fingerprint line = true := by
    simp [hasFingerprint, hkeyLine, fingerprint_strip, fingerprint_authorizedKeyLine hline hkey]
  have hagain : hasKey digest fingerprint (joinLines (splitlines file ++ [line])) = true := by
    simp [hasKey, hback, hmine]
  refine ⟨by simp [hback, hno], ?_, fun _ hend => ?_⟩
  · rw [push_eq hline hkey, if_pos hagain, hback]
  · -- the loop keeps every line, then takes the last one only
    have hkept := popAbove_of_not_any hno
    rw [DropAbove.popAbove] at hkept
    rw [splitlines_revoke, hback, DropAbove.popAbove, List.foldl_append, hkept, List.foldl_cons,
      List.foldl_nil, DropAbove.popStep, if_pos hmine, hend]
    rfl

/-- **A pushed line** keeps the frame exactly when it is read back, or is not needed. -/
theorem pushLaws_iff (hline : authorizedKeyLine digest publicKey label = .ok line)
    (hkey : fingerprintForPubkey digest publicKey = .ok fingerprint)
    (hpush : push digest file publicKey label = .ok (desired, fingerprint)) :
    PushLaws digest file publicKey label line desired fingerprint ↔
      hasKey digest fingerprint file = true ∨ ReadBack line := by
  obtain ⟨-, rfl⟩ := (push_ok_iff hline hkey).mp hpush
  cases hhas : hasKey digest fingerprint file with
  | true => exact iff_of_true (pushLaws_of_hasKey hline hkey hhas) (Or.inl rfl)
  | false =>
      refine ⟨fun h => Or.inr ?_, fun h => ?_⟩
      · have hframe := h.frame
        rw [hhas] at hframe
        simp only [Bool.false_eq_true, if_false] at hframe
        have hmem : line ∈ splitlines (joinLines (splitlines file ++ [line])) := by simp [hframe]
        refine ⟨?_, not_isLineBreak_of_mem_splitlines hmem⟩
        -- the second push finds the line of the first one
        by_contra hcomment
        have hmine : hasFingerprint digest fingerprint line = false := by
          simp [hasFingerprint, hcomment]
        have hagain : hasKey digest fingerprint (joinLines (splitlines file ++ [line])) = false := by
          rw [hasKey, hframe, List.any_append, ← hasKey, hhas]
          simpa using hmine
        obtain ⟨-, htwice⟩ := (push_ok_iff hline hkey).mp h.idempotent
        simp only [hagain, Bool.false_eq_true, if_false, hframe] at htwice
        exact joinLines_ne_concat _ line htwice.symm
      · exact pushLaws_of_readBack hline hkey hhas (h.resolve_left Bool.false_ne_true)

end Push

/-- **The frame laws** hold exactly when the pushed line is read back or not needed, and no
stretch of CoreLab comments and keys to revoke starts with two comments and ends with two keys. -/
theorem frameLaws_iff (digest : Digest) (file : List Char) (publicKey label : Line)
    (revoked : String) :
    FrameLaws digest file publicKey label revoked ↔ FrameSafe digest file publicKey label revoked := by
  constructor
  · refine fun h => ⟨fun line fingerprint hline hfp => ?_, (splitlines_revoke_iff file revoked).mp h.revoke⟩
    obtain ⟨key, hkey⟩ := fingerprint_of_authorizedKeyLine hline
    obtain rfl : key = fingerprint :=
      Except.ok.inj ((fingerprint_authorizedKeyLine hline hkey).symm.trans hfp)
    have hpush := push_eq hline hkey file
    exact (pushLaws_iff hline hkey hpush).mp (h.push line _ key hline hpush)
  · refine fun h => ⟨fun line desired fingerprint hline hpush => ?_,
      (splitlines_revoke_iff file revoked).mpr h.revoke⟩
    obtain ⟨key, hkey⟩ := fingerprint_of_authorizedKeyLine hline
    obtain ⟨rfl, -⟩ := (push_ok_iff hline hkey).mp hpush
    exact (pushLaws_iff hline hkey hpush).mpr
      (h.push line fingerprint hline (fingerprint_authorizedKeyLine hline hkey))

/-- Two keys of one user under two notes. -/
theorem not_frameLaws : ¬ ∀ (digest : Digest) (file : List Char) (publicKey label : Line)
    (revoked : String), FrameLaws digest file publicKey label revoked := by
  intro hall
  have hlaws := hall sampleDigest
    "# corelab alice\n# corelab bob\nssh-ed25519 AAAA laptop\nssh-ed25519 AAAA desktop\n".toList
    "ssh-ed25519 AAAB".toList "bob".toList "SHA256:cJ6AyISHokEeHuTfufIqhhSS0gxHZRUMDHlKvXD4FHw"
  have hgone : splitlines (revoke sampleDigest
      "# corelab alice\n# corelab bob\nssh-ed25519 AAAA laptop\nssh-ed25519 AAAA desktop\n".toList
      "SHA256:cJ6AyISHokEeHuTfufIqhhSS0gxHZRUMDHlKvXD4FHw") = [] := by decide +kernel
  have hkept : withoutKey sampleDigest "SHA256:cJ6AyISHokEeHuTfufIqhhSS0gxHZRUMDHlKvXD4FHw"
      (splitlines
        "# corelab alice\n# corelab bob\nssh-ed25519 AAAA laptop\nssh-ed25519 AAAA desktop\n".toList) =
      ["# corelab alice".toList] := by decide +kernel
  have hrevoke := hlaws.revoke
  rw [hgone, hkept] at hrevoke
  cases hrevoke

end AuthorizedKeys

end CoreLab
