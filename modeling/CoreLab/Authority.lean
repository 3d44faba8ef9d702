import CoreLab.Lib.Transition
import CoreLab.Operations

/-!
# CoreLab.Authority

The account a script runs under, in every run of bookings, edits, revocations,
deletions and ticks.  The link of a reservation is checked when it is booked;
nothing looks at it again before the script is sent.

* `allAuthorized_step` — a step that takes no link or account from under a
  reservation keeps every sendable script authorized;
* `scripts_authorized` — in a run of such steps every queued request runs under
  live authority.
-/

namespace CoreLab

open Relational Loops Transition

namespace Operations

open AgentWs (Backend Frame)

/-! ## authority -/

/-- The link and the account through which a reservation's script may run. -/
structure Authority (db : Db) (r : Reservation) (link : AccountLink) (pa : PhysicalAccount) : Prop where
  linked : db.accountLinks.get? r.accountLinkId = some link
  active : link.isActive = true
  owner : link.userId = r.userId
  verified : link.source ≠ .adminDeclared
  account : db.physicalAccounts.get? link.physicalAccountId = some pa
  accountActive : pa.isActive = true
  server : pa.serverId = r.serverId

/-- The account of a link is active, and on the server. -/
def accountReady (db : Db) (serverId : Nat) (link : AccountLink) : Bool :=
  (db.physicalAccounts.get? link.physicalAccountId).any fun pa => pa.isActive && pa.serverId = serverId

/-- A link and an account give the script of the row authority. -/
def authorized (db : Db) (r : Reservation) : Bool :=
  (db.accountLinks.get? r.accountLinkId).any fun link =>
    link.isActive && link.userId = r.userId && link.source ≠ .adminDeclared &&
      accountReady db r.serverId link

/-- What a tick may send: each request names the user name of an account that
the script has authority for, on the server it is sent to. -/
def UnderAuthority (b : Backend) (op : Operation) (_ : Backend) : Prop :=
  match op with
  | .tick now => ∀ s, tickBody b.db now = .ok s → ∀ d ∈ s.pending,
      ∃ r link pa, b.db.reservations.get? d.reservationId = some r ∧ Authority b.db r link pa ∧
        pa.linuxUsername = d.payload.linuxUsername ∧ pa.serverId = d.serverId
  | _ => True

/-- The script of every reservation that may still be sent has authority. -/
def AllAuthorized (db : Db) : Prop :=
  ∀ r ∈ db.reservations, canSend db r = true → authorized db r = true

/-- The operation respects the scripts that are to be sent: a script is only
booked, or put on a reservation, where it has authority, and no link or account
is taken from under one. -/
def Respectful (b : Backend) : Operation → Prop
  | .book req groupId now => (createReservationBatch b.db req groupId now).isOk = true →
      ∀ p ∈ req.items.zipIdx, truthy (carryScript req p.2) = true →
        (b.db.accountLinks.get? p.1.accountLinkId).all (accountReady b.db p.1.serverId) = true
  | .patch req actorUserId _ => req.script.isSome = true ∨ req.scriptScheduledStartAt.isSome = true →
      ∀ row ∈ b.db.reservations.get? req.reservationId,
        (checkEditable row req actorUserId).isOk = true → authorized b.db row = true
  | .revokeLink linkId labId actorUserId reason now =>
      (CoreLab.revokeLink b.db linkId labId actorUserId reason now).isOk = true →
        ∀ r ∈ b.db.reservations.rows, canSend b.db r = true → r.accountLinkId ≠ linkId
  | .deleteAccount paId actorUserId labId =>
      (CoreLab.deleteAccount b.db paId actorUserId labId).isOk = true →
        ∀ r ∈ b.db.reservations.rows, canSend b.db r = true →
          ∀ link ∈ b.db.accountLinks.get? r.accountLinkId, link.physicalAccountId ≠ paId
  | _ => True

instance (b : Backend) : ∀ op, Decidable (Respectful b op)
  | .book .. => inferInstanceAs (Decidable (_ → ∀ p ∈ _, _ → _))
  | .patch .. => inferInstanceAs (Decidable (_ ∨ _ → ∀ row ∈ _, _ → _))
  | .revokeLink .. => inferInstanceAs (Decidable (_ → ∀ r ∈ _, _ → _))
  | .deleteAccount .. => inferInstanceAs (Decidable (_ → ∀ r ∈ _, _ → ∀ link ∈ _, _))
  | .cancel .. | .cancelGroup .. | .establishViaPam .. | .establishViaSshChallenge ..
  | .adminDeclareLink .. | .upgradeLink .. | .createAccount .. | .tick .. | .dispatchFailed ..
  | .frame .. => .isTrue True.intro

/-! ## authority, read and kept -/

theorem accountReady_iff {db : Db} {serverId : Nat} {link : AccountLink} :
    accountReady db serverId link = true ↔ ∃ pa,
      db.physicalAccounts.get? link.physicalAccountId = some pa ∧ pa.isActive = true ∧
        pa.serverId = serverId := by
  simp [accountReady, Option.any_eq_true]

theorem authorized_iff {db : Db} {r : Reservation} :
    authorized db r = true ↔ ∃ link pa, Authority db r link pa := by
  unfold authorized
  rw [Option.any_eq_true]
  constructor
  · rintro ⟨link, hlink, h⟩
    simp only [Bool.and_eq_true, decide_eq_true_eq] at h
    obtain ⟨⟨⟨hactive, howner⟩, hverified⟩, hready⟩ := h
    obtain ⟨pa, hpa, hpaActive, hserver⟩ := accountReady_iff.mp hready
    exact ⟨link, pa, hlink, hactive, howner, hverified, hpa, hpaActive, hserver⟩
  · rintro ⟨link, pa, h⟩
    refine ⟨link, h.linked, ?_⟩
    simp only [Bool.and_eq_true, decide_eq_true_eq]
    have hready := accountReady_iff.mpr ⟨pa, h.account, h.accountActive, h.server⟩
    exact ⟨⟨⟨h.active, h.owner⟩, h.verified⟩, hready⟩

/-- Authority reads the link, the user and the server of a row. -/
theorem Authority.of_carried {db : Db} {r r' : Reservation} {link : AccountLink} {pa : PhysicalAccount}
    (h : Authority db r link pa) (hc : Carried r r') : Authority db r' link pa :=
  ⟨hc.accountLinkId ▸ h.linked, h.active, h.owner.trans hc.userId.symm, h.verified, h.account,
    h.accountActive, h.server.trans hc.serverId.symm⟩

/-- The link and the account are still there, unchanged. -/
theorem Authority.of_stored {db db' : Db} {r : Reservation} {link : AccountLink} {pa : PhysicalAccount}
    (h : Authority db r link pa) (hlink : db'.accountLinks.get? r.accountLinkId = some link)
    (hpa : db'.physicalAccounts.get? link.physicalAccountId = some pa) : Authority db' r link pa :=
  ⟨hlink, h.active, h.owner, h.verified, hpa, h.accountActive, h.server⟩

theorem get?_of_extends {ρ : Type} [Keyed ρ] {t u : Table ρ} {k : Nat} {r : ρ}
    (h : t.Extends Eq u) (hr : t.get? k = some r) : u.get? k = some r := by
  obtain ⟨s, hs, rfl⟩ := h k r hr
  exact hs

/-- **Authority stays** with a script that may be sent, in a respectful step. -/
theorem authority_step {b b' : Backend} {op : Operation} {r : Reservation} {link : AccountLink}
    {pa : PhysicalAccount} (h : Authority b.db r link pa) (hr : r ∈ b.db.reservations)
    (hsend : canSend b.db r = true) (hok : Respectful b op) (hstep : step b op = some b') :
    Authority b'.db r link pa := by
  cases stepCase hstep with
  | rows hrows =>
      exact h.of_stored (hrows.accountLinks ▸ h.linked) (hrows.physicalAccounts ▸ h.account)
  | frame f hf =>
      have htables := frameTables_of_frame hf
      exact h.of_stored (htables.accountLinks ▸ h.linked)
        (get?_of_extends htables.physicalAccounts h.account)
  | access ha =>
      obtain ⟨db', kills'⟩ := b'
      dsimp only at ha ⊢
      cases ha with
      | refused => exact h
      | linkInserted _ l => exact h.of_stored (Table.get?_append h.linked) h.account
      | accountCreated _ p => exact h.of_stored h.linked (Table.get?_append h.account)
      | linkUpgraded _ old l now actorUserId e stored declared =>
          -- the upgraded link was declared by an admin, this one was not
          have hne : old.id ≠ r.accountLinkId := by
            intro heq
            rw [heq, h.linked, Option.some.injEq] at stored
            exact h.verified (stored ▸ declared)
          exact h.of_stored (Table.get?_append ((Table.get?_put_ne hne).trans h.linked)) h.account
      | linkRevoked revoked e stored accepted =>
          have hne : revoked.id ≠ r.accountLinkId := by
            obtain rfl : revoked.id = _ := Table.key_of_get? stored
            exact (hok accepted r hr hsend).symm
          exact h.of_stored ((Table.get?_put_ne hne).trans h.linked) h.account
      | accountDeleted deleted e stored accepted =>
          have hne : deleted.id ≠ link.physicalAccountId := by
            obtain rfl : deleted.id = _ := Table.key_of_get? stored
            exact (hok accepted r hr hsend link h.linked).symm
          exact h.of_stored h.linked ((Table.get?_put_ne hne).trans h.account)

/-! ## rows that a step adds or edits -/

/-- A booked row that may be sent carries a script. -/
theorem truthy_of_canSend {db : Db} {req : BatchRequest} {groupId : String} {item : ItemDraft}
    {idx id : Nat} (h : canSend db (newRow req groupId item idx id) = true) :
    truthy (carryScript req idx) = true := by
  by_contra hfalse
  simp [canSend, newRow, hfalse] at h

theorem authorized_booked {db db' : Db} {req : BatchRequest} {groupId : String} {now : Time}
    {created : List Reservation} {r' : Reservation}
    (hok : ∀ p ∈ req.items.zipIdx, truthy (carryScript req p.2) = true →
      (db.accountLinks.get? p.1.accountLinkId).all (accountReady db p.1.serverId) = true)
    (hbook : createReservationBatch db req groupId now = .ok (db', created)) (hr' : r' ∈ created)
    (hsend : canSend db' r' = true) : authorized db' r' = true := by
  obtain ⟨hbooked, rfl⟩ := createReservationBatch_ok hbook
  obtain ⟨item, idx, id, hitem, rfl⟩ := mem_createdRows hr'
  have hmem : item ∈ req.items := List.fst_mem_of_mem_zipIdx hitem
  obtain ⟨server, link, -, hlink, -⟩ := validateItem_eq_ok_iff.mp (hbooked.valid item hmem)
  obtain ⟨hget, hactive, howner, hverified⟩ := loadLinkOrRaise_eq_ok_iff.mp hlink
  have hready := hok (item, idx) hitem (truthy_of_canSend hsend)
  rw [hget, Option.all_some] at hready
  obtain ⟨pa, hpa, hpaActive, hserver⟩ := accountReady_iff.mp hready
  exact authorized_iff.mpr ⟨link, pa, hbooked.accountLinks ▸ hget, hactive, howner, hverified,
    hbooked.physicalAccounts ▸ hpa, hpaActive, hserver⟩

theorem carried_flushed (row : Reservation) (a : Attrs) : Carried row (a.flushed row) :=
  ⟨rfl, rfl, rfl, rfl, rfl⟩

/-- A patched row that may be sent has authority, from before or checked now. -/
theorem authorized_patched {db db' : Db} {req : ModifyRequest} {actorUserId : Nat} {now : Time}
    {row : Reservation} {a : Attrs} (h : AllAuthorized db)
    (hok : req.script.isSome = true ∨ req.scriptScheduledStartAt.isSome = true →
      ∀ row ∈ db.reservations.get? req.reservationId,
        (checkEditable row req actorUserId).isOk = true → authorized db row = true)
    (hedit : Patched db req actorUserId now row a) (hrem : Remembers db db')
    (hsend : canSend db' (a.flushed row) = true) : authorized db row = true := by
  by_cases hscript : req.script.isSome = true ∨ req.scriptScheduledStartAt.isSome = true
  · exact hok hscript row hedit.stored (by rw [hedit.editable]; rfl)
  · rw [not_or, Bool.not_eq_true, Bool.not_eq_true, Option.isSome_eq_false_iff,
      Option.isSome_eq_false_iff, Option.isNone_iff_eq_none, Option.isNone_iff_eq_none] at hscript
    obtain ⟨hsame, htrigger⟩ := hedit.script hscript.1 hscript.2
    exact h row (Table.mem_of_get? hedit.stored) (canSend_of_same hrem (carried_flushed row a).id
      (fun hocc => hocc) rfl hsame htrigger rfl hsend)

/-- **One step**: a respectful step keeps every sendable script authorized. -/
theorem allAuthorized_step {b b' : Backend} {op : Operation} (h : AllAuthorized b.db)
    (hok : Respectful b op) (hstep : step b op = some b') : AllAuthorized b'.db := by
  intro r' hr' hsend
  cases rowOrigin_step hstep r' hr' with
  | kept r hr hkept =>
      have hbefore := hkept.send hsend
      obtain ⟨link, pa, hauth⟩ := authorized_iff.mp (h r hr hbefore)
      have hafter := authority_step hauth hr hbefore hok hstep
      exact authorized_iff.mpr ⟨link, pa, hafter.of_carried hkept.toCarried⟩
  | booked created accepted hmem =>
      exact authorized_booked (hok (by rw [accepted]; rfl)) accepted hmem hsend
  | @patched req actorUserId now row a hedit heq hrem =>
      rw [heq] at hsend ⊢
      obtain ⟨link, pa, hauth⟩ := authorized_iff.mp (authorized_patched h hok hedit hrem hsend)
      have hrows := rowsOnly_patch b.db req actorUserId now
      obtain rfl := Option.some.inj hstep
      have hafter := hauth.of_stored (hrows.accountLinks ▸ hauth.linked)
        (hrows.physicalAccounts ▸ hauth.account)
      exact authorized_iff.mpr ⟨link, pa, hafter.of_carried (carried_flushed row a)⟩

/-! ## what a tick sends -/

/-- The request of an authorized script names its account. -/
theorem underAuthority_tick {b b' : Backend} {now : Time} (h : AllAuthorized b.db) :
    UnderAuthority b (.tick now) b' := by
  intro s hs d hd
  obtain ⟨r, hr, hqueue⟩ := (tickBody_ok hs).mem_pending.mp hd
  obtain ⟨link, pa, hauth⟩ := authorized_iff.mp (h r hr (canSend_of_mem_tickQueue hqueue))
  obtain ⟨rfl, -⟩ := mem_tickQueue hqueue
  refine ⟨r, link, pa, Table.get?_key hr, hauth, ?_, hauth.server⟩
  have huser : linuxUsernameOf b.db r.accountLinkId = some pa.linuxUsername := by
    rw [linuxUsernameOf, hauth.linked, Option.bind_some, hauth.account, Option.map_some]
  show pa.linuxUsername = (linuxUsernameOf b.db r.accountLinkId).getD ""
  rw [huser, Option.getD_some]

theorem underAuthority_step {b b' : Backend} {op : Operation} (h : AllAuthorized b.db) :
    UnderAuthority b op b' := by
  cases op with
  | tick now => exact underAuthority_tick h
  | book | patch | cancel | cancelGroup | establishViaPam | establishViaSshChallenge
  | adminDeclareLink | upgradeLink | revokeLink | createAccount | deleteAccount | dispatchFailed
  | frame => exact True.intro

/-- **Scripts run under live authority**: in every run from a database without
reservations whose operations respect the scripts that are to be sent, each
request a tick queues names the user name of an active account on the server it
is sent to, reached through an active and verified link of the reservation's
user. -/
theorem scripts_authorized {b : Backend} {ops : List Operation}
    (hstart : b.db.reservations = .empty) (hok : Meets step Respectful b ops) :
    Along step UnderAuthority b ops := by
  have hnone : AllAuthorized b.db := by
    intro r hr
    rw [hstart] at hr
    exact nomatch hr
  exact along_of_invariant (I := fun b => AllAuthorized b.db)
    (fun _ _ _ h hok ht => ⟨allAuthorized_step h hok ht, underAuthority_step h⟩) hnone hok

/-! ## a revoked link -/

/-- An hour on the small lab's card, with a script. -/
def bookHour : Operation :=
  .book
    { items := [{ serverId := 1, gpuId := some 11, startAt := .ofStored hourMicros
                  endAt := .ofStored (2 * hourMicros), accountLinkId := 31 }]
      userId := 41, script := some "./train.sh" } "g" 0

/-- The owner revokes the link. -/
def revokeOwn : Operation := .revokeLink 31 1 41 .self 0

/-- The link is revoked when the script has ended. -/
theorem scripts_authorized_revokedLater :
    Along step UnderAuthority ⟨smallLab .empty, []⟩
      [bookHour, .tick hourMicros, .frame 1 (.scriptStarted ⟨1, .ofStored hourMicros, none⟩),
        .frame 1 (.scriptFinished ⟨1, some 0, .ofStored (hourMicros + 1), 0, none, false⟩),
        revokeOwn, .tick (2 * hourMicros)] :=
  scripts_authorized rfl (by decide +kernel)

/-- The requests a tick queues. -/
def queuedBy (db : Db) (now : Time) : List Dispatch :=
  match tickBody db now with
  | .ok s => s.pending
  | .error _ => []

/-- The link is revoked before the script is due, and the script is sent. -/
theorem scripts_not_authorized :
    ¬ ∀ (b : Backend) (ops : List Operation), b.db.reservations = .empty →
      Along step UnderAuthority b ops := by
  intro hall
  let start : Backend := ⟨smallLab .empty, []⟩
  obtain ⟨b, hb⟩ : ∃ b, exec step start [bookHour, revokeOwn] = some b := ⟨_, rfl⟩
  have hsent : (exec step start [bookHour, revokeOwn]).all (fun b =>
      (queuedBy b.db hourMicros).length = 1) = true := by decide +kernel
  have hrevoked : (exec step start [bookHour, revokeOwn]).all (fun b =>
      b.db.reservations.rows.all fun r => !authorized b.db r) = true := by decide +kernel
  rw [hb, Option.all_some] at hsent hrevoked
  have htick : UnderAuthority b (.tick hourMicros) _ :=
    (hall start ([bookHour, revokeOwn] ++ [.tick hourMicros]) rfl).step_of_exec hb rfl
  unfold queuedBy at hsent
  split at hsent
  · next s hs =>
      obtain ⟨d, hd⟩ := List.exists_mem_of_length_pos (l := s.pending) (by simp at hsent; omega)
      obtain ⟨r, link, pa, hr, hauth, -⟩ := htick s hs d hd
      have hlive : authorized b.db r = true := authorized_iff.mpr ⟨link, pa, hauth⟩
      have hdead := List.all_eq_true.mp hrevoked r (Table.mem_of_get? hr)
      rw [hlive] at hdead
      cases hdead
  · cases hsent

end Operations

end CoreLab
