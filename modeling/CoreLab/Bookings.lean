import CoreLab.Lib.Transition
import CoreLab.Operations

/-!
# CoreLab.Bookings

Reservations and the rows they refer to: the card, the account behind the link,
and the limit of the server that owns the card.  A booking names server, card
and link independently, and checks each of them on its own.

* `consistent_created_iff` — which bookings insert consistent rows;
* `allConsistent_step` — what one operation keeps;
* `bookings_consistent` — both, for a batch and for every run.
-/

namespace CoreLab

open Relational Loops Transition

namespace Operations

open AgentWs (Backend Frame)

/-! ## consistent rows -/

/-- The card is one of the server's. -/
def cardOnServer (db : Db) (gpuId : Option Nat) (serverId : Nat) : Prop :=
  ∀ id, gpuId = some id → ∃ gpu, db.gpus.get? id = some gpu ∧ gpu.serverId = serverId

/-- The account of the link is one of the server's. -/
def accountOnServer (db : Db) (accountLinkId serverId : Nat) : Prop :=
  ∃ link pa, db.accountLinks.get? accountLinkId = some link ∧
    db.physicalAccounts.get? link.physicalAccountId = some pa ∧ pa.serverId = serverId

/-- The duration is within the limit of the server that owns the card. -/
def withinLimit (db : Db) (gpuId : Option Nat) (duration : Int) : Prop :=
  ∀ id ∈ gpuId, ∀ gpu ∈ db.gpus.get? id, ∀ server ∈ db.servers.get? gpu.serverId,
    ∀ maxHours ∈ server.maxReservationHours, duration ≤ (maxHours : Int) * hourMicros

instance (db : Db) (gpuId : Option Nat) (duration : Int) : Decidable (withinLimit db gpuId duration) :=
  inferInstanceAs (Decidable (∀ id ∈ gpuId, ∀ gpu ∈ db.gpus.get? id,
    ∀ server ∈ db.servers.get? gpu.serverId, ∀ maxHours ∈ server.maxReservationHours, _))

/-- The row agrees with the rows it refers to. -/
structure Consistent (db : Db) (r : Reservation) : Prop where
  card : cardOnServer db r.gpuId r.serverId
  account : accountOnServer db r.accountLinkId r.serverId
  limit : withinLimit db r.gpuId (r.endAt - r.startAt)

/-- Every reservation agrees with the rows it refers to. -/
def AllConsistent (db : Db) : Prop := ∀ r ∈ db.reservations, Consistent db r

/-! ## the condition on the operations -/

/-- The card and the account that the item names are on the server it names. -/
def ownItem (db : Db) (item : ItemDraft) : Bool :=
  (item.gpuId.all fun id => (db.gpus.get? id).all fun gpu => gpu.serverId = item.serverId) &&
    (db.accountLinks.get? item.accountLinkId).all fun link =>
      (db.physicalAccounts.get? link.physicalAccountId).any fun pa => pa.serverId = item.serverId

/-- The operation keeps to the server of the reservation: an accepted booking
names a card and an account of its server, and an edit asks for a window within
the limit of the card's server, unless the store refuses the row with it. -/
def OwnServer (b : Backend) : Operation → Prop
  | .book req groupId now => (createReservationBatch b.db req groupId now).isOk = true →
      ∀ item ∈ req.items, ownItem b.db item = true
  | .patch req actorUserId _ => ∀ row ∈ b.db.reservations.get? req.reservationId,
      (checkEditable row req actorUserId).isOk = true →
        ((assignWindow req (.load row)).flushed row).checks = true →
          withinLimit b.db row.gpuId ((assignWindow req (.load row)).endAt.stored -
            (assignWindow req (.load row)).startAt.stored)
  | _ => True

instance (b : Backend) : ∀ op, Decidable (OwnServer b op)
  | .book .. => inferInstanceAs (Decidable (_ → ∀ item ∈ _, _))
  | .patch .. => inferInstanceAs (Decidable (∀ row ∈ _, _ → _ → _))
  | .cancel .. | .cancelGroup .. | .establishViaPam .. | .establishViaSshChallenge ..
  | .adminDeclareLink .. | .upgradeLink .. | .revokeLink .. | .createAccount .. | .deleteAccount ..
  | .tick .. | .dispatchFailed .. | .frame .. => .isTrue True.intro

/-! ## one item -/

/-- The server's limit is the one of the card's server, if the card is its. -/
theorem withinLimit_of_card {db : Db} {gpuId : Option Nat} {serverId : Nat} {duration : Int}
    (hcard : cardOnServer db gpuId serverId)
    (hlimit : ∀ server maxHours, db.servers.get? serverId = some server →
      server.maxReservationHours = some maxHours → duration ≤ (maxHours : Int) * hourMicros) :
    withinLimit db gpuId duration := by
  intro id hid gpu hgpu server hserver maxHours hmax
  obtain ⟨gpu', hgpu', hown⟩ := hcard id hid
  obtain rfl : gpu' = gpu := Option.some.inj (hgpu'.symm.trans hgpu)
  exact hlimit server maxHours (hown ▸ hserver) hmax

theorem validateItemTime_limit {db : Db} {item : ItemDraft} {now : Time} {server : Server}
    (h : validateItemTime db item now = .ok server) :
    ∀ s maxHours, db.servers.get? item.serverId = some s → s.maxReservationHours = some maxHours →
      item.endAt.stored - item.startAt.stored ≤ (maxHours : Int) * hourMicros := by
  obtain ⟨-, -, hserver, hmax⟩ := validateItemTime_eq_ok_iff.mp h
  intro s maxHours hs hhours
  obtain rfl : server = s := Option.some.inj (hserver.symm.trans hs)
  exact hmax maxHours hhours

/-- An accepted item keeps to its server exactly when its card and its account do. -/
theorem ownItem_iff {db : Db} {item : ItemDraft} {link : AccountLink}
    (hconflict : checkItemConflict db item = .ok ())
    (hlink : db.accountLinks.get? item.accountLinkId = some link) :
    ownItem db item = true ↔
      cardOnServer db item.gpuId item.serverId ∧
        accountOnServer db item.accountLinkId item.serverId := by
  have hcard := checkItemConflict_eq_ok_iff.mp hconflict
  unfold ownItem cardOnServer accountOnServer
  rw [Bool.and_eq_true, hlink, Option.all_some, Option.any_eq_true]
  refine and_congr ?_ ?_
  · cases hid : item.gpuId with
    | none => simp
    | some id =>
        obtain ⟨gpu, hgpu, -⟩ := hcard id hid
        simp [hgpu]
  · simp

/-- The columns of a created row that its item decides. -/
structure RowOf (item : ItemDraft) (r : Reservation) : Prop where
  serverId : r.serverId = item.serverId
  gpuId : r.gpuId = item.gpuId
  accountLinkId : r.accountLinkId = item.accountLinkId
  startAt : r.startAt = item.startAt.stored
  endAt : r.endAt = item.endAt.stored

theorem consistent_iff_ownItem {db db' : Db} {req : BatchRequest} {groupId : String} {now : Time}
    {item : ItemDraft} {r : Reservation} (hbooked : Booked db req groupId now db')
    (hitem : item ∈ req.items) (hr : RowOf item r) :
    Consistent db' r ↔ ownItem db item = true := by
  obtain ⟨server, link, htime, hlink, -⟩ := validateItem_eq_ok_iff.mp (hbooked.valid item hitem)
  have hget := (loadLinkOrRaise_eq_ok_iff.mp hlink).1
  rw [ownItem_iff (hbooked.noConflict item hitem) hget]
  have hcard : cardOnServer db' r.gpuId r.serverId ↔ cardOnServer db item.gpuId item.serverId := by
    rw [cardOnServer, cardOnServer, hr.gpuId, hr.serverId, hbooked.gpus]
  have haccount : accountOnServer db' r.accountLinkId r.serverId ↔
      accountOnServer db item.accountLinkId item.serverId := by
    rw [accountOnServer, accountOnServer, hr.accountLinkId, hr.serverId, hbooked.accountLinks,
      hbooked.physicalAccounts]
  rw [← hcard, ← haccount]
  constructor
  · exact fun h => ⟨h.card, h.account⟩
  · rintro ⟨hown, hready⟩
    refine ⟨hown, hready, withinLimit_of_card hown ?_⟩
    rw [hr.startAt, hr.endAt, hr.serverId, hbooked.servers]
    exact validateItemTime_limit htime

theorem rowOf_newRow (req : BatchRequest) (groupId : String) (item : ItemDraft) (idx id : Nat) :
    RowOf item (newRow req groupId item idx id) := ⟨rfl, rfl, rfl, rfl, rfl⟩

/-- Every item of a batch has its row. -/
theorem exists_createdRow {db : Db} {req : BatchRequest} (groupId : String) {item : ItemDraft}
    (h : item ∈ req.items) : ∃ r ∈ createdRows db req groupId, RowOf item r := by
  have hmap := map_createdRows db req groupId
    (fun r => (r.serverId, r.gpuId, r.accountLinkId, r.startAt, r.endAt))
    (fun item => (item.serverId, item.gpuId, item.accountLinkId, item.startAt.stored, item.endAt.stored))
    (fun _ _ _ => rfl)
  have hmem := hmap ▸ List.mem_map_of_mem h
  obtain ⟨r, hr, heq⟩ := List.mem_map.mp hmem
  simp only [Prod.mk.injEq] at heq
  obtain ⟨hserver, hgpu, hlink, hstart, hend⟩ := heq
  exact ⟨r, hr, hserver, hgpu, hlink, hstart, hend⟩

/-- **A batch inserts consistent rows** exactly when every item names a card and
an account of its server. -/
theorem consistent_created_iff {db db' : Db} {req : BatchRequest} {groupId : String} {now : Time}
    {created : List Reservation} (h : createReservationBatch db req groupId now = .ok (db', created)) :
    (∀ r ∈ created, Consistent db' r) ↔ ∀ item ∈ req.items, ownItem db item = true := by
  obtain ⟨hbooked, rfl⟩ := createReservationBatch_ok h
  constructor
  · intro hall item hitem
    obtain ⟨r, hr, hrow⟩ := exists_createdRow groupId hitem
    exact (consistent_iff_ownItem hbooked hitem hrow).mp (hall r hr)
  · intro hall r hr
    obtain ⟨item, idx, id, hitem, rfl⟩ := mem_createdRows hr
    have hmem : item ∈ req.items := List.fst_mem_of_mem_zipIdx hitem
    exact (consistent_iff_ownItem hbooked hmem (rowOf_newRow req groupId item idx id)).mpr
      (hall item hmem)

/-! ## one operation -/

/-- No operation moves the rows that a reservation refers to. -/
theorem Consistent.of_context {db db' : Db} {r : Reservation} (h : Consistent db r)
    (hcontext : ContextKept db db') : Consistent db' r := by
  refine ⟨?_, ?_, ?_⟩
  · intro id hid
    obtain ⟨gpu, hgpu, hown⟩ := h.card id hid
    obtain ⟨gpu', hgpu', hsame⟩ := hcontext.gpus id gpu hgpu
    exact ⟨gpu', hgpu', hsame.trans hown⟩
  · obtain ⟨link, pa, hlink, hpa, hown⟩ := h.account
    obtain ⟨link', hlink', hsameLink⟩ := hcontext.accountLinks _ link hlink
    obtain ⟨pa', hpa', hsame⟩ := hcontext.physicalAccounts _ pa hpa
    exact ⟨link', pa', hlink', hsameLink ▸ hpa', hsame.trans hown⟩
  · intro id hid gpu' hgpu' server hserver
    obtain ⟨gpu, hgpu, -⟩ := h.card id hid
    obtain ⟨gpu'', hgpu'', hsame⟩ := hcontext.gpus id gpu hgpu
    obtain rfl : gpu'' = gpu' := Option.some.inj (hgpu''.symm.trans hgpu')
    rw [hcontext.servers, hsame] at hserver
    exact h.limit id hid gpu hgpu server hserver

theorem Consistent.of_kept {db db' d : Db} {r r' : Reservation} (h : Consistent d r)
    (hkept : Kept db db' r r') : Consistent d r' := by
  refine ⟨?_, ?_, ?_⟩
  · rw [hkept.gpuId, hkept.serverId]
    exact h.card
  · rw [hkept.accountLinkId, hkept.serverId]
    exact h.account
  · rw [hkept.gpuId, hkept.startAt, hkept.endAt]
    exact h.limit

/-- The new window of an edit is within the limit: checked by the service, kept
from before, or promised for a refused edit that the store takes. -/
theorem withinLimit_patched {b : Backend} {req : ModifyRequest} {actorUserId : Nat} {now : Time}
    {row : Reservation} {a : Attrs} (h : Consistent b.db row)
    (hok : OwnServer b (.patch req actorUserId now))
    (hedit : Patched b.db req actorUserId now row a) :
    withinLimit b.db row.gpuId (a.endAt.stored - a.startAt.stored) := by
  rw [hedit.startAt, hedit.endAt]
  rcases hedit.window with hwindow | hchecks
  · unfold checkWindow at hwindow
    split at hwindow
    · next hnone =>
        -- neither end is named: the window is the stored one
        rw [Bool.and_eq_true, Option.isNone_iff_eq_none, Option.isNone_iff_eq_none] at hnone
        have hsame : assignWindow req (.load row) = .load row := by
          rw [assignWindow, hnone.1, hnone.2]
          rfl
        rw [hsame]
        exact h.limit
    · rw [bind_eq_ok_iff] at hwindow
      obtain ⟨server, htime, -⟩ := hwindow
      exact withinLimit_of_card h.card (validateItemTime_limit htime)
  · exact hok row hedit.stored (by rw [hedit.editable]; rfl) hchecks

/-- **One operation** that keeps to the servers keeps every row consistent. -/
theorem allConsistent_step {b b' : Backend} {op : Operation} (h : AllConsistent b.db)
    (hok : OwnServer b op) (hstep : step b op = some b') : AllConsistent b'.db := by
  have hcontext := contextKept_step hstep
  intro r' hr'
  cases rowOrigin_step hstep r' hr' with
  | kept r hr hkept => exact ((h r hr).of_context hcontext).of_kept hkept
  | booked created accepted hmem =>
      exact (consistent_created_iff accepted).mpr (hok (by rw [accepted]; rfl)) r' hmem
  | patched row a hedit heq _ =>
      have hrow := h row (Table.mem_of_get? hedit.stored)
      have hlimit := withinLimit_patched hrow hok hedit
      have hbefore : Consistent b.db (a.flushed row) := ⟨hrow.card, hrow.account, hlimit⟩
      exact heq ▸ hbefore.of_context hcontext

/-- **Bookings stay consistent**: an accepted batch inserts consistent rows
exactly when its items keep to their servers; and in every run of operations
that keep to the servers, from a database of consistent rows, every reservation
is consistent. -/
theorem bookings_consistent (b : Backend) :
    (∀ (req : BatchRequest) (groupId : String) (now : Time) (db' : Db) (created : List Reservation),
      createReservationBatch b.db req groupId now = .ok (db', created) →
        ((∀ r ∈ created, Consistent db' r) ↔ ∀ item ∈ req.items, ownItem b.db item = true)) ∧
    ∀ (ops : List Operation) (b' : Backend), AllConsistent b.db → Meets step OwnServer b ops →
      exec step b ops = some b' → AllConsistent b'.db := by
  constructor
  · intro req groupId now db' created hbooked
    exact consistent_created_iff hbooked
  · intro ops b' hstart hok hexec
    exact exec_invariant (fun _ _ _ h hok ht => allConsistent_step h hok ht) hstart hok hexec

/-! ## a card of another server -/

/-- The request for some hours on card 11, under a server that is named apart from it. -/
def hoursOnServer (serverId : Nat) (hours : Int) : BatchRequest :=
  { items := [{ serverId := serverId, gpuId := some 11, startAt := .ofStored hourMicros
                endAt := .ofStored (hourMicros + hours * hourMicros), accountLinkId := 31 }]
    userId := 41 }

/-- An hour on the card's own server, and a run that books it. -/
theorem bookings_consistent_hour :
    (∃ db' created, createReservationBatch (smallLab .empty).addServer (hoursOnServer 1 1) "g" 0 =
        .ok (db', created) ∧ ∀ r ∈ created, Consistent db' r) ∧
    ∃ b', exec step ⟨(smallLab .empty).addServer, []⟩
        [.book (hoursOnServer 1 1) "g" 0, .tick (2 * hourMicros)] = some b' ∧ AllConsistent b'.db := by
  have hnone : AllConsistent (smallLab .empty).addServer := fun r hr => nomatch (hr : r ∈ [])
  have hown : ∀ item ∈ (hoursOnServer 1 1).items, ownItem (smallLab .empty).addServer item = true := by
    decide +kernel
  have hmeets : Meets step OwnServer ⟨(smallLab .empty).addServer, []⟩
      [.book (hoursOnServer 1 1) "g" 0, .tick (2 * hourMicros)] := by decide +kernel
  obtain ⟨hbatch, hrun⟩ := bookings_consistent ⟨(smallLab .empty).addServer, []⟩
  exact ⟨⟨_, _, rfl, (hbatch (hoursOnServer 1 1) "g" 0 _ _ rfl).mpr hown⟩,
    ⟨_, rfl, hrun _ _ hnone hmeets rfl⟩⟩

/-- Two days on the card of server 1 are booked under server 2. -/
theorem bookings_not_consistent :
    ¬ ∀ (db db' : Db) (req : BatchRequest) (groupId : String) (now : Time) (created : List Reservation),
      createReservationBatch db req groupId now = .ok (db', created) →
        ∀ r ∈ created, Consistent db' r := by
  intro hall
  have hbooked := hall (smallLab .empty).addServer _ (hoursOnServer 2 48) "g" 0 _ rfl _
    (List.mem_cons_self ..)
  obtain ⟨gpu, hgpu, hserver⟩ := hbooked.card 11 rfl
  obtain rfl : (⟨11, 1, 0, some 24576⟩ : Gpu) = gpu := Option.some.inj (Eq.trans rfl hgpu)
  exact absurd hserver (by decide)

end Operations

end CoreLab
