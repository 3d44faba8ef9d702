import CoreLab.LinkCache
import CoreLab.Operations

/-!
# CoreLab.SyncView

What a full sync of a server shows of the database: the users of a Linux user
name, and the items of a user.

* `mem_lookupUserIds_accepted`, `mem_lookupActiveReservations_accepted` — an
  agent that accepted the frame holds what it shows;
* `SameView` — two databases, each at its time, that the syncs of a server do
  not tell apart but for reservations that are over;
* `sameView_step` — an operation that does not touch a server keeps its view.
-/

namespace CoreLab

open Relational Loops

/-! ## what a sync shows -/

/-- A sync of the server shows the user under the name. -/
def ShowsUser (db : Db) (serverId : Nat) (linuxUsername : String) (userId : Nat) : Prop :=
  ∃ p l, Linked db serverId linuxUsername p l ∧ l.userId = userId

/-- A sync of the server, taken at `now`, shows the item under the name and the user. -/
def ShowsItem (db : Db) (now : Time) (serverId : Nat) (linuxUsername : String) (userId : Nat)
    (x : ReservationItem) : Prop :=
  ∃ p l r, Linked db serverId linuxUsername p l ∧ l.userId = userId ∧
    r ∈ liveReservations db now l ∧ itemOf l r = x

/-- An item as the agent caches it; `none` if the wire model refuses it. -/
def cachedItem? (field : DatetimeField) (x : ReservationItem) : Option ActiveReservation :=
  (validateItem? field x).map (dumpSnapshot field)

/-- The cached item is of the same reservation. -/
theorem reservationId_of_cachedItem? {field : DatetimeField} {x : ReservationItem}
    {y : ActiveReservation} (h : cachedItem? field x = some y) :
    y.reservationId = x.reservationId := by
  obtain ⟨s, hs, rfl⟩ := Option.map_eq_some_iff.mp h
  simp only [validateItem?, Option.bind_eq_some_iff] at hs
  obtain ⟨gpuId, -, startAt, -, endAt, -, hs⟩ := hs
  split at hs
  · obtain rfl := Option.some.inj hs
    rfl
  · cases hs

/-! ## accepted frames -/

section Accepted

variable {field : DatetimeField} {db : Db} {now : Time}

/-- An entry is accepted exactly when each of its items is. -/
theorem validateEntry_isSome_iff {p : PhysicalAccount} :
    (validateEntry field (entryOf db now p)).isSome ↔
      ∀ l ∈ linksOf db p, ∀ r ∈ liveReservations db now l, (cachedItem? field (itemOf l r)).isSome := by
  rw [validateEntry, Option.isSome_map, Dict.mapVals?_isSome_iff]
  simp only [mapM_isSome_iff, cachedItem?, Option.isSome_map]
  constructor
  · intro h l hl r hr
    obtain ⟨e, he, hx⟩ := mem_items_iff.mpr ⟨l, r, hl, hr, rfl⟩
    exact h e he _ hx
  · intro h e he x hx
    obtain ⟨l, r, hl, hr, rfl⟩ := mem_items_iff.mp ⟨e, he, hx⟩
    exact h l hl r hr

/-- The items under a user. -/
theorem mem_activeReservationsOf {links : List AccountLink} {u : Nat} {x : ReservationItem} :
    x ∈ ((activeReservationsOf db now links).get? (toString u)).getD [] ↔
      ∃ l r, l ∈ links ∧ l.userId = u ∧ r ∈ liveReservations db now l ∧ itemOf l r = x := by
  rw [getD_activeReservationsOf, List.mem_map]
  constructor
  · rintro ⟨⟨l, r⟩, hb, rfl⟩
    obtain ⟨hb, huser⟩ := List.mem_filter.mp hb
    obtain ⟨hl, hr⟩ := mem_bookings.mp hb
    exact ⟨l, r, hl, toString_inj (of_decide_eq_true huser), hr, rfl⟩
  · rintro ⟨l, r, hl, rfl, hr, rfl⟩
    exact ⟨(l, r), List.mem_filter.mpr ⟨mem_bookings.mpr ⟨hl, hr⟩, decide_eq_true rfl⟩, rfl⟩

/-- A list of items that are all accepted, dumped. -/
theorem mem_dumped {items : List ReservationItem} (h : (items.mapM (validateItem? field)).isSome)
    {y : ActiveReservation} :
    y ∈ ((items.mapM (validateItem? field)).getD []).map (dumpSnapshot field) ↔
      ∃ x ∈ items, cachedItem? field x = some y := by
  obtain ⟨ss, hss, hmem⟩ := mapM_of_isSome (mapM_isSome_iff.mp h)
  rw [hss, Option.getD_some, List.mem_map]
  simp only [hmem, cachedItem?, Option.map_eq_some_iff]
  constructor
  · rintro ⟨s, ⟨x, hx, hs⟩, rfl⟩
    exact ⟨x, hx, s, hs, rfl⟩
  · rintro ⟨x, hx, s, hs, rfl⟩
    exact ⟨s, ⟨x, hx, hs⟩, rfl⟩

/-- An accepted entry, as the cache keeps it. -/
theorem cacheEntry_accepted {p : PhysicalAccount}
    {e' : AccountLinkCacheEntry ActiveReservationSnapshot}
    (h : validateEntry field (entryOf db now p) = some e') :
    e'.linuxUsername = p.linuxUsername ∧ e'.userIds = userIdsOf (linksOf db p) ∧
      ∀ u y, y ∈ ((cacheEntry field e').activeReservations.get? u).getD [] ↔
        ∃ l r, l ∈ linksOf db p ∧ l.userId = u ∧ r ∈ liveReservations db now l ∧
          cachedItem? field (itemOf l r) = some y := by
  have haccepted : ∀ e ∈ (activeReservationsOf db now (linksOf db p)).entries,
      (e.2.mapM (validateItem? field)).isSome := by
    have hsome := congrArg Option.isSome h
    rw [validateEntry, Option.isSome_map] at hsome
    exact Dict.mapVals?_isSome_iff.mp hsome
  have hconvert : (entryOf db now p).activeReservations.mapVals?
      (fun items => items.mapM (validateItem? field)) = some _ :=
    Dict.mapVals?_eq_some (g := fun items => (items.mapM (validateItem? field)).getD [])
      fun e he => by
        obtain ⟨ss, hss⟩ := Option.isSome_iff_exists.mp (haccepted e he)
        rw [hss, Option.getD_some]
  rw [validateEntry, hconvert, Option.map_some, Option.some.injEq] at h
  obtain rfl := h
  refine ⟨rfl, rfl, fun u y => ?_⟩
  have hright : (∃ l r, l ∈ linksOf db p ∧ l.userId = u ∧ r ∈ liveReservations db now l ∧
      cachedItem? field (itemOf l r) = some y) ↔
      ∃ x ∈ ((activeReservationsOf db now (linksOf db p)).get? (toString u)).getD [],
        cachedItem? field x = some y := by
    simp only [mem_activeReservationsOf]
    constructor
    · rintro ⟨l, r, hl, huser, hr, hy⟩
      exact ⟨_, ⟨l, r, hl, huser, hr, rfl⟩, hy⟩
    · rintro ⟨_, ⟨l, r, hl, huser, hr, rfl⟩, hy⟩
      exact ⟨l, r, hl, huser, hr, hy⟩
  rw [hright, cacheEntry, get?_parseActiveReservations, Dict.get?_mapVals, Dict.get?_mapVals]
  · show y ∈ ((((activeReservationsOf db now (linksOf db p)).get? (toString u)).map _).map _).getD [] ↔ _
    cases hget : (activeReservationsOf db now (linksOf db p)).get? (toString u) with
    | none => simp
    | some items => exact mem_dumped (haccepted _ (Dict.get?_eq_some_iff.mp hget))
  · intro e he
    obtain ⟨e1, he1, rfl⟩ := List.mem_map.mp he
    obtain ⟨e2, he2, rfl⟩ := List.mem_map.mp he1
    exact key_activeReservationsOf he2

/-- A frame is accepted exactly when each of the items it shows is. -/
theorem parseSync_isSome_iff_items {serverId : Nat} :
    (parseSync field (composeFullPayload db serverId now)).isSome ↔
      ∀ name u x, ShowsItem db now serverId name u x → (cachedItem? field x).isSome := by
  rw [parseSync, Option.isSome_map, mapM_isSome_iff]
  constructor
  · rintro h name u x ⟨p, l, r, hlinked, -, hr, rfl⟩
    have he : entryOf db now p ∈ (composeFullPayload db serverId now).entries :=
      mem_entriesForLinuxUsers.mpr
        ⟨p, l, ⟨hlinked.account, hlinked.server, rfl, hlinked.active, hlinked.link⟩, rfl⟩
    exact validateEntry_isSome_iff.mp (h _ he) l hlinked.link r hr
  · intro h e he
    obtain ⟨p, l, hlinked, rfl⟩ := mem_entriesForLinuxUsers.mp he
    rw [validateEntry_isSome_iff]
    intro k hk r hr
    exact h _ k.userId _
      ⟨p, k, r, ⟨hlinked.account, hlinked.server, rfl, hlinked.active, hk⟩, rfl, hr, rfl⟩

end Accepted

/-- No two active accounts of a server share a name (`uq_pa_server_user_active`). -/
def AccountsUnique (db : Db) : Prop :=
  ∀ p ∈ db.physicalAccounts.rows, ∀ q ∈ db.physicalAccounts.rows, p.isActive = true →
    q.isActive = true → p.serverId = q.serverId → p.linuxUsername = q.linuxUsername → p.id = q.id

theorem AccountsUnique.account_eq {db : Db} (h : AccountsUnique db) {serverId : Nat}
    {linuxUsername : String} {p q : PhysicalAccount} {k l : AccountLink}
    (hq : Linked db serverId linuxUsername q k) (hp : Linked db serverId linuxUsername p l) :
    q = p :=
  Table.eq_of_key_eq hq.account hp.account (h q hq.account p hp.account hq.active hp.active
    (hq.server.trans hp.server.symm) (hq.username.trans hp.username.symm))

section Lookup

variable {field : DatetimeField} {db : Db} {now : Time} {serverId : Nat}
  (hunique : AccountsUnique db)
  (haccepted : (parseSync field (composeFullPayload db serverId now)).isSome)
  (cache : ReverseCache) (linuxUsername : String)
include hunique haccepted

/-- **An accepted frame, read back**: under a name the agent holds the entry of the one
linked account of that name, and nothing if there is none. -/
theorem get?_accepted :
    (∀ p l, Linked db serverId linuxUsername p l →
      ∃ e', validateEntry field (entryOf db now p) = some e' ∧
        (receiveFullSync field cache (composeFullPayload db serverId now)).get?
          (serverId, linuxUsername) = some (cacheEntry field e')) ∧
      ((∀ p l, ¬ Linked db serverId linuxUsername p l) →
        (receiveFullSync field cache (composeFullPayload db serverId now)).get?
          (serverId, linuxUsername) = none) := by
  have hall := haccepted
  rw [parseSync, Option.isSome_map, mapM_isSome_iff] at hall
  obtain ⟨entries, hentries, hmem⟩ := mapM_of_isSome hall
  have hframe : parseSync field (composeFullPayload db serverId now) = some ⟨serverId, entries⟩ := by
    rw [parseSync, hentries]
    rfl
  -- an entry of the frame is the entry of a linked account
  have hfrom : ∀ e' ∈ entries, ∃ p l, Linked db serverId e'.linuxUsername p l ∧
      validateEntry field (entryOf db now p) = some e' := by
    intro e' he'
    obtain ⟨e, he, hvalid⟩ := (hmem e').mp he'
    obtain ⟨p, l, hlinked, rfl⟩ := mem_entriesForLinuxUsers.mp he
    exact ⟨p, l, (cacheEntry_accepted hvalid).1 ▸ hlinked, hvalid⟩
  rw [receiveFullSync, hframe, Option.elim_some, applyFullSnapshot]
  constructor
  · intro p l h
    have he : entryOf db now p ∈ (composeFullPayload db serverId now).entries :=
      mem_entriesForLinuxUsers.mpr ⟨p, l, ⟨h.account, h.server, rfl, h.active, h.link⟩, rfl⟩
    obtain ⟨e', he'⟩ := Option.isSome_iff_exists.mp (hall _ he)
    have hname := (cacheEntry_accepted he').1
    refine ⟨e', he', Dict.get?_foldl_set ⟨e', (hmem e').mpr ⟨_, he, he'⟩, ?_⟩ fun x hx hkey => ?_⟩
    · rw [hname, h.username]
    · -- a second entry under the name would be of the same account
      obtain ⟨q, k, hq, hvalid⟩ := hfrom x hx
      have hname' : x.linuxUsername = linuxUsername := (Prod.mk.inj hkey).2
      obtain rfl := hunique.account_eq (hname' ▸ hq) h
      rw [he', Option.some.injEq] at hvalid
      rw [hvalid]
  · intro hnone
    rw [Dict.get?_foldl_set_of_ne, Dict.get?_dropKeys (by simp)]
    intro x hx hkey
    obtain ⟨p, l, hlinked, -⟩ := hfrom x hx
    exact hnone p l ((Prod.mk.inj hkey).2 ▸ hlinked)

/-- **The users of a name** after an accepted frame are those it shows. -/
theorem mem_lookupUserIds_accepted {userId : Nat} :
    userId ∈ lookupUserIds (receiveFullSync field cache (composeFullPayload db serverId now))
        serverId linuxUsername ↔ ShowsUser db serverId linuxUsername userId := by
  obtain ⟨hsome, hnone⟩ := get?_accepted hunique haccepted cache linuxUsername
  by_cases hlinked : ∃ p l, Linked db serverId linuxUsername p l
  · obtain ⟨p, l, h⟩ := hlinked
    obtain ⟨e', he', hget⟩ := hsome p l h
    rw [lookupUserIds, hget, Option.elim_some, cacheEntry, (cacheEntry_accepted he').2.1, mem_userIdsOf]
    constructor
    · rintro ⟨k, hk, huser⟩
      exact ⟨p, k, ⟨h.account, h.server, h.username, h.active, hk⟩, huser⟩
    · rintro ⟨q, k, hq, huser⟩
      obtain rfl := hunique.account_eq hq h
      exact ⟨k, hq.link, huser⟩
  · rw [lookupUserIds, hnone fun p l h => hlinked ⟨p, l, h⟩, Option.elim_none]
    constructor
    · intro hmem
      exact absurd hmem List.not_mem_nil
    · rintro ⟨p, l, h, -⟩
      exact absurd ⟨p, l, h⟩ hlinked

/-- **The reservations of a user** after an accepted frame are the items it shows. -/
theorem mem_lookupActiveReservations_accepted {userId : Nat} {y : ActiveReservation} :
    y ∈ lookupActiveReservations (receiveFullSync field cache (composeFullPayload db serverId now))
        serverId linuxUsername userId ↔
      ∃ x, ShowsItem db now serverId linuxUsername userId x ∧ cachedItem? field x = some y := by
  obtain ⟨hsome, hnone⟩ := get?_accepted hunique haccepted cache linuxUsername
  by_cases hlinked : ∃ p l, Linked db serverId linuxUsername p l
  · obtain ⟨p, l, h⟩ := hlinked
    obtain ⟨e', he', hget⟩ := hsome p l h
    rw [lookupActiveReservations, hget, Option.elim_some, (cacheEntry_accepted he').2.2]
    constructor
    · rintro ⟨k, r, hk, huser, hr, hy⟩
      exact ⟨_, ⟨p, k, r, ⟨h.account, h.server, h.username, h.active, hk⟩, huser, hr, rfl⟩, hy⟩
    · rintro ⟨_, ⟨q, k, r, hq, huser, hr, rfl⟩, hy⟩
      obtain rfl := hunique.account_eq hq h
      exact ⟨k, r, hq.link, huser, hr, hy⟩
  · rw [lookupActiveReservations, hnone fun p l h => hlinked ⟨p, l, h⟩, Option.elim_none]
    constructor
    · intro hmem
      exact absurd hmem List.not_mem_nil
    · rintro ⟨x, ⟨p, l, r, h, -⟩, -⟩
      exact absurd ⟨p, l, h⟩ hlinked

end Lookup

/-! ## two databases with one view -/

/-- The reservation is scheduled or active. -/
def StillOpen (db : Db) (id : Nat) : Prop := ∃ r ∈ db.reservations, r.id = id ∧ r.occupies = true

/-- A sync of the server taken from `db₀` at `t₀` shows the users that one taken from
the later `db` at `t` shows, and the same items of reservations that are still open. -/
structure SameView (serverId : Nat) (db₀ : Db) (t₀ : Time) (db : Db) (t : Time) : Prop where
  users : ∀ name u, ShowsUser db₀ serverId name u ↔ ShowsUser db serverId name u
  items : ∀ name u x, StillOpen db x.reservationId →
    (ShowsItem db₀ t₀ serverId name u x ↔ ShowsItem db t serverId name u x)
  stays : ∀ id, (∃ r ∈ db₀.reservations, r.id = id) → ∃ r ∈ db.reservations, r.id = id
  closed : ∀ id, (∃ r ∈ db₀.reservations, r.id = id) → StillOpen db id → StillOpen db₀ id

/-- A shown item is of a reservation that is open. -/
theorem ShowsItem.stillOpen {db : Db} {t : Time} {serverId : Nat} {name : String} {u : Nat}
    {x : ReservationItem} (h : ShowsItem db t serverId name u x) : StillOpen db x.reservationId := by
  obtain ⟨p, l, r, -, -, hr, rfl⟩ := h
  obtain ⟨hmem, -, hocc, -⟩ := mem_liveReservations.mp hr
  exact ⟨r, hmem, rfl, hocc⟩

theorem SameView.refl (serverId : Nat) (db : Db) (t : Time) : SameView serverId db t db t :=
  ⟨fun _ _ => Iff.rfl, fun _ _ _ _ => Iff.rfl, fun _ h => h, fun _ _ h => h⟩

theorem SameView.trans {serverId : Nat} {db₀ db₁ db₂ : Db} {t₀ t₁ t₂ : Time}
    (h : SameView serverId db₀ t₀ db₁ t₁) (h' : SameView serverId db₁ t₁ db₂ t₂) :
    SameView serverId db₀ t₀ db₂ t₂ := by
  refine ⟨fun name u => (h.users name u).trans (h'.users name u), fun name u x hopen => ?_,
    fun id hid => h'.stays id (h.stays id hid),
    fun id hid hopen => h.closed id hid (h'.closed id (h.stays id hid) hopen)⟩
  constructor
  · intro hx
    obtain ⟨r, hr, hid, -⟩ := hx.stillOpen
    have hopen₁ := h'.closed _ (h.stays _ ⟨r, hr, hid⟩) hopen
    exact (h'.items name u x hopen).mp ((h.items name u x hopen₁).mp hx)
  · intro hx
    have hx₁ := (h'.items name u x hopen).mpr hx
    exact (h.items name u x hx₁.stillOpen).mpr hx₁

/-! ## operations that do not touch a server -/

/-- The server of an active account. -/
def activeServer (db : Db) (physicalAccountId : Nat) : Option Nat :=
  (db.physicalAccounts.get? physicalAccountId).bind fun p => if p.isActive then some p.serverId else none

/-- The server whose syncs show the link: it is active, and so is its account. -/
def shownOn (db : Db) (linkId : Nat) : Option Nat :=
  (db.accountLinks.get? linkId).bind fun l =>
    if l.isActive then activeServer db l.physicalAccountId else none

theorem activeServer_eq_some_iff {db : Db} {paId serverId : Nat} :
    activeServer db paId = some serverId ↔
      ∃ p, db.physicalAccounts.get? paId = some p ∧ p.isActive = true ∧ p.serverId = serverId := by
  simp [activeServer, Option.bind_eq_some_iff]

/-- A linked account is active on the server. -/
theorem Linked.activeServer {db : Db} {serverId : Nat} {name : String} {p : PhysicalAccount}
    {l : AccountLink} (h : Linked db serverId name p l) :
    activeServer db l.physicalAccountId = some serverId :=
  activeServer_eq_some_iff.mpr
    ⟨p, (mem_linksOf.mp h.link).2.1 ▸ Table.get?_key h.account, h.active, h.server⟩

theorem Linked.shownOn {db : Db} {serverId : Nat} {name : String} {p : PhysicalAccount}
    {l : AccountLink} (h : Linked db serverId name p l) : shownOn db l.id = some serverId := by
  obtain ⟨hl, -, hactive⟩ := mem_linksOf.mp h.link
  have hget : db.accountLinks.get? l.id = some l := Table.get?_key hl
  rw [CoreLab.shownOn, hget, Option.bind_some, if_pos hactive, h.activeServer]

/-- The request names an end of the window other than the stored one. -/
def movesWindow (req : ModifyRequest) (row : Reservation) : Bool :=
  req.startAt.any (fun t => t.stored ≠ row.startAt) || req.endAt.any fun t => t.stored ≠ row.endAt

/-- The servers whose syncs an operation at `clock` changes. -/
def touched (db : Db) (clock : Time) : Operations.Operation → List Nat
  | .book req groupId now =>
      if (createReservationBatch db req groupId now).isOk then
        (req.items.filter fun item => decide (clock ≤ item.endAt.stored)).filterMap fun item =>
          shownOn db item.accountLinkId
      else []
  | .patch req actorUserId _ =>
      match db.reservations.get? req.reservationId with
      | none => []
      | some row =>
        if (checkEditable row req actorUserId).isOk && movesWindow req row then
          (shownOn db row.accountLinkId).toList
        else []
  | .tick now =>
      (db.reservations.rows.filter fun r =>
        r.status = .scheduled && decide (r.startAt ≤ now ∧ now < r.endAt)).filterMap fun r =>
          shownOn db r.accountLinkId
  | .establishViaPam userId paId _ | .establishViaSshChallenge userId paId _
  | .adminDeclareLink paId userId _ _ =>
      if (existingActiveLink db userId paId).isNone then (activeServer db paId).toList else []
  | .upgradeLink userId paId _ _ =>
      match existingActiveLink db userId paId with
      | none => []
      | some old =>
        -- the user stays, and takes no booking along
        if old.source = .adminDeclared && !(liveReservations db clock old).isEmpty then
          (activeServer db paId).toList
        else []
  | .revokeLink linkId labId _ _ _ =>
      match loadLinkInLab db linkId labId with
      | .error _ => []
      | .ok (link, pa) => if link.isActive && pa.isActive then [pa.serverId] else []
  | .deleteAccount paId _ labId =>
      match db.physicalAccounts.get? paId with
      | none => []
      | some pa =>
        if serverInLab db pa.serverId labId && pa.isActive && !(linksOf db pa).isEmpty then
          [pa.serverId]
        else []
  | .cancel .. | .cancelGroup .. | .createAccount .. | .dispatchFailed _ | .frame .. => []

/-! ### rows -/

/-- Two rows of one reservation that a sync shows as one item. -/
structure SameClaim (r r' : Reservation) : Prop where
  id : r'.id = r.id
  accountLinkId : r'.accountLinkId = r.accountLinkId
  gpuId : r'.gpuId = r.gpuId
  startAt : r'.startAt = r.startAt
  endAt : r'.endAt = r.endAt
  status : r'.status = r.status
  gpuMemoryMb : r'.gpuMemoryMb = r.gpuMemoryMb
  gpuComputeSharePct : r'.gpuComputeSharePct = r.gpuComputeSharePct

theorem SameClaim.refl (r : Reservation) : SameClaim r r := ⟨rfl, rfl, rfl, rfl, rfl, rfl, rfl, rfl⟩

theorem sameClaim_of_sameBooking {r r' : Reservation} (h : SameBooking r r') : SameClaim r r' :=
  ⟨h.id, h.accountLinkId, h.gpuId, h.startAt, h.endAt, h.status, h.gpuMemoryMb, h.gpuComputeSharePct⟩

theorem SameClaim.itemOf_eq {r r' : Reservation} (h : SameClaim r r') (l : AccountLink) :
    itemOf l r' = itemOf l r := by
  simp only [itemOf, h.id, h.gpuId, h.startAt, h.endAt, h.status, h.gpuMemoryMb, h.gpuComputeSharePct]

/-- Where an open row of the later database comes from, as the syncs of a server see it:
an open row with the same item, a row of another server's link, or a booking that
they do not show. -/
inductive ViewOrigin (serverId : Nat) (db : Db) (clock : Time) (r' : Reservation) : Prop where
  | same (r : Reservation) (mem : r ∈ db.reservations) (claim : SameClaim r r')
  | elsewhere (r : Reservation) (mem : r ∈ db.reservations) (id : r'.id = r.id)
      (link : r'.accountLinkId = r.accountLinkId) (open' : r.occupies = true)
      (hidden : shownOn db r.accountLinkId ≠ some serverId)
  | new (fresh : ∀ r ∈ db.reservations, r.id ≠ r'.id)
      (hidden : shownOn db r'.accountLinkId = some serverId → r'.endAt < clock)

/-- An operation on the reservations only, as the syncs of a server see it. -/
structure ViewOfRows (serverId : Nat) (db : Db) (clock : Time) (db' : Db) : Prop where
  physicalAccounts : db'.physicalAccounts = db.physicalAccounts
  accountLinks : db'.accountLinks = db.accountLinks
  stays : ∀ r ∈ db.reservations, ∃ r' ∈ db'.reservations, r'.id = r.id
  origin : ∀ r' ∈ db'.reservations, r'.occupies = true → ViewOrigin serverId db clock r'

theorem linked_congr {db db' : Db} (haccounts : db'.physicalAccounts = db.physicalAccounts)
    (hlinks : db'.accountLinks = db.accountLinks) {serverId : Nat} {name : String}
    {p : PhysicalAccount} {l : AccountLink} :
    Linked db' serverId name p l ↔ Linked db serverId name p l := by
  have hof : linksOf db' p = linksOf db p := by rw [linksOf, linksOf, hlinks]
  constructor
  · rintro ⟨hp, hserver, hname, hactive, hl⟩
    exact ⟨haccounts ▸ hp, hserver, hname, hactive, hof ▸ hl⟩
  · rintro ⟨hp, hserver, hname, hactive, hl⟩
    exact ⟨haccounts ▸ hp, hserver, hname, hactive, hof ▸ hl⟩

section Rows

variable {serverId : Nat} {db db' : Db} {clock : Time}

/-- **An operation on rows** that shows no new item on a server keeps its view. -/
theorem sameView_of_rows (h : ViewOfRows serverId db clock db') :
    SameView serverId db clock db' clock := by
  have hlinked : ∀ {name p l}, Linked db' serverId name p l ↔ Linked db serverId name p l :=
    linked_congr h.physicalAccounts h.accountLinks
  refine ⟨fun name u => ?_, fun name u x hopen => ?_, ?_, ?_⟩
  · simp only [ShowsUser, hlinked]
  · constructor
    · rintro ⟨p, l, r, hl, huser, hr, rfl⟩
      obtain ⟨hmem, hlink, hocc, hend⟩ := mem_liveReservations.mp hr
      obtain ⟨r', hr', hid, hocc'⟩ := hopen
      refine ⟨p, l, r', hlinked.mpr hl, huser, ?_⟩
      cases h.origin r' hr' hocc' with
      | same r₁ hr₁ hclaim =>
          obtain rfl := Table.eq_of_key_eq hr₁ hmem (hclaim.id.symm.trans hid)
          refine ⟨mem_liveReservations.mpr ⟨hr', hclaim.accountLinkId.trans hlink, hocc', ?_⟩,
            hclaim.itemOf_eq l⟩
          rw [hclaim.endAt]
          exact hend
      | elsewhere r₁ hr₁ hid₁ _ _ hhidden =>
          obtain rfl := Table.eq_of_key_eq hr₁ hmem (hid₁.symm.trans hid)
          rw [hlink] at hhidden
          exact absurd hl.shownOn hhidden
      | new hfresh _ => exact absurd hid.symm (hfresh r hmem)
    · rintro ⟨p, l, r', hl, huser, hr', rfl⟩
      have hl := hlinked.mp hl
      obtain ⟨hmem', hlink', hocc', hend'⟩ := mem_liveReservations.mp hr'
      cases h.origin r' hmem' hocc' with
      | same r hmem hclaim =>
          refine ⟨p, l, r, hl, huser, mem_liveReservations.mpr
            ⟨hmem, hclaim.accountLinkId.symm.trans hlink', ?_, ?_⟩, (hclaim.itemOf_eq l).symm⟩
          · rw [Reservation.occupies, ← hclaim.status]
            exact hocc'
          · rw [← hclaim.endAt]
            exact hend'
      | elsewhere r hmem _ hlink _ hhidden =>
          rw [← hlink, hlink'] at hhidden
          exact absurd hl.shownOn hhidden
      | new _ hhidden =>
          rw [hlink'] at hhidden
          exact absurd hend' (not_le.mpr (hhidden hl.shownOn))
  · rintro id ⟨r, hr, rfl⟩
    exact h.stays r hr
  · rintro id ⟨r, hr, rfl⟩ ⟨r', hr', hid, hocc'⟩
    cases h.origin r' hr' hocc' with
    | same r₁ hr₁ hclaim =>
        refine ⟨r₁, hr₁, hclaim.id.symm.trans hid, ?_⟩
        rw [Reservation.occupies, ← hclaim.status]
        exact hocc'
    | elsewhere r₁ hr₁ hid₁ _ hopen _ => exact ⟨r₁, hr₁, hid₁.symm.trans hid, hopen⟩
    | new hfresh _ => exact absurd hid.symm (hfresh r hr)

theorem viewOfRows_of_eq (h : db' = db) : ViewOfRows serverId db clock db' :=
  ⟨by rw [h], by rw [h], fun r hr => ⟨r, h ▸ hr, rfl⟩, fun r' hr' _ => .same r' (h ▸ hr') (.refl r')⟩

/-- Rewriting one row. -/
theorem viewOfRows_put {row row' : Reservation} (haccounts : db'.physicalAccounts = db.physicalAccounts)
    (hlinks : db'.accountLinks = db.accountLinks)
    (hrows : db'.reservations = db.reservations.put row') (hrow : row ∈ db.reservations)
    (hid : row'.id = row.id)
    (h : row'.occupies = true → ViewOrigin serverId db clock row') :
    ViewOfRows serverId db clock db' := by
  refine ⟨haccounts, hlinks, fun r hr => ?_, fun r' hr' hocc => ?_⟩
  · by_cases hk : row'.id = r.id
    · refine ⟨row', ?_, hk⟩
      rw [hrows]
      exact Table.mem_of_get? (Table.get?_put_self
        ((congrArg db.reservations.get? hid).trans (Table.get?_key hrow)))
    · refine ⟨r, ?_, rfl⟩
      rw [hrows]
      exact Table.mem_of_get? ((Table.get?_put_ne hk).trans (Table.get?_key hr))
  · rw [hrows] at hr'
    rcases Table.mem_put hr' with rfl | hold
    · exact h hocc
    · exact .same r' hold (.refl r')

/-- A row that is closed, or shows what it showed. -/
theorem viewOfRows_write {row row' : Reservation} {entries : List AuditEntry}
    (hrow : row ∈ db.reservations) (hid : row'.id = row.id)
    (h : row'.occupies = true → SameClaim row row') :
    ViewOfRows serverId db clock (db.write row' entries) :=
  viewOfRows_put rfl rfl rfl hrow hid fun hocc => .same row hrow (h hocc)

/-- Rewriting every row. -/
theorem viewOfRows_map {f : Reservation → Reservation}
    (haccounts : db'.physicalAccounts = db.physicalAccounts)
    (hlinks : db'.accountLinks = db.accountLinks)
    (hrows : db'.reservations.rows = db.reservations.rows.map f) (hid : ∀ r, (f r).id = r.id)
    (h : ∀ r ∈ db.reservations, (f r).occupies = true → ViewOrigin serverId db clock (f r)) :
    ViewOfRows serverId db clock db' := by
  refine ⟨haccounts, hlinks, fun r hr => ⟨f r, ?_, hid r⟩, fun r' hr' hocc => ?_⟩
  · rw [Table.mem_def, hrows]
    exact List.mem_map.mpr ⟨r, hr, rfl⟩
  · rw [Table.mem_def, hrows] at hr'
    obtain ⟨r, hr, rfl⟩ := List.mem_map.mp hr'
    exact h r hr hocc

theorem viewOfRows_book {req : BatchRequest} {groupId : String} {now : Time}
    {created : List Reservation} (h : createReservationBatch db req groupId now = .ok (db', created))
    (htouched : serverId ∉ touched db clock (.book req groupId now)) :
    ViewOfRows serverId db clock db' := by
  obtain ⟨hbooked, -⟩ := createReservationBatch_ok h
  refine ⟨hbooked.physicalAccounts, hbooked.accountLinks, fun r hr => ⟨r, ?_, rfl⟩, fun r' hr' _ => ?_⟩
  · rw [Table.mem_def, hbooked.reservations]
    exact List.mem_append_left _ hr
  · rw [Table.mem_def, hbooked.reservations] at hr'
    rcases List.mem_append.mp hr' with hold | hnew
    · exact .same r' hold (.refl r')
    · obtain ⟨b, hb, id, hid, rfl⟩ := Table.mem_freshRows hnew
      obtain ⟨⟨item, idx⟩, hitem, rfl⟩ := List.mem_map.mp hb
      refine .new (fun r hr hkey => ?_) fun hshown => ?_
      · exact absurd (Table.key_lt_nextKey hr) (not_lt.mpr (hid.trans (le_of_eq hkey.symm)))
      · -- the item's window is over, or its server would be touched
        by_contra hlate
        refine htouched ?_
        rw [touched, h]
        exact List.mem_filterMap.mpr ⟨item, List.mem_filter.mpr
          ⟨(List.mem_zipIdx' hitem).2 ▸ List.getElem_mem _, decide_eq_true (not_lt.mp hlate)⟩, hshown⟩

theorem movesWindow_eq_false {req : ModifyRequest} {row : Reservation}
    (h : movesWindow req row = false) : SameWindow req row := by
  simp only [movesWindow, Bool.or_eq_false_iff, Option.any_eq_false, ne_eq, decide_not,
    Bool.not_eq_false', decide_eq_true_eq] at h
  exact ⟨fun t ht => h.1 t ht, fun t ht => h.2 t ht⟩

/-- An edit that keeps the window shows the same item. -/
theorem sameClaim_patched {req : ModifyRequest} {actorUserId : Nat} {now : Time} {row : Reservation}
    {a : Attrs} (hedit : Patched db req actorUserId now row a) (hwindow : SameWindow req row) :
    SameClaim row (a.flushed row) := by
  have hsame := flushed_assignWindow_eq_iff.mpr hwindow
  have hstart := congrArg Reservation.startAt hsame
  have hend := congrArg Reservation.endAt hsame
  refine ⟨rfl, rfl, rfl, ?_, ?_, rfl, rfl, rfl⟩
  · rw [Attrs.flushed, hedit.startAt]
    exact hstart
  · rw [Attrs.flushed, hedit.endAt]
    exact hend

theorem viewOfRows_patch (req : ModifyRequest) (actorUserId : Nat) (now : Time)
    (htouched : serverId ∉ touched db clock (.patch req actorUserId now)) :
    ViewOfRows serverId db clock (patchReservation db req actorUserId now).1 := by
  have hput : ∀ row a, Patched db req actorUserId now row a → ∀ entries,
      ViewOfRows serverId db clock (db.write (a.flushed row) entries) := by
    intro row a hedit entries
    have hrow : row ∈ db.reservations := Table.mem_of_get? hedit.stored
    refine viewOfRows_put rfl rfl rfl hrow rfl fun hocc => ?_
    cases hmoves : movesWindow req row with
    | false => exact .same row hrow (sameClaim_patched hedit (movesWindow_eq_false hmoves))
    | true =>
        refine .elsewhere row hrow rfl rfl hocc fun hshown => htouched ?_
        simp [touched, hedit.stored, hedit.editable, Except.isOk, Except.toBool, hmoves, hshown]
  cases patchReservation_cases db req actorUserId now with
  | same hsame => exact viewOfRows_of_eq hsame
  | refused row a hedit heq =>
      have hwrite := hput row a hedit []
      rw [Db.write, Db.auditAll, List.append_nil] at hwrite
      rw [heq]
      exact hwrite
  | accepted row a hedit heq =>
      rw [heq]
      exact hput row a hedit [reservationAudit .reservationModify (some actorUserId) (a.flushed row)]

/-- A row that is open after a tick shows its old item, or was started by the tick. -/
theorem sameClaim_tickRow {now : Time} {r : Reservation} (h : (tickRow db now r).occupies = true) :
    SameClaim r (tickRow db now r) ∨ r.status = .scheduled ∧ r.startAt ≤ now ∧ now < r.endAt := by
  have hstatus : (tickRow db now r).status = (rowAtDispatch db now r).status := by
    cases tickCase db now r with
    | dispatched _ row _ | retried _ row _ | healed _ row _ => rw [row]
    | gaveUp _ row _ =>
        rw [row] at h
        cases h
    | idle row _ => rw [row]
  obtain ⟨status, reason, scriptStatus, marker, hrow⟩ := tickRow_eq db now r
  have hsame : (tickRow db now r).status = r.status → SameClaim r (tickRow db now r) := by
    intro hs
    refine ⟨?_, ?_, ?_, ?_, ?_, hs, ?_, ?_⟩
    all_goals rw [hrow]
  rw [Reservation.occupies, hstatus] at h
  rw [hstatus] at hsame
  have hclosed : ∀ q, (rowAfter (closeEffect db now) q).status.occupies = true →
      (dueToEnd now q && hasServer db q) = false ∧ rowAfter (closeEffect db now) q = q := by
    intro q
    unfold rowAfter closeEffect
    split
    · exact fun hocc => absurd (show (closedRow q).occupies = true from hocc)
        (Bool.eq_false_iff.mp (not_occupies_closedRow q))
    · next hend => exact fun _ => ⟨Bool.eq_false_iff.mpr hend, rfl⟩
  obtain ⟨hend, hopen⟩ := hclosed _ h
  cases hstart : dueToStart now r && hasServer db r with
  | false =>
      have hpromote : rowAfter (promoteEffect db now) r = r := by
        simp [rowAfter, promoteEffect, hstart]
      refine Or.inl (hsame ?_)
      rw [rowAtDispatch, hopen, hpromote]
  | true =>
      have hpromote : rowAfter (promoteEffect db now) r = { r with status := .active } := by
        simp [rowAfter, promoteEffect, hstart]
      obtain ⟨hdue, hserver⟩ := (Bool.and_eq_true _ _).mp hstart
      simp only [dueToStart, Bool.and_eq_true, decide_eq_true_eq] at hdue
      -- a row whose end has passed as well would have been closed
      have hserver' : hasServer db { r with status := .active } = true := hserver
      rw [hpromote, hserver', Bool.and_true] at hend
      simp only [dueToEnd, decide_true, Bool.true_and, decide_eq_false_iff_not, not_le] at hend
      exact Or.inr ⟨hdue.1, hdue.2, hend⟩

theorem viewOfRows_tick {now : Time} {s : TickSession} (h : TickResult db now s)
    (htouched : serverId ∉ touched db clock (.tick now)) : ViewOfRows serverId db clock s.db := by
  refine viewOfRows_map h.context.physicalAccounts h.context.accountLinks h.rows (tickRow_id db now)
    fun r hr hocc => ?_
  rcases sameClaim_tickRow hocc with hclaim | ⟨hscheduled, hwindow⟩
  · exact .same r hr hclaim
  · obtain ⟨_, _, _, _, hrow⟩ := tickRow_eq db now r
    refine .elsewhere r hr (tickRow_id db now r) (by rw [hrow]) ?_ fun hshown => htouched ?_
    · rw [Reservation.occupies, hscheduled]
      rfl
    · refine List.mem_filterMap.mpr ⟨r, List.mem_filter.mpr ⟨hr, ?_⟩, hshown⟩
      simp [hscheduled, hwindow.1, hwindow.2]

theorem viewOfRows_cancel {id actorUserId : Nat} {actorCanAdmin : Bool} {reason : Option String}
    {now : Time} (h : cancelReservation db id actorUserId actorCanAdmin reason now = .ok db') :
    ViewOfRows serverId db clock db' := by
  obtain ⟨r, hr, -, rfl⟩ := cancelReservation_ok h
  exact viewOfRows_write (Table.mem_of_get? hr) rfl nofun

theorem viewOfRows_cancelGroup {groupId : String} {actorUserId : Nat} {actorCanAdmin : Bool}
    {reason : Option String} {now : Time}
    (h : cancelGroup db groupId actorUserId actorCanAdmin reason now = .ok db') :
    ViewOfRows serverId db clock db' := by
  obtain ⟨first, -, -, -, rfl⟩ := cancelGroup_eq h
  refine viewOfRows_map rfl rfl rfl (groupRow_id groupId actorUserId reason now) fun r hr hocc => ?_
  unfold groupRow at hocc ⊢
  split
  · next hin =>
      rw [if_pos hin] at hocc
      cases hocc
  · exact .same r hr (.refl r)

end Rows

/-! ### links and accounts -/

/-- What the store's constraints say of the tables a sync reads: active accounts have
their names for themselves, and the foreign keys of links and reservations refer to
rows. -/
structure Constrained (db : Db) : Prop where
  account : AccountsUnique db
  linkAccount : ∀ l ∈ db.accountLinks.rows, (db.physicalAccounts.get? l.physicalAccountId).isSome
  reservationLink : ∀ r ∈ db.reservations.rows, (db.accountLinks.get? r.accountLinkId).isSome

instance (db : Db) : Decidable (AccountsUnique db) :=
  inferInstanceAs (Decidable (∀ p ∈ db.physicalAccounts.rows, ∀ q ∈ db.physicalAccounts.rows, _))

instance (db : Db) : Decidable (Constrained db) :=
  decidable_of_iff
    (AccountsUnique db ∧
      (∀ l ∈ db.accountLinks.rows, (db.physicalAccounts.get? l.physicalAccountId).isSome) ∧
      ∀ r ∈ db.reservations.rows, (db.accountLinks.get? r.accountLinkId).isSome)
    ⟨fun ⟨h₁, h₂, h₃⟩ => ⟨h₁, h₂, h₃⟩, fun h => ⟨h.account, h.linkAccount, h.reservationLink⟩⟩

section Links

variable {serverId : Nat} {db db' : Db} {clock : Time}

/-- An operation on links and accounts after which the same accounts are linked. -/
theorem sameView_of_linked (hrows : db'.reservations = db.reservations)
    (h : ∀ name p l, Linked db' serverId name p l ↔ Linked db serverId name p l) :
    SameView serverId db clock db' clock := by
  have hlive : ∀ l, liveReservations db' clock l = liveReservations db clock l := by
    intro l
    rw [liveReservations, liveReservations, hrows]
  refine ⟨fun name u => ?_, fun name u x _ => ?_, fun id hid => hrows ▸ hid, fun id _ hopen => ?_⟩
  · simp only [ShowsUser, h]
  · simp only [ShowsItem, h, hlive]
  · rw [StillOpen, hrows] at hopen
    exact hopen

/-- An operation on neither of the three tables. -/
theorem sameView_of_tables (hrows : db'.reservations = db.reservations)
    (haccounts : db'.physicalAccounts = db.physicalAccounts)
    (hlinks : db'.accountLinks = db.accountLinks) : SameView serverId db clock db' clock :=
  sameView_of_linked hrows fun _ _ _ => linked_congr haccounts hlinks

/-- A new link to an account that the server's syncs do not show. -/
theorem linked_append (haccounts : db'.physicalAccounts = db.physicalAccounts)
    {b : Table.Insertion AccountLink} (hlinks : db'.accountLinks = db.accountLinks.append b)
    (hhidden : activeServer db (b.1 db.accountLinks.nextKey).physicalAccountId ≠ some serverId)
    (name : String) (p : PhysicalAccount) (l : AccountLink) :
    Linked db' serverId name p l ↔ Linked db serverId name p l := by
  have hmem : l ∈ db'.accountLinks ↔ l ∈ db.accountLinks ∨ l = b.1 db.accountLinks.nextKey := by
    rw [Table.mem_def, hlinks, Table.rows_append, List.mem_append, List.mem_singleton]
    rfl
  constructor
  · rintro ⟨hp, hserver, hname, hactive, hl⟩
    rw [haccounts] at hp
    obtain ⟨hl, hpa, hlactive⟩ := mem_linksOf.mp hl
    rcases hmem.mp hl with hold | rfl
    · exact ⟨hp, hserver, hname, hactive, mem_linksOf.mpr ⟨hold, hpa, hlactive⟩⟩
    · exact absurd (activeServer_eq_some_iff.mpr ⟨p, hpa ▸ Table.get?_key hp, hactive, hserver⟩) hhidden
  · rintro ⟨hp, hserver, hname, hactive, hl⟩
    obtain ⟨hl, hpa, hlactive⟩ := mem_linksOf.mp hl
    exact ⟨haccounts ▸ hp, hserver, hname, hactive, mem_linksOf.mpr ⟨hmem.mpr (Or.inl hl), hpa, hlactive⟩⟩

/-- New accounts have no links yet. -/
theorem linked_newAccounts (hdb : Constrained db)
    (haccounts : db.physicalAccounts.Extends Eq db'.physicalAccounts)
    (hlinks : db'.accountLinks = db.accountLinks) (name : String) (p : PhysicalAccount)
    (l : AccountLink) : Linked db' serverId name p l ↔ Linked db serverId name p l := by
  have hof : linksOf db' p = linksOf db p := by rw [linksOf, linksOf, hlinks]
  constructor
  · rintro ⟨hp, hserver, hname, hactive, hl⟩
    rw [hof] at hl
    obtain ⟨hmem, hpa, -⟩ := mem_linksOf.mp hl
    obtain ⟨q, hq⟩ := Option.isSome_iff_exists.mp (hdb.linkAccount l hmem)
    obtain ⟨q', hq', rfl⟩ := haccounts _ _ hq
    obtain rfl : q = p :=
      Table.eq_of_key_eq (Table.mem_of_get? hq') hp ((Table.key_of_get? hq).trans hpa)
    exact ⟨Table.mem_of_get? hq, hserver, hname, hactive, hl⟩
  · rintro ⟨hp, hserver, hname, hactive, hl⟩
    obtain ⟨p', hp', rfl⟩ := haccounts _ _ (Table.get?_key hp)
    exact ⟨Table.mem_of_get? hp', hserver, hname, hactive, hof ▸ hl⟩

/-- Deactivating an account whose links the server's syncs do not show. -/
theorem linked_deleted {pa : PhysicalAccount} (hpa : pa ∈ db.physicalAccounts)
    (haccounts : db'.physicalAccounts = db.physicalAccounts.put { pa with isActive := false })
    (hlinks : db'.accountLinks = db.accountLinks)
    (hhidden : pa.isActive = true → linksOf db pa ≠ [] → pa.serverId ≠ serverId)
    (name : String) (p : PhysicalAccount) (l : AccountLink) :
    Linked db' serverId name p l ↔ Linked db serverId name p l := by
  have hof : linksOf db' p = linksOf db p := by rw [linksOf, linksOf, hlinks]
  constructor
  · rintro ⟨hp, hserver, hname, hactive, hl⟩
    rw [haccounts] at hp
    rcases Table.mem_put hp with rfl | hold
    · cases hactive
    · exact ⟨hold, hserver, hname, hactive, hof ▸ hl⟩
  · rintro ⟨hp, hserver, hname, hactive, hl⟩
    refine ⟨?_, hserver, hname, hactive, hof.symm ▸ hl⟩
    rw [haccounts]
    refine Table.mem_of_get? ((Table.get?_put_ne fun hkey => ?_).trans (Table.get?_key hp))
    obtain rfl : pa = p := Table.eq_of_key_eq hpa hp hkey
    exact hhidden hactive (List.ne_nil_of_mem hl) hserver

/-- Deactivating a link that the server's syncs do not show. -/
theorem linked_revoked {link link' : AccountLink} (hlink : link ∈ db.accountLinks)
    (haccounts : db'.physicalAccounts = db.physicalAccounts)
    (hlinks : db'.accountLinks = db.accountLinks.put link') (hid : link'.id = link.id)
    (hinactive : link'.isActive = false)
    (hhidden : link.isActive = true → activeServer db link.physicalAccountId ≠ some serverId)
    (name : String) (p : PhysicalAccount) (l : AccountLink) :
    Linked db' serverId name p l ↔ Linked db serverId name p l := by
  constructor
  · rintro ⟨hp, hserver, hname, hactive, hl⟩
    obtain ⟨hl, hpa, hlactive⟩ := mem_linksOf.mp hl
    rw [hlinks] at hl
    rcases Table.mem_put hl with rfl | hold
    · rw [hinactive] at hlactive
      cases hlactive
    · exact ⟨haccounts ▸ hp, hserver, hname, hactive, mem_linksOf.mpr ⟨hold, hpa, hlactive⟩⟩
  · intro h
    obtain ⟨hl, hpa, hlactive⟩ := mem_linksOf.mp h.link
    refine ⟨haccounts ▸ h.account, h.server, h.username, h.active, mem_linksOf.mpr ⟨?_, hpa, hlactive⟩⟩
    rw [hlinks]
    refine Table.mem_of_get? ((Table.get?_put_ne fun hkey => ?_).trans (Table.get?_key hl))
    obtain rfl : link = l := Table.eq_of_key_eq hlink hl (hid.symm.trans hkey)
    exact hhidden hlactive h.activeServer

/-- The link that a user has to an account. -/
theorem existingActiveLink_some {userId paId : Nat} {l : AccountLink}
    (h : existingActiveLink db userId paId = some l) :
    l ∈ db.accountLinks ∧ l.userId = userId ∧ l.physicalAccountId = paId ∧ l.isActive = true := by
  have hfound := List.find?_some h
  simp only [Bool.and_eq_true, decide_eq_true_eq] at hfound
  exact ⟨List.mem_of_find?_eq_some h, hfound.1.1, hfound.1.2, hfound.2⟩

/-- A link that takes the place of one without live bookings, of the same user to the
same account. -/
theorem sameView_replaced (hdb : Constrained db) {old old' : AccountLink}
    {b : Table.Insertion AccountLink} (hold : old ∈ db.accountLinks)
    (hactive : old.isActive = true) (hid : old'.id = old.id) (hinactive : old'.isActive = false)
    (hrows : db'.reservations = db.reservations)
    (haccounts : db'.physicalAccounts = db.physicalAccounts)
    (hlinks : db'.accountLinks = (db.accountLinks.put old').append b)
    (hlive : liveReservations db clock old = [])
    (hnew : ∀ k, (b.1 k).userId = old.userId ∧ (b.1 k).physicalAccountId = old.physicalAccountId ∧
      (b.1 k).isActive = true) : SameView serverId db clock db' clock := by
  have hget : db.accountLinks.get? old'.id = some old := hid ▸ Table.get?_key hold
  have hliveOf : ∀ l, liveReservations db' clock l = liveReservations db clock l := by
    intro l
    rw [liveReservations, liveReservations, hrows]
  have hnewMem : b.1 (db.accountLinks.put old').nextKey ∈ db'.accountLinks := by
    rw [hlinks, Table.mem_def, Table.rows_append]
    exact List.mem_append_right _ (List.mem_singleton_self _)
  -- the other links stay, and there is only the new one beside them
  have hkept : ∀ name p l, l.id ≠ old.id → Linked db serverId name p l → Linked db' serverId name p l := by
    intro name p l hne h
    obtain ⟨hl, hpa, hlactive⟩ := mem_linksOf.mp h.link
    refine ⟨haccounts ▸ h.account, h.server, h.username, h.active, mem_linksOf.mpr ⟨?_, hpa, hlactive⟩⟩
    rw [hlinks]
    exact Table.mem_of_get? (Table.get?_append
      ((Table.get?_put_ne fun hkey => hne (hkey.symm.trans hid)).trans (Table.get?_key hl)))
  have hback : ∀ name p l, Linked db' serverId name p l →
      l = b.1 (db.accountLinks.put old').nextKey ∨ Linked db serverId name p l := by
    rintro name p l ⟨hp, hserver, hname, hpactive, hl⟩
    obtain ⟨hl, hpa, hlactive⟩ := mem_linksOf.mp hl
    rw [hlinks, Table.mem_def, Table.rows_append] at hl
    rcases List.mem_append.mp hl with hput | hb
    · rcases Table.mem_put hput with rfl | hmem
      · rw [hinactive] at hlactive
        cases hlactive
      · exact Or.inr ⟨haccounts ▸ hp, hserver, hname, hpactive, mem_linksOf.mpr ⟨hmem, hpa, hlactive⟩⟩
    · exact Or.inl (List.mem_singleton.mp hb)
  have hfresh : ∀ r ∈ db.reservations, r.accountLinkId ≠ (db.accountLinks.put old').nextKey := by
    intro r hr hkey
    obtain ⟨l, hl⟩ := Option.isSome_iff_exists.mp (hdb.reservationLink r hr)
    obtain ⟨s, hs, -⟩ := Table.extends_put (R := fun _ _ => True) (fun _ => True.intro) hget
      True.intro _ _ hl
    have hlt := Table.key_lt_nextKey (Table.mem_of_get? hs)
    rw [Table.key_of_get? hs, hkey] at hlt
    exact lt_irrefl _ hlt
  refine ⟨fun name u => ?_, fun name u x _ => ?_, fun id hmem => hrows ▸ hmem, fun id _ hopen => ?_⟩
  · constructor
    · rintro ⟨p, l, h, rfl⟩
      by_cases hl : l.id = old.id
      · obtain rfl : l = old := Table.eq_of_key_eq (mem_linksOf.mp h.link).1 hold hl
        obtain ⟨huser, hpa, hbactive⟩ := hnew (db.accountLinks.put old').nextKey
        exact ⟨p, _, ⟨haccounts ▸ h.account, h.server, h.username, h.active,
          mem_linksOf.mpr ⟨hnewMem, hpa.trans (mem_linksOf.mp h.link).2.1, hbactive⟩⟩, huser⟩
      · exact ⟨p, l, hkept name p l hl h, rfl⟩
    · rintro ⟨p, l, h, rfl⟩
      rcases hback name p l h with rfl | hlinked
      · obtain ⟨huser, hpa, -⟩ := hnew (db.accountLinks.put old').nextKey
        exact ⟨p, old, ⟨haccounts ▸ h.account, h.server, h.username, h.active,
          mem_linksOf.mpr ⟨hold, hpa.symm.trans (mem_linksOf.mp h.link).2.1, hactive⟩⟩, huser.symm⟩
      · exact ⟨p, l, hlinked, rfl⟩
  · constructor
    · rintro ⟨p, l, r, h, huser, hr, hx⟩
      refine ⟨p, l, r, hkept name p l (fun hl => ?_) h, huser, (hliveOf l).symm ▸ hr, hx⟩
      obtain rfl : l = old := Table.eq_of_key_eq (mem_linksOf.mp h.link).1 hold hl
      rw [hlive] at hr
      cases hr
    · rintro ⟨p, l, r, h, huser, hr, hx⟩
      rw [hliveOf] at hr
      rcases hback name p l h with rfl | hlinked
      · obtain ⟨hmem, hlink, -⟩ := mem_liveReservations.mp hr
        exact absurd (hlink.trans (b.2 _)) (hfresh r hmem)
      · exact ⟨p, l, r, hlinked, huser, hr, hx⟩
  · rw [StillOpen, hrows] at hopen
    exact hopen

end Links

/-! ## one operation -/

section Step

variable {serverId : Nat} {db db' : Db} {clock : Time}

theorem sameView_settle {ε : Type} {result : Except ε Db}
    (h : ∀ db', result = .ok db' → SameView serverId db clock db' clock) :
    SameView serverId db clock (Operations.settle db result) clock := by
  cases result with
  | ok db' => exact h db' rfl
  | error e => exact .refl serverId db clock

theorem sameView_insertLink {userId paId serverId' actorUserId : Nat} {source : LinkSource}
    {action : AuditAction} (h : insertLink db userId paId serverId' source action actorUserId = .ok db')
    (hhidden : existingActiveLink db userId paId = none → activeServer db paId ≠ some serverId) :
    SameView serverId db clock db' clock := by
  unfold insertLink at h
  split at h
  · cases h
  · next hnone =>
      rw [← Except.ok.inj h]
      exact sameView_of_linked rfl
        (linked_append (b := newLink userId paId source) rfl rfl (hhidden hnone))

theorem sameView_upgrade (hdb : Constrained db) {userId paId serverId' : Nat} {now : Time}
    (h : upgradeAdminDeclaredToSsh db userId paId serverId' now = .ok db')
    (htouched : serverId ∉ touched db clock (.upgradeLink userId paId serverId' now)) :
    SameView serverId db clock db' clock := by
  unfold upgradeAdminDeclaredToSsh at h
  split at h
  · cases h
  · next old hfound =>
      obtain ⟨hold, huser, hpa, hactive⟩ := existingActiveLink_some hfound
      dsimp only at h
      split at h
      · cases h
      · next hdeclared =>
          rw [← Except.ok.inj h]
          simp only [touched, hfound, not_not.mp hdeclared, decide_true, Bool.true_and,
            Bool.not_eq_true', List.isEmpty_eq_false_iff] at htouched
          by_cases hlive : liveReservations db clock old = []
          · exact sameView_replaced (b := newLink userId paId .sshChallenge) hdb hold hactive
              (old.revoked_id userId .upgradedToVerified now)
              (old.revoked_isActive userId .upgradedToVerified now) rfl rfl rfl hlive
              fun _ => ⟨huser.symm, hpa.symm, rfl⟩
          · -- then the account is not one that the server's syncs show
            simp only [ne_eq, hlive, not_false_eq_true, if_true, Option.mem_toList,
              ← hpa] at htouched
            have hrevoked : ∀ name p l, Linked
                { db with accountLinks := db.accountLinks.put (old.revoked userId .upgradedToVerified now) }
                serverId name p l ↔ Linked db serverId name p l :=
              linked_revoked hold rfl rfl (old.revoked_id userId .upgradedToVerified now)
                (old.revoked_isActive userId .upgradedToVerified now) fun _ => htouched
            refine sameView_of_linked (by rfl) fun name p l => ?_
            rw [← hrevoked name p l]
            refine linked_append (b := newLink userId paId .sshChallenge) ?_ ?_ ?_ name p l
            · rfl
            · rfl
            · exact show activeServer db paId ≠ some serverId from hpa ▸ htouched

theorem sameView_revokeLink {linkId labId actorUserId : Nat} {reason : RevokeReason} {now : Time}
    (h : revokeLink db linkId labId actorUserId reason now = .ok db')
    (htouched : serverId ∉ touched db clock (.revokeLink linkId labId actorUserId reason now)) :
    SameView serverId db clock db' clock := by
  rw [revokeLink, bind_eq_ok_iff] at h
  obtain ⟨⟨link, pa⟩, hload, h⟩ := h
  dsimp only at h
  split at h
  · next hactive =>
      rw [← Except.ok.inj h]
      rw [touched, hload] at htouched
      -- the account was loaded with the link
      have hloaded : link ∈ db.accountLinks ∧ db.physicalAccounts.get? link.physicalAccountId = some pa := by
        unfold loadLinkInLab at hload
        split at hload
        · cases hload
        · next l hl =>
            split at hload
            · cases hload
            · next q hq =>
                split at hload
                · cases hload
                · obtain ⟨rfl, rfl⟩ := Prod.mk.inj (Except.ok.inj hload)
                  exact ⟨Table.mem_of_get? hl, hq⟩
      refine sameView_of_linked rfl (linked_revoked hloaded.1 rfl rfl rfl rfl fun _ hshown => ?_)
      obtain ⟨q, hq, hqactive, rfl⟩ := activeServer_eq_some_iff.mp hshown
      obtain rfl := Option.some.inj (hloaded.2.symm.trans hq)
      simp [hactive, hqactive] at htouched
  · cases h

theorem sameView_deleteAccount {paId actorUserId labId : Nat}
    (h : deleteAccount db paId actorUserId labId = .ok db')
    (htouched : serverId ∉ touched db clock (.deleteAccount paId actorUserId labId)) :
    SameView serverId db clock db' clock := by
  unfold deleteAccount at h
  split at h
  · cases h
  · next pa hpa =>
      split at h
      · cases h
      · next hlab =>
          split at h
          · rw [← Except.ok.inj h]
            exact .refl serverId db clock
          · rw [← Except.ok.inj h]
            refine sameView_of_linked rfl
              (linked_deleted (Table.mem_of_get? hpa) rfl rfl fun hactive hlinks hserver => htouched ?_)
            have hlab : serverInLab db pa.serverId labId = true := by simpa using hlab
            have hsome : (linksOf db pa).isEmpty = false := List.isEmpty_eq_false_iff.mpr hlinks
            simp [touched, hpa, hlab, hactive, hsome, ← hserver]

theorem sameView_createAccount (hdb : Constrained db) {serverId' actorUserId labId : Nat}
    {linuxUsername : String}
    (h : createAccount db serverId' linuxUsername actorUserId labId = .ok db') :
    SameView serverId db clock db' clock := by
  unfold createAccount at h
  split at h
  · cases h
  · split at h
    · cases h
    · rw [← Except.ok.inj h]
      exact sameView_of_linked rfl
        (linked_newAccounts hdb (Table.extends_append (fun _ => rfl) _ _) rfl)

open AgentWs Operations in
/-- A frame from an agent changes no item, and only adds accounts. -/
theorem sameView_frame {b b' : Backend} {f : Frame} (hdb : Constrained b.db)
    (h : FrameEffect b f b') : SameView serverId b.db clock b'.db clock := by
  cases h with
  | quiet => exact .refl serverId b.db clock
  | telemetry _ gpus _ => exact sameView_of_tables (by rfl) (by rfl) (by rfl)
  | audited _ e => exact sameView_of_tables (by rfl) (by rfl) (by rfl)
  | scanned _ accounts entries hextends => exact sameView_of_linked rfl (linked_newAccounts hdb hextends rfl)
  | started p db' h =>
      cases h with
      | unknown _ eq | stale _ _ _ eq => exact sameView_of_rows (viewOfRows_of_eq eq)
      | recorded row row' entries hrow _ booking _ _ _ _ _ eq =>
          have hmem : row ∈ b.db.reservations := Table.mem_of_get? (findReservation_eq_some hrow).2
          exact eq ▸ sameView_of_rows
            (viewOfRows_write hmem booking.id fun _ => sameClaim_of_sameBooking booking)
  | outputChunk p =>
      rcases onScriptOutputChunk_cases b.db p with heq | ⟨row, row', hrow, -, booking, -, -, heq⟩
      · exact sameView_of_rows (viewOfRows_of_eq heq)
      · have hmem : row ∈ b.db.reservations := Table.mem_of_get? (findReservation_eq_some hrow).2
        dsimp only
        rw [heq]
        exact sameView_of_rows
          (viewOfRows_write hmem booking.id fun _ => sameClaim_of_sameBooking booking)
  | finished p db' kills' h =>
      cases h with
      | unknown _ eq _ | stale _ _ _ eq _ => exact sameView_of_rows (viewOfRows_of_eq eq)
      | ended row row' entries hrow _ booking _ _ _ eq _ =>
          have hmem : row ∈ b.db.reservations := Table.mem_of_get? (findReservation_eq_some hrow).2
          exact eq ▸ sameView_of_rows
            (viewOfRows_write hmem booking.id fun _ => sameClaim_of_sameBooking booking)

/-- **One operation**: a server that an operation does not touch keeps its view. -/
theorem sameView_step {b b' : AgentWs.Backend} {op : Operations.Operation} (hdb : Constrained b.db)
    (h : Operations.step b op = some b') (htouched : serverId ∉ touched b.db clock op) :
    SameView serverId b.db clock b'.db clock := by
  have hhidden : ∀ userId paId, serverId ∉ (if (existingActiveLink b.db userId paId).isNone then
      (activeServer b.db paId).toList else []) → existingActiveLink b.db userId paId = none →
        activeServer b.db paId ≠ some serverId := by
    intro userId paId hnot hnone hshown
    rw [hnone, hshown] at hnot
    exact hnot (by simp)
  cases op with
  | frame serverId' f =>
      obtain rfl := Option.some.inj h
      exact sameView_frame hdb (Operations.frameEffect_receive b serverId' f)
  | book req groupId now =>
      obtain rfl := Option.some.inj h
      refine sameView_settle fun db' hdb' => ?_
      obtain ⟨⟨db, created⟩, hbook, rfl⟩ := map_eq_ok_iff.mp hdb'
      exact sameView_of_rows (viewOfRows_book hbook htouched)
  | patch req actorUserId now =>
      obtain rfl := Option.some.inj h
      exact sameView_of_rows (viewOfRows_patch req actorUserId now htouched)
  | cancel id actorUserId actorCanAdmin reason now =>
      obtain rfl := Option.some.inj h
      exact sameView_settle fun db' hdb' => sameView_of_rows (viewOfRows_cancel hdb')
  | cancelGroup groupId actorUserId actorCanAdmin reason now =>
      obtain rfl := Option.some.inj h
      exact sameView_settle fun db' hdb' => sameView_of_rows (viewOfRows_cancelGroup hdb')
  | tick now =>
      obtain rfl := Option.some.inj h
      refine sameView_settle fun db' hdb' => ?_
      obtain ⟨s, hs, rfl⟩ := map_eq_ok_iff.mp hdb'
      exact sameView_of_rows (viewOfRows_tick (tickBody_ok hs) htouched)
  | dispatchFailed d =>
      obtain rfl := Option.some.inj h
      exact sameView_of_tables (by rfl) (by rfl) (by rfl)
  | establishViaPam userId paId serverId' | establishViaSshChallenge userId paId serverId' =>
      obtain rfl := Option.some.inj h
      exact sameView_settle fun db' hdb' => sameView_insertLink hdb' (hhidden userId paId htouched)
  | adminDeclareLink paId ownerUserId declaredByUserId serverId' =>
      obtain rfl := Option.some.inj h
      exact sameView_settle fun db' hdb' => sameView_insertLink hdb' (hhidden ownerUserId paId htouched)
  | upgradeLink userId paId serverId' now =>
      obtain rfl := Option.some.inj h
      exact sameView_settle fun db' hdb' => sameView_upgrade hdb hdb' htouched
  | revokeLink linkId labId actorUserId reason now =>
      obtain rfl := Option.some.inj h
      exact sameView_settle fun db' hdb' => sameView_revokeLink hdb' htouched
  | createAccount serverId' linuxUsername actorUserId labId =>
      obtain rfl := Option.some.inj h
      exact sameView_settle fun db' hdb' => sameView_createAccount hdb hdb'
  | deleteAccount paId actorUserId labId =>
      obtain rfl := Option.some.inj h
      exact sameView_settle fun db' hdb' => sameView_deleteAccount hdb' htouched

end Step

end CoreLab
