import CoreLab.Lib.Dict
import CoreLab.Lib.Loops
import CoreLab.Models
import Mathlib.Data.List.Dedup
import Mathlib.Data.List.Sort

/-!
# CoreLab.LinkCache

The reverse-lookup cache, from the database to the agent: the payload of a full
sync, its validation by the wire model, the JSON dump of the validated frame,
and the agent's `reverse_cache` that takes it over.

* `validateEntries_payload` — every payload of a database whose reservations
  have a GPU is accepted;
* `get?_receiveFullSync` — the cache then holds, under a user name, what the
  database says about the one active account of that name;
* `mem_lookupActiveReservations` — and for a user of it exactly the live
  reservations booked through that user's links.
-/

namespace CoreLab

open Calendar Relational Loops

/-! ## the backend's payload -/

/-- `_iso` of a column: stamped as UTC. -/
def iso (t : Time) : String := String.ofList ((Datetime.utc t).isoformat 'T')

/-- One item of `active_reservations`, as `_entries_for_linux_users` writes it. -/
structure ReservationItem where
  reservationId : Nat
  gpuId : Option Nat
  startAt : String
  endAt : String
  status : ReservationStatus
  gpuMemoryMb : Option Nat
  gpuComputeSharePct : Option Nat
  source : LinkSource
deriving DecidableEq, Repr

/-- One Linux account of the payload; the items of a user stand under `str(user_id)`. -/
structure AccountLinkCacheEntry (ρ : Type) where
  linuxUsername : String
  userIds : List Nat
  activeReservations : Dict String (List ρ)

/-- The active links to an account. -/
def linksOf (db : Db) (p : PhysicalAccount) : List AccountLink :=
  db.accountLinks.rows.filter fun l => l.physicalAccountId = p.id && l.isActive

/-- The reservations of a link that are live or to come at `now`. -/
def liveReservations (db : Db) (now : Time) (l : AccountLink) : List Reservation :=
  db.reservations.rows.filter fun r =>
    r.accountLinkId = l.id && r.occupies && decide (now ≤ r.endAt)

def itemOf (l : AccountLink) (r : Reservation) : ReservationItem :=
  { reservationId := r.id, gpuId := r.gpuId, startAt := iso r.startAt, endAt := iso r.endAt
    status := r.status, gpuMemoryMb := r.gpuMemoryMb, gpuComputeSharePct := r.gpuComputeSharePct
    source := l.source }

/-- `sorted({user_id, …})`. -/
def userIdsOf (links : List AccountLink) : List Nat :=
  ((links.map (·.userId)).dedup).insertionSort (· ≤ ·)

/-- The items of an account's links, under the users of the links. -/
def activeReservationsOf (db : Db) (now : Time) (links : List AccountLink) :
    Dict String (List ReservationItem) :=
  links.foldl (fun d l =>
    (liveReservations db now l).foldl (fun d r => d.push (toString l.userId) (itemOf l r)) d) .empty

/-- The entry of an account. -/
def entryOf (db : Db) (now : Time) (p : PhysicalAccount) : AccountLinkCacheEntry ReservationItem :=
  { linuxUsername := p.linuxUsername
    userIds := userIdsOf (linksOf db p)
    activeReservations := activeReservationsOf db now (linksOf db p) }

/-- `_entries_for_linux_users`: one entry for each active account that has a link. -/
def entriesForLinuxUsers (db : Db) (serverId : Nat) (linuxUsernames : Option (List String))
    (now : Time) : List (AccountLinkCacheEntry ReservationItem) :=
  let pas := db.physicalAccounts.rows.filter fun p =>
    p.serverId = serverId && p.isActive && linuxUsernames.all (·.contains p.linuxUsername)
  pas.filterMap fun p => if (linksOf db p).isEmpty then none else some (entryOf db now p)

/-- `AccountLinkCacheSyncRequest` of a full sync, before or after validation. -/
structure AccountLinkCacheSync (ρ : Type) where
  serverId : Nat
  entries : List (AccountLinkCacheEntry ρ)

/-- `compose_full_payload`. -/
def composeFullPayload (db : Db) (serverId : Nat) (now : Time) :
    AccountLinkCacheSync ReservationItem :=
  { serverId := serverId, entries := entriesForLinuxUsers db serverId none now }

/-! ## the wire model -/

/-- How the frame library reads a datetime from a JSON string, and writes it. -/
structure DatetimeField where
  validate : String → Option Datetime
  dump : Datetime → String

/-- Both agree with ISO 8601 on what the backend sends. -/
structure DatetimeField.Lawful (field : DatetimeField) : Prop where
  validate_iso : ∀ t, InRange t → field.validate (iso t) = some (Datetime.utc t)
  fromisoformat_dump : ∀ t, InRange t →
    Datetime.fromisoformat (field.dump (Datetime.utc t)) = some (Datetime.utc t)

/-- `ActiveReservationSnapshot`. -/
structure ActiveReservationSnapshot where
  reservationId : Nat
  gpuId : Nat
  startAt : Datetime
  endAt : Datetime
  status : ReservationStatus
  gpuMemoryMb : Option Nat
  gpuComputeSharePct : Option Nat
  source : LinkSource

/-- Validate one item: a GPU id, two datetimes and a live status are required. -/
def validateItem? (field : DatetimeField) (x : ReservationItem) : Option ActiveReservationSnapshot :=
  x.gpuId.bind fun gpuId => (field.validate x.startAt).bind fun startAt =>
  (field.validate x.endAt).bind fun endAt =>
    if x.status.occupies then
      some { reservationId := x.reservationId, gpuId := gpuId, startAt := startAt, endAt := endAt
             status := x.status, gpuMemoryMb := x.gpuMemoryMb
             gpuComputeSharePct := x.gpuComputeSharePct, source := x.source }
    else none

/-- Validate one entry. -/
def validateEntry (field : DatetimeField) (e : AccountLinkCacheEntry ReservationItem) :
    Option (AccountLinkCacheEntry ActiveReservationSnapshot) :=
  (e.activeReservations.mapVals? fun items => items.mapM (validateItem? field)).map fun m =>
    { linuxUsername := e.linuxUsername, userIds := e.userIds, activeReservations := m }

/-- `parse_envelope`; `none` is the validation error that closes the connection. -/
def parseSync (field : DatetimeField) (payload : AccountLinkCacheSync ReservationItem) :
    Option (AccountLinkCacheSync ActiveReservationSnapshot) :=
  (payload.entries.mapM (validateEntry field)).map fun entries =>
    { serverId := payload.serverId, entries := entries }

/-- A frame library that writes UTC as `Z`. -/
def zuluField : DatetimeField :=
  { validate := Datetime.fromisoformat
    dump := fun d => String.ofList (isoText 'T' d.instant ++ ['Z']) }

theorem lawful_zuluField : zuluField.Lawful := by
  refine ⟨fun t ht => ?_, fun t ht => ?_⟩
  · simp only [zuluField, iso]
    exact Datetime.fromisoformat_isoformat_utc ht
  · simp only [zuluField, Datetime.instant_utc]
    exact Datetime.fromisoformat_zulu ht

/-! ## the agent's cache -/

/-- `ActiveReservation`, the times as text. -/
structure ActiveReservation where
  reservationId : Nat
  gpuId : Nat
  startAt : String
  endAt : String
  status : ReservationStatus
  gpuMemoryMb : Option Nat
  gpuComputeSharePct : Option Nat
  source : LinkSource
deriving DecidableEq, Repr

/-- `model_dump(mode="json")` of an item, and its fields as the cache takes them. -/
def dumpSnapshot (field : DatetimeField) (s : ActiveReservationSnapshot) : ActiveReservation :=
  { reservationId := s.reservationId, gpuId := s.gpuId, startAt := field.dump s.startAt
    endAt := field.dump s.endAt, status := s.status, gpuMemoryMb := s.gpuMemoryMb
    gpuComputeSharePct := s.gpuComputeSharePct, source := s.source }

/-- `CacheEntry`. -/
structure CacheEntry where
  userIds : List Nat
  activeReservations : Dict Nat (List ActiveReservation)

/-- `_cache`, by server and Linux user name. -/
abbrev ReverseCache := Dict (Nat × String) CacheEntry

/-- `int(text)` of decimal digits; `none` is its `ValueError`. -/
def readInt (s : String) : Option Nat :=
  if s.toList ≠ [] ∧ s.toList.all Char.isDigit then some (Nat.ofDigitChars 10 s.toList 0) else none

/-- `_parse_active_reservations`: keys that are no integers are skipped. -/
def parseActiveReservations (raw : Dict String (List ActiveReservation)) :
    Dict Nat (List ActiveReservation) :=
  raw.entries.foldl (fun out e =>
    match readInt e.1 with
    | none => out
    | some userId => out.set userId e.2) .empty

/-- The entry that the cache keeps of a dumped frame entry. -/
def cacheEntry (field : DatetimeField) (e : AccountLinkCacheEntry ActiveReservationSnapshot) :
    CacheEntry :=
  { userIds := e.userIds
    activeReservations := parseActiveReservations
      (e.activeReservations.mapVals fun items => items.map (dumpSnapshot field)) }

/-- `apply_full_snapshot`: the server's slice of the cache is replaced. -/
def applyFullSnapshot (field : DatetimeField) (cache : ReverseCache)
    (frame : AccountLinkCacheSync ActiveReservationSnapshot) : ReverseCache :=
  frame.entries.foldl (fun c e => c.set (frame.serverId, e.linuxUsername) (cacheEntry field e))
    (cache.dropKeys fun k => k.1 = frame.serverId)

/-- The agent receives a full sync; a frame it cannot parse leaves the cache as it was. -/
def receiveFullSync (field : DatetimeField) (cache : ReverseCache)
    (payload : AccountLinkCacheSync ReservationItem) : ReverseCache :=
  (parseSync field payload).elim cache (applyFullSnapshot field cache)

/-- `lookup_user_ids`. -/
def lookupUserIds (cache : ReverseCache) (serverId : Nat) (linuxUsername : String) : List Nat :=
  (cache.get? (serverId, linuxUsername)).elim [] (·.userIds)

/-- `lookup_active_reservations`. -/
def lookupActiveReservations (cache : ReverseCache) (serverId : Nat) (linuxUsername : String)
    (userId : Nat) : List ActiveReservation :=
  (cache.get? (serverId, linuxUsername)).elim [] fun e =>
    (e.activeReservations.get? userId).getD []

/-! ## what the agent holds after a full sync -/

/-- `int(str(n))` is `n`. -/
theorem readInt_toString (n : Nat) : readInt (toString n) = some n := by
  have htext : (toString n).toList = Nat.toDigits 10 n := Nat.toList_repr
  have hne : Nat.toDigits 10 n ≠ [] := Nat.toDigits_ne_nil
  have hdigits : (Nat.toDigits 10 n).all Char.isDigit = true := by
    rw [List.all_eq_true]
    intro c hc
    exact Nat.isDigit_of_mem_toDigits (by decide) (by decide) hc
  rw [readInt, htext, if_pos ⟨hne, hdigits⟩, Nat.ofDigitChars_ten_toDigits]

/-- Two ids with one key are one id. -/
theorem toString_inj {m n : Nat} (h : toString m = toString n) : m = n := by
  have hread := readInt_toString m
  rw [h, readInt_toString, Option.some.injEq] at hread
  exact hread.symm

/-- Where the keys are ids, the parsed dictionary has under an id what stood under its text. -/
theorem get?_parseActiveReservations {raw : Dict String (List ActiveReservation)}
    (hkeys : ∀ e ∈ raw.entries, ∃ u : Nat, e.1 = toString u) (u : Nat) :
    (parseActiveReservations raw).get? u = raw.get? (toString u) := by
  have hparse : parseActiveReservations raw =
      (raw.entries.filterMap fun e => (readInt e.1).map fun userId => (userId, e.2)).foldl
        (fun out x => out.set x.1 x.2) .empty := by
    rw [parseActiveReservations, List.foldl_filterMap]
    congr 1
    funext out e
    cases readInt e.1 <;> rfl
  -- an assignment under an id comes from the entry under its text
  have hfrom : ∀ x ∈ raw.entries.filterMap fun e => (readInt e.1).map fun userId => (userId, e.2),
      raw.get? (toString x.1) = some x.2 := by
    intro x hx
    obtain ⟨e, he, hmap⟩ := List.mem_filterMap.mp hx
    obtain ⟨userId, hread, rfl⟩ := Option.map_eq_some_iff.mp hmap
    obtain ⟨n, hn⟩ := hkeys e he
    rw [hn, readInt_toString, Option.some.injEq] at hread
    rw [Dict.get?_eq_some_iff, ← hread, ← hn]
    exact he
  rw [hparse]
  cases hraw : raw.get? (toString u) with
  | none =>
      rw [Dict.get?_foldl_set_of_ne, Dict.get?_empty]
      intro x hx hu
      have hsome := hfrom x hx
      rw [hu, hraw] at hsome
      cases hsome
  | some v =>
      refine Dict.get?_foldl_set ⟨(u, v), ?_, rfl⟩ ?_
      · rw [List.mem_filterMap]
        refine ⟨(toString u, v), Dict.get?_eq_some_iff.mp hraw, ?_⟩
        rw [readInt_toString, Option.map_some]
      · intro x hx hu
        have hsome := hfrom x hx
        rw [hu, hraw, Option.some.injEq] at hsome
        exact hsome.symm

/-- The database as a sync takes it: every reservation has a GPU, its
datetimes are dates of the store's type, and no two active accounts of a server
share a name (`uq_pa_server_user_active`). -/
structure SyncReady (db : Db) : Prop where
  gpu : ∀ r ∈ db.reservations, r.gpuId.isSome
  startAt : ∀ r ∈ db.reservations, InRange r.startAt
  endAt : ∀ r ∈ db.reservations, InRange r.endAt
  account : ∀ p ∈ db.physicalAccounts, ∀ q ∈ db.physicalAccounts, p.isActive = true →
    q.isActive = true → p.serverId = q.serverId → p.linuxUsername = q.linuxUsername → p.id = q.id

/-- A reservation as the agent caches it. -/
def cachedOf (field : DatetimeField) (l : AccountLink) (r : Reservation) : ActiveReservation :=
  { reservationId := r.id, gpuId := r.gpuId.getD 0
    startAt := field.dump (Datetime.utc r.startAt), endAt := field.dump (Datetime.utc r.endAt)
    status := r.status, gpuMemoryMb := r.gpuMemoryMb, gpuComputeSharePct := r.gpuComputeSharePct
    source := l.source }

theorem mem_liveReservations {db : Db} {now : Time} {l : AccountLink} {r : Reservation} :
    r ∈ liveReservations db now l ↔
      r ∈ db.reservations ∧ r.accountLinkId = l.id ∧ r.occupies = true ∧ now ≤ r.endAt := by
  simp [liveReservations, Table.mem_def, and_assoc]

theorem mem_linksOf {db : Db} {p : PhysicalAccount} {l : AccountLink} :
    l ∈ linksOf db p ↔ l ∈ db.accountLinks ∧ l.physicalAccountId = p.id ∧ l.isActive = true := by
  simp [linksOf, Table.mem_def]

theorem mem_userIdsOf {links : List AccountLink} {u : Nat} :
    u ∈ userIdsOf links ↔ ∃ l ∈ links, l.userId = u := by
  simp [userIdsOf, List.mem_insertionSort, List.mem_dedup]

/-- The items of an account, link by link. -/
def bookings (db : Db) (now : Time) (links : List AccountLink) : List (AccountLink × Reservation) :=
  links.flatMap fun l => (liveReservations db now l).map fun r => (l, r)

theorem mem_bookings {db : Db} {now : Time} {links : List AccountLink} {l : AccountLink}
    {r : Reservation} :
    (l, r) ∈ bookings db now links ↔ l ∈ links ∧ r ∈ liveReservations db now l := by
  simp only [bookings, List.mem_flatMap, List.mem_map, Prod.mk.injEq]
  constructor
  · rintro ⟨l', hl', r', hr', rfl, rfl⟩
    exact ⟨hl', hr'⟩
  · rintro ⟨hl, hr⟩
    exact ⟨l, hl, r, hr, rfl, rfl⟩

/-- The two loops over links and reservations are one loop over their pairs. -/
theorem activeReservationsOf_eq (db : Db) (now : Time) (links : List AccountLink) :
    activeReservationsOf db now links =
      (bookings db now links).foldl (fun d b => d.push (toString b.1.userId) (itemOf b.1 b.2))
        .empty := by
  rw [activeReservationsOf, bookings, List.foldl_flatMap]
  congr 1
  funext d l
  rw [List.foldl_map]

/-- The items under a key are those of the users with that key. -/
theorem getD_activeReservationsOf (db : Db) (now : Time) (links : List AccountLink) (key : String) :
    ((activeReservationsOf db now links).get? key).getD [] =
      ((bookings db now links).filter fun b => toString b.1.userId = key).map
        fun b => itemOf b.1 b.2 := by
  rw [activeReservationsOf_eq, Dict.getD_foldl_push]
  rfl

/-- The keys are users. -/
theorem key_activeReservationsOf {db : Db} {now : Time} {links : List AccountLink}
    {e : String × List ReservationItem} (h : e ∈ (activeReservationsOf db now links).entries) :
    ∃ u : Nat, e.1 = toString u := by
  rw [activeReservationsOf_eq] at h
  rcases Dict.mem_keys_foldl_push h with hmem | ⟨b, -, hkey⟩
  · cases hmem
  · exact ⟨b.1.userId, hkey⟩

/-- The items under the users of an account are those of its bookings. -/
theorem mem_items_iff {db : Db} {now : Time} {links : List AccountLink} {x : ReservationItem} :
    (∃ e ∈ (activeReservationsOf db now links).entries, x ∈ e.2) ↔
      ∃ l r, l ∈ links ∧ r ∈ liveReservations db now l ∧ x = itemOf l r := by
  constructor
  · rintro ⟨e, he, hx⟩
    have hvalue := getD_activeReservationsOf db now links e.1
    rw [Dict.get?_eq_some_iff.mpr he, Option.getD_some] at hvalue
    rw [hvalue] at hx
    obtain ⟨b, hb, rfl⟩ := List.mem_map.mp hx
    obtain ⟨hl, hr⟩ := (mem_bookings (l := b.1) (r := b.2)).mp (List.mem_filter.mp hb).1
    exact ⟨b.1, b.2, hl, hr, rfl⟩
  · rintro ⟨l, r, hl, hr, rfl⟩
    have hvalue := getD_activeReservationsOf db now links (toString l.userId)
    have hx : itemOf l r ∈ ((activeReservationsOf db now links).get? (toString l.userId)).getD [] := by
      rw [hvalue]
      refine List.mem_map.mpr ⟨(l, r), List.mem_filter.mpr ⟨mem_bookings.mpr ⟨hl, hr⟩, ?_⟩, rfl⟩
      exact decide_eq_true rfl
    cases hget : (activeReservationsOf db now links).get? (toString l.userId) with
    | none =>
        rw [hget] at hx
        cases hx
    | some items =>
        rw [hget, Option.getD_some] at hx
        exact ⟨(toString l.userId, items), Dict.get?_eq_some_iff.mp hget, hx⟩

section Field

variable {field : DatetimeField} (hfield : field.Lawful) {db : Db} (hready : SyncReady db)
include hfield hready

/-- An item of a live reservation is accepted, and dumped as the agent caches it. -/
theorem validateItem?_itemOf {now : Time} {l : AccountLink} {r : Reservation}
    (hr : r ∈ liveReservations db now l) :
    (validateItem? field (itemOf l r)).map (dumpSnapshot field) = some (cachedOf field l r) := by
  obtain ⟨hmem, -, hlive, -⟩ := mem_liveReservations.mp hr
  obtain ⟨gpuId, hgpu⟩ := Option.isSome_iff_exists.mp (hready.gpu r hmem)
  have hstart := hfield.validate_iso r.startAt (hready.startAt r hmem)
  have hend := hfield.validate_iso r.endAt (hready.endAt r hmem)
  have hstatus : r.status.occupies = true := hlive
  simp [validateItem?, itemOf, hgpu, hstart, hend, hstatus, dumpSnapshot, cachedOf]

/-- The items of some bookings are accepted together. -/
theorem mapM_validateItem? (now : Time) (links : List AccountLink)
    {bs : List (AccountLink × Reservation)} (hbs : ∀ b ∈ bs, b ∈ bookings db now links) :
    ∃ ss, (bs.map fun b => itemOf b.1 b.2).mapM (validateItem? field) = some ss ∧
      ss.map (dumpSnapshot field) = bs.map fun b => cachedOf field b.1 b.2 := by
  induction bs with
  | nil => exact ⟨[], rfl, rfl⟩
  | cons b bs ih =>
      obtain ⟨ss, hss, hdump⟩ := ih fun c hc => hbs c (List.mem_cons_of_mem b hc)
      have hb := (mem_bookings (l := b.1) (r := b.2)).mp (hbs b List.mem_cons_self)
      obtain ⟨s, hs, hcached⟩ := Option.map_eq_some_iff.mp (validateItem?_itemOf hfield hready hb.2)
      exact ⟨s :: ss, by simp [List.mapM_cons, hs, hss], by simp [hcached, hdump]⟩

/-- The values of the item dictionary are lists of items of bookings. -/
theorem validate_activeReservationsOf {now : Time} {links : List AccountLink}
    {e : String × List ReservationItem} (he : e ∈ (activeReservationsOf db now links).entries) :
    (e.2.mapM (validateItem? field)).isSome := by
  have hvalue : e.2 = ((bookings db now links).filter fun b => toString b.1.userId = e.1).map
      fun b => itemOf b.1 b.2 := by
    rw [← getD_activeReservationsOf, Dict.get?_eq_some_iff.mpr he, Option.getD_some]
  obtain ⟨ss, hss, -⟩ := mapM_validateItem? hfield hready now links
    fun b (hb : b ∈ (bookings db now links).filter fun b => toString b.1.userId = e.1) =>
      (List.mem_filter.mp hb).1
  rw [hvalue, hss, Option.isSome_some]

/-- The items of a user, as the cache keeps them after the entry went through
the wire model: those of the user's links. -/
theorem validateEntry_entryOf (now : Time) (p : PhysicalAccount) :
    ∃ e', validateEntry field (entryOf db now p) = some e' ∧ e'.linuxUsername = p.linuxUsername ∧
      e'.userIds = userIdsOf (linksOf db p) ∧
      ∀ u, ((cacheEntry field e').activeReservations.get? u).getD [] =
        ((bookings db now (linksOf db p)).filter fun b => b.1.userId = u).map
          fun b => cachedOf field b.1 b.2 := by
  have hconvert : (entryOf db now p).activeReservations.mapVals?
      (fun items => items.mapM (validateItem? field)) = some _ :=
    Dict.mapVals?_eq_some (g := fun items => (items.mapM (validateItem? field)).getD [])
      fun e he => by
        obtain ⟨ss, hss⟩ := Option.isSome_iff_exists.mp
          (validate_activeReservationsOf hfield hready he)
        rw [hss, Option.getD_some]
  refine ⟨_, by rw [validateEntry, hconvert, Option.map_some], rfl, rfl, fun u => ?_⟩
  have hfilter : ((bookings db now (linksOf db p)).filter fun b => toString b.1.userId = toString u) =
      (bookings db now (linksOf db p)).filter fun b => b.1.userId = u :=
    List.filter_congr fun b _ => decide_eq_decide.mpr ⟨toString_inj, congrArg toString⟩
  have hitems := getD_activeReservationsOf db now (linksOf db p) (toString u)
  rw [hfilter] at hitems
  obtain ⟨ss, hss, hdump⟩ := mapM_validateItem? hfield hready now (linksOf db p)
    fun b (hb : b ∈ (bookings db now (linksOf db p)).filter fun b => b.1.userId = u) =>
      (List.mem_filter.mp hb).1
  rw [cacheEntry, get?_parseActiveReservations, Dict.get?_mapVals, Dict.get?_mapVals, ← hdump]
  · show ((((activeReservationsOf db now (linksOf db p)).get? (toString u)).map _).map _).getD [] = _
    cases hget : (activeReservationsOf db now (linksOf db p)).get? (toString u) with
    | none =>
        rw [hget, Option.getD_none] at hitems
        rw [← hitems] at hss
        obtain rfl : [] = ss := Option.some.inj hss
        rfl
    | some items =>
        rw [hget, Option.getD_some] at hitems
        simp only [Option.map_some, Option.getD_some, hitems, hss]
  · intro e he
    obtain ⟨e1, he1, rfl⟩ := List.mem_map.mp he
    obtain ⟨e2, he2, rfl⟩ := List.mem_map.mp he1
    exact key_activeReservationsOf he2

/-- The frame is accepted, entry by entry. -/
theorem parseSync_payload (serverId : Nat) (now : Time) :
    ∃ frame, parseSync field (composeFullPayload db serverId now) = some frame ∧
      frame.serverId = serverId ∧
      ∀ e', e' ∈ frame.entries ↔
        ∃ e ∈ entriesForLinuxUsers db serverId none now, validateEntry field e = some e' := by
  have hall : ∀ e ∈ entriesForLinuxUsers db serverId none now, (validateEntry field e).isSome := by
    intro e he
    obtain ⟨p, -, hp⟩ := List.mem_filterMap.mp he
    split at hp
    · cases hp
    · obtain rfl := Option.some.inj hp
      obtain ⟨e', he', -⟩ := validateEntry_entryOf hfield hready now p
      rw [he', Option.isSome_some]
  obtain ⟨entries, hentries, hmem⟩ := mapM_of_isSome hall
  exact ⟨⟨serverId, entries⟩, by simp [parseSync, composeFullPayload, hentries], rfl, hmem⟩

end Field

/-- `l` is an active link to an active account of the server under the name. -/
structure Linked (db : Db) (serverId : Nat) (linuxUsername : String) (p : PhysicalAccount)
    (l : AccountLink) : Prop where
  account : p ∈ db.physicalAccounts
  server : p.serverId = serverId
  username : p.linuxUsername = linuxUsername
  active : p.isActive = true
  link : l ∈ linksOf db p

/-- The payload has exactly the entries of the active accounts with a link. -/
theorem mem_entriesForLinuxUsers {db : Db} {serverId : Nat} {now : Time}
    {e : AccountLinkCacheEntry ReservationItem} :
    e ∈ entriesForLinuxUsers db serverId none now ↔
      ∃ p l, Linked db serverId e.linuxUsername p l ∧ e = entryOf db now p := by
  simp only [entriesForLinuxUsers, List.mem_filterMap, List.mem_filter, Bool.and_eq_true,
    decide_eq_true_eq, Option.all_none, and_true]
  constructor
  · rintro ⟨p, ⟨hp, hserver, hactive⟩, he⟩
    split at he
    · cases he
    · next hlinks =>
        obtain rfl := Option.some.inj he
        obtain ⟨l, hl⟩ := List.exists_mem_of_ne_nil _ (by simpa using hlinks)
        exact ⟨p, l, ⟨hp, hserver, rfl, hactive, hl⟩, rfl⟩
  · rintro ⟨p, l, h, he⟩
    refine ⟨p, ⟨h.account, h.server, h.active⟩, ?_⟩
    have hlinks : (linksOf db p).isEmpty = false := by
      rw [List.isEmpty_eq_false_iff]
      exact List.ne_nil_of_mem h.link
    rw [hlinks, he]
    rfl

/-- A name has at most one linked account on a server. -/
theorem SyncReady.account_unique {db : Db} (hready : SyncReady db) {serverId : Nat}
    {linuxUsername : String} {p q : PhysicalAccount} {k l : AccountLink}
    (hq : Linked db serverId linuxUsername q k) (hp : Linked db serverId linuxUsername p l) :
    q = p :=
  Table.eq_of_key_eq hq.account hp.account (hready.account q hq.account p hp.account hq.active
    hp.active (hq.server.trans hp.server.symm) (hq.username.trans hp.username.symm))

section Sync

variable {field : DatetimeField} (hfield : field.Lawful) {db : Db} (hready : SyncReady db)
  (cache : ReverseCache) (serverId : Nat) (now : Time)
include hfield hready

/-- An entry of the frame is the entry of a linked account. -/
theorem account_of_mem_frame {frame : AccountLinkCacheSync ActiveReservationSnapshot}
    (hmem : ∀ e', e' ∈ frame.entries ↔
      ∃ e ∈ entriesForLinuxUsers db serverId none now, validateEntry field e = some e')
    {e' : AccountLinkCacheEntry ActiveReservationSnapshot} (he' : e' ∈ frame.entries) :
    ∃ p l, Linked db serverId e'.linuxUsername p l ∧
      validateEntry field (entryOf db now p) = some e' := by
  obtain ⟨e, he, hvalid⟩ := (hmem e').mp he'
  obtain ⟨p, l, hlinked, rfl⟩ := mem_entriesForLinuxUsers.mp he
  obtain ⟨e'', he'', hname, -⟩ := validateEntry_entryOf hfield hready now p
  rw [he'', Option.some.injEq] at hvalid
  subst hvalid
  exact ⟨p, l, hname ▸ hlinked, he''⟩

/-- **A full sync, read back**: under a name the agent holds the entry of the
one active account of that name, as it went through the wire model. -/
theorem get?_receiveFullSync {linuxUsername : String} {p : PhysicalAccount} {l : AccountLink}
    (h : Linked db serverId linuxUsername p l) :
    ∃ e', validateEntry field (entryOf db now p) = some e' ∧
      (receiveFullSync field cache (composeFullPayload db serverId now)).get?
        (serverId, linuxUsername) = some (cacheEntry field e') := by
  obtain ⟨frame, hframe, hserver, hmem⟩ := parseSync_payload hfield hready serverId now
  obtain ⟨e', he', hname, -⟩ := validateEntry_entryOf hfield hready now p
  have hentry : entryOf db now p ∈ entriesForLinuxUsers db serverId none now :=
    mem_entriesForLinuxUsers.mpr ⟨p, l, ⟨h.account, h.server, rfl, h.active, h.link⟩, rfl⟩
  refine ⟨e', he', ?_⟩
  rw [receiveFullSync, hframe, Option.elim_some, applyFullSnapshot]
  refine Dict.get?_foldl_set ⟨e', (hmem e').mpr ⟨_, hentry, he'⟩, ?_⟩ ?_
  · rw [hserver, hname, h.username]
  · -- a second entry under the name would be of the same account
    intro x hx hkey
    obtain ⟨q, k, hq, hvalid⟩ := account_of_mem_frame hfield hready serverId now hmem hx
    have hname' : x.linuxUsername = linuxUsername := (Prod.mk.inj hkey).2
    obtain rfl := hready.account_unique (hname' ▸ hq) h
    rw [he', Option.some.injEq] at hvalid
    rw [hvalid]

/-- Under a name without a linked account the agent holds nothing. -/
theorem get?_receiveFullSync_none {linuxUsername : String}
    (h : ∀ p l, ¬ Linked db serverId linuxUsername p l) :
    (receiveFullSync field cache (composeFullPayload db serverId now)).get?
      (serverId, linuxUsername) = none := by
  obtain ⟨frame, hframe, hserver, hmem⟩ := parseSync_payload hfield hready serverId now
  rw [receiveFullSync, hframe, Option.elim_some, applyFullSnapshot, Dict.get?_foldl_set_of_ne,
    Dict.get?_dropKeys (by simp [hserver])]
  intro x hx hkey
  obtain ⟨p, l, hlinked, -⟩ := account_of_mem_frame hfield hready serverId now hmem hx
  exact h p l ((Prod.mk.inj hkey).2 ▸ hlinked)

/-- **The users of a name** are those of the active links to its account. -/
theorem mem_lookupUserIds {linuxUsername : String} {userId : Nat} :
    userId ∈ lookupUserIds (receiveFullSync field cache (composeFullPayload db serverId now))
        serverId linuxUsername ↔
      ∃ p l, Linked db serverId linuxUsername p l ∧ l.userId = userId := by
  by_cases hlinked : ∃ p l, Linked db serverId linuxUsername p l
  · obtain ⟨p, l, h⟩ := hlinked
    obtain ⟨e', he', hget⟩ := get?_receiveFullSync hfield hready cache serverId now h
    obtain ⟨e'', he'', -, husers, -⟩ := validateEntry_entryOf hfield hready now p
    obtain rfl : e' = e'' := Option.some.inj (he'.symm.trans he'')
    rw [lookupUserIds, hget, Option.elim_some, cacheEntry, husers, mem_userIdsOf]
    constructor
    · rintro ⟨k, hk, huser⟩
      exact ⟨p, k, ⟨h.account, h.server, h.username, h.active, hk⟩, huser⟩
    · rintro ⟨q, k, hq, huser⟩
      obtain rfl := hready.account_unique hq h
      exact ⟨k, hq.link, huser⟩
  · have hnone := get?_receiveFullSync_none hfield hready cache serverId now
      fun p l h => hlinked ⟨p, l, h⟩
    rw [lookupUserIds, hnone, Option.elim_none]
    constructor
    · intro hmem
      cases hmem
    · rintro ⟨p, l, h, -⟩
      exact absurd ⟨p, l, h⟩ hlinked

/-- **The reservations of a user of a name** are the live reservations booked
through the user's active links to its account, in the agent's terms. -/
theorem mem_lookupActiveReservations {linuxUsername : String} {userId : Nat}
    {x : ActiveReservation} :
    x ∈ lookupActiveReservations
        (receiveFullSync field cache (composeFullPayload db serverId now)) serverId linuxUsername
        userId ↔
      ∃ p l r, Linked db serverId linuxUsername p l ∧ l.userId = userId ∧
        r ∈ liveReservations db now l ∧ x = cachedOf field l r := by
  by_cases hlinked : ∃ p l, Linked db serverId linuxUsername p l
  · obtain ⟨p, l, h⟩ := hlinked
    obtain ⟨e', he', hget⟩ := get?_receiveFullSync hfield hready cache serverId now h
    obtain ⟨e'', he'', -, -, hitems⟩ := validateEntry_entryOf hfield hready now p
    obtain rfl : e' = e'' := Option.some.inj (he'.symm.trans he'')
    rw [lookupActiveReservations, hget, Option.elim_some, hitems, List.mem_map]
    constructor
    · rintro ⟨⟨k, r⟩, hb, rfl⟩
      obtain ⟨hb, huser⟩ := List.mem_filter.mp hb
      obtain ⟨hk, hr⟩ := mem_bookings.mp hb
      exact ⟨p, k, r, ⟨h.account, h.server, h.username, h.active, hk⟩, by simpa using huser, hr, rfl⟩
    · rintro ⟨q, k, r, hq, huser, hr, rfl⟩
      obtain rfl := hready.account_unique hq h
      exact ⟨(k, r), List.mem_filter.mpr ⟨mem_bookings.mpr ⟨hq.link, hr⟩, by simpa using huser⟩, rfl⟩
  · have hnone := get?_receiveFullSync_none hfield hready cache serverId now
      fun p l h => hlinked ⟨p, l, h⟩
    rw [lookupActiveReservations, hnone, Option.elim_none]
    constructor
    · intro hmem
      cases hmem
    · rintro ⟨p, l, r, h, -⟩
      exact absurd ⟨p, l, h⟩ hlinked

end Sync

end CoreLab
