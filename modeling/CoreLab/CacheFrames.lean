import CoreLab.Frames
import CoreLab.LinkCache
import CoreLab.ReservationService

/-!
# CoreLab.CacheFrames

The full sync of the reverse-lookup cache as it crosses the wire: the frame that
the backend writes when an agent connects, and what the agent does on receiving
it.

* `parseEnvelope_connectFrame` — the frame as JSON is accepted and dumped exactly
  as `parseSync` says of its typed payload;
* `parseActiveReservations_dump` — whatever the wire model lets through, the cache
  can read;
* `connectFrame_inProtocol_iff` — the frame is in the protocol exactly when every
  live reservation it would carry names a GPU.
-/

namespace CoreLab

namespace CacheFrames

open Calendar Relational Loops Schema Frames

/-! ## the backend's frame -/

/-- The number of an unsigned column. -/
def natJson (n : Nat) : Json := .num n

/-- One item of `active_reservations`. -/
def itemJson (x : ReservationItem) : Json :=
  .obj [("reservation_id", .num x.reservationId), ("gpu_id", .ofOption natJson x.gpuId),
        ("start_at", .str x.startAt), ("end_at", .str x.endAt), ("status", .str x.status.text),
        ("gpu_memory_mb", .ofOption natJson x.gpuMemoryMb),
        ("gpu_compute_share_pct", .ofOption natJson x.gpuComputeSharePct),
        ("source", .str x.source.text)]

/-- The items of one user. -/
def itemsJson (items : List ReservationItem) : Json := .arr (items.map itemJson)

/-- One item of `entries`. -/
def entryJson (e : AccountLinkCacheEntry ReservationItem) : Json :=
  .obj [("linux_username", .str e.linuxUsername), ("user_ids", .arr (e.userIds.map natJson)),
        ("active_reservations",
          .obj (e.activeReservations.entries.map fun kv => (kv.1, itemsJson kv.2)))]

/-- `_compute_etag`, over the digest of a text in hexadecimal. -/
def computeEtag (sha256 : String → String) (entries : List (AccountLinkCacheEntry ReservationItem)) :
    String :=
  let canonical := "|".intercalate (entries.map fun e =>
    e.linuxUsername ++ "=" ++ ",".intercalate ((e.userIds.insertionSort (· ≤ ·)).map toString))
  "links-" ++ ((sha256 canonical).take 16).toString

/-- The fields of the dictionary that `compose_full_payload` returns. -/
def payloadFields (sha256 : String → String) (p : AccountLinkCacheSync ReservationItem) :
    List (String × Json) :=
  [("server_id", natJson p.serverId), ("mode", .str "full"), ("entries", .arr (p.entries.map entryJson)),
   ("removed_linux_usernames", .arr []), ("etag", .str (computeEtag sha256 p.entries))]

def syncType : String := "backend.account_link_cache.sync"

/-- The frame of `send_on_connect`. -/
def connectFrame (sha256 : String → String) (db : Db) (serverId : Nat) (now : Time)
    (frameId : String) : Json :=
  frame syncType frameId (iso now) (.obj (payloadFields sha256 (composeFullPayload db serverId now)))
    none

/-! ## the agent -/

/-- `ActiveReservation`, as the cache reads it from the dumped frame. -/
structure CachedItem where
  reservationId : Int
  gpuId : Int
  startAt : String
  endAt : String
  status : String
  gpuMemoryMb : Json
  gpuComputeSharePct : Json
  source : String

/-- `int(value)` of a number or of a text of digits; `none` is its `TypeError` or `ValueError`. -/
def pyInt : Json → Option Int
  | .num n => some n
  | .str s => (readInt s).map Int.ofNat
  | _ => none

/-- One item; `none` is a missing key or a value that cannot be read.  The texts are
taken from strings only, where `str` would take anything. -/
def readItem (item : Json) : Option CachedItem := do
  some
    { reservationId := ← pyInt (← item.get? "reservation_id")
      gpuId := ← pyInt (← item.get? "gpu_id")
      startAt := ← (← item.get? "start_at").text?
      endAt := ← (← item.get? "end_at").text?
      status := ← (← item.get? "status").text?
      gpuMemoryMb := (item.get? "gpu_memory_mb").getD .null
      gpuComputeSharePct := (item.get? "gpu_compute_share_pct").getD .null
      source := ← (← item.get? "source").text? }

/-- One key of the dictionary; a key that is no integer is skipped. -/
def readUser (out : Dict Nat (List CachedItem)) (e : String × Json) :
    Option (Dict Nat (List CachedItem)) :=
  match readInt e.1 with
  | none => some out
  | some userId => (e.2.items?.bind fun items => items.mapM readItem).map (out.set userId)

/-- `_parse_active_reservations` of the dumped dictionary; `none` is an exception. -/
def parseActiveReservations (raw : List (String × Json)) : Option (Dict Nat (List CachedItem)) :=
  raw.foldlM readUser .empty

/-- What the cache keeps of an entry. -/
structure Cached where
  linuxUsername : String
  userIds : Json
  activeReservations : Dict Nat (List CachedItem)

/-- The entry that `apply_full_snapshot` builds of a dumped one. -/
def readEntry (entry : Json) : Option Cached := do
  some
    { linuxUsername := ← (← entry.get? "linux_username").text?
      userIds := (entry.get? "user_ids").getD (.arr [])
      activeReservations := ← parseActiveReservations
        (((entry.get? "active_reservations").bind Json.fields?).getD []) }

/-- The entries of a dumped payload, as the cache takes them over; `none` is an exception. -/
def readEntries (payload : Json) : Option (List Cached) :=
  ((payload.get? "entries").bind Json.items?).bind fun entries => entries.mapM readEntry

/-- How one frame ends for the connection: it is answered, the connection is closed with
a code, or an exception leaves the receive loop. -/
inductive Outcome where
  | replied (correlationId : String) (cached : List Cached)
  | closed (code : Nat)
  | raised

/-- `_maybe_dispatch_rpc` of a full sync; `uuid` and `now` would fill in a missing id and time. -/
def maybeDispatchRpc (sc : Scalars) (uuid now : String) (raw : Json) : Outcome :=
  match parseEnvelope sc uuid now raw with
  | none => .closed 1003
  | some envelope =>
    match readEntries envelope.payload with
    | none => .raised
    | some cached => .replied envelope.id cached

/-- A frame is in the protocol of the cache sync: it is parsed, its items are read, and
the connection is not closed for it. -/
structure InProtocol (sc : Scalars) (raw : Json) : Prop where
  accepted : ∀ uuid now, (parseEnvelope sc uuid now raw).isSome
  items : ∀ uuid now envelope, parseEnvelope sc uuid now raw = some envelope →
    (readEntries envelope.payload).isSome
  stays : ∀ uuid now, maybeDispatchRpc sc uuid now raw ≠ .closed 1003

/-! ## the frame, validated -/

/-- The scalar readers, and the datetime field of the typed models, are of one library. -/
structure Reads (sc : Scalars) (field : DatetimeField) : Prop where
  scalars : sc.Lawful
  datetimes : field.Lawful
  datetime_str : ∀ s, sc.datetime (.str s) = (field.validate s).map field.dump

/-- A validated item, dumped. -/
def snapshotJson (field : DatetimeField) (s : ActiveReservationSnapshot) : Json :=
  .obj [("reservation_id", .num s.reservationId), ("gpu_id", .num s.gpuId),
        ("start_at", .str (field.dump s.startAt)), ("end_at", .str (field.dump s.endAt)),
        ("status", .str s.status.text),
        ("gpu_memory_mb", .ofOption natJson s.gpuMemoryMb),
        ("gpu_compute_share_pct", .ofOption natJson s.gpuComputeSharePct),
        ("source", .str s.source.text)]

/-- The validated items of one user, dumped. -/
def snapshotsJson (field : DatetimeField) (items : List ActiveReservationSnapshot) : Json :=
  .arr (items.map (snapshotJson field))

/-- A validated entry, dumped. -/
def dumpEntryJson (field : DatetimeField) (e : AccountLinkCacheEntry ActiveReservationSnapshot) :
    Json :=
  .obj [("linux_username", .str e.linuxUsername), ("user_ids", .arr (e.userIds.map natJson)),
        ("active_reservations",
          .obj (e.activeReservations.entries.map fun kv => (kv.1, snapshotsJson field kv.2)))]

/-- A validated payload, dumped. -/
def dumpPayload (field : DatetimeField) (etag : String)
    (f : AccountLinkCacheSync ActiveReservationSnapshot) : Json :=
  .obj [("server_id", natJson f.serverId), ("mode", .str "full"),
        ("entries", .arr (f.entries.map (dumpEntryJson field))),
        ("removed_linux_usernames", .arr []), ("etag", .str etag)]

theorem text_mem_live {status : ReservationStatus} :
    status.text ∈ ["scheduled", "active"] ↔ status.occupies = true := by
  cases status <;> decide

theorem text_mem_sources (source : LinkSource) :
    source.text ∈ ["ssh_challenge", "password_pam", "admin_prepared_then_ssh", "admin_declared"] := by
  cases source <;> decide

section Reads

variable {sc : Scalars} {field : DatetimeField} (hreads : Reads sc field)
include hreads

theorem validate_datetime_str (s : String) :
    validate sc .datetime (.str s) = (field.validate s).map fun d => .str (field.dump d) := by
  rw [validate_datetime_eq, hreads.datetime_str, Option.map_map]
  rfl

theorem validate_optional_nat (n : Option Nat) :
    validate sc (.optional .int) (.ofOption natJson n) =
      some (.ofOption natJson n) := by
  cases n with
  | none => rfl
  | some n => exact validate_int hreads.scalars n

/-- An item is validated as the typed model validates it. -/
theorem validate_itemJson (x : ReservationItem) :
    validate sc activeReservationSnapshot (itemJson x) =
      (validateItem? field x).map (snapshotJson field) := by
  rw [activeReservationSnapshot, itemJson, validate_model (by rfl) (by decide)]
  simp only [activeReservationFields, required, nullable, validateInOrder,
    validate_datetime_str hreads, validate_optional_nat hreads,
    validate_literal (text_mem_sources x.source)]
  have hid : validate sc .int (.num x.reservationId) = some (.num x.reservationId) :=
    validate_int hreads.scalars x.reservationId
  have hstatus : validate sc (.literal ["scheduled", "active"]) (.str x.status.text) =
      if x.status.occupies then some (.str x.status.text) else none := by
    rw [validate_literal_str]
    exact if_congr text_mem_live rfl rfl
  rw [hid, hstatus]
  cases hgpu : x.gpuId with
  | none => simp [validateItem?, hgpu, Json.ofOption, validate_int_null hreads.scalars]
  | some gpuId =>
      have hint : validate sc .int (.ofOption natJson (some gpuId)) =
          some (.num gpuId) := validate_int hreads.scalars gpuId
      rw [hint]
      simp only [validateItem?, hgpu, Option.bind_some, Option.bind_map, Option.map_bind]
      cases field.validate x.startAt <;> cases field.validate x.endAt <;>
        cases x.status.occupies <;> rfl

/-- A dumped entry. -/
theorem validate_entryJson (e : AccountLinkCacheEntry ReservationItem) :
    validate sc accountLinkCacheEntry (entryJson e) =
      (validateEntry field e).map (dumpEntryJson field) := by
  have hids : validate sc (.list .int) (.arr (e.userIds.map natJson)) =
      some (.arr (e.userIds.map natJson)) := by
    have hconv : ∀ n ∈ e.userIds, validate sc .int (natJson n) = (some n).map natJson :=
      fun n _ => validate_int hreads.scalars n
    rw [validate_list_map hconv, show e.userIds.mapM some = some (e.userIds.map id) from
      List.mapM_pure, List.map_id, Option.map_some]
  have hlist : ∀ kv ∈ e.activeReservations.entries,
      validate sc (.list activeReservationSnapshot) (itemsJson kv.2) =
        (kv.2.mapM (validateItem? field)).map (snapshotsJson field) :=
    fun kv _ => validate_list_map fun x _ => validate_itemJson hreads x
  have hitems : validate sc (.dict (.list activeReservationSnapshot))
      (.obj (e.activeReservations.entries.map fun kv => (kv.1, itemsJson kv.2))) =
      (e.activeReservations.mapVals? fun items => items.mapM (validateItem? field)).map fun m =>
          .obj (m.entries.map fun kv => (kv.1, snapshotsJson field kv.2)) := by
    rw [validate_dict_map hlist, Dict.mapM_entries, Option.map_map]
    rfl
  rw [accountLinkCacheEntry, entryJson, validate_model (by rfl) (by decide)]
  simp only [accountLinkCacheEntryFields, required, withDefault, validateInOrder,
    validate_str hreads.scalars, hids, hitems]
  cases h : e.activeReservations.mapVals? fun items => items.mapM (validateItem? field) with
  | none => simp [validateEntry, h]
  | some m => simp [validateEntry, h, dumpEntryJson]

/-- The payload is validated as the typed model validates it. -/
theorem validate_payload (sha256 : String → String) (p : AccountLinkCacheSync ReservationItem) :
    validate sc accountLinkCacheSyncRequest (.obj (payloadFields sha256 p)) =
      (parseSync field p).map (dumpPayload field (computeEtag sha256 p.entries)) := by
  have hserver : validate sc .int (natJson p.serverId) = some (natJson p.serverId) :=
    validate_int hreads.scalars p.serverId
  have hmode : validate sc (.literal ["full", "incremental"]) (.str "full") = some (.str "full") :=
    validate_literal (by decide)
  have hentries := validate_list_map fun e (_ : e ∈ p.entries) => validate_entryJson hreads e
  have hremoved : validate sc (.list .str) (.arr []) = some (.arr []) :=
    rfl
  rw [accountLinkCacheSyncRequest, validate_model (by rfl) (by decide)]
  simp only [payloadFields, accountLinkCacheSyncFields, required, withDefault, validateInOrder,
    hserver, hmode, hentries, hremoved, validate_str hreads.scalars]
  cases h : p.entries.mapM (validateEntry field) with
  | none => simp [parseSync, h]
  | some entries => simp [parseSync, h, dumpPayload]

/-- **The frame on the agent's side**: it is parsed exactly when its typed payload is,
and carries that payload dumped. -/
theorem parseEnvelope_connectFrame (sha256 : String → String) (db : Db) (serverId : Nat)
    {now : Time} (hnow : InRange now) (frameId uuid clock : String) :
    parseEnvelope sc uuid clock (connectFrame sha256 db serverId now frameId) =
      (parseSync field (composeFullPayload db serverId now)).map fun f =>
        { type := syncType, id := frameId
          payload := dumpPayload field
            (computeEtag sha256 (entriesForLinuxUsers db serverId none now)) f
          correlationId := none } := by
  have hts : (sc.datetime (.str (iso now))).isSome := by
    rw [hreads.datetime_str, hreads.datetimes.validate_iso now hnow]
    rfl
  have hmodel : payloadForType.lookup syncType = some accountLinkCacheSyncRequest := rfl
  rw [connectFrame, parseEnvelope_frame hreads.scalars (by decide) hmodel hts,
    validate_payload hreads, Option.map_map]
  rfl

end Reads

/-! ## the dumped payload, read into the cache -/

/-- A validated item as the cache keeps it. -/
def cachedItem (field : DatetimeField) (s : ActiveReservationSnapshot) : CachedItem :=
  { reservationId := s.reservationId, gpuId := s.gpuId, startAt := field.dump s.startAt
    endAt := field.dump s.endAt, status := s.status.text
    gpuMemoryMb := .ofOption natJson s.gpuMemoryMb
    gpuComputeSharePct := .ofOption natJson s.gpuComputeSharePct, source := s.source.text }

theorem readItem_snapshotJson (field : DatetimeField) (s : ActiveReservationSnapshot) :
    readItem (snapshotJson field s) = some (cachedItem field s) := rfl

/-- Lists of items that can all be read are all taken over. -/
theorem parseActiveReservations_isSome {raw : List (String × Json)}
    (h : ∀ e ∈ raw, ((e.2.items?).bind fun items => items.mapM readItem).isSome) :
    (parseActiveReservations raw).isSome := by
  have hloop : ∀ out, (raw.foldlM readUser out).isSome := by
    induction raw with
    | nil => exact fun out => rfl
    | cons e raw ih =>
        intro out
        have htail := ih fun e' he' => h e' (List.mem_cons_of_mem e he')
        obtain ⟨items, hitems⟩ := Option.isSome_iff_exists.mp (h e List.mem_cons_self)
        obtain ⟨out', hout⟩ : ∃ out', readUser out e = some out' := by
          rw [readUser, hitems]
          cases readInt e.1 with
          | none => exact ⟨out, rfl⟩
          | some userId => exact ⟨out.set userId items, rfl⟩
        rw [List.foldlM_cons, hout]
        exact htail out'
  exact hloop .empty

/-- A dumped entry is read. -/
theorem readEntry_dumpEntryJson (field : DatetimeField)
    (e : AccountLinkCacheEntry ActiveReservationSnapshot) :
    (readEntry (dumpEntryJson field e)).isSome := by
  have hparse : (parseActiveReservations
      (e.activeReservations.entries.map fun kv => (kv.1, snapshotsJson field kv.2))).isSome := by
    apply parseActiveReservations_isSome
    intro kv hkv
    obtain ⟨kv, -, rfl⟩ := List.mem_map.mp hkv
    have hitems : (kv.2.map (snapshotJson field)).mapM readItem =
        some (kv.2.map (cachedItem field)) :=
      mapM_map_eq_some fun s _ => readItem_snapshotJson field s
    exact Option.isSome_of_eq_some hitems
  obtain ⟨d, hd⟩ := Option.isSome_iff_exists.mp hparse
  have hread : readEntry (dumpEntryJson field e) = (parseActiveReservations
      (e.activeReservations.entries.map fun kv => (kv.1, snapshotsJson field kv.2))).bind fun d =>
        some { linuxUsername := e.linuxUsername, userIds := .arr (e.userIds.map natJson)
               activeReservations := d } := rfl
  rw [hread, hd]
  rfl

/-- **Whatever the wire model lets through, the cache reads.** -/
theorem readEntries_dumpPayload (field : DatetimeField) (etag : String)
    (f : AccountLinkCacheSync ActiveReservationSnapshot) :
    (readEntries (dumpPayload field etag f)).isSome := by
  have hread : readEntries (dumpPayload field etag f) =
      (f.entries.map (dumpEntryJson field)).mapM readEntry := rfl
  rw [hread, mapM_isSome_iff]
  intro e he
  obtain ⟨e, -, rfl⟩ := List.mem_map.mp he
  exact readEntry_dumpEntryJson field e

/-! ## which frames are in the protocol -/

/-- The datetimes of the store are dates of its column type. -/
def TimesInRange (db : Db) : Prop :=
  ∀ r ∈ db.reservations, InRange r.startAt ∧ InRange r.endAt

/-- Every live reservation that a payload of the server carries names a GPU. -/
def GpuNamed (db : Db) (serverId : Nat) (now : Time) : Prop :=
  ∀ p l r, Linked db serverId p.linuxUsername p l → r ∈ liveReservations db now l → r.gpuId.isSome

/-- The item of a live reservation is accepted exactly when the reservation names a GPU. -/
theorem validateItem?_isSome_iff {field : DatetimeField} (hfield : field.Lawful) {db : Db}
    (htimes : TimesInRange db) {now : Time} {l : AccountLink} {r : Reservation}
    (hr : r ∈ liveReservations db now l) :
    (validateItem? field (itemOf l r)).isSome ↔ r.gpuId.isSome := by
  obtain ⟨hmem, -, hlive, -⟩ := mem_liveReservations.mp hr
  have hstart := hfield.validate_iso r.startAt (htimes r hmem).1
  have hend := hfield.validate_iso r.endAt (htimes r hmem).2
  have hstatus : r.status.occupies = true := hlive
  cases hgpu : r.gpuId <;> simp [validateItem?, itemOf, hgpu, hstart, hend, hstatus]

/-- The payload is accepted exactly when its live reservations name their GPUs. -/
theorem parseSync_isSome_iff {field : DatetimeField} (hfield : field.Lawful) {db : Db}
    (htimes : TimesInRange db) (serverId : Nat) (now : Time) :
    (parseSync field (composeFullPayload db serverId now)).isSome ↔ GpuNamed db serverId now := by
  have hentry : ∀ p, (validateEntry field (entryOf db now p)).isSome ↔
      ∀ l ∈ linksOf db p, ∀ r ∈ liveReservations db now l, r.gpuId.isSome := by
    intro p
    rw [validateEntry, Option.isSome_map, Dict.mapVals?_isSome_iff]
    simp only [mapM_isSome_iff]
    constructor
    · intro h l hl r hr
      obtain ⟨e, he, hx⟩ := mem_items_iff.mpr ⟨l, r, hl, hr, rfl⟩
      exact (validateItem?_isSome_iff hfield htimes hr).mp (h e he _ hx)
    · intro h e he x hx
      obtain ⟨l, r, hl, hr, rfl⟩ := mem_items_iff.mp ⟨e, he, hx⟩
      exact (validateItem?_isSome_iff hfield htimes hr).mpr (h l hl r hr)
  rw [parseSync, Option.isSome_map, mapM_isSome_iff]
  constructor
  · intro h p l r hlinked hr
    have he : entryOf db now p ∈ (composeFullPayload db serverId now).entries :=
      mem_entriesForLinuxUsers.mpr ⟨p, l, hlinked, rfl⟩
    exact (hentry p).mp (h _ he) l hlinked.link r hr
  · intro h e he
    obtain ⟨p, l, hlinked, rfl⟩ := mem_entriesForLinuxUsers.mp he
    rw [hentry]
    intro k hk r hr
    exact h p k r ⟨hlinked.account, hlinked.server, rfl, hlinked.active, hk⟩ hr

/-- **Connect frames in the protocol**: the agent parses the frame of a connect, reads all
of its items and keeps the connection exactly when every live reservation booked
through an active link to an active account of the server names a GPU. -/
theorem connectFrame_inProtocol_iff {sc : Scalars} {field : DatetimeField} (hreads : Reads sc field)
    (sha256 : String → String) {db : Db} (htimes : TimesInRange db) (serverId : Nat) {now : Time}
    (hnow : InRange now) (frameId : String) :
    InProtocol sc (connectFrame sha256 db serverId now frameId) ↔ GpuNamed db serverId now := by
  have hparse := parseEnvelope_connectFrame hreads sha256 db serverId hnow frameId
  rw [← parseSync_isSome_iff hreads.datetimes htimes serverId now]
  constructor
  · intro h
    have haccepted := h.accepted "" ""
    rwa [hparse, Option.isSome_map] at haccepted
  · intro h
    obtain ⟨f, hf⟩ := Option.isSome_iff_exists.mp h
    have hread := readEntries_dumpPayload field
      (computeEtag sha256 (entriesForLinuxUsers db serverId none now)) f
    refine ⟨fun uuid clock => ?_, fun uuid clock envelope henvelope => ?_, fun uuid clock => ?_⟩
    · rw [hparse, hf]
      rfl
    · rw [hparse, hf, Option.map_some, Option.some.injEq] at henvelope
      exact henvelope ▸ hread
    · obtain ⟨cached, hcached⟩ := Option.isSome_iff_exists.mp hread
      rw [maybeDispatchRpc, hparse, hf]
      simp [hcached]

/-- A frame library that takes values of the type itself and writes UTC as `Z`. -/
def zuluScalars : Scalars :=
  { bool := fun v => match v with
      | .bool b => some b
      | _ => none
    int := fun v => match v with
      | .num n => some n
      | _ => none
    str := Json.text?
    datetime := fun v => v.text?.bind fun s => (zuluField.validate s).map zuluField.dump }

theorem reads_zuluScalars : Reads zuluScalars zuluField :=
  ⟨⟨fun _ => rfl, fun _ => rfl, rfl, fun _ => rfl⟩, lawful_zuluField, fun _ => rfl⟩

/-- The frame for the lab whose one reservation is on its card. -/
theorem connectFrame_inProtocol_iff_dueScript :
    InProtocol zuluScalars (connectFrame id (smallLab (.single dueScript)) 1 0 "f") ↔
      GpuNamed (smallLab (.single dueScript)) 1 0 := by
  refine connectFrame_inProtocol_iff reads_zuluScalars id (fun r hr => ?_) 1 (by decide) "f"
  obtain rfl : r = dueScript := List.mem_singleton.mp hr
  decide

/-- A script to be run without a GPU. -/
def cronTask : BatchRequest :=
  { items := [{ serverId := 1, gpuId := none, startAt := .ofStored 0
                endAt := .ofStored hourMicros, accountLinkId := 31 }]
    userId := 41
    script := some "./backup.sh" }

/-- The row that booking it writes. -/
def cronRow : Reservation :=
  { id := 1, userId := 41, serverId := 1, gpuId := none, accountLinkId := 31, groupId := some "g"
    startAt := 0, endAt := hourMicros, status := .scheduled, gpuMemoryMb := none
    gpuComputeSharePct := none, script := some "./backup.sh", scriptScheduledStartAt := some 0
    scriptMaxRuntimeSeconds := none }

/-- A booked task without a GPU makes the agent close every connection. -/
theorem connectFrame_not_inProtocol :
    ¬ ∀ (sc : Scalars) (field : DatetimeField), Reads sc field →
        ∀ (sha256 : String → String) (db : Db) (req : BatchRequest) (groupId : String)
          (now : Time) (db' : Db) (created : List Reservation), TimesInRange db' → InRange now →
        createReservationBatch db req groupId now = .ok (db', created) →
        ∀ (serverId : Nat) (frameId : String),
          InProtocol sc (connectFrame sha256 db' serverId now frameId) := by
  intro h
  obtain ⟨db', hbook⟩ : ∃ db', createReservationBatch (smallLab .empty) cronTask "g" 0 =
      .ok (db', createdRows (smallLab .empty) cronTask "g") := ⟨_, rfl⟩
  have hbooked := (createReservationBatch_ok hbook).1
  have hrows : db'.reservations.rows = createdRows (smallLab .empty) cronTask "g" :=
    hbooked.reservations
  have htimes : TimesInRange db' := by
    intro r hr
    rw [Table.mem_def, hrows] at hr
    obtain rfl := List.mem_singleton.mp hr
    decide
  have hframe := h zuluScalars zuluField reads_zuluScalars id _ _ _ _ _ _ htimes (by decide) hbook
    1 "f"
  have hnamed := (parseSync_isSome_iff lawful_zuluField htimes 1 0).mp (by
    have haccepted := hframe.accepted "" ""
    rwa [parseEnvelope_connectFrame reads_zuluScalars id db' 1 (by decide), Option.isSome_map]
      at haccepted)
  -- the row that the booking wrote is carried, and names no GPU
  have hlinked : Linked db' 1 "alice" ⟨21, 1, "alice", true⟩
      ⟨31, 41, 21, .sshChallenge, true, none, none, none⟩ :=
    { account := hbooked.physicalAccounts ▸ List.mem_singleton_self _
      server := rfl
      username := rfl
      active := rfl
      link := mem_linksOf.mpr ⟨hbooked.accountLinks ▸ List.mem_singleton_self _, rfl, rfl⟩ }
  have hrow : cronRow ∈ db'.reservations := by
    rw [Table.mem_def, hrows]
    exact List.mem_singleton_self _
  have hlive : cronRow ∈ liveReservations db' 0 ⟨31, 41, 21, .sshChallenge, true, none, none, none⟩ :=
    mem_liveReservations.mpr ⟨hrow, rfl, rfl, by decide⟩
  have hnone := hnamed ⟨21, 1, "alice", true⟩ _ _ hlinked hlive
  exact absurd hnone (by decide)

end CacheFrames

end CoreLab
