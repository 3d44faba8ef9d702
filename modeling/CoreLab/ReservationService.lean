import CoreLab.Models
import CoreLab.Lib.Loops

/-!
# CoreLab.ReservationService

Booking: the checks of one item, the conflict rules against the rows already
in the window, and `createReservationBatch`, which validates every item and
then inserts all rows of the batch.

* `createReservationBatch_ok` — what a successful booking checked, and the
  database it leaves.
-/

namespace CoreLab

open Relational Loops

/-- `SCRIPT_MAX_BYTES`. -/
def scriptMaxBytes : Nat := 4096

/-! ## errors -/

/-- The typed errors of the service, each with the data its class carries. -/
inductive ReservationError where
  | base (message : String)
  | overlap (message : String) (conflictingReservationIds : List Nat)
  | mixExclusiveShared (message : String) (conflictingReservationIds : List Nat)
  | memoryExceeded (message : String) (usedMb wouldUseMb totalMb : Nat)
      (conflictingReservationIds : List Nat)
  | computeExceeded (message : String) (usedPct wouldUsePct : Nat)
      (conflictingReservationIds : List Nat)
  | tooLong (message : String) (maxHours : Nat) (requested : Int)
  | invalidTime (message : String)
  | linkNotVerified (message : String)
  | noActiveLink (message : String)
  | scriptTooLarge (message : String)
  | notFound (message : String)
  | cancelNotPermitted (message : String)
  | groupCancelRunningScript (message : String) (runningReservationIds : List Nat)
  | illegalTransition (message currentStatus attemptedStatus : String)
deriving DecidableEq, Repr

/-- How a service call ends when it does not return. -/
inductive Failure where
  /-- A typed error; the API layer turns it into an HTTP error. -/
  | reservation (e : ReservationError)
  /-- Python's `TypeError`: an aware datetime was compared with a naive one. -/
  | typeError
  /-- `IntegrityError` or `DataError`: the store refuses a flush. -/
  | integrity
  /-- A failed `assert`. -/
  | assertion
deriving DecidableEq, Repr

/-- `raise` a typed error. -/
def raise {α : Type} (e : ReservationError) : Except Failure α := .error (.reservation e)

/-! ## one item -/

/-- `ItemDraft`: one row's worth of input. -/
structure ItemDraft where
  serverId : Nat
  gpuId : Option Nat
  startAt : Datetime
  endAt : Datetime
  accountLinkId : Nat
  gpuMemoryMb : Option Nat := none
  gpuComputeSharePct : Option Nat := none
deriving DecidableEq, Repr

/-- `_load_link_or_raise`. -/
def loadLinkOrRaise (db : Db) (accountLinkId userId : Nat) : Except Failure AccountLink :=
  match db.accountLinks.get? accountLinkId with
  | none => raise (.noActiveLink s!"account_link {accountLinkId} not active for user {userId}")
  | some link =>
    if !link.isActive || link.userId != userId then
      raise (.noActiveLink s!"account_link {accountLinkId} not active for user {userId}")
    else if link.source = .adminDeclared then
      raise (.linkNotVerified
        s!"account_link {accountLinkId} source='admin_declared' cannot act-as")
    else .ok link

/-- A duration in hours, printed to two places. -/
def hoursText (micros : Int) : String :=
  let hundredths := ((micros + 18000000) / 36000000).toNat
  s!"{hundredths / 100}." ++ String.ofList (Calendar.pad 2 hundredths)

/-- The duration is over the server's limit.  The source compares hours as a
float, which keeps every microsecond of a window of less than two centuries:
there the order is that of the exact quotient. -/
def exceedsMaxHours (maxHours : Nat) (duration : Int) : Bool :=
  decide ((maxHours : Int) * hourMicros < duration)

/-- `_validate_item_time`: order, five minutes of grace for a past start, and
the server's maximal duration.  Zones are dropped, not converted. -/
def validateItemTime (db : Db) (item : ItemDraft) (now : Time) : Except Failure Server := do
  let startAt := item.startAt.stored
  let endAt := item.endAt.stored
  raiseIf (decide (endAt ≤ startAt)) (.reservation (.invalidTime
    s!"end_at must be > start_at (got {item.startAt.str} -> {item.endAt.str})"))
  raiseIf (decide (startAt < now - 5 * minuteMicros)) (.reservation (.invalidTime
    s!"start_at {item.startAt.repr} is in the past"))
  match db.servers.get? item.serverId with
  | none => raise (.invalidTime s!"server {item.serverId} not found")
  | some server =>
    match server.maxReservationHours with
    | none => .ok server
    | some maxHours =>
      if exceedsMaxHours maxHours (endAt - startAt) then
        raise (.tooLong (s!"reservation {hoursText (endAt - startAt)}h exceeds " ++
          s!"server.max_reservation_hours={maxHours}h") maxHours (endAt - startAt))
      else .ok server

/-! ## conflicts with the rows of the window -/

/-- `_window_active_reservations`: the scheduled and active rows of a GPU that
overlap `[startAt, endAt)`. -/
def windowActiveReservations (db : Db) (gpuId : Nat) (startAt endAt : Time) : List Reservation :=
  db.reservations.rows.filter fun r =>
    r.gpuId = some gpuId && r.occupies && decide (r.startAt < endAt) && decide (startAt < r.endAt)

/-- The conflict types of `ConflictRecord`, with the sums they report. -/
inductive ConflictType where
  | exclusiveConflict
  | mixExclusiveShared
  | memoryExceeded (usedMb wouldUseMb totalMb : Nat)
  | computeExceeded (usedPct wouldUsePct : Nat)
deriving DecidableEq, Repr

structure ConflictRecord where
  type : ConflictType
  conflictingReservationIds : List Nat
deriving DecidableEq, Repr

/-- `sum(r.gpu_memory_mb or 0 for r in rows)`. -/
def usedMemoryMb (rows : List Reservation) : Nat := (rows.map fun r => r.gpuMemoryMb.getD 0).sum

/-- `sum(r.gpu_compute_share_pct or 0 for r in rows)`. -/
def usedComputePct (rows : List Reservation) : Nat :=
  (rows.map fun r => r.gpuComputeSharePct.getD 0).sum

/-- `_classify_conflict`.  An empty window is free for any request. -/
def classifyConflict (newItem : ItemDraft) (inWindow : List Reservation) (gpu : Gpu) :
    Option ConflictRecord :=
  if inWindow = [] then none
  else match newItem.gpuMemoryMb with
  | none =>
    let sharedRows := inWindow.filter (·.gpuMemoryMb.isSome)
    if sharedRows ≠ [] then some ⟨.mixExclusiveShared, sharedRows.map (·.id)⟩
    else some ⟨.exclusiveConflict, inWindow.map (·.id)⟩
  | some memoryMb =>
    let exclusiveRows := inWindow.filter (·.gpuMemoryMb.isNone)
    if exclusiveRows ≠ [] then some ⟨.mixExclusiveShared, exclusiveRows.map (·.id)⟩
    else
      let usedMb := usedMemoryMb inWindow
      let totalMb := gpu.memoryTotalMb.getD 0
      if totalMb ≠ 0 ∧ totalMb < usedMb + memoryMb then
        some ⟨.memoryExceeded usedMb memoryMb totalMb, inWindow.map (·.id)⟩
      else match newItem.gpuComputeSharePct with
      | none => none
      | some pct =>
        let usedPct := usedComputePct inWindow
        if 100 < usedPct + pct then
          some ⟨.computeExceeded usedPct pct,
            (inWindow.filter (·.gpuComputeSharePct.isSome)).map (·.id)⟩
        else none

/-- The error a booking raises for a conflict. -/
def conflictError (item : ItemDraft) (gpuId : Nat) (c : ConflictRecord) : ReservationError :=
  match c.type with
  | .exclusiveConflict => .overlap (s!"gpu {gpuId} already has an active reservation " ++
      s!"in [{item.startAt.str}, {item.endAt.str})") c.conflictingReservationIds
  | .mixExclusiveShared => .mixExclusiveShared
      (s!"gpu {gpuId} window contains an exclusive reservation; " ++
        "shared mode cannot be mixed in") c.conflictingReservationIds
  | .memoryExceeded usedMb wouldUseMb totalMb => .memoryExceeded
      s!"gpu {gpuId} shared-memory stack would exceed total" usedMb wouldUseMb totalMb
      c.conflictingReservationIds
  | .computeExceeded usedPct wouldUsePct => .computeExceeded
      s!"gpu {gpuId} shared-compute stack would exceed 100%" usedPct wouldUsePct
      c.conflictingReservationIds

/-! ## booking a batch -/

/-- The input of `create_reservation_batch`. -/
structure BatchRequest where
  items : List ItemDraft
  userId : Nat
  script : Option String := none
  scriptScheduledStartAt : Option Datetime := none
  scriptMaxRuntimeSeconds : Option Nat := none
  shareScript : Bool := true
deriving DecidableEq, Repr

/-- `len(script.encode("utf-8")) > SCRIPT_MAX_BYTES`. -/
def scriptTooLarge (script : String) : Bool := decide (scriptMaxBytes < script.utf8ByteSize)

/-- An item without a GPU needs a script, and has nothing to share. -/
def checkItemMode (script : Option String) : ItemDraft × Nat → Except Failure Unit
  | (item, idx) =>
    if item.gpuId.isSome then .ok ()
    else if script.isNone then
      raise (.invalidTime s!"item {idx}: gpu_id NULL requires a script (empty row not allowed)")
    else raiseIf (item.gpuMemoryMb.isSome || item.gpuComputeSharePct.isSome)
      (.reservation (.invalidTime
        (s!"item {idx}: gpu_memory_mb / gpu_compute_share_pct must be NULL " ++
          "when gpu_id is NULL (no GPU to share)")))

/-- The script's trigger time must lie in the item's window. -/
def checkScriptTime (scheduled : Option Datetime) (item : ItemDraft) : Except Failure Unit :=
  match scheduled with
  | none => .ok ()
  | some t =>
    match Datetime.within? item.startAt t item.endAt with
    | none => .error .typeError
    | some inside => raiseIf (!inside) (.reservation (.invalidTime
        ("script_scheduled_start_at must satisfy " ++
          "start_at <= value < end_at for every item in the group")))

/-- The pre-pass over one item: time and server, link, script time. -/
def validateItem (db : Db) (req : BatchRequest) (now : Time) (item : ItemDraft) :
    Except Failure Unit := do
  let _ ← validateItemTime db item now
  let _ ← loadLinkOrRaise db item.accountLinkId req.userId
  checkScriptTime req.scriptScheduledStartAt item

/-- The conflict check of one item, against the rows of the table. -/
def checkItemConflict (db : Db) (item : ItemDraft) : Except Failure Unit :=
  match item.gpuId with
  | none => .ok ()
  | some gpuId =>
    match db.gpus.get? gpuId with
    | none => raise (.invalidTime s!"gpu {gpuId} not found")
    | some gpu =>
      match classifyConflict item
          (windowActiveReservations db gpuId item.startAt.stored item.endAt.stored) gpu with
      | none => .ok ()
      | some c => raise (conflictError item gpuId c)

/-- Every check a batch passes before its rows are built. -/
def checkBatch (db : Db) (req : BatchRequest) (now : Time) : Except Failure Unit := do
  raiseIf req.items.isEmpty (.reservation (.invalidTime "at least one item is required"))
  raiseIf (req.script.any scriptTooLarge) (.reservation (.scriptTooLarge
    s!"script body exceeds {scriptMaxBytes} bytes (4 KB)"))
  req.items.zipIdx.forM (checkItemMode req.script)
  req.items.forM (validateItem db req now)
  req.items.forM (checkItemConflict db)

/-- The script a row carries: every row when it is shared, else the first. -/
def carryScript (req : BatchRequest) (idx : Nat) : Option String :=
  if req.shareScript || idx == 0 then req.script else none

/-- Python's truth of an optional text. -/
def truthy (s : Option String) : Bool := s.any (· ≠ "")

/-- The row built for an item, under the key it is given. -/
def newRow (req : BatchRequest) (groupId : String) (item : ItemDraft) (idx : Nat) (id : Nat) :
    Reservation :=
  let script := carryScript req idx
  { id := id
    userId := req.userId
    serverId := item.serverId
    gpuId := item.gpuId
    accountLinkId := item.accountLinkId
    groupId := some groupId
    startAt := item.startAt.stored
    endAt := item.endAt.stored
    status := .scheduled
    gpuMemoryMb := item.gpuMemoryMb
    gpuComputeSharePct := item.gpuComputeSharePct
    script := script
    -- a blank trigger means: when the reservation starts
    scriptScheduledStartAt :=
      if truthy script then some (req.scriptScheduledStartAt.getD item.startAt).stored else none
    scriptMaxRuntimeSeconds := if truthy script then req.scriptMaxRuntimeSeconds else none }

/-- The insertions of a batch, in order. -/
def insertions (req : BatchRequest) (groupId : String) : List (Table.Insertion Reservation) :=
  req.items.zipIdx.map fun (item, idx) => ⟨newRow req groupId item idx, fun _ => rfl⟩

/-- The rows a batch adds to `db`. -/
def createdRows (db : Db) (req : BatchRequest) (groupId : String) : List Reservation :=
  Table.freshRows db.reservations.nextKey (insertions req groupId)

/-- `create_reservation_batch`: all checks, then all rows in one flush. -/
def createReservationBatch (db : Db) (req : BatchRequest) (groupId : String) (now : Time) :
    Except Failure (Db × List Reservation) := do
  checkBatch db req now
  let created := createdRows db req groupId
  raiseIf (!created.all Reservation.checks) .integrity
  let stored := { db with reservations := db.reservations.appendAll (insertions req groupId) }
  .ok (stored.auditAll (created.map (reservationAudit .reservationCreate (some req.userId))), created)

/-! ## what a successful booking checked -/

theorem exceedsMaxHours_eq_false_iff {maxHours : Nat} {duration : Int} :
    exceedsMaxHours maxHours duration = false ↔ duration ≤ (maxHours : Int) * hourMicros := by
  simp [exceedsMaxHours]

theorem validateItemTime_eq_ok_iff {db : Db} {item : ItemDraft} {now : Time} {server : Server} :
    validateItemTime db item now = .ok server ↔
      item.startAt.stored < item.endAt.stored ∧ now - 5 * minuteMicros ≤ item.startAt.stored ∧
        db.servers.get? item.serverId = some server ∧
        ∀ maxHours, server.maxReservationHours = some maxHours →
          item.endAt.stored - item.startAt.stored ≤ (maxHours : Int) * hourMicros := by
  simp only [validateItemTime, check_bind_eq_ok_iff, raiseIf_eq_ok_iff, decide_eq_false_iff_not,
    not_le, not_lt]
  refine and_congr_right fun _ => and_congr_right fun _ => ?_
  cases hs : db.servers.get? item.serverId with
  | none => simp [raise]
  | some s =>
      simp only [Option.some.injEq]
      cases hmax : s.maxReservationHours with
      | none =>
          simp only [Except.ok.injEq]
          refine ⟨fun h => ⟨h, fun m hm => ?_⟩, And.left⟩
          rw [← h, hmax] at hm
          cases hm
      | some m =>
          simp only
          split
          · next hex =>
              simp only [raise, reduceCtorEq, false_iff]
              rintro ⟨rfl, hle⟩
              rw [exceedsMaxHours_eq_false_iff.mpr (hle m hmax)] at hex
              cases hex
          · next hex =>
              simp only [Except.ok.injEq]
              refine ⟨fun h => ⟨h, fun k hk => ?_⟩, And.left⟩
              rw [← h, hmax, Option.some.injEq] at hk
              exact exceedsMaxHours_eq_false_iff.mp (hk ▸ Bool.eq_false_iff.mpr hex)

theorem loadLinkOrRaise_eq_ok_iff {db : Db} {accountLinkId userId : Nat} {link : AccountLink} :
    loadLinkOrRaise db accountLinkId userId = .ok link ↔
      db.accountLinks.get? accountLinkId = some link ∧ link.isActive = true ∧
        link.userId = userId ∧ link.source ≠ .adminDeclared := by
  unfold loadLinkOrRaise
  cases hl : db.accountLinks.get? accountLinkId with
  | none => simp [raise]
  | some l =>
      simp only [Option.some.injEq]
      split
      · next hbad =>
          simp only [raise, reduceCtorEq, false_iff]
          rintro ⟨rfl, hact, huser, -⟩
          simp [hact, huser] at hbad
      · next hgood =>
          simp only [Bool.or_eq_true, Bool.not_eq_true', bne_iff_ne, ne_eq, not_or,
            Bool.not_eq_false, not_not] at hgood
          split
          · next hsrc =>
              simp only [raise, reduceCtorEq, false_iff]
              rintro ⟨rfl, -, -, hne⟩
              exact hne hsrc
          · next hsrc =>
              simp only [Except.ok.injEq]
              exact ⟨fun h => h ▸ ⟨rfl, hgood.1, hgood.2, hsrc⟩, And.left⟩

/-- What the pre-pass over an item found. -/
theorem validateItem_eq_ok_iff {db : Db} {req : BatchRequest} {now : Time} {item : ItemDraft} :
    validateItem db req now item = .ok () ↔
      ∃ server link, validateItemTime db item now = .ok server ∧
        loadLinkOrRaise db item.accountLinkId req.userId = .ok link ∧
        checkScriptTime req.scriptScheduledStartAt item = .ok () := by
  simp only [validateItem, bind_eq_ok_iff, exists_and_left]

/-- What the conflict check of an item found. -/
theorem checkItemConflict_eq_ok_iff {db : Db} {item : ItemDraft} :
    checkItemConflict db item = .ok () ↔ ∀ gpuId, item.gpuId = some gpuId →
      ∃ gpu, db.gpus.get? gpuId = some gpu ∧
        classifyConflict item
          (windowActiveReservations db gpuId item.startAt.stored item.endAt.stored) gpu = none := by
  unfold checkItemConflict
  cases hid : item.gpuId with
  | none => simp
  | some gpuId =>
      simp only [Option.some.injEq, forall_eq']
      cases hg : db.gpus.get? gpuId with
      | none => simp [raise]
      | some gpu =>
          simp only [Option.some.injEq, exists_eq_left']
          cases classifyConflict item
            (windowActiveReservations db gpuId item.startAt.stored item.endAt.stored) gpu with
          | none => simp
          | some c => simp [raise]

/-- What a successful booking checked, and what it wrote. -/
structure Booked (db : Db) (req : BatchRequest) (groupId : String) (now : Time) (db' : Db) :
    Prop where
  valid : ∀ item ∈ req.items, validateItem db req now item = .ok ()
  noConflict : ∀ item ∈ req.items, checkItemConflict db item = .ok ()
  checks : ∀ r ∈ createdRows db req groupId, r.checks = true
  reservations : db'.reservations.rows = db.reservations.rows ++ createdRows db req groupId
  servers : db'.servers = db.servers
  gpus : db'.gpus = db.gpus
  physicalAccounts : db'.physicalAccounts = db.physicalAccounts
  accountLinks : db'.accountLinks = db.accountLinks
  auditLog : db'.auditLog = db.auditLog ++
    (createdRows db req groupId).map (reservationAudit .reservationCreate (some req.userId))

/-- **Booking, inverted**: a batch that succeeds passed every check against the
table it found, and only appends the rows of its items. -/
theorem createReservationBatch_ok {db db' : Db} {req : BatchRequest} {groupId : String} {now : Time}
    {created : List Reservation}
    (h : createReservationBatch db req groupId now = .ok (db', created)) :
    Booked db req groupId now db' ∧ created = createdRows db req groupId := by
  simp only [createReservationBatch, checkBatch, check_bind_eq_ok_iff, forM_eq_ok_iff,
    raiseIf_eq_ok_iff, Except.ok.injEq, Prod.mk.injEq] at h
  obtain ⟨⟨-, -, -, hvalid, hconflict⟩, hchecks, hdb, hcreated⟩ := h
  refine ⟨⟨hvalid, hconflict, ?_, ?_, ?_, ?_, ?_, ?_, ?_⟩, hcreated.symm⟩
  · simpa using hchecks
  · rw [← hdb]
    exact Table.rows_appendAll _ _
  all_goals rw [← hdb]; rfl

/-- A created row is the row of one of the items. -/
theorem mem_createdRows {db : Db} {req : BatchRequest} {groupId : String} {r : Reservation}
    (h : r ∈ createdRows db req groupId) :
    ∃ item idx id, (item, idx) ∈ req.items.zipIdx ∧ r = newRow req groupId item idx id := by
  obtain ⟨b, hb, id, -, rfl⟩ := Table.mem_freshRows h
  obtain ⟨⟨item, idx⟩, hitem, rfl⟩ := List.mem_map.mp hb
  exact ⟨item, idx, id, hitem, rfl⟩

/-- Reading the created rows by a function of their item alone. -/
theorem map_createdRows {β : Type} (db : Db) (req : BatchRequest) (groupId : String)
    (f : Reservation → β) (g : ItemDraft → β)
    (hfg : ∀ item idx id, f (newRow req groupId item idx id) = g item) :
    (createdRows db req groupId).map f = req.items.map g := by
  have hkey : ∀ b ∈ insertions req groupId, ∀ i j, f (b.1 i) = f (b.1 j) := by
    intro b hb i j
    obtain ⟨⟨item, idx⟩, -, rfl⟩ := List.mem_map.mp hb
    exact (hfg item idx i).trans (hfg item idx j).symm
  rw [createdRows, Table.map_freshRows f _ _ hkey, insertions, List.map_map]
  have hitem : (fun b : Table.Insertion Reservation => f (b.1 0)) ∘
      (fun p : ItemDraft × Nat => (⟨newRow req groupId p.1 p.2, fun _ => rfl⟩ :
        Table.Insertion Reservation)) = g ∘ Prod.fst := by
    funext p
    exact hfg p.1 p.2 0
  rw [hitem, ← List.map_map, List.zipIdx_map_fst]

end CoreLab
