import CoreLab.ReservationService

/-!
# CoreLab.Preview

`preview_conflicts`: the checks of a booking, made without raising.  It shares
the conflict rules with `createReservationBatch` and repeats the checks of the
times, but compares aware datetimes as instants where the booking compares
their clock readings.

* `previewItem_clean_iff`, `not_refused_iff` — when each of the two finds
  nothing to refuse;
* `previewConflicts_agrees_iff` — when they agree about one item.
-/

namespace CoreLab

open Relational Loops

/-! ## the result of a preview -/

/-- The type of a record: a failed check of the times, or a conflict. -/
inductive PreviewType where
  | invalidTime
  /-- With `max_hours` and the requested time, which is shown in hours. -/
  | timeTooLong (maxHours : Nat) (requested : Int)
  | conflict (type : ConflictType)
deriving DecidableEq, Repr

/-- `ConflictRecord`, of the input at an index. -/
structure PreviewRecord where
  inputIndex : Nat
  type : PreviewType
  conflictingReservationIds : List Nat
deriving DecidableEq, Repr

/-- One element of `time_limit_checks`. -/
structure TimeLimitCheck where
  inputIndex : Nat
  maxHours : Option Nat
  requested : Int
  wouldExceed : Bool
deriving DecidableEq, Repr

/-- `PreviewResult`. -/
structure PreviewResult where
  conflicts : List PreviewRecord
  timeLimitChecks : List TimeLimitCheck
deriving DecidableEq, Repr

namespace PreviewResult

/-- The result before the first item. -/
def empty : PreviewResult := ⟨[], []⟩

/-- Add what one item contributes. -/
def append (p q : PreviewResult) : PreviewResult :=
  ⟨p.conflicts ++ q.conflicts, p.timeLimitChecks ++ q.timeLimitChecks⟩

end PreviewResult

/-! ## the preview -/

/-- `item.end_at <= item.start_at or item.start_at < grace`; `none` is the
`TypeError` of mixing naive with aware. -/
def timesInvalid? (item : ItemDraft) (grace : Datetime) : Option Bool :=
  (Datetime.le? item.endAt item.startAt).bind fun reversed =>
    if reversed then some true else Datetime.lt? item.startAt grace

/-- An item whose times or server are rejected. -/
def rejectedItem (idx : Nat) : PreviewResult :=
  { conflicts := [⟨idx, .invalidTime, []⟩], timeLimitChecks := [⟨idx, none, 0, false⟩] }

/-- The record of a duration over the server's limit. -/
def tooLongRecords (server : Server) (requested : Int) (idx : Nat) : List PreviewRecord :=
  match server.maxReservationHours with
  | none => []
  | some maxHours =>
    if exceedsMaxHours maxHours requested then [⟨idx, .timeTooLong maxHours requested, []⟩] else []

/-- The record of a card that is missing or taken; no card has none. -/
def cardRecords (db : Db) (item : ItemDraft) (idx : Nat) : List PreviewRecord :=
  match item.gpuId with
  | none => []
  | some gpuId =>
    match db.gpus.get? gpuId with
    | none => [⟨idx, .invalidTime, []⟩]
    | some gpu =>
      match classifyConflict item
          (windowActiveReservations db gpuId item.startAt.stored item.endAt.stored) gpu with
      | none => []
      | some c => [⟨idx, .conflict c.type, c.conflictingReservationIds⟩]

/-- What `preview_conflicts` finds for one item; a duration over the limit does
not keep it from looking at the card. -/
def previewItem (db : Db) (now : Time) (item : ItemDraft) (idx : Nat) :
    Except Failure PreviewResult :=
  match timesInvalid? item (.utc (now - 5 * minuteMicros)) with
  | none => .error .typeError
  | some true => .ok (rejectedItem idx)
  | some false =>
    match db.servers.get? item.serverId with
    | none => .ok (rejectedItem idx)
    | some server =>
      let requested := item.endAt.instant - item.startAt.instant
      let wouldExceed := server.maxReservationHours.any fun maxHours =>
        exceedsMaxHours maxHours requested
      .ok { conflicts := tooLongRecords server requested idx ++ cardRecords db item idx
            timeLimitChecks := [⟨idx, server.maxReservationHours, requested, wouldExceed⟩] }

/-- `preview_conflicts`. -/
def previewConflicts (db : Db) (items : List ItemDraft) (now : Time) :
    Except Failure PreviewResult :=
  items.zipIdx.foldlM (fun found (item, idx) =>
    (previewItem db now item idx).map found.append) .empty

/-! ## what a booking is refused for -/

/-- The errors of a booking that a preview announces. -/
def announced : Failure → Bool
  | .reservation (.invalidTime _) | .reservation (.tooLong ..) | .reservation (.overlap ..)
  | .reservation (.mixExclusiveShared ..) | .reservation (.memoryExceeded ..)
  | .reservation (.computeExceeded ..) => true
  | _ => false

/-- The call raises one of these errors. -/
def refused {α : Type} : Except Failure α → Bool
  | .ok _ => false
  | .error e => announced e

/-- The item may start and end at the two times: in order, not past by more
than five minutes, on a server that is there, and within its maximal duration. -/
def WellTimed (db : Db) (item : ItemDraft) (startAt endAt now : Time) : Prop :=
  startAt < endAt ∧ now - 5 * minuteMicros ≤ startAt ∧
    ∃ server, db.servers.get? item.serverId = some server ∧
      ∀ maxHours, server.maxReservationHours = some maxHours →
        endAt - startAt ≤ (maxHours : Int) * hourMicros

/-- The item asks for no card, or for one that takes it in its window. -/
def CardFree (db : Db) (item : ItemDraft) : Prop :=
  ∀ gpuId, item.gpuId = some gpuId → ∃ gpu, db.gpus.get? gpuId = some gpu ∧
    classifyConflict item
      (windowActiveReservations db gpuId item.startAt.stored item.endAt.stored) gpu = none

/-- A request of one item with a verified link, without a trigger time, and with
a script where there is no card. -/
structure SingleRequest (db : Db) (req : BatchRequest) (item : ItemDraft) : Prop where
  items : req.items = [item]
  startAware : item.startAt.utcoffset.isSome = true
  endAware : item.endAt.utcoffset.isSome = true
  link : ∃ link, loadLinkOrRaise db item.accountLinkId req.userId = .ok link
  noTrigger : req.scriptScheduledStartAt = none
  noCard : item.gpuId = none →
    req.script.isSome = true ∧ item.gpuMemoryMb = none ∧ item.gpuComputeSharePct = none

/-! ## when nothing is found -/

theorem timesInvalid?_aware {item : ItemDraft} {grace : Time}
    (hs : item.startAt.utcoffset.isSome = true) (he : item.endAt.utcoffset.isSome = true) :
    timesInvalid? item (.utc grace) = some
      (decide (item.endAt.instant ≤ item.startAt.instant) || decide (item.startAt.instant < grace)) := by
  have hutc : (Datetime.utc grace).utcoffset.isSome = true := rfl
  rw [timesInvalid?, Datetime.le?, if_pos (he.trans hs.symm), Option.bind_some, Datetime.lt?,
    if_pos (hs.trans hutc.symm), Datetime.instant_utc]
  cases decide (item.endAt.instant ≤ item.startAt.instant) <;> rfl

theorem tooLongRecords_eq_nil_iff {server : Server} {requested : Int} {idx : Nat} :
    tooLongRecords server requested idx = [] ↔ ∀ maxHours,
      server.maxReservationHours = some maxHours → requested ≤ (maxHours : Int) * hourMicros := by
  unfold tooLongRecords
  cases server.maxReservationHours with
  | none => simp
  | some maxHours =>
      simp only [Option.some.injEq, forall_eq', ← exceedsMaxHours_eq_false_iff]
      cases exceedsMaxHours maxHours requested <;> simp

theorem cardRecords_eq_nil_iff {db : Db} {item : ItemDraft} {idx : Nat} :
    cardRecords db item idx = [] ↔ CardFree db item := by
  unfold cardRecords CardFree
  cases item.gpuId with
  | none => simp
  | some gpuId =>
      simp only [Option.some.injEq, forall_eq']
      cases db.gpus.get? gpuId with
      | none => simp
      | some gpu =>
          simp only [Option.some.injEq, exists_eq_left']
          cases classifyConflict item
            (windowActiveReservations db gpuId item.startAt.stored item.endAt.stored) gpu <;> simp

/-- A preview of aware times finds nothing for an item that is well timed by its
instants and whose card is free. -/
theorem previewItem_clean_iff (db : Db) (now : Time) (idx : Nat) {item : ItemDraft}
    (hs : item.startAt.utcoffset.isSome = true) (he : item.endAt.utcoffset.isSome = true) :
    ∃ found, previewItem db now item idx = .ok found ∧
      (found.conflicts = [] ↔
        WellTimed db item item.startAt.instant item.endAt.instant now ∧ CardFree db item) := by
  unfold previewItem WellTimed
  rw [timesInvalid?_aware hs he]
  cases hbad : decide (item.endAt.instant ≤ item.startAt.instant) ||
      decide (item.startAt.instant < now - 5 * minuteMicros) with
  | true =>
      refine ⟨_, rfl, ?_⟩
      rw [Bool.or_eq_true, decide_eq_true_eq, decide_eq_true_eq] at hbad
      simp only [rejectedItem, List.cons_ne_nil, false_iff]
      rintro ⟨⟨horder, hpast, -⟩, -⟩
      exact hbad.elim horder.not_ge hpast.not_gt
  | false =>
      rw [Bool.or_eq_false_iff, decide_eq_false_iff_not, decide_eq_false_iff_not, not_le, not_lt]
        at hbad
      cases hserver : db.servers.get? item.serverId with
      | none => exact ⟨_, rfl, by simp [rejectedItem]⟩
      | some server =>
          refine ⟨_, rfl, ?_⟩
          simp only [List.append_eq_nil_iff, tooLongRecords_eq_nil_iff, cardRecords_eq_nil_iff,
            Option.some.injEq, exists_eq_left', hbad.1, hbad.2, true_and]

/-- A preview of a single item is that of the item. -/
theorem previewConflicts_single (db : Db) (item : ItemDraft) (now : Time) :
    previewConflicts db [item] now = previewItem db now item 0 := by
  have hone : previewConflicts db [item] now =
      (previewItem db now item 0).map PreviewResult.empty.append >>= pure := rfl
  rw [hone]
  cases previewItem db now item 0 with
  | error e => rfl
  | ok found => rfl

/-! ## when nothing is refused -/

theorem raiseIf_error {cond : Bool} {e e' : Failure} (h : raiseIf cond e = .error e')
    (he : announced e = true) : announced e' = true := by
  cases cond with
  | false => cases h
  | true => exact Except.error.inj h ▸ he

theorem announced_validateItemTime {db : Db} {item : ItemDraft} {now : Time} {e : Failure}
    (h : validateItemTime db item now = .error e) : announced e = true := by
  unfold validateItemTime at h
  rcases check_bind_eq_error h with h | h
  · exact raiseIf_error h rfl
  rcases check_bind_eq_error h with h | h
  · exact raiseIf_error h rfl
  split at h
  · rw [← Except.error.inj h]
    rfl
  · split at h
    · cases h
    · split at h
      · rw [← Except.error.inj h]
        rfl
      · cases h

theorem announced_checkItemConflict {db : Db} {item : ItemDraft} {e : Failure}
    (h : checkItemConflict db item = .error e) : announced e = true := by
  unfold checkItemConflict at h
  split at h
  · cases h
  · split at h
    · rw [← Except.error.inj h]
      rfl
    · split at h
      · cases h
      · rw [← Except.error.inj h]
        unfold conflictError
        split <;> rfl

/-- A booking of a single item is refused with none of these errors where its
script is too large, or where the item is well timed by its clock readings and
its card is free. -/
theorem not_refused_iff {db : Db} {req : BatchRequest} {item : ItemDraft} {groupId : String}
    {now : Time} (hreq : SingleRequest db req item) :
    refused (createReservationBatch db req groupId now) = false ↔
      req.script.any scriptTooLarge = true ∨
        WellTimed db item item.startAt.stored item.endAt.stored now ∧ CardFree db item := by
  obtain ⟨link, hlink⟩ := hreq.link
  have hmode : checkItemMode req.script (item, 0) = .ok () := by
    unfold checkItemMode
    cases hcard : item.gpuId with
    | some gpuId => simp [hcard]
    | none =>
        obtain ⟨hscript, hmem, hpct⟩ := hreq.noCard hcard
        obtain ⟨script, hscript⟩ := Option.isSome_iff_exists.mp hscript
        simp [hscript, hmem, hpct]
  have htimed : WellTimed db item item.startAt.stored item.endAt.stored now ↔
      ∃ server, validateItemTime db item now = .ok server := by
    simp only [WellTimed, validateItemTime_eq_ok_iff]
    constructor
    · rintro ⟨horder, hpast, server, hserver⟩
      exact ⟨server, horder, hpast, hserver⟩
    · rintro ⟨server, horder, hpast, hserver⟩
      exact ⟨horder, hpast, server, hserver⟩
  have hfree : CardFree db item ↔ checkItemConflict db item = .ok () :=
    checkItemConflict_eq_ok_iff.symm
  rw [htimed, hfree]
  cases hlarge : req.script.any scriptTooLarge with
  | true =>
      have hraise : createReservationBatch db req groupId now = .error (.reservation
          (.scriptTooLarge s!"script body exceeds {scriptMaxBytes} bytes (4 KB)")) := by
        rw [createReservationBatch, checkBatch, hreq.items, hlarge]
        rfl
      simp [hraise, refused, announced]
  | false =>
      have hvalid : validateItem db req now item = (validateItemTime db item now).map fun _ => () := by
        rw [validateItem, hlink, hreq.noTrigger]
        cases validateItemTime db item now <;> rfl
      have hcheck : checkBatch db req now =
          (validateItemTime db item now >>= fun _ => checkItemConflict db item) := by
        rw [checkBatch, hreq.items, hlarge, forM_singleton, forM_singleton, hvalid,
          List.zipIdx_cons, List.zipIdx_nil, forM_singleton, hmode]
        cases validateItemTime db item now <;> rfl
      cases htime : validateItemTime db item now with
      | error e =>
          have hraise : createReservationBatch db req groupId now = .error e := by
            rw [createReservationBatch, hcheck, htime]
            rfl
          simp [hraise, refused, announced_validateItemTime htime]
      | ok server =>
          cases hconflict : checkItemConflict db item with
          | error e =>
              have hraise : createReservationBatch db req groupId now = .error e := by
                rw [createReservationBatch, hcheck, htime, hconflict]
                rfl
              simp [hraise, refused, announced_checkItemConflict hconflict]
          | ok _ =>
              -- only the store can still refuse the row
              have hbook : refused (createReservationBatch db req groupId now) = false := by
                rw [createReservationBatch, hcheck, htime, hconflict]
                dsimp only [bind, Except.bind]
                cases !(createdRows db req groupId).all Reservation.checks <;> rfl
              simp [hbook]

/-! ## agreement -/

/-- The comparisons of the times come out the same on instants and on clock
readings, where the card is free; a script that is too large, which only the
booking looks at, goes with an item the preview has nothing against. -/
def TimesAgree (db : Db) (item : ItemDraft) (script : Option String) (now : Time) : Prop :=
  if script.any scriptTooLarge = true then
    WellTimed db item item.startAt.instant item.endAt.instant now ∧ CardFree db item
  else
    CardFree db item →
      (WellTimed db item item.startAt.instant item.endAt.instant now ↔
        WellTimed db item item.startAt.stored item.endAt.stored now)

/-- **Preview and booking**: for one item with aware times, the preview is empty
exactly when the booking raises none of the announced errors, if and only if
instants and clock readings tell the same about its times. -/
theorem previewConflicts_agrees_iff {db : Db} {req : BatchRequest} {item : ItemDraft}
    {groupId : String} {now : Time} (hreq : SingleRequest db req item) :
    ∃ found, previewConflicts db [item] now = .ok found ∧
      ((found.conflicts = [] ↔ refused (createReservationBatch db req groupId now) = false) ↔
        TimesAgree db item req.script now) := by
  obtain ⟨found, hfound, hclean⟩ :=
    previewItem_clean_iff db now 0 hreq.startAware hreq.endAware
  refine ⟨found, by rw [previewConflicts_single, hfound], ?_⟩
  rw [hclean, not_refused_iff hreq, TimesAgree]
  split
  · next hlarge => simp [hlarge]
  · next hsmall =>
      simp only [hsmall, false_or, Bool.false_eq_true]
      constructor
      · intro h hfree
        simpa [hfree] using h
      · intro h
        constructor
        · rintro ⟨htimed, hfree⟩
          exact ⟨(h hfree).mp htimed, hfree⟩
        · rintro ⟨htimed, hfree⟩
          exact ⟨(h hfree).mpr htimed, hfree⟩

/-- Times in UTC are read as they are. -/
theorem timesAgree_utc {db : Db} {serverId accountLinkId : Nat} {gpuId : Option Nat}
    {startAt endAt now : Time} {memoryMb pct : Option Nat} {script : Option String}
    (hsmall : script.any scriptTooLarge = false) :
    TimesAgree db ⟨serverId, gpuId, .utc startAt, .utc endAt, accountLinkId, memoryMb, pct⟩ script
      now := by
  rw [TimesAgree, hsmall, if_neg Bool.false_ne_true]
  simp only [Datetime.instant_utc]
  intro _
  exact Iff.rfl

/-- The item of an hour on the card, in a zone eight hours behind UTC. -/
def pacificHour (startHour : Int) : ItemDraft :=
  { serverId := 1, gpuId := some 11
    startAt := ⟨startHour * hourMicros, some (-8 * hourMicros)⟩
    endAt := ⟨(startHour + 1) * hourMicros, some (-8 * hourMicros)⟩
    accountLinkId := 31 }

theorem singleRequest_pacificHour (startHour : Int) :
    SingleRequest (smallLab .empty) { items := [pacificHour startHour], userId := 41 }
      (pacificHour startHour) :=
  ⟨rfl, rfl, rfl, ⟨_, rfl⟩, rfl, fun h => nomatch h⟩

/-- A day ahead of the booking both clocks agree. -/
theorem previewConflicts_agrees_iff_dayAhead :
    ∃ found, previewConflicts (smallLab .empty) [pacificHour 24] 0 = .ok found ∧
      ((found.conflicts = [] ↔ refused (createReservationBatch (smallLab .empty)
          { items := [pacificHour 24], userId := 41 } "g" 0) = false) ↔
        TimesAgree (smallLab .empty) (pacificHour 24) none 0) :=
  previewConflicts_agrees_iff (singleRequest_pacificHour 24)

/-- An hour that starts in one hour, eight hours behind UTC, is clean in the
preview and refused by the booking as past. -/
theorem previewConflicts_not_agrees :
    ¬ ∀ (db : Db) (req : BatchRequest) (item : ItemDraft) (groupId : String) (now : Time)
        (found : PreviewResult), SingleRequest db req item →
        previewConflicts db [item] now = .ok found →
        (found.conflicts = [] ↔ refused (createReservationBatch db req groupId now) = false) := by
  intro h
  have hagree := h (smallLab .empty) { items := [pacificHour 1], userId := 41 } (pacificHour 1) "g"
    (8 * hourMicros) ⟨[], [⟨0, some 24, hourMicros, false⟩]⟩ (singleRequest_pacificHour 1) (by decide)
  exact absurd (hagree.mp rfl) (by decide)

end CoreLab
