import CoreLab.Modify
import CoreLab.Recommender

/-!
# CoreLab.TimeZones

The same instants, written in another way: with any offset from UTC, or naive,
which is read as UTC.  Booking drops the zone, editing drops the zone of the window
and converts that of the trigger, recommending drops it, and Python does not
compare an aware with a naive datetime at all.

* `sameOutcome_createReservationBatch`, `sameAttempt_modifyReservation` — a request
  none of whose datetimes loses a zone on its way is treated like its naive writing;
* `sameOutcome_iff` — no other edit is, and no other booking that is accepted.
-/

namespace CoreLab

open Relational Loops

/-- The error without its text, which quotes the datetimes as they were written. -/
def ReservationError.untexted : ReservationError → ReservationError
  | .base _ => .base ""
  | .overlap _ ids => .overlap "" ids
  | .mixExclusiveShared _ ids => .mixExclusiveShared "" ids
  | .memoryExceeded _ usedMb wouldUseMb totalMb ids => .memoryExceeded "" usedMb wouldUseMb totalMb ids
  | .computeExceeded _ usedPct wouldUsePct ids => .computeExceeded "" usedPct wouldUsePct ids
  | .tooLong _ maxHours requested => .tooLong "" maxHours requested
  | .invalidTime _ => .invalidTime ""
  | .linkNotVerified _ => .linkNotVerified ""
  | .noActiveLink _ => .noActiveLink ""
  | .scriptTooLarge _ => .scriptTooLarge ""
  | .notFound _ => .notFound ""
  | .cancelNotPermitted _ => .cancelNotPermitted ""
  | .groupCancelRunningScript _ ids => .groupCancelRunningScript "" ids
  | .illegalTransition _ currentStatus attemptedStatus =>
    .illegalTransition "" currentStatus attemptedStatus

def Failure.untexted : Failure → Failure
  | .reservation e => .reservation e.untexted
  | .typeError => .typeError
  | .integrity => .integrity
  | .assertion => .assertion

@[simp] theorem untexted_reservation (e : ReservationError) :
    (Failure.reservation e).untexted = .reservation e.untexted := rfl

@[simp] theorem untexted_invalidTime (message : String) :
    (ReservationError.invalidTime message).untexted = .invalidTime "" := rfl

@[simp] theorem untexted_overlap (message : String) (ids : List Nat) :
    (ReservationError.overlap message ids).untexted = .overlap "" ids := rfl

namespace TimeZones

/-! ## writings -/

/-- The datetime is in UTC, or naive. -/
def AtUtc (d : Datetime) : Prop := d.utcoffset.getD 0 = 0

instance (d : Datetime) : Decidable (AtUtc d) := inferInstanceAs (Decidable (_ = _))

def isAware (d : Datetime) : Bool := d.utcoffset.isSome

/-- The same instant, naive. -/
def naiveUtc (d : Datetime) : Datetime := .ofStored d.instant

def naiveItem (item : ItemDraft) : ItemDraft :=
  { item with startAt := naiveUtc item.startAt, endAt := naiveUtc item.endAt }

/-- A booking with its instants written naive. -/
def naiveBatch (req : BatchRequest) : BatchRequest :=
  { req with
    items := req.items.map naiveItem
    scriptScheduledStartAt := req.scriptScheduledStartAt.map naiveUtc }

/-- An edit with its instants written naive. -/
def naiveModify (req : ModifyRequest) : ModifyRequest :=
  { req with
    startAt := req.startAt.map naiveUtc
    endAt := req.endAt.map naiveUtc
    scriptScheduledStartAt := req.scriptScheduledStartAt.map naiveUtc }

/-! ## what is promised -/

/-- Both accepted with the same result, or both refused with the same error. -/
def SameOutcome {α : Type} (x y : Except Failure α) : Prop :=
  x.mapError Failure.untexted = y.mapError Failure.untexted

/-- Every exception is a `ReservationError`. -/
def OnlyTyped {α : Type} (x : Except Failure α) : Prop :=
  ∀ f, x = .error f → ∃ e, f = .reservation e

/-- The same outcome, with the same row left on the session. -/
def SameAttempt (a b : Attempt) : Prop := a.dirty = b.dirty ∧ SameOutcome a.result b.result

/-- `search_start`: the later of the two, without zones. -/
def searchStart (after : Option Datetime) (now : Time) : Time :=
  max ((after.map Datetime.stored).getD now) now

/-- `recommend`, with its `after`. -/
def recommendAfter (db : Db) (selected : Gpu → Bool) (gpuCount timeLimitSeconds : Nat)
    (after : Option Datetime) (now : Time) (topK : Nat) : Option (List (Nat × CandidateWindow)) :=
  recommend db selected gpuCount timeLimitSeconds (searchStart after now) topK

/-- Requests written with such an `after` are treated like their naive writing. -/
def RecommendInvariant (after : Option Datetime) : Prop :=
  ∀ (db : Db) (selected : Gpu → Bool) (gpuCount timeLimitSeconds : Nat) (now : Time) (topK : Nat)
    (after' : Option Datetime), after'.map (·.utcoffset) = after.map (·.utcoffset) →
    recommendAfter db selected gpuCount timeLimitSeconds after' now topK =
      recommendAfter db selected gpuCount timeLimitSeconds (after'.map naiveUtc) now topK

/-! ## the condition -/

/-- The items whose datetimes are looked at are in UTC, and can be compared with the trigger
where they get that far; the next item is looked at if this one is valid. -/
def UnshiftedItems (db : Db) (req : BatchRequest) (now : Time) : List ItemDraft → Prop
  | [] => True
  | item :: items => AtUtc item.startAt ∧ AtUtc item.endAt ∧
      (∀ t ∈ req.scriptScheduledStartAt, Returns (validateItemTime db item now) →
        Returns (loadLinkOrRaise db item.accountLinkId req.userId) →
          Datetime.within? item.startAt t item.endAt ≠ none) ∧
      (validateItem db req now item = .ok () → UnshiftedItems db req now items)

/-- The booking is refused before its datetimes are looked at. -/
def RefusedUnread (req : BatchRequest) : Prop :=
  req.items = [] ∨ req.script.any scriptTooLarge = true ∨
    ∃ p ∈ req.items.zipIdx, checkItemMode req.script p ≠ .ok ()

/-- No datetime of the booking loses a zone: it is not looked at, or in UTC; the trigger has to
be where a script is booked with it. -/
def UnshiftedBatch (db : Db) (req : BatchRequest) (now : Time) : Prop :=
  RefusedUnread req ∨ UnshiftedItems db req now req.items ∧
    (checkBatch db req now = .ok () → truthy req.script = true →
      ∀ t ∈ req.scriptScheduledStartAt, AtUtc t)

/-- No datetime of the edit loses a zone: the row is not found or not editable, or the new ends
of the window are in UTC, and can be compared with a naive trigger where the edit gets that
far. -/
def UnshiftedModify (db : Db) (req : ModifyRequest) (actorUserId : Nat) (now : Time) : Prop :=
  ∀ row, db.reservations.get? req.reservationId = some row → checkEditable row req actorUserId = .ok () →
    (∀ d, req.startAt = some d ∨ req.endAt = some d → AtUtc d) ∧
      let window := assignWindow req (.load row)
      ∀ t ∈ req.scriptScheduledStartAt, checkWindow db row req window now = .ok () →
        checkScriptSize req = .ok () →
          Datetime.within? window.startAt (normalizeTrigger t) window.endAt ≠ none

/-! ## the same outcome -/

section Outcome

variable {α β : Type} {x y : Except Failure α}

theorem sameOutcome_refl (x : Except Failure α) : SameOutcome x x := rfl

theorem sameOutcome_error {e e' : Failure} (h : e.untexted = e'.untexted) :
    SameOutcome (.error e : Except Failure α) (.error e') := congrArg Except.error h

theorem SameOutcome.eq_ok {a : α} (h : SameOutcome x (.ok a)) : x = .ok a := by
  cases x with
  | ok b => exact congrArg Except.ok (Except.ok.inj h)
  | error e => cases h

/-- What follows is the same where it is reached. -/
theorem SameOutcome.bind {f g : α → Except Failure β} (h : SameOutcome x y)
    (hfg : ∀ a, x = .ok a → SameOutcome (f a) (g a)) : SameOutcome (x >>= f) (y >>= g) := by
  cases x with
  | ok a =>
      cases y with
      | ok b =>
          obtain rfl : a = b := Except.ok.inj h
          exact hfg a rfl
      | error e => cases h
  | error e =>
      cases y with
      | ok b => cases h
      | error e' => exact congrArg Except.error (Except.error.inj h)

theorem sameOutcome_symm (h : SameOutcome x y) : SameOutcome y x := Eq.symm h

theorem SameOutcome.eq_error {e : Failure} (h : SameOutcome (.error e) y) :
    ∃ e', y = .error e' ∧ e.untexted = e'.untexted := by
  cases y with
  | ok a => cases h
  | error e' => exact ⟨e', rfl, Except.error.inj h⟩

/-- A check of every element, against one of their images. -/
theorem sameOutcome_forM {γ : Type} {check : α → Except Failure Unit} {check' : γ → Except Failure Unit}
    {f : α → γ} {l : List α} (h : ∀ a ∈ l, SameOutcome (check a) (check' (f a))) :
    SameOutcome (l.forM check) ((l.map f).forM check') := by
  induction l with
  | nil => exact rfl
  | cons a l ih =>
      exact (h a List.mem_cons_self).bind fun _ _ => ih fun b hb => h b (List.mem_cons_of_mem a hb)

theorem sameOutcome_raiseIf {c : Bool} {e e' : Failure} (h : e.untexted = e'.untexted) :
    SameOutcome (raiseIf c e) (raiseIf c e') := by
  cases c with
  | true => exact sameOutcome_error h
  | false => exact rfl

theorem onlyTyped_ok (a : α) : OnlyTyped (.ok a : Except Failure α) := fun f hf => by cases hf

theorem onlyTyped_raise (e : ReservationError) : OnlyTyped (raise e : Except Failure α) :=
  fun _ hf => ⟨e, (Except.error.inj hf).symm⟩

theorem onlyTyped_raiseIf (c : Bool) (e : ReservationError) : OnlyTyped (raiseIf c (.reservation e)) := by
  cases c with
  | true => exact onlyTyped_raise e
  | false => exact onlyTyped_ok ()

theorem OnlyTyped.bind {f : α → Except Failure β} (h : OnlyTyped x) (hf : ∀ a, OnlyTyped (f a)) :
    OnlyTyped (x >>= f) := by
  cases x with
  | ok a => exact hf a
  | error e => exact fun e' he => h e' (congrArg Except.error (Except.error.inj he))

theorem OnlyTyped.ne_typeError {e : Failure} (h : OnlyTyped x) (hx : x = .error e) :
    e ≠ .typeError := by
  obtain ⟨e', rfl⟩ := h e hx
  simp

end Outcome

/-! ## datetimes in UTC -/

section Datetimes

variable {a b c d : Datetime}

theorem stored_naiveUtc (d : Datetime) : (naiveUtc d).stored = d.instant := rfl

theorem instant_naiveUtc (d : Datetime) : (naiveUtc d).instant = d.instant := Int.sub_zero _

theorem stored_of_atUtc (h : AtUtc d) : d.stored = d.instant := by
  rw [Datetime.instant, show d.utcoffset.getD 0 = 0 from h]
  exact (Int.sub_zero _).symm

theorem stored_of_naive (h : isAware d = false) : d.stored = d.instant :=
  stored_of_atUtc (by cases hd : d.utcoffset <;> simp_all [isAware, AtUtc])

/-- A datetime whose clock reading is its instant. -/
theorem atUtc_of_stored (h : d.stored = d.instant) : AtUtc d := by
  unfold Datetime.stored Datetime.instant at h
  unfold AtUtc
  grind

theorem atUtc_congr (h : c.utcoffset = d.utcoffset) : AtUtc c ↔ AtUtc d := by
  unfold AtUtc
  rw [h]

/-- Datetimes of one kind are compared by their instants. -/
theorem within?_of_isAware (hab : isAware a = isAware b) (hbc : isAware b = isAware c) :
    Datetime.within? a b c = some (decide (a.instant ≤ b.instant) && decide (b.instant < c.instant)) := by
  unfold isAware at hab hbc
  rw [Datetime.within?, Datetime.le?, if_pos hab, Option.bind_some, Datetime.lt?, if_pos hbc]
  cases decide (a.instant ≤ b.instant) <;> rfl

theorem within?_naiveUtc (a b c : Datetime) :
    Datetime.within? (naiveUtc a) (naiveUtc b) (naiveUtc c) =
      some (decide (a.instant ≤ b.instant) && decide (b.instant < c.instant)) := by
  have hab : isAware (naiveUtc a) = isAware (naiveUtc b) := rfl
  have hbc : isAware (naiveUtc b) = isAware (naiveUtc c) := rfl
  rw [within?_of_isAware hab hbc, instant_naiveUtc, instant_naiveUtc, instant_naiveUtc]

/-- A comparison that does not fail is one of the instants. -/
theorem within?_of_ne_none (h : Datetime.within? a b c ≠ none) : Datetime.within? a b c =
    some (decide (a.instant ≤ b.instant) && decide (b.instant < c.instant)) := by
  unfold Datetime.within? Datetime.le? at h ⊢
  split at h
  · next hab =>
      rw [if_pos hab]
      rw [Option.bind_some] at h ⊢
      cases hle : decide (a.instant ≤ b.instant) with
      | false => rfl
      | true =>
          rw [hle, if_pos rfl, Datetime.lt?] at h
          rw [if_pos rfl, Datetime.lt?]
          split at h
          · next hbc => rw [if_pos hbc, Bool.true_and]
          · exact absurd rfl h
  · exact absurd rfl h

/-- A comparison that does not fail, and holds, is one of datetimes of one kind. -/
theorem isAware_of_within? (h : Datetime.within? a b c = some true) :
    isAware a = isAware b ∧ isAware b = isAware c := by
  unfold Datetime.within? Datetime.le? at h
  split at h
  · next hab =>
      rw [Option.bind_some] at h
      split at h
      · unfold Datetime.lt? at h
        split at h
        · next hbc => exact ⟨hab, hbc⟩
        · cases h
      · cases h
  · cases h

end Datetimes

/-! ## booking -/

section Booking

variable {db : Db} {req : BatchRequest} {item : ItemDraft} {now : Time} {d : Datetime}

theorem sameOutcome_validateItemTime (hstart : AtUtc item.startAt) (hend : AtUtc item.endAt)
    (db : Db) (now : Time) :
    SameOutcome (validateItemTime db item now) (validateItemTime db (naiveItem item) now) := by
  unfold validateItemTime
  dsimp only [naiveItem]
  rw [stored_of_atUtc hstart, stored_of_atUtc hend, stored_naiveUtc, stored_naiveUtc]
  refine SameOutcome.bind (sameOutcome_raiseIf ?_) fun _ _ =>
    SameOutcome.bind (sameOutcome_raiseIf ?_) fun _ _ => sameOutcome_refl _
  · rw [untexted_reservation, untexted_reservation, untexted_invalidTime, untexted_invalidTime]
  · rw [untexted_reservation, untexted_reservation, untexted_invalidTime, untexted_invalidTime]

theorem sameOutcome_validateItem (hstart : AtUtc item.startAt) (hend : AtUtc item.endAt)
    (htrigger : ∀ t ∈ req.scriptScheduledStartAt, Returns (validateItemTime db item now) →
      Returns (loadLinkOrRaise db item.accountLinkId req.userId) →
        Datetime.within? item.startAt t item.endAt ≠ none) :
    SameOutcome (validateItem db req now item) (validateItem db (naiveBatch req) now (naiveItem item)) := by
  refine (sameOutcome_validateItemTime hstart hend db now).bind fun server hserver =>
    (sameOutcome_refl _).bind fun link hlink => ?_
  unfold checkScriptTime
  dsimp only [naiveBatch, naiveItem]
  cases ht : req.scriptScheduledStartAt with
  | none => exact rfl
  | some t =>
      dsimp only [Option.map_some]
      rw [within?_of_ne_none (htrigger t ht ⟨server, hserver⟩ ⟨link, hlink⟩), within?_naiveUtc]
      exact rfl

/-- The items are looked at in order, up to the first one that is refused. -/
theorem sameOutcome_validateItems {items : List ItemDraft} (h : UnshiftedItems db req now items) :
    SameOutcome (items.forM (validateItem db req now))
      ((items.map naiveItem).forM (validateItem db (naiveBatch req) now)) := by
  induction items with
  | nil => exact rfl
  | cons item items ih =>
      obtain ⟨hstart, hend, htrigger, hrest⟩ := h
      exact (sameOutcome_validateItem hstart hend htrigger).bind fun _ hok => ih (hrest hok)

/-- Items that are all valid are all in UTC. -/
theorem atUtc_of_unshiftedItems {items : List ItemDraft} (h : UnshiftedItems db req now items)
    (hvalid : ∀ item ∈ items, validateItem db req now item = .ok ()) (hitem : item ∈ items) :
    AtUtc item.startAt ∧ AtUtc item.endAt := by
  induction items with
  | nil => cases hitem
  | cons first items ih =>
      obtain ⟨hstart, hend, -, hrest⟩ := h
      rw [List.forall_mem_cons] at hvalid
      rcases List.mem_cons.mp hitem with rfl | hitem
      · exact ⟨hstart, hend⟩
      · exact ih (hrest hvalid.1) hvalid.2 hitem

/-- Conflicts are a matter of the shares, not of the window. -/
theorem classifyConflict_naiveItem (item : ItemDraft) (rows : List Reservation) (gpu : Gpu) :
    classifyConflict (naiveItem item) rows gpu = classifyConflict item rows gpu := rfl

/-- The error of a conflict quotes the window, and has the data of the conflict. -/
theorem untexted_conflictError (item item' : ItemDraft) (gpuId : Nat) (c : ConflictRecord) :
    (Failure.reservation (conflictError item gpuId c)).untexted =
      (Failure.reservation (conflictError item' gpuId c)).untexted := by
  unfold conflictError
  cases c.type with
  | exclusiveConflict => dsimp only [untexted_reservation, untexted_overlap]
  | mixExclusiveShared | memoryExceeded | computeExceeded => rfl

theorem sameOutcome_checkItemConflict (hstart : AtUtc item.startAt) (hend : AtUtc item.endAt) :
    SameOutcome (checkItemConflict db item) (checkItemConflict db (naiveItem item)) := by
  unfold checkItemConflict
  rw [show (naiveItem item).gpuId = item.gpuId from rfl,
    show (naiveItem item).startAt.stored = item.startAt.instant from rfl,
    show (naiveItem item).endAt.stored = item.endAt.instant from rfl,
    stored_of_atUtc hstart, stored_of_atUtc hend]
  cases item.gpuId with
  | none => exact rfl
  | some gpuId =>
      dsimp only
      cases db.gpus.get? gpuId with
      | none => exact rfl
      | some gpu =>
          dsimp only
          rw [classifyConflict_naiveItem]
          cases classifyConflict item
              (windowActiveReservations db gpuId item.startAt.instant item.endAt.instant) gpu with
          | none => exact rfl
          | some c => exact sameOutcome_error (untexted_conflictError item _ gpuId c)

/-- The rows of a booking in UTC hold its instants. -/
theorem insertions_naiveBatch (h : ∀ item ∈ req.items, AtUtc item.startAt ∧ AtUtc item.endAt)
    (htrigger : truthy req.script = true → ∀ t ∈ req.scriptScheduledStartAt, AtUtc t)
    (groupId : String) : insertions (naiveBatch req) groupId = insertions req groupId := by
  have hrow : ∀ p ∈ req.items.zipIdx, ∀ id, newRow (naiveBatch req) groupId (naiveItem p.1) p.2 id =
      newRow req groupId p.1 p.2 id := by
    intro p hp id
    obtain ⟨hstart, hend⟩ := h p.1 (List.fst_mem_of_mem_zipIdx hp)
    have htime : (if truthy (carryScript req p.2) then
          some ((naiveBatch req).scriptScheduledStartAt.getD (naiveItem p.1).startAt).stored
        else none) =
        if truthy (carryScript req p.2) then
          some (req.scriptScheduledStartAt.getD p.1.startAt).stored else none := by
      split
      · next hcarried =>
          have hscript : truthy req.script = true := by
            unfold carryScript at hcarried
            split at hcarried
            · exact hcarried
            · cases hcarried
          show some ((req.scriptScheduledStartAt.map naiveUtc).getD (naiveUtc p.1.startAt)).stored = _
          cases ht : req.scriptScheduledStartAt with
          | none => exact congrArg some (stored_of_atUtc hstart).symm
          | some t => exact congrArg some (stored_of_atUtc (htrigger hscript t ht)).symm
      · rfl
    unfold newRow
    dsimp only
    rw [show carryScript (naiveBatch req) p.2 = carryScript req p.2 from rfl, htime,
      show (naiveItem p.1).startAt.stored = p.1.startAt.stored from (stored_of_atUtc hstart).symm,
      show (naiveItem p.1).endAt.stored = p.1.endAt.stored from (stored_of_atUtc hend).symm]
    rfl
  have hzip : (naiveBatch req).items.zipIdx = req.items.zipIdx.map (Prod.map naiveItem id) :=
    List.zipIdx_map
  rw [insertions, insertions, hzip, List.map_map]
  refine List.map_congr_left fun p hp => Subtype.ext (funext fun id => ?_)
  exact hrow p hp id

theorem checkBatch_eq_ok_iff : checkBatch db req now = .ok () ↔ req.items.isEmpty = false ∧
    req.script.any scriptTooLarge = false ∧ (∀ p ∈ req.items.zipIdx, checkItemMode req.script p = .ok ()) ∧
    (∀ item ∈ req.items, validateItem db req now item = .ok ()) ∧
    ∀ item ∈ req.items, checkItemConflict db item = .ok () := by
  simp only [checkBatch, check_bind_eq_ok_iff, raiseIf_eq_ok_iff, forM_eq_ok_iff]

/-- The checks of a booking end alike. -/
theorem sameOutcome_checkBatch (h : UnshiftedBatch db req now) :
    SameOutcome (checkBatch db req now) (checkBatch db (naiveBatch req) now) := by
  unfold checkBatch
  have hempty : (naiveBatch req).items.isEmpty = req.items.isEmpty := List.isEmpty_map
  have hzip : (naiveBatch req).items.zipIdx = req.items.zipIdx.map (Prod.map naiveItem id) :=
    List.zipIdx_map
  rw [hempty, hzip]
  refine (sameOutcome_refl _).bind fun _ hitems => (sameOutcome_refl _).bind fun _ hsize =>
    SameOutcome.bind (sameOutcome_forM fun p _ => sameOutcome_refl _) fun _ hmodes => ?_
  -- the datetimes are looked at from here on
  obtain ⟨hunshifted, -⟩ : UnshiftedItems db req now req.items ∧ _ := h.resolve_left fun hrefused => by
    rcases hrefused with hnone | hlarge | ⟨p, hp, hmode⟩
    · rw [hnone] at hitems
      cases raiseIf_eq_ok_iff.mp hitems
    · rw [raiseIf_eq_ok_iff, hlarge] at hsize
      cases hsize
    · exact hmode (forM_eq_ok_iff.mp hmodes p hp)
  refine (sameOutcome_validateItems hunshifted).bind fun _ hvalid =>
    sameOutcome_forM fun item hitem => ?_
  obtain ⟨hstart, hend⟩ := atUtc_of_unshiftedItems hunshifted (forM_eq_ok_iff.mp hvalid) hitem
  exact sameOutcome_checkItemConflict hstart hend

/-- **A booking that loses no zone** is treated like its naive writing. -/
theorem sameOutcome_createReservationBatch (h : UnshiftedBatch db req now) (groupId : String) :
    SameOutcome (createReservationBatch db req groupId now)
      (createReservationBatch db (naiveBatch req) groupId now) := by
  refine (sameOutcome_checkBatch h).bind fun _ hok => ?_
  obtain ⟨hitems, hsize, hmodes, hvalid, -⟩ := checkBatch_eq_ok_iff.mp hok
  obtain ⟨hunshifted, htrigger⟩ : UnshiftedItems db req now req.items ∧ _ :=
    h.resolve_left fun hrefused => by
      rcases hrefused with hnone | hlarge | ⟨p, hp, hmode⟩
      · rw [hnone] at hitems
        cases hitems
      · rw [hlarge] at hsize
        cases hsize
      · exact hmode (hmodes p hp)
  have hutc : ∀ item ∈ req.items, AtUtc item.startAt ∧ AtUtc item.endAt := fun item hitem =>
    atUtc_of_unshiftedItems hunshifted hvalid hitem
  dsimp only
  rw [createdRows, createdRows, insertions_naiveBatch hutc (htrigger hok)]
  exact sameOutcome_refl _

/-- The check of a trigger that does not fail has compared it. -/
theorem within?_of_checkScriptTime {t : Datetime} (h : checkScriptTime (some t) item = .ok ()) :
    Datetime.within? item.startAt t item.endAt ≠ none := by
  intro hnone
  unfold checkScriptTime at h
  dsimp only at h
  rw [hnone] at h
  cases h

/-- The trigger of a booked script is stored in the first row. -/
theorem trigger_of_createdRows_eq {item : ItemDraft} {items : List ItemDraft} {groupId : String} {t : Datetime}
    (hitems : req.items = item :: items) (hscript : truthy req.script = true)
    (ht : req.scriptScheduledStartAt = some t)
    (h : createdRows db req groupId = createdRows db (naiveBatch req) groupId) : AtUtc t := by
  have hcarried : carryScript req 0 = req.script := by
    rw [carryScript, beq_self_eq_true, Bool.or_true, if_pos rfl]
  have hhead : ∀ other : BatchRequest, ∀ first others, other.items = first :: others →
      (createdRows db other groupId).head?.map (·.scriptScheduledStartAt) =
        some (newRow other groupId first 0 db.reservations.nextKey).scriptScheduledStartAt := by
    intro other first others hother
    rw [createdRows, insertions, hother, List.zipIdx_cons, List.map_cons, Table.freshRows]
    rfl
  have hnaive : (naiveBatch req).items = naiveItem item :: items.map naiveItem := by
    unfold naiveBatch
    rw [hitems, List.map_cons]
  have hsame := hhead req item items hitems
  rw [h, hhead (naiveBatch req) _ _ hnaive, Option.some.injEq] at hsame
  unfold newRow at hsame
  dsimp only at hsame
  rw [show carryScript (naiveBatch req) 0 = carryScript req 0 from rfl, hcarried, if_pos hscript,
    if_pos hscript, show (naiveBatch req).scriptScheduledStartAt = some (naiveUtc t) by
      unfold naiveBatch; rw [ht]; rfl, ht] at hsame
  exact atUtc_of_stored (Option.some.inj hsame).symm

/-- **An accepted booking** that is treated like its naive writing has lost no zone. -/
theorem unshiftedBatch_of_sameOutcome {groupId : String}
    (hsame : SameOutcome (createReservationBatch db req groupId now)
      (createReservationBatch db (naiveBatch req) groupId now))
    (hok : Returns (createReservationBatch db req groupId now)) : UnshiftedBatch db req now := by
  obtain ⟨⟨db', created⟩, hok⟩ := hok
  have hnaive : createReservationBatch db (naiveBatch req) groupId now = .ok (db', created) := by
    rw [hok] at hsame
    exact (sameOutcome_symm hsame).eq_ok
  obtain ⟨hbooked, hcreated⟩ := createReservationBatch_ok hok
  have hrows : createdRows db req groupId = createdRows db (naiveBatch req) groupId :=
    hcreated.symm.trans (createReservationBatch_ok hnaive).2
  -- the rows of both writings hold the same window
  have hwindows := congrArg (List.map fun r : Reservation => (r.startAt, r.endAt)) hrows
  rw [map_createdRows _ _ _ _ (fun item => (item.startAt.stored, item.endAt.stored)) fun _ _ _ => rfl,
    map_createdRows _ _ _ _ (fun item => (item.startAt.stored, item.endAt.stored)) fun _ _ _ => rfl,
    show (naiveBatch req).items = req.items.map naiveItem from rfl, List.map_map,
    List.map_inj_left] at hwindows
  have hutc : ∀ item ∈ req.items, AtUtc item.startAt ∧ AtUtc item.endAt := fun item hitem => by
    obtain ⟨hstart, hend⟩ := Prod.mk.inj (hwindows item hitem)
    exact ⟨atUtc_of_stored hstart, atUtc_of_stored hend⟩
  have hunshifted : ∀ items ⊆ req.items, UnshiftedItems db req now items := by
    intro items hitems
    induction items with
    | nil => trivial
    | cons item items ih =>
        have hitem := hitems List.mem_cons_self
        refine ⟨(hutc item hitem).1, (hutc item hitem).2, fun t ht _ _ => ?_,
          fun _ => ih fun i hi => hitems (List.mem_cons_of_mem item hi)⟩
        obtain ⟨-, -, -, -, htime⟩ := validateItem_eq_ok_iff.mp (hbooked.valid item hitem)
        rw [Option.mem_def.mp ht] at htime
        exact within?_of_checkScriptTime htime
  refine .inr ⟨hunshifted _ (List.Subset.refl _), fun hcheck hscript t ht => ?_⟩
  obtain ⟨hnonempty, -⟩ := checkBatch_eq_ok_iff.mp hcheck
  cases hitems : req.items with
  | nil =>
      rw [hitems] at hnonempty
      cases hnonempty
  | cons item items => exact trigger_of_createdRows_eq hitems hscript ht hrows

end Booking

/-! ## editing -/

section Editing

variable {db : Db} {req : ModifyRequest} {row : Reservation} {now : Time} {actorUserId : Nat}

theorem naiveUtc_ofStored (t : Time) : naiveUtc (.ofStored t) = .ofStored t :=
  congrArg Datetime.ofStored (Int.sub_zero t)

theorem normalizeTrigger_naiveUtc (d : Datetime) :
    normalizeTrigger (naiveUtc d) = normalizeTrigger d :=
  congrArg Datetime.ofStored (instant_naiveUtc d)

/-- The window on the row, when both ends of the new one are in UTC. -/
theorem assignWindow_naiveModify (req : ModifyRequest) (row : Reservation) :
    assignWindow (naiveModify req) (.load row) =
      { assignWindow req (.load row) with
        startAt := naiveUtc (assignWindow req (.load row)).startAt
        endAt := naiveUtc (assignWindow req (.load row)).endAt } := by
  unfold assignWindow naiveModify Attrs.load
  have hget : ∀ (d : Option Datetime) (t : Time),
      (d.map naiveUtc).getD (.ofStored t) = naiveUtc (d.getD (.ofStored t)) := by
    intro d t
    cases d with
    | none => exact (naiveUtc_ofStored t).symm
    | some d => exact rfl
  simp only [hget]

theorem atUtc_assignWindow (h : ∀ d, req.startAt = some d ∨ req.endAt = some d → AtUtc d)
    (row : Reservation) :
    AtUtc (assignWindow req (.load row)).startAt ∧ AtUtc (assignWindow req (.load row)).endAt := by
  unfold assignWindow
  constructor
  · cases hs : req.startAt with
    | none => exact rfl
    | some d => exact h d (.inl hs)
  · cases he : req.endAt with
    | none => exact rfl
    | some d => exact h d (.inr he)

/-- The same row is flushed, whether the trigger falls to the start or not. -/
theorem flushed_naiveModify (h : ∀ d, req.startAt = some d ∨ req.endAt = some d → AtUtc d)
    (row : Reservation) :
    (assignWindow (naiveModify req) (.load row)).flushed row =
        (assignWindow req (.load row)).flushed row ∧
      (assignScript (naiveModify req) (assignWindow (naiveModify req) (.load row))).flushed row =
        (assignScript req (assignWindow req (.load row))).flushed row := by
  obtain ⟨hs, he⟩ := atUtc_assignWindow h row
  have hstart : (naiveUtc (assignWindow req (.load row)).startAt).stored =
      (assignWindow req (.load row)).startAt.stored := (stored_of_atUtc hs).symm
  have hend : (naiveUtc (assignWindow req (.load row)).endAt).stored =
      (assignWindow req (.load row)).endAt.stored := (stored_of_atUtc he).symm
  rw [assignWindow_naiveModify]
  generalize assignWindow req (.load row) = a at hstart hend ⊢
  refine ⟨?_, ?_⟩
  · unfold Attrs.flushed
    rw [hstart, hend]
  · unfold assignScript naiveModify
    dsimp only
    rw [Option.isNone_map]
    cases req.script with
    | none =>
        unfold Attrs.flushed
        rw [hstart, hend]
    | some script =>
        unfold Attrs.flushed
        dsimp only
        rw [hstart, hend]
        split
        · rw [Option.map_some, Option.map_some, hstart]
        · exact rfl

/-- The guards look at which timing fields are there. -/
theorem checkEditable_naiveModify (row : Reservation) (req : ModifyRequest) (actorUserId : Nat) :
    checkEditable row (naiveModify req) actorUserId = checkEditable row req actorUserId := by
  unfold checkEditable naiveModify
  rw [Option.isSome_map]

theorem sameOutcome_checkWindow (h : ∀ d, req.startAt = some d ∨ req.endAt = some d → AtUtc d)
    (db : Db) (row : Reservation) (now : Time) :
    SameOutcome (checkWindow db row req (assignWindow req (.load row)) now)
      (checkWindow db row (naiveModify req) (assignWindow (naiveModify req) (.load row)) now) := by
  obtain ⟨hs, he⟩ := atUtc_assignWindow h row
  rw [assignWindow_naiveModify]
  generalize assignWindow req (.load row) = a at hs he ⊢
  have hnone : ((naiveModify req).startAt.isNone && (naiveModify req).endAt.isNone) =
      (req.startAt.isNone && req.endAt.isNone) := by
    unfold naiveModify
    rw [Option.isNone_map, Option.isNone_map]
  have hwindow : ∀ gpuId, windowActiveReservations db gpuId (naiveUtc a.startAt).stored
      (naiveUtc a.endAt).stored =
        windowActiveReservations db gpuId a.startAt.stored a.endAt.stored := by
    intro gpuId
    rw [stored_naiveUtc, stored_naiveUtc, stored_of_atUtc hs, stored_of_atUtc he]
  unfold checkWindow
  rw [hnone]
  split
  · exact rfl
  · let item : ItemDraft :=
      { serverId := row.serverId, gpuId := row.gpuId, startAt := a.startAt, endAt := a.endAt
        accountLinkId := row.accountLinkId, gpuMemoryMb := row.gpuMemoryMb
        gpuComputeSharePct := row.gpuComputeSharePct }
    have htime : SameOutcome (validateItemTime db item now) (validateItemTime db (naiveItem item) now) :=
      sameOutcome_validateItemTime hs he db now
    refine SameOutcome.bind htime fun _ _ => ?_
    cases row.gpuId with
    | none => exact rfl
    | some gpuId =>
        dsimp only
        rw [hwindow]
        exact rfl

/-- The last assignments change the row in the same way. -/
theorem flushed_assignTiming (req : ModifyRequest) (trigger : Option Datetime) (a : Attrs)
    (row : Reservation) : (assignTiming req trigger a).flushed row =
      { a.flushed row with
        scriptScheduledStartAt :=
          (trigger.map Datetime.stored).or (a.flushed row).scriptScheduledStartAt
        scriptMaxRuntimeSeconds :=
          req.scriptMaxRuntimeSeconds.or (a.flushed row).scriptMaxRuntimeSeconds } := by
  cases trigger <;> rfl

/-- A trigger that can be compared is stored as the same instant, or refused in both writings. -/
theorem sameOutcome_checkTrigger {a a' : Attrs}
    (h : ∀ t ∈ req.scriptScheduledStartAt,
      Datetime.within? a.startAt (normalizeTrigger t) a.endAt ≠ none)
    (hstart : a'.startAt = naiveUtc a.startAt) (hend : a'.endAt = naiveUtc a.endAt) :
    SameOutcome (checkTrigger req a) (checkTrigger (naiveModify req) a') := by
  unfold checkTrigger
  rw [show (naiveModify req).scriptScheduledStartAt = req.scriptScheduledStartAt.map naiveUtc from rfl]
  cases ht : req.scriptScheduledStartAt with
  | none => exact rfl
  | some t =>
      dsimp only [Option.map_some]
      have hnaive : normalizeTrigger t = naiveUtc (normalizeTrigger t) := (naiveUtc_ofStored _).symm
      rw [within?_of_ne_none (h t ht), normalizeTrigger_naiveUtc, hstart, hend]
      conv_rhs => rw [hnaive]
      rw [within?_naiveUtc]
      cases decide (a.startAt.instant ≤ (normalizeTrigger t).instant) &&
          decide ((normalizeTrigger t).instant < a.endAt.instant) with
      | true => exact congrArg (fun d => Except.ok (some d)) hnaive
      | false =>
          refine sameOutcome_error ?_
          rw [untexted_reservation, untexted_reservation, untexted_invalidTime, untexted_invalidTime]

/-- **An edit that loses no zone** is treated like its naive writing. -/
theorem sameAttempt_modifyReservation (h : UnshiftedModify db req actorUserId now) :
    SameAttempt (modifyReservation db req actorUserId now)
      (modifyReservation db (naiveModify req) actorUserId now) := by
  unfold modifyReservation
  rw [show (naiveModify req).reservationId = req.reservationId from rfl]
  cases hrow : db.reservations.get? req.reservationId with
  | none => exact ⟨rfl, rfl⟩
  | some row =>
      dsimp only
      rw [checkEditable_naiveModify]
      cases hedit : checkEditable row req actorUserId with
      | error e => exact ⟨rfl, rfl⟩
      | ok _ =>
          obtain ⟨hutc, htrigger⟩ := h row hrow hedit
          dsimp only at htrigger ⊢
          obtain ⟨hflushed, hscripted⟩ := flushed_naiveModify hutc row
          rw [hflushed, hscripted]
          have hwindow := sameOutcome_checkWindow hutc db row now
          cases hx : checkWindow db row req (assignWindow req (.load row)) now with
          | error e =>
              rw [hx] at hwindow
              obtain ⟨e', he', huntexted⟩ := hwindow.eq_error
              rw [he']
              exact ⟨rfl, sameOutcome_error huntexted⟩
          | ok _ =>
              rw [hx] at hwindow
              rw [(sameOutcome_symm hwindow).eq_ok]
              dsimp only
              rw [show checkScriptSize (naiveModify req) = checkScriptSize req from rfl]
              cases hsize : checkScriptSize req with
              | error e => exact ⟨rfl, rfl⟩
              | ok _ =>
                  dsimp only
                  have hscript := assignScript_window req (assignWindow req (.load row))
                  have hnaive := assignScript_window (naiveModify req)
                    (assignWindow (naiveModify req) (.load row))
                  have hcheck : SameOutcome (checkTrigger req (assignScript req (assignWindow req (.load row))))
                      (checkTrigger (naiveModify req)
                        (assignScript (naiveModify req) (assignWindow (naiveModify req) (.load row)))) := by
                    refine sameOutcome_checkTrigger (fun t ht => ?_) ?_ ?_
                    · rw [hscript.1, hscript.2]
                      exact htrigger t ht hx hsize
                    · rw [hnaive.1, hscript.1, assignWindow_naiveModify]
                    · rw [hnaive.2, hscript.2, assignWindow_naiveModify]
                  cases ht : checkTrigger req (assignScript req (assignWindow req (.load row))) with
                  | error e =>
                      rw [ht] at hcheck
                      obtain ⟨e', he', huntexted⟩ := hcheck.eq_error
                      rw [he']
                      exact ⟨rfl, sameOutcome_error huntexted⟩
                  | ok trigger =>
                      rw [ht] at hcheck
                      rw [(sameOutcome_symm hcheck).eq_ok]
                      dsimp only
                      rw [flushed_assignTiming, flushed_assignTiming, hscripted]
                      exact ⟨rfl, rfl⟩

theorem onlyTyped_validateItemTime (db : Db) (item : ItemDraft) (now : Time) :
    OnlyTyped (validateItemTime db item now) := by
  unfold validateItemTime
  refine (onlyTyped_raiseIf _ _).bind fun _ => (onlyTyped_raiseIf _ _).bind fun _ => ?_
  cases db.servers.get? item.serverId with
  | none => exact onlyTyped_raise _
  | some server =>
      dsimp only
      cases server.maxReservationHours with
      | none => exact onlyTyped_ok _
      | some maxHours =>
          dsimp only
          split
          · exact onlyTyped_raise _
          · exact onlyTyped_ok _

theorem onlyTyped_checkEditable (row : Reservation) (req : ModifyRequest) (actorUserId : Nat) :
    OnlyTyped (checkEditable row req actorUserId) :=
  (onlyTyped_raiseIf _ _).bind fun _ => (onlyTyped_raiseIf _ _).bind fun _ => onlyTyped_raiseIf _ _

theorem onlyTyped_checkWindow (db : Db) (row : Reservation) (req : ModifyRequest) (a : Attrs)
    (now : Time) : OnlyTyped (checkWindow db row req a now) := by
  unfold checkWindow
  split
  · exact onlyTyped_ok _
  · refine (onlyTyped_validateItemTime _ _ _).bind fun _ => ?_
    cases row.gpuId with
    | none => exact onlyTyped_ok _
    | some gpuId =>
        dsimp only
        cases db.gpus.get? gpuId with
        | none => exact onlyTyped_raise _
        | some gpu =>
            dsimp only
            split
            · exact onlyTyped_ok _
            · exact onlyTyped_raise _

theorem onlyTyped_checkScriptSize (req : ModifyRequest) : OnlyTyped (checkScriptSize req) :=
  onlyTyped_raiseIf _ _

/-- A trigger that can be compared is taken, or refused with a typed error. -/
theorem onlyTyped_checkTrigger {a : Attrs} (h : ∀ t ∈ req.scriptScheduledStartAt,
    Datetime.within? a.startAt (normalizeTrigger t) a.endAt ≠ none) :
    OnlyTyped (checkTrigger req a) := by
  unfold checkTrigger
  cases ht : req.scriptScheduledStartAt with
  | none => exact onlyTyped_ok _
  | some t =>
      dsimp only
      rw [within?_of_ne_none (h t ht)]
      cases decide (a.startAt.instant ≤ (normalizeTrigger t).instant) &&
          decide ((normalizeTrigger t).instant < a.endAt.instant) with
      | true => exact onlyTyped_ok _
      | false => exact onlyTyped_raise _

/-- **No failed comparison**: an edit ends in a `TypeError` only if its trigger cannot be compared. -/
theorem modifyReservation_ne_typeError (h : UnshiftedModify db req actorUserId now) :
    (modifyReservation db req actorUserId now).result ≠ .error .typeError := by
  unfold modifyReservation
  cases hrow : db.reservations.get? req.reservationId with
  | none => simp [raise]
  | some row =>
      dsimp only
      cases hedit : checkEditable row req actorUserId with
      | error e => simpa using (onlyTyped_checkEditable row req actorUserId).ne_typeError hedit
      | ok _ =>
          dsimp only
          cases hwindow : checkWindow db row req (assignWindow req (.load row)) now with
          | error e => simpa using (onlyTyped_checkWindow db row req _ now).ne_typeError hwindow
          | ok _ =>
              dsimp only
              cases hsize : checkScriptSize req with
              | error e => simpa using (onlyTyped_checkScriptSize req).ne_typeError hsize
              | ok _ =>
                  have hscript := assignScript_window req (assignWindow req (.load row))
                  dsimp only
                  cases htrigger : checkTrigger req (assignScript req (assignWindow req (.load row))) with
                  | error e =>
                      have htyped : OnlyTyped (checkTrigger req _) := onlyTyped_checkTrigger fun t ht => by
                        rw [hscript.1, hscript.2]
                        exact (h row hrow hedit).2 t ht hwindow hsize
                      simpa using htyped.ne_typeError htrigger
                  | ok trigger =>
                      dsimp only
                      split <;> simp

/-- The row that an edit leaves, on the session or in the store. -/
def Leaves (db : Db) (req : ModifyRequest) (actorUserId : Nat) (now : Time) (r : Reservation) : Prop :=
  (modifyReservation db req actorUserId now).dirty = some r ∨
    (modifyReservation db req actorUserId now).dirty = none ∧
      ∃ db', (modifyReservation db req actorUserId now).result = .ok db' ∧
        db'.reservations.get? req.reservationId = some r

/-- An editable row is left with the clock readings of the new window. -/
theorem exists_leaves (hrow : db.reservations.get? req.reservationId = some row)
    (hedit : checkEditable row req actorUserId = .ok ()) :
    ∃ r : Reservation, Leaves db req actorUserId now r ∧
      r.startAt = (assignWindow req (.load row)).startAt.stored ∧
      r.endAt = (assignWindow req (.load row)).endAt.stored := by
  obtain ⟨hs, he⟩ := assignScript_window req (assignWindow req (.load row))
  have hscripted : ((assignScript req (assignWindow req (.load row))).flushed row).startAt =
      (assignWindow req (.load row)).startAt.stored ∧
      ((assignScript req (assignWindow req (.load row))).flushed row).endAt =
        (assignWindow req (.load row)).endAt.stored :=
    ⟨congrArg Datetime.stored hs, congrArg Datetime.stored he⟩
  unfold Leaves modifyReservation
  rw [hrow]
  dsimp only
  rw [hedit]
  dsimp only
  split
  · exact ⟨_, .inl rfl, rfl, rfl⟩
  split
  · exact ⟨_, .inl rfl, rfl, rfl⟩
  split
  · exact ⟨_, .inl rfl, hscripted⟩
  next trigger _ =>
  split
  · refine ⟨(assignTiming req trigger (assignScript req (assignWindow req (.load row)))).flushed row,
      .inr ⟨rfl, _, rfl, ?_⟩, hscripted⟩
    have hid : row.id = req.reservationId := Table.key_of_get? hrow
    have hkey : Keyed.key ((assignTiming req trigger
        (assignScript req (assignWindow req (.load row)))).flushed row) = req.reservationId := hid
    rw [Db.reservations_audit, Db.reservations_putReservation, ← hkey]
    exact Table.get?_put_self (hkey ▸ hrow)
  · exact ⟨_, .inl rfl, hscripted⟩

/-- Edits that end alike leave the same row. -/
theorem eq_of_leaves {r r' : Reservation} (hsame : SameAttempt (modifyReservation db req actorUserId now)
      (modifyReservation db (naiveModify req) actorUserId now))
    (h : Leaves db req actorUserId now r) (h' : Leaves db (naiveModify req) actorUserId now r') :
    r = r' := by
  obtain ⟨hdirty, hresult⟩ := hsame
  rcases h with h | ⟨h, db', hok, hget⟩ <;> rcases h' with h' | ⟨h', db'', hok', hget'⟩
  · exact Option.some.inj (h.symm.trans (hdirty.trans h'))
  · cases h.symm.trans (hdirty.trans h')
  · cases h.symm.trans (hdirty.trans h')
  · rw [hok, hok'] at hresult
    obtain rfl : db' = db'' := Except.ok.inj hresult
    exact Option.some.inj (hget.symm.trans hget')

/-- **An edit that is treated like its naive writing**, and fails no comparison, has lost no
zone. -/
theorem unshiftedModify_of_sameAttempt
    (hsame : SameAttempt (modifyReservation db req actorUserId now)
      (modifyReservation db (naiveModify req) actorUserId now))
    (htyped : (modifyReservation db req actorUserId now).result ≠ .error .typeError) :
    UnshiftedModify db req actorUserId now := by
  intro row hrow hedit
  obtain ⟨r, hleft, hstart, hend⟩ := exists_leaves hrow hedit
  have hrow' : db.reservations.get? (naiveModify req).reservationId = some row := hrow
  obtain ⟨r', hleft', hstart', hend'⟩ := exists_leaves hrow'
    ((checkEditable_naiveModify row req actorUserId).trans hedit)
  obtain rfl := eq_of_leaves hsame hleft hleft'
  rw [assignWindow_naiveModify] at hstart' hend'
  have hutcStart : AtUtc (assignWindow req (.load row)).startAt :=
    atUtc_of_stored (hstart.symm.trans hstart')
  have hutcEnd : AtUtc (assignWindow req (.load row)).endAt :=
    atUtc_of_stored (hend.symm.trans hend')
  refine ⟨fun d hd => ?_, fun t ht hwindow hsize hnone => htyped ?_⟩
  · unfold assignWindow at hutcStart hutcEnd
    rcases hd with hd | hd
    · rwa [hd] at hutcStart
    · rwa [hd] at hutcEnd
  · obtain ⟨hs, he⟩ := assignScript_window req (assignWindow req (.load row))
    have hfails : checkTrigger req (assignScript req (assignWindow req (.load row))) =
        .error .typeError := by
      unfold checkTrigger
      rw [Option.mem_def.mp ht, hs, he]
      dsimp only
      rw [hnone]
    unfold modifyReservation
    rw [hrow]
    dsimp only
    rw [hedit]
    dsimp only
    rw [hwindow]
    dsimp only
    rw [hsize]
    dsimp only
    rw [hfails]

/-- Two hours without a card, with a script due at their start. -/
def bookedHours : Reservation :=
  { id := 1, userId := 41, serverId := 1, gpuId := none, accountLinkId := 31, groupId := none
    startAt := 0, endAt := 2 * hourMicros, status := .scheduled, gpuMemoryMb := none
    gpuComputeSharePct := none, script := some "./train.sh", scriptScheduledStartAt := some 0
    scriptMaxRuntimeSeconds := none }

end Editing

/-! ## recommending -/

section Recommending

/-- The instant `t`, written as `d` is. -/
def writtenAs (d : Datetime) (t : Time) : Datetime := ⟨t + d.utcoffset.getD 0, d.utcoffset⟩

theorem instant_writtenAs (d : Datetime) (t : Time) : (writtenAs d t).instant = t :=
  Int.add_sub_cancel _ _

theorem emptyLab_candidate (t : Time) :
    earliestWindowForServer (.ofDb (smallLab .empty) [11] 1 (3600 * secondMicros) t) =
      some ⟨[11], t, t + 3600 * secondMicros⟩ := by
  let sweep := SweepRequest.ofDb (smallLab .empty) [11] 1 (3600 * secondMicros) t
  have hevents : sweep.events = [] := rfl
  have hfree : sweep.initialFree = {11} := rfl
  have hfit : (3600 * secondMicros : Int) ≤ t + (horizonDays : Int) * (24 * hourMicros) - t := by
    rw [add_sub_cancel_left]
    decide
  have hopen : acceptOpen sweep (some t) = some t :=
    Option.filter_eq_some_iff.mpr ⟨rfl, decide_eq_true hfit⟩
  unfold earliestWindowForServer
  rw [hevents, hfree]
  show (acceptOpen sweep (some t)).map _ = _
  rw [hopen]
  rfl

/-- The one card of the empty lab is free from the start of the search on. -/
theorem emptyLab_recommend (t : Time) :
    recommend (smallLab .empty) (fun _ => true) 1 3600 t 1 =
      some [(1, ⟨[11], t, t + 3600 * secondMicros⟩)] := by
  have hcards : (gpusByServer (selectedGpus (smallLab .empty) fun _ => true)).entries =
      [(1, [11])] := by decide
  unfold recommend
  rw [hcards]
  simp [emptyLab_candidate]

theorem recommendInvariant_iff (after : Option Datetime) :
    RecommendInvariant after ↔ ∀ d ∈ after, AtUtc d := by
  constructor
  · intro h d hd
    -- the clock reading of the instant `0`, searched from no later than either
    have hsame := h (smallLab .empty) (fun _ => true) 1 3600 (min 0 (d.utcoffset.getD 0)) 1
      (some (writtenAs d 0)) (by rw [Option.mem_def.mp hd]; rfl)
    have hwritten : searchStart (some (writtenAs d 0)) (min 0 (d.utcoffset.getD 0)) =
        d.utcoffset.getD 0 := by
      show max (0 + d.utcoffset.getD 0) (min 0 (d.utcoffset.getD 0)) = d.utcoffset.getD 0
      rw [zero_add]
      exact max_eq_left (min_le_right _ _)
    have hnaive : searchStart (some (naiveUtc (writtenAs d 0))) (min 0 (d.utcoffset.getD 0)) = 0 := by
      show max (writtenAs d 0).instant (min 0 (d.utcoffset.getD 0)) = 0
      rw [instant_writtenAs]
      exact max_eq_left (min_le_left _ _)
    unfold recommendAfter at hsame
    rw [Option.map_some, hwritten, hnaive, emptyLab_recommend, emptyLab_recommend] at hsame
    have hstart := congrArg (fun found => found.map fun l => l.map fun c => c.2.startAt) hsame
    simpa [AtUtc] using hstart
  · intro h db selected gpuCount timeLimitSeconds now topK after' hafter
    have hstart : searchStart (after'.map naiveUtc) now = searchStart after' now := by
      cases after' with
      | none => exact rfl
      | some d' =>
          obtain ⟨d, hd, hoff⟩ := Option.map_eq_some_iff.mp hafter.symm
          have hutc : AtUtc d' := (atUtc_congr hoff).mp (h d hd)
          exact congrArg (max · now) (stored_of_atUtc hutc).symm
    unfold recommendAfter
    rw [hstart]

end Recommending

/-! ## time zone invariance -/

/-- **Time zones**: a booking that loses no zone is treated like its naive writing, and one that
is accepted and treated so has lost none; an edit is treated so, and fails no comparison,
exactly when it loses none; a search is treated so where it starts at the same time, and
whatever it asks for exactly when its `after` is in UTC. -/
theorem sameOutcome_iff (db : Db) (batch : BatchRequest) (groupId : String) (modify : ModifyRequest)
    (actorUserId : Nat) (after : Option Datetime) (now : Time) :
    (UnshiftedBatch db batch now → SameOutcome (createReservationBatch db batch groupId now)
      (createReservationBatch db (naiveBatch batch) groupId now)) ∧
    (Returns (createReservationBatch db batch groupId now) →
      SameOutcome (createReservationBatch db batch groupId now)
        (createReservationBatch db (naiveBatch batch) groupId now) → UnshiftedBatch db batch now) ∧
    (SameAttempt (modifyReservation db modify actorUserId now)
        (modifyReservation db (naiveModify modify) actorUserId now) ∧
      (modifyReservation db modify actorUserId now).result ≠ .error .typeError ↔
        UnshiftedModify db modify actorUserId now) ∧
    (searchStart after now = searchStart (after.map naiveUtc) now →
      ∀ selected gpuCount timeLimitSeconds topK,
        recommendAfter db selected gpuCount timeLimitSeconds after now topK =
          recommendAfter db selected gpuCount timeLimitSeconds (after.map naiveUtc) now topK) ∧
    (RecommendInvariant after ↔ ∀ d ∈ after, AtUtc d) := by
  refine ⟨fun h => sameOutcome_createReservationBatch h groupId,
    fun hok hsame => unshiftedBatch_of_sameOutcome hsame hok,
    ⟨fun h => unshiftedModify_of_sameAttempt h.1 h.2,
      fun h => ⟨sameAttempt_modifyReservation h, modifyReservation_ne_typeError h⟩⟩,
    fun hstart selected gpuCount timeLimitSeconds topK => ?_, recommendInvariant_iff after⟩
  rw [recommendAfter, recommendAfter, hstart]

/-- Two bookings of the same instants that lose no zone are treated alike. -/
theorem sameOutcome_of_unshifted {db : Db} {req req' : BatchRequest} {now : Time}
    (h : UnshiftedBatch db req now) (h' : UnshiftedBatch db req' now)
    (hinstants : naiveBatch req = naiveBatch req') (groupId : String) :
    SameOutcome (createReservationBatch db req groupId now)
      (createReservationBatch db req' groupId now) := by
  have hnaive := sameOutcome_createReservationBatch h groupId
  rw [hinstants] at hnaive
  exact Eq.trans hnaive (sameOutcome_symm (sameOutcome_createReservationBatch h' groupId))

/-- Two edits of the same instants that lose no zone are treated alike. -/
theorem sameAttempt_of_unshifted {db : Db} {req req' : ModifyRequest} {actorUserId : Nat} {now : Time}
    (h : UnshiftedModify db req actorUserId now) (h' : UnshiftedModify db req' actorUserId now)
    (hinstants : naiveModify req = naiveModify req') :
    SameAttempt (modifyReservation db req actorUserId now)
      (modifyReservation db req' actorUserId now) := by
  have hnaive := sameAttempt_modifyReservation h
  have hnaive' := sameAttempt_modifyReservation h'
  rw [hinstants] at hnaive
  exact ⟨hnaive.1.trans hnaive'.1.symm, Eq.trans hnaive.2 (sameOutcome_symm hnaive'.2)⟩

/-- The hour from the instant `0` without a card, on a clock `hours` ahead of UTC. -/
def hourAhead (hours : Int) : BatchRequest :=
  { items := [{ serverId := 1, gpuId := none, startAt := ⟨hours * hourMicros, some (hours * hourMicros)⟩
                endAt := ⟨(hours + 1) * hourMicros, some (hours * hourMicros)⟩, accountLinkId := 31 }]
    userId := 41, script := some "./train.sh" }

/-- The hour eight hours ahead is stored eight hours later than the same hour in UTC; and an
edit that repeats the start and the trigger of a row, both in UTC, ends in a `TypeError`. -/
theorem not_invariant :
    (naiveBatch (hourAhead 8) = naiveBatch (hourAhead 0) ∧
      ¬ SameOutcome (createReservationBatch (smallLab .empty) (hourAhead 8) "g" 0)
        (createReservationBatch (smallLab .empty) (hourAhead 0) "g" 0)) ∧
      (modifyReservation (smallLab (.single bookedHours))
        { reservationId := 1, startAt := some ⟨0, some 0⟩, scriptScheduledStartAt := some ⟨0, some 0⟩ }
        41 0).result = .error .typeError := by
  refine ⟨⟨by decide, fun h => ?_⟩, rfl⟩
  have hstarts := congrArg (fun r => r.toOption.map fun created => created.2.map (·.startAt)) h
  revert hstarts
  decide

end TimeZones

end CoreLab
