import CoreLab.NormalForm
import CoreLab.TimeZones

/-!
# CoreLab.ReservationRows

What the reservation table demands of its rows, against the checks that the service
makes before it writes: the CHECK constraints and column ranges of an edited row, and the
script of a row that occupies no GPU.

* `flushSafe_iff` — the edits after which the flush cannot fail;
* `noEmptyRows_iff` — the bookings without an empty row, each of whose tasks is
  dispatched by any tick between its trigger and its end.
-/

namespace CoreLab

open Relational Loops TimeZones

namespace ReservationRows

/-! ## edited rows -/

/-- An edit that passes the service's own checks, and the row as it is then assigned. -/
structure Passes (db : Db) (req : ModifyRequest) (actorUserId : Nat) (now : Time)
    (row edited : Reservation) : Prop where
  editable : checkEditable row req actorUserId = .ok ()
  window : checkWindow db row req (assignWindow req (.load row)) now = .ok ()
  size : checkScriptSize req = .ok ()
  assigned : ∃ trigger,
    checkTrigger req (assignScript req (assignWindow req (.load row))) = .ok trigger ∧
      edited = (assignTiming req trigger (assignScript req (assignWindow req (.load row)))).flushed row

/-- An edit that passes leaves a row the table takes, and the final flush does not fail. -/
structure FlushSafe (db : Db) (req : ModifyRequest) (actorUserId : Nat) (now : Time)
    (row : Reservation) : Prop where
  checks : ∀ edited, Passes db req actorUserId now row edited → edited.checks = true
  flushed : (modifyReservation db req actorUserId now).result ≠ .error .integrity

/-- One of the service's checks refuses the edit. -/
def RefusedFirst (db : Db) (req : ModifyRequest) (actorUserId : Nat) (now : Time)
    (row : Reservation) : Prop :=
  checkEditable row req actorUserId ≠ .ok () ∨
    checkWindow db row req (assignWindow req (.load row)) now ≠ .ok () ∨
      checkScriptSize req ≠ .ok () ∨
        ∃ e, checkTrigger req (assignScript req (assignWindow req (.load row))) = .error e

/-- A new runtime, if there is one, is one that the column takes. -/
def RuntimeFits (req : ModifyRequest) : Prop :=
  ∀ s, req.scriptMaxRuntimeSeconds = some s → fitsUnsigned s = true

/-- The stored trigger, if there is one, lies in the new window. -/
def KeptTriggerInside (req : ModifyRequest) (row : Reservation) : Prop :=
  ∀ t, row.scriptScheduledStartAt = some t →
    (assignWindow req (.load row)).startAt.stored ≤ t ∧ t < (assignWindow req (.load row)).endAt.stored

section Edited

variable {db : Db} {req : ModifyRequest} {actorUserId : Nat} {now : Time} {row edited : Reservation}

theorem checkTrigger_ne_integrity (req : ModifyRequest) (a : Attrs) :
    checkTrigger req a ≠ .error .integrity := by
  unfold checkTrigger
  split
  · simp
  · split <;> simp [raise]

/-- The flush fails for an edit that passes and leaves a row the table does not take. -/
theorem modifyReservation_integrity_iff
    (hrow : db.reservations.get? req.reservationId = some row) :
    (modifyReservation db req actorUserId now).result = .error .integrity ↔
      ∃ edited, Passes db req actorUserId now row edited ∧ edited.checks = false := by
  unfold modifyReservation
  rw [hrow]
  dsimp only
  constructor
  · intro h
    cases hedit : checkEditable row req actorUserId with
    | error e =>
        obtain ⟨e', rfl⟩ := onlyTyped_checkEditable row req actorUserId e hedit
        simp [hedit] at h
    | ok _ =>
        cases hwindow : checkWindow db row req (assignWindow req (.load row)) now with
        | error e =>
            obtain ⟨e', rfl⟩ := onlyTyped_checkWindow db row req _ now e hwindow
            simp [hedit, hwindow] at h
        | ok _ =>
            cases hsize : checkScriptSize req with
            | error e =>
                obtain ⟨e', rfl⟩ := onlyTyped_checkScriptSize req e hsize
                simp [hedit, hwindow, hsize] at h
            | ok _ =>
                cases htrigger : checkTrigger req (assignScript req (assignWindow req (.load row))) with
                | error e =>
                    simp only [hedit, hwindow, hsize, htrigger, Except.error.injEq] at h
                    exact absurd (h ▸ htrigger) (checkTrigger_ne_integrity req _)
                | ok trigger =>
                    refine ⟨_, ⟨hedit, hwindow, hsize, trigger, htrigger, rfl⟩, ?_⟩
                    simp only [hedit, hwindow, hsize, htrigger] at h
                    split at h
                    · simp at h
                    · next hchecks => simpa using hchecks
  · rintro ⟨edited, ⟨hedit, hwindow, hsize, trigger, htrigger, rfl⟩, hchecks⟩
    simp [hedit, hwindow, hsize, htrigger, hchecks]

/-- A new window that passes is in order, and without one the stored window is kept. -/
theorem window_lt (hchecks : row.checks = true)
    (h : checkWindow db row req (assignWindow req (.load row)) now = .ok ()) :
    (assignWindow req (.load row)).startAt.stored < (assignWindow req (.load row)).endAt.stored := by
  unfold checkWindow at h
  split at h
  · next hnone =>
      simp only [Bool.and_eq_true, Option.isNone_iff_eq_none] at hnone
      have hrow := window_of_checks hchecks
      simpa [assignWindow, Attrs.load, hnone.1, hnone.2, Datetime.stored, Datetime.ofStored] using hrow
  · rw [bind_eq_ok_iff] at h
    obtain ⟨server, htime, -⟩ := h
    exact (validateItemTime_eq_ok_iff.mp htime).1

/-- A new trigger that passes lies in the window on the row: the comparison does not fail, so
the window is naive. -/
theorem trigger_inside {a : Attrs} {t trigger : Datetime}
    (ht : req.scriptScheduledStartAt = some t) (h : checkTrigger req a = .ok (some trigger)) :
    a.startAt.stored ≤ trigger.stored ∧ trigger.stored < a.endAt.stored := by
  unfold checkTrigger at h
  rw [ht] at h
  dsimp only at h
  split at h
  · cases h
  · next hinside =>
      obtain rfl : normalizeTrigger t = trigger := by simpa using h
      obtain ⟨hst, hte⟩ := isAware_of_within? hinside
      have hstart : a.startAt.stored = a.startAt.instant := stored_of_naive (hst.trans rfl)
      have hend : a.endAt.stored = a.endAt.instant := stored_of_naive (hte.symm.trans rfl)
      have htrigger : (normalizeTrigger t).stored = (normalizeTrigger t).instant := stored_of_naive rfl
      rw [within?_of_isAware hst hte] at hinside
      simpa [hstart, hend, htrigger] using hinside
  · simp [raise] at h

/-- The row that passes, column by column: the new window, and its own shares. -/
theorem window_of_passes (h : Passes db req actorUserId now row edited) :
    edited.startAt = (assignWindow req (.load row)).startAt.stored ∧
      edited.endAt = (assignWindow req (.load row)).endAt.stored ∧
        edited.gpuComputeSharePct = row.gpuComputeSharePct ∧ edited.gpuMemoryMb = row.gpuMemoryMb := by
  obtain ⟨trigger, -, rfl⟩ := h.assigned
  have hscript := assignScript_window req (assignWindow req (.load row))
  exact ⟨congrArg Datetime.stored hscript.1, congrArg Datetime.stored hscript.2, rfl, rfl⟩

/-- The runtime of a row that passes: the new one, or its own. -/
theorem runtime_of_passes (h : Passes db req actorUserId now row edited) :
    edited.scriptMaxRuntimeSeconds =
      req.scriptMaxRuntimeSeconds.or row.scriptMaxRuntimeSeconds := by
  obtain ⟨trigger, -, rfl⟩ := h.assigned
  have hkept : (assignScript req (assignWindow req (.load row))).scriptMaxRuntimeSeconds =
      row.scriptMaxRuntimeSeconds := by
    unfold assignScript
    split <;> rfl
  rw [← hkept]
  rfl

/-- The trigger of a row that passes: the new one, the stored one, or the new start. -/
theorem trigger_of_passes (h : Passes db req actorUserId now row edited) :
    (∃ t trigger, req.scriptScheduledStartAt = some t ∧
        checkTrigger req (assignScript req (assignWindow req (.load row))) = .ok (some trigger) ∧
          edited.scriptScheduledStartAt = some trigger.stored) ∨
      req.scriptScheduledStartAt = none ∧
        (edited.scriptScheduledStartAt = row.scriptScheduledStartAt ∨
          row.scriptScheduledStartAt = none ∧ edited.scriptScheduledStartAt =
            some (assignWindow req (.load row)).startAt.stored) := by
  obtain ⟨trigger, htrigger, rfl⟩ := h.assigned
  cases ht : req.scriptScheduledStartAt with
  | some t =>
      refine .inl ⟨t, normalizeTrigger t, rfl, ?_⟩
      have hsome : trigger = some (normalizeTrigger t) := by
        unfold checkTrigger at htrigger
        rw [ht] at htrigger
        dsimp only at htrigger
        split at htrigger <;> simp_all [raise]
      exact ⟨hsome ▸ htrigger, by simp [Attrs.flushed, assignTiming, hsome]⟩
  | none =>
      have hnone : trigger = none := by simpa [checkTrigger, ht] using htrigger.symm
      refine .inr ⟨rfl, ?_⟩
      subst hnone
      cases hscript : req.script with
      | none =>
          left
          simp [Attrs.flushed, assignTiming, assignScript, hscript, assignWindow, Attrs.load,
            Datetime.stored, Datetime.ofStored, Function.comp_def]
      | some script =>
          cases hrow : row.scriptScheduledStartAt with
          | none =>
              right
              simp [Attrs.flushed, assignTiming, assignScript, hscript, assignWindow, Attrs.load, hrow, ht]
          | some t =>
              left
              simp [Attrs.flushed, assignTiming, assignScript, hscript, assignWindow, Attrs.load, hrow,
                Datetime.stored, Datetime.ofStored]

/-- The row that passes is one the table takes, if the trigger it ends with is in its window and
a new runtime fits. -/
theorem checks_of_passes (hchecks : row.checks = true) (h : Passes db req actorUserId now row edited)
    (hkept : req.scriptScheduledStartAt = none → KeptTriggerInside req row) (hfits : RuntimeFits req) :
    edited.checks = true := by
  obtain ⟨hstart, hend, hpct, hmb⟩ := window_of_passes h
  obtain ⟨-, -, hpcts, hmbs, hruntimes⟩ := checks_eq_true_iff.mp hchecks
  have hscript := assignScript_window req (assignWindow req (.load row))
  have hlt := window_lt hchecks h.window
  refine checks_eq_true_iff.mpr ⟨by rwa [hstart, hend], fun t ht => ?_,
    fun pct hp => hpcts pct (hpct ▸ hp), fun mb hm => hmbs mb (hmb ▸ hm), fun s hs => ?_⟩
  · rw [hstart, hend]
    obtain ⟨t', trigger, ht', hpass, hedited⟩ | ⟨hnone, hedited | ⟨-, hedited⟩⟩ := trigger_of_passes h
    · obtain rfl : trigger.stored = t := by simpa [hedited] using ht
      rw [← hscript.1, ← hscript.2]
      exact trigger_inside ht' hpass
    · exact hkept hnone t (hedited ▸ ht)
    · obtain rfl : (assignWindow req (.load row)).startAt.stored = t := by simpa [hedited] using ht
      exact ⟨le_refl _, hlt⟩
  · rw [runtime_of_passes h] at hs
    cases hnew : req.scriptMaxRuntimeSeconds with
    | some s' =>
        rw [hnew, Option.some_or] at hs
        exact hfits s (hnew.trans hs)
    | none =>
        rw [hnew, Option.none_or] at hs
        exact hruntimes s hs

/-- An edit that no check refuses passes. -/
theorem exists_passes (h : ¬ RefusedFirst db req actorUserId now row) :
    ∃ edited, Passes db req actorUserId now row edited := by
  simp only [RefusedFirst, not_or, not_not, not_exists] at h
  obtain ⟨hedit, hwindow, hsize, htrigger⟩ := h
  cases hresult : checkTrigger req (assignScript req (assignWindow req (.load row))) with
  | error e => exact absurd hresult (htrigger e)
  | ok trigger => exact ⟨_, hedit, hwindow, hsize, trigger, hresult, rfl⟩

theorem Passes.not_refused (h : Passes db req actorUserId now row edited) :
    ¬ RefusedFirst db req actorUserId now row := by
  obtain ⟨trigger, htrigger, -⟩ := h.assigned
  simp [RefusedFirst, h.editable, h.window, h.size, htrigger]

/-- **Edits and the table**: for a stored row that the table takes, an edit leaves a row that it
takes exactly when a check refuses the edit first, or a new runtime fits its column and the
trigger is new or lies in the new window. -/
theorem flushSafe_iff (hrow : db.reservations.get? req.reservationId = some row)
    (hchecks : row.checks = true) : FlushSafe db req actorUserId now row ↔
      RefusedFirst db req actorUserId now row ∨
        (req.scriptScheduledStartAt.isSome = true ∨ KeptTriggerInside req row) ∧
          RuntimeFits req := by
  constructor
  · intro h
    by_cases hrefused : RefusedFirst db req actorUserId now row
    · exact .inl hrefused
    obtain ⟨edited, hpass⟩ := exists_passes hrefused
    obtain ⟨-, hinside, -, -, hruntimes⟩ := checks_eq_true_iff.mp (h.checks _ hpass)
    refine .inr ⟨?_, fun s hs => hruntimes s ?_⟩
    · by_cases ht : req.scriptScheduledStartAt.isSome = true
      · exact .inl ht
      refine .inr fun t hkept => ?_
      have hnone : req.scriptScheduledStartAt = none := by simpa using ht
      have hedited := hinside t
      obtain ⟨hstart, hend, -⟩ := window_of_passes hpass
      obtain ⟨_, _, hsome, -⟩ | ⟨-, hsame | ⟨hrow, -⟩⟩ := trigger_of_passes hpass
      · simp [hnone] at hsome
      · rw [hstart, hend, hsame] at hedited
        exact hedited hkept
      · simp [hrow] at hkept
    · rw [runtime_of_passes hpass, hs, Option.some_or]
  · intro h
    have hsafe : ∀ edited, Passes db req actorUserId now row edited → edited.checks = true := by
      intro edited hpass
      obtain ⟨htrigger, hfits⟩ := h.resolve_left hpass.not_refused
      refine checks_of_passes hchecks hpass (fun hnone => ?_) hfits
      rcases htrigger with hsome | hkept
      · simp [hnone] at hsome
      · exact hkept
    refine ⟨hsafe, fun hfail => ?_⟩
    obtain ⟨edited, hpass, hbad⟩ := (modifyReservation_integrity_iff hrow).mp hfail
    simp [hsafe edited hpass] at hbad

/-- Move the start of the booked hours to `hours`. -/
def startAtHour (hours : Int) : ModifyRequest :=
  { reservationId := 1, startAt := some (.ofStored (hours * hourMicros)) }

/-- An edit to an earlier start keeps the trigger in the window. -/
theorem flushSafe_iff_earlier :
    FlushSafe (smallLab (.single bookedHours)) (startAtHour 0) 41 0 bookedHours ↔
      RefusedFirst (smallLab (.single bookedHours)) (startAtHour 0) 41 0 bookedHours ∨
        ((startAtHour 0).scriptScheduledStartAt.isSome = true ∨
          KeptTriggerInside (startAtHour 0) bookedHours) ∧ RuntimeFits (startAtHour 0) :=
  flushSafe_iff rfl (by decide)

/-- The start is moved past the trigger: every check of the service passes, and the flush fails. -/
theorem not_flushSafe :
    (smallLab (.single bookedHours)).reservations.get? 1 = some bookedHours ∧
      bookedHours.checks = true ∧ bookedHours.status = .scheduled ∧
        (modifyReservation (smallLab (.single bookedHours)) (startAtHour 1) 41 0).result =
            .error .integrity ∧
          ¬ FlushSafe (smallLab (.single bookedHours)) (startAtHour 1) 41 0 bookedHours := by
  have hfail : (modifyReservation (smallLab (.single bookedHours)) (startAtHour 1) 41 0).result =
      .error .integrity := rfl
  exact ⟨rfl, by decide, rfl, hfail, fun h => h.flushed hfail⟩

end Edited

/-! ## rows without a GPU -/

/-- A tick commits, if the dispatch markers are valid, and it queues the script of the row. -/
structure DispatchedBy (db : Db) (now : Time) (r : Reservation) : Prop where
  commits : (∀ q ∈ db.reservations, MarkerValid q) → ∃ s, tickBody db now = .ok s
  queued : ∀ s, tickBody db now = .ok s → ∃ d ∈ s.pending, d.reservationId = r.id

/-- The row has a script and a trigger in its window, and every tick between its trigger and
its end dispatches it. -/
def NotEmpty (db : Db) (r : Reservation) : Prop :=
  r.script.isSome = true ∧ ∃ t, r.scriptScheduledStartAt = some t ∧ r.startAt ≤ t ∧ t < r.endAt ∧
    ∀ now, t ≤ now → now < r.endAt → DispatchedBy db now r

/-- No created row without a GPU is empty. -/
def NoEmptyRows (db : Db) (created : List Reservation) : Prop :=
  ∀ r ∈ created, r.gpuId = none → NotEmpty db r

/-- Every item without a GPU gets the script, which is not the empty text. -/
def EachCarriesScript (req : BatchRequest) : Prop :=
  ∀ p ∈ req.items.zipIdx, p.1.gpuId = none →
    (req.shareScript = true ∨ p.2 = 0) ∧ req.script ≠ some ""

section Created

variable {db db' : Db} {req : BatchRequest} {groupId : String} {now : Time} {r : Reservation}

/-- A row in its window is active when the tick looks for due scripts. -/
theorem status_rowAtDispatch (hlive : r.status = .scheduled ∨ r.status = .active)
    (hstart : r.startAt ≤ now) (hend : now < r.endAt) (hserver : hasServer db r = true) :
    (rowAtDispatch db now r).status = .active := by
  have hopen : ¬ r.endAt ≤ now := not_le.mpr hend
  unfold rowAtDispatch rowAfter closeEffect promoteEffect
  rcases hlive with h | h
  · simp [dueToStart, dueToEnd, h, hstart, hopen, hserver]
  · simp [dueToStart, dueToEnd, h, hopen]

/-- **A due script is dispatched** by the tick that finds its row active and not fired. -/
theorem dispatchedBy_of_active {t : Time} (hr : r ∈ db.reservations)
    (hactive : (rowAtDispatch db now r).status = .active) (hfresh : r.scriptStatus = none)
    (hscript : r.script.isSome = true) (ht : r.scriptScheduledStartAt = some t) (hdue : t ≤ now)
    (hserver : hasServer db r = true) (haccount : (linuxUsernameOf db r.accountLinkId).isSome = true) :
    DispatchedBy db now r := by
  refine ⟨tickBody_total now, fun s hs => ?_⟩
  have hdispatch : dueToDispatch now (rowAtDispatch db now r) = true := by
    simp [dueToDispatch, hactive, hscript, ht, hdue, hfresh]
  have heffect : dispatchEffect db now (rowAtDispatch db now r) = some _ :=
    dispatchEffect_due hdispatch (by simpa using hserver) (by simpa using haccount)
  refine ⟨requestOf db (rowAtDispatch db now r), (tickBody_ok hs).mem_pending.mpr ⟨r, hr, ?_⟩, ?_⟩
  · simp [tickQueue, queuedFor, heffect]
  · simp [requestOf, dispatchOf]

/-- Every item has its row. -/
theorem exists_mem_createdRows (db : Db) (groupId : String) {p : ItemDraft × Nat}
    (hp : p ∈ req.items.zipIdx) :
    ∃ id, newRow req groupId p.1 p.2 id ∈ createdRows db req groupId :=
  Table.exists_mem_freshRows _ (List.mem_map_of_mem hp)

/-- An accepted item without a GPU comes with a script. -/
theorem script_of_created {created : List Reservation}
    (h : createReservationBatch db req groupId now = .ok (db', created)) {item : ItemDraft} {idx : Nat}
    (hitem : (item, idx) ∈ req.items.zipIdx) (hgpu : item.gpuId = none) :
    req.script.isSome = true := by
  simp only [createReservationBatch, checkBatch, check_bind_eq_ok_iff, forM_eq_ok_iff] at h
  have hmode := h.1.2.2.1 (item, idx) hitem
  cases hscript : req.script with
  | none => simp [checkItemMode, hgpu, hscript, raise] at hmode
  | some s => rfl

/-- The row of an item that gets the script. -/
theorem notEmpty_of_carries {created : List Reservation}
    (h : createReservationBatch db req groupId now = .ok (db', created))
    (href : Referenced db') {item : ItemDraft} {idx id : Nat} (hitem : (item, idx) ∈ req.items.zipIdx)
    (hrow : newRow req groupId item idx id ∈ created) (hgpu : item.gpuId = none)
    (hcarries : (req.shareScript = true ∨ idx = 0) ∧ req.script ≠ some "") :
    NotEmpty db' (newRow req groupId item idx id) := by
  obtain ⟨hbooked, rfl⟩ := createReservationBatch_ok h
  obtain ⟨script, hscript⟩ := Option.isSome_iff_exists.mp (script_of_created h hitem hgpu)
  have hcarry : carryScript req idx = some script := by
    rw [carryScript, if_pos (by simpa using hcarries.1), hscript]
  have hne : script ≠ "" := by simpa [hscript] using hcarries.2
  have htrigger : (newRow req groupId item idx id).scriptScheduledStartAt =
      some (req.scriptScheduledStartAt.getD item.startAt).stored := by
    simp [newRow, hcarry, truthy, hne]
  obtain ⟨-, hinside, -⟩ := checks_eq_true_iff.mp (hbooked.checks _ hrow)
  obtain ⟨hstart, hend⟩ := hinside _ htrigger
  have hmem : newRow req groupId item idx id ∈ db'.reservations := by
    rw [Table.mem_def, hbooked.reservations]
    exact List.mem_append_right _ hrow
  refine ⟨by simp [newRow, hcarry], _, htrigger, hstart, hend, fun later hdue hlater => ?_⟩
  have hactive := status_rowAtDispatch (.inl rfl) (hstart.trans hdue) hlater (href.server _ hmem)
  exact dispatchedBy_of_active hmem hactive rfl (by simp [newRow, hcarry]) htrigger hdue
    (href.server _ hmem) (href.account _ hmem)

/-- **No empty reservations**: every row that a booking creates without a GPU has a script, a
trigger in its window and is dispatched from then on, exactly when every item without a GPU
gets the script and the script is not the empty text. -/
theorem noEmptyRows_iff {created : List Reservation}
    (h : createReservationBatch db req groupId now = .ok (db', created)) (href : Referenced db') :
    NoEmptyRows db' created ↔ EachCarriesScript req := by
  have hcreated := (createReservationBatch_ok h).2
  constructor
  · intro hrows p hp hgpu
    obtain ⟨id, hrow⟩ := exists_mem_createdRows db groupId hp
    obtain ⟨hscript, t, ht, -⟩ := hrows _ (hcreated ▸ hrow) hgpu
    refine ⟨?_, fun hempty => ?_⟩
    · by_contra hcarry
      have hnone : carryScript req p.2 = none := by
        rw [carryScript, if_neg (by simpa using hcarry)]
      simp [newRow, hnone] at hscript
    · have hfalse : truthy (carryScript req p.2) = false := by
        unfold carryScript
        split <;> simp [truthy, hempty]
      simp [newRow, hfalse] at ht
  · intro hcarries r hr hgpu
    obtain ⟨item, idx, id, hitem, rfl⟩ := mem_createdRows (hcreated ▸ hr)
    exact notEmpty_of_carries h href hitem hr hgpu (hcarries (item, idx) hitem hgpu)

/-- Two hours without a GPU, for a script that both rows get or only the first one. -/
def twoTasks (script : String) (shareScript : Bool) : BatchRequest :=
  { items := [{ serverId := 1, gpuId := none, startAt := .ofStored 0
                endAt := .ofStored hourMicros, accountLinkId := 31 },
              { serverId := 1, gpuId := none, startAt := .ofStored hourMicros
                endAt := .ofStored (2 * hourMicros), accountLinkId := 31 }]
    userId := 41, script := some script, shareScript := shareScript }

theorem noEmptyRows_iff_shared :
    ∃ db' created, createReservationBatch (smallLab .empty) (twoTasks "./train.sh" true) "g" 0 =
        .ok (db', created) ∧
      (NoEmptyRows db' created ↔ EachCarriesScript (twoTasks "./train.sh" true)) := by
  have hcreate : createReservationBatch (smallLab .empty) (twoTasks "./train.sh" true) "g" 0 =
      .ok (_, _) := rfl
  refine ⟨_, _, hcreate, noEmptyRows_iff hcreate ⟨?_, ?_⟩⟩
  · decide
  · decide

/-- The second task gets no script when it is not shared, and the empty script has no trigger. -/
theorem not_noEmptyRows :
    (∃ db' created, createReservationBatch (smallLab .empty) (twoTasks "./train.sh" false) "g" 0 =
        .ok (db', created) ∧ ¬ NoEmptyRows db' created) ∧
      ∃ db' created, createReservationBatch (smallLab .empty) (twoTasks "" true) "g" 0 =
        .ok (db', created) ∧ ¬ NoEmptyRows db' created := by
  constructor
  · refine ⟨_, _, rfl, fun h => ?_⟩
    obtain ⟨hscript, -⟩ := h _ (.tail _ (.head _)) rfl
    cases hscript
  · refine ⟨_, _, rfl, fun h => ?_⟩
    obtain ⟨-, t, ht, -⟩ := h _ (.head _) rfl
    cases ht

end Created

end ReservationRows

end CoreLab
