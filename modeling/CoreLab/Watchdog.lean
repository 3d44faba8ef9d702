import CoreLab.Dispatch

/-!
# CoreLab.Watchdog

What the watchdog's retries and give-ups do to scripts that run.

* `spawned_nodup` — no script is spawned twice, as long as the agent has its entry
  while a further request may come for it;
* `giveUp_not_live` — the watchdog gives up on no live script, as long as the third
  failure does not count against one, and no script starts after it.
-/

namespace CoreLab

open Relational Transition

namespace ScriptDelivery

/-! ## no script is spawned twice -/

/-- The agent's gate is up where a request may meet a script that was spawned: the watchdog
sends again a script whose entry is still in `_running`, or of which no start is in flight or
lost; and no entry is removed while a request of its script is on its way. -/
def GateUp (w : World) : Action → Prop
  | .tick now => ∀ r ∈ w.db.reservations, retries w.db now r = true →
      HasEntry w r.id ∨ ¬ StartInFlight w r.id ∧ r.id ∉ w.lostStarts
  | .pop i => ∀ e ∈ w.running[i]?, outstanding w e.reservationId = 0
  | _ => True

instance : ∀ w a, Decidable (GateUp w a)
  | w, .tick now => inferInstanceAs (Decidable (∀ r ∈ w.db.reservations.rows,
      retries w.db now r = true → HasEntry w r.id ∨
        ¬ (∃ e ∈ w.starts, e.reservationId = (r.id : Int)) ∧ r.id ∉ w.lostStarts))
  | w, .pop i => inferInstanceAs (Decidable (∀ e ∈ w.running[i]?, outstanding w e.reservationId = 0))
  | _, .send _ | _, .sendBreaks _ | _, .execute _ _ | _, .respond _ | _, .timeout _ | _, .started _
  | _, .finished _ | _, .exit _ _ | _, .loseExecute _ | _, .loseResponse _
  | _, .loseStart _ | _, .loseFinish _ | _, .disconnect | _, .reconnect => .isTrue True.intro

/-- Each script was spawned at most once, and while a request is on its way for one that was, the
agent refuses it. -/
structure Gated (w : World) : Prop where
  once : ∀ id, w.spawned.count id ≤ 1
  entry : ∀ id ∈ w.spawned, 0 < outstanding w id → HasEntry w id

/-- A row that a tick queues a request for was not spawned, or has its entry. -/
theorem hasEntry_of_queued {w : World} {now : Time} {r : Reservation} (hw : Base w)
    (hok : GateUp w (.tick now)) (hr : w.db.reservations.get? r.id = some r)
    (hq : tickQueue w.db now r ≠ []) (hspawned : r.id ∈ w.spawned) : HasEntry w r.id := by
  obtain ⟨d, hd⟩ := List.exists_mem_of_ne_nil _ hq
  rcases (mem_tickQueue hd).2 with hfirst | hretry
  · exact absurd hspawned (hw.unfired r.id r hr (firstDispatch_fresh hfirst)).2
  · obtain ⟨hrunning, hseen⟩ := unacknowledged_running (retries_unacknowledged hretry)
    rcases hok r (Table.mem_of_get? hr) hretry with hentry | ⟨hflight, hlost⟩
    · exact hentry
    · -- a script that was spawned left a trace, and its row shows none
      rcases hw.traced r.id hspawned with h | h | h | ⟨r', hr', hended⟩
      · exact absurd h hflight
      · exact absurd h hlost
      · rw [hseen] at h
        cases h
      · rw [hr, Option.some.injEq] at hr'
        exact absurd (hr' ▸ hrunning) hended.2

theorem Gated.tick {w : World} {now : Time} {s : TickSession} (hw : Base w) (hg : Gated w)
    (hok : GateUp w (.tick now)) (hs : TickResult w.db now s) :
    Gated { w with db := s.db, tasks := w.tasks ++ s.pending } := by
  refine ⟨hg.once, fun id hid hpos => ?_⟩
  rw [outstanding_tick hs] at hpos
  cases hr : w.db.reservations.get? id with
  | none =>
      rw [hr, Option.elim_none, Nat.add_zero] at hpos
      exact hg.entry id hid hpos
  | some r =>
      obtain rfl : r.id = id := Table.key_of_get? hr
      by_cases hq : tickQueue w.db now r = []
      · rw [hr, Option.elim_some, hq, List.length_nil, Nat.add_zero] at hpos
        exact hg.entry r.id hid hpos
      · obtain ⟨e, he, heq⟩ := hasEntry_of_queued hw hok hr hq hid
        exact ⟨e, he, heq⟩

/-- The agent spawns a script that it has no entry of: one that it did not spawn before. -/
theorem Gated.spawn {w w' : World} {d : Dispatch} (hg : Gated w) (hs : Spawn w w' d) : Gated w' := by
  have hpos : 0 < outstanding w d.reservationId := by
    rw [hs.outstanding, if_pos rfl]
    omega
  have hnew : d.reservationId ∉ w.spawned := by
    intro hmem
    obtain ⟨e, he, hid⟩ := hg.entry _ hmem hpos
    exact hs.idle e he hid
  refine ⟨fun id => ?_, fun id hid hout => ?_⟩
  · have hone := hg.once id
    have hzero := List.count_eq_zero.mpr hnew
    rw [hs.spawned, List.count_append, List.count_singleton]
    simp only [beq_iff_eq]
    split
    · next heq =>
        subst heq
        omega
    · omega
  · rw [HasEntry, hs.running]
    rw [hs.spawned, List.mem_append, List.mem_singleton] at hid
    rcases hid with hid | rfl
    · obtain ⟨e, he, heq⟩ := hg.entry id hid (by rw [hs.outstanding]; omega)
      exact ⟨e, List.mem_append_left _ he, heq⟩
    · exact ⟨_, List.mem_append_right _ (List.mem_singleton_self _), rfl⟩

theorem Gated.pop {w : World} {i : Nat} {e : RunningEntry} {running : List RunningEntry}
    (hg : Gated w) (hok : GateUp w (.pop i)) (htake : Wire.take w.running i = some (e, running)) :
    Gated { w with running := running } := by
  have hnone : outstanding w e.reservationId = 0 := hok e (Wire.getElem?_of_take htake)
  refine ⟨hg.once, fun id hid hpos => ?_⟩
  have hpos : 0 < outstanding w id := hpos
  obtain ⟨e', he', rfl⟩ := hg.entry id hid hpos
  rcases Wire.eq_or_mem_rest htake he' with rfl | hrest
  · omega
  · exact ⟨e', hrest, rfl⟩

theorem gated_step {w w' : World} {a : Action} (hw : Base w) (hg : Gated w) (hok : GateUp w a)
    (h : step w a = some w') : Gated w' := by
  cases step_cases h with
  | ticked result eq => exact eq ▸ hg.tick hw hok result
  | spawn d _ _ hspawn => exact hg.spawn hspawn
  | popped e running taken eq => exact eq ▸ hg.pop hok taken
  | frame hframe =>
      refine ⟨fun id => hframe.spawned ▸ hg.once id, fun id hid hpos => ?_⟩
      rw [hframe.running]
      exact hg.entry id (hframe.spawned ▸ hid) (Nat.lt_of_lt_of_le hpos (hframe.outstanding id))

/-- **No script is spawned twice**: over every run from a quiet state, whatever
is delayed or lost, `execute` spawns each reservation's script at most once, if
the agent's gate is up whenever a request may meet a script that was spawned. -/
theorem spawned_nodup {w w' : World} {as : List Action} (hw : Initial w)
    (hok : Meets step GateUp w as) (h : exec step w as = some w') : w'.spawned.Nodup := by
  have hinit : Base w ∧ Gated w := by
    refine ⟨base_of_initial hw, fun id => ?_, fun id hid => ?_⟩
    · rw [hw.spawned]
      exact Nat.zero_le 1
    · rw [hw.spawned] at hid
      cases hid
  have hstep : ∀ s a t, Base s ∧ Gated s → GateUp s a → step s a = some t → Base t ∧ Gated t :=
    fun s a t hI hok ht => ⟨base_step hI.1 ht, gated_step hI.1 hI.2 hok ht⟩
  exact List.nodup_iff_count_le_one.mpr (exec_invariant hstep hinit hok h).2.once

/-- The small lab with a due script, and an idle agent on its connection. -/
def idleWorld : World :=
  { db := smallLab (.single dueScript), kills := [], serverId := 1, connected := true, nextId := 0
    tasks := [], awaiting := [], executes := [], responses := [], starts := [], finishes := []
    running := [], spawned := [], lostStarts := [] }

/-- The agent spawns the script it is asked for. -/
def spawns : SpawnOutcome := .ok (.ofStored 0) "/tmp/7.log"

/-- The script ends on its own. -/
def endsWell : Exit :=
  { exitCode := some 0, finishedAt := .ofStored 0, outputSizeBytes := 0, logPath := none
    killed := false }

/-- The first request meets an offline agent, the second one is the one that spawns; its start
is lost, so a third one meets the running script. -/
def refusedOnce : List Action :=
  [.disconnect, .tick 0, .send 0, .reconnect, .tick (61 * secondMicros), .send 0, .execute 0 spawns,
   .respond 0, .loseStart 0, .tick (122 * secondMicros), .send 0, .execute 0 spawns, .respond 0,
   .exit 0 endsWell, .pop 0, .finished 0]

theorem spawned_nodup_refusedOnce :
    ∃ w', exec step idleWorld refusedOnce = some w' ∧
      (w'.spawned = [7] ∧ countDispatchFailures w'.db 7 = 2) ∧ w'.spawned.Nodup := by
  obtain ⟨w', hw', hspawned⟩ : ∃ w', exec step idleWorld refusedOnce = some w' ∧
      w'.spawned = [7] ∧ countDispatchFailures w'.db 7 = 2 := ⟨_, rfl, rfl, by decide⟩
  exact ⟨w', hw', hspawned, spawned_nodup ⟨rfl, rfl, rfl, rfl, rfl⟩ (by decide) hw'⟩

/-- The start and the finish of a script that ran are lost, so it is sent, and
spawned, again. -/
def lostRun : List Action :=
  [.tick 0, .send 0, .execute 0 spawns, .respond 0, .loseStart 0, .exit 0 endsWell, .loseFinish 0,
   .pop 0, .tick (61 * secondMicros), .send 0, .execute 0 spawns]

theorem spawned_not_nodup :
    ¬ ∀ (w w' : World) (as : List Action), Initial w → exec step w as = some w' →
        w'.spawned.Nodup := by
  intro h
  obtain ⟨w', hw', hspawned⟩ : ∃ w', exec step idleWorld lostRun = some w' ∧
      w'.spawned = [7, 7] := ⟨_, rfl, rfl⟩
  have hnodup := h idleWorld w' lostRun ⟨rfl, rfl, rfl, rfl, rfl⟩ hw'
  rw [hspawned] at hnodup
  exact absurd hnodup (by decide)

/-! ## the watchdog gives up on no live script -/

/-- No row whose script is marked running turns failed in a tick, which only
the watchdog's `transition_to_failed` makes of it, while the agent still has
its entry. -/
def GiveUpSafe (w : World) (a : Action) (w' : World) : Prop :=
  match a with
  | .tick _ => ∀ id r r', w.db.reservations.get? id = some r →
      w'.db.reservations.get? id = some r' → r.scriptStatus = some .running →
      r.status ≠ .failed → r'.status = .failed → ∀ e ∈ w.running, e.reservationId ≠ id
  | _ => True

/-- A script whose start is not on record has failed often enough, with `more` failures. -/
def GivenUpWith (w : World) (more id : Nat) : Prop :=
  lifecycleStartedSeen w.db id = false ∧
    watchdogMaxDispatchAttempts ≤ countDispatchFailures w.db id + more

instance (w : World) (more id : Nat) : Decidable (GivenUpWith w more id) :=
  inferInstanceAs (Decidable (_ ∧ _))

/-- The agent does not start a script that has failed often enough. -/
def StaysDown (w : World) : Action → Prop
  | .execute i outcome => ∀ f ∈ w.executes[i]?, GivenUpWith w 0 f.2.reservationId →
      (execute w.running f.2.reservationId outcome).2 = none
  | _ => True

instance (w : World) : DecidablePred (StaysDown w)
  | .execute i outcome => inferInstanceAs (Decidable (∀ f ∈ w.executes[i]?,
      GivenUpWith w 0 f.2.reservationId → (execute w.running f.2.reservationId outcome).2 = none))
  | .tick _ | .send _ | .sendBreaks _ | .respond _ | .timeout _ | .started _ | .finished _ | .exit _ _
  | .pop _ | .loseExecute _ | .loseResponse _ | .loseStart _ | .loseFinish _ | .disconnect
  | .reconnect => .isTrue True.intro

/-- Neither the third failure of a script whose start is not on record nor a later one is counted
while the agent has its entry, and after the third one the agent does not start it. -/
def CountsTheDead (w : World) (a : Action) : Prop :=
  (∀ id ∈ failureOf w a, GivenUpWith w 1 id → ¬ HasEntry w id) ∧ StaysDown w a

instance (w : World) (a : Action) : Decidable (CountsTheDead w a) :=
  inferInstanceAs (Decidable (_ ∧ _))

/-- Promoting and closing fail no row whose script is marked running. -/
theorem rowAtDispatch_not_failed (db : Db) (now : Time) {r : Reservation}
    (hrunning : r.scriptStatus = some .running) (hstatus : r.status ≠ .failed) :
    (rowAtDispatch db now r).status ≠ .failed := by
  have hpromote : (rowAfter (promoteEffect db now) r).status ≠ .failed ∧
      (rowAfter (promoteEffect db now) r).scriptStatus = some .running := by
    unfold rowAfter promoteEffect
    split
    · exact ⟨by simp, hrunning⟩
    · exact ⟨hstatus, hrunning⟩
  obtain ⟨hkept, hscript⟩ := hpromote
  rw [rowAtDispatch, rowAfter, closeEffect]
  split
  · simp [closedRow, hscript]
  · exact hkept

theorem givesUp_of_failed {db : Db} {now : Time} {r : Reservation}
    (hrunning : r.scriptStatus = some .running) (hstatus : r.status ≠ .failed)
    (hfailed : (tickRow db now r).status = .failed) : givesUp db now r = true := by
  have hkept := rowAtDispatch_not_failed db now hrunning hstatus
  cases tickCase db now r with
  | dispatched h _ _ =>
      rw [firstDispatch_fresh h] at hrunning
      cases hrunning
  | retried _ row _ => rw [row] at hfailed; exact absurd hfailed hkept
  | gaveUp h _ _ => exact h
  | healed _ row _ => rw [row] at hfailed; exact absurd hfailed hkept
  | idle row _ => rw [row] at hfailed; exact absurd hfailed hkept

/-- No script that failed often enough, and whose start is not on record, has its entry. -/
def GivenUpEnded (w : World) : Prop := ∀ id, GivenUpWith w 0 id → ¬ HasEntry w id

/-- A step after which a script has failed often enough counts the last failure, or comes after
it; no start is on record before the step either. -/
theorem givenUpWith_step {w w' : World} {a : Action} {id : Nat} (h : step w a = some w')
    (hstep : Advance w.db w'.db) (hgiven : GivenUpWith w' 0 id) :
    GivenUpWith w 0 id ∨ failureOf w a = some id ∧ GivenUpWith w 1 id := by
  obtain ⟨hunseen, hcount⟩ := hgiven
  have hbefore : lifecycleStartedSeen w.db id = false := by
    cases hseen : lifecycleStartedSeen w.db id with
    | false => rfl
    | true =>
        rw [hstep.seen id hseen] at hunseen
        cases hunseen
  rw [failures_step h id] at hcount
  by_cases hfail : failureOf w a = some id
  · rw [if_pos hfail] at hcount
    exact Or.inr ⟨hfail, hbefore, hcount⟩
  · rw [if_neg hfail] at hcount
    exact Or.inl ⟨hbefore, hcount⟩

/-- Once a script is given up, no step adds an entry of it. -/
theorem hasEntry_step {w w' : World} {a : Action} {id : Nat} (h : step w a = some w')
    (hok : CountsTheDead w a) (hgiven : GivenUpWith w 0 id) (hentry : HasEntry w' id) :
    HasEntry w id := by
  cases step_cases h with
  | ticked _ eq => rwa [eq] at hentry
  | popped e running taken eq =>
      obtain ⟨e', he', hid⟩ := hentry
      rw [eq] at he'
      exact ⟨e', Wire.mem_rest_of_take taken he', hid⟩
  | frame hframe => exact (hframe.running id).mp hentry
  | spawn d taken accepted hs =>
      obtain ⟨e, he, hid⟩ := hentry
      rw [hs.running, List.mem_append, List.mem_singleton] at he
      rcases he with he | rfl
      · exact ⟨e, he, hid⟩
      · obtain rfl : d.reservationId = id := hid
        exact absurd (hok.2 _ taken hgiven) accepted

theorem StepCase.advance {w w' : World} {a : Action} (h : StepCase w w' a) :
    Advance w.db w'.db := by
  cases h with
  | ticked result eq => exact eq ▸ advance_tick result
  | popped _ _ _ eq => exact eq ▸ .refl w.db
  | frame hframe => exact hframe.db
  | spawn d _ _ hs => exact hs.db ▸ .refl w.db

theorem givenUpEnded_step {w w' : World} {a : Action} (hw : GivenUpEnded w)
    (hok : CountsTheDead w a) (h : step w a = some w') : GivenUpEnded w' := by
  intro id hgiven hentry
  have hadvance := (step_cases h).advance
  rcases givenUpWith_step h hadvance hgiven with hbefore | ⟨hfail, hthird⟩
  · exact hw id hbefore (hasEntry_step h hok hbefore hentry)
  · have hdead := hok.1 id hfail hthird
    -- a step that counts a failure adds no entry
    refine hdead ?_
    cases step_cases h with
    | ticked _ _ | popped _ _ _ _ | spawn _ _ _ _ => cases hfail
    | frame hframe => exact (hframe.running id).mp hentry

/-- A row that the watchdog gives up has failed often enough. -/
theorem givenUpWith_of_givesUp {w : World} {now : Time} {r : Reservation}
    (h : givesUp w.db now r = true) : GivenUpWith w 0 r.id := by
  rw [givesUp, Bool.and_eq_true, decide_eq_true_eq] at h
  exact ⟨(unacknowledged_running h.1).2, h.2⟩

theorem giveUpSafe_tick {w w' : World} {now : Time} (hw : GivenUpEnded w)
    (h : step w (.tick now) = some w') : GiveUpSafe w (.tick now) w' := by
  intro id r r' hr hr' hrunning hstatus hfailed e he hid
  obtain rfl : r.id = id := Table.key_of_get? hr
  have hgives : givesUp w.db now r = true := by
    simp only [step] at h
    split at h
    · next s hs =>
        obtain rfl := Option.some.inj h
        dsimp only at hr'
        rw [(tickBody_ok hs).get?, hr, Option.map_some, Option.some.injEq] at hr'
        exact givesUp_of_failed hrunning hstatus (hr' ▸ hfailed)
    · obtain rfl := Option.some.inj h
      rw [hr, Option.some.injEq] at hr'
      exact absurd (hr' ▸ hfailed) hstatus
  exact hw r.id (givenUpWith_of_givesUp hgives) ⟨e, he, hid⟩

/-- **The watchdog gives up on no live script**: over every run from a quiet
state, a tick fails a row whose script is marked running only when the agent has
no entry of it, if the last failures count against scripts that do not run. -/
theorem giveUp_not_live {w : World} {as : List Action} (hw : Initial w)
    (hok : Meets step CountsTheDead w as) : Along step GiveUpSafe w as := by
  have hinit : GivenUpEnded w := by
    rintro id - ⟨e, he, -⟩
    rw [hw.running] at he
    cases he
  refine along_of_invariant (fun s a t hs hok ht => ?_) hinit hok
  refine ⟨givenUpEnded_step hs hok ht, ?_⟩
  cases a with
  | tick now => exact giveUpSafe_tick hs ht
  | _ => exact True.intro

/-- The tick of an attempt, a minute and a second after the one before, and its
round trip to the agent. -/
def attempt (n : Nat) (outcome : SpawnOutcome) : List Action :=
  [.tick (n * 61 * secondMicros), .send 0, .execute 0 outcome, .respond 0]

/-- The start of a script is lost and two requests meet it running; its finish is lost too, and
a third request, refused for another reason, is the last before the tick that gives up. -/
def refusedRun : List Action :=
  attempt 0 spawns ++ [.loseStart 0] ++ attempt 1 spawns ++ attempt 2 spawns ++
    [.exit 0 endsWell, .loseFinish 0, .pop 0] ++ attempt 3 .capabilityDisabled ++
    [.tick (4 * 61 * secondMicros)]

theorem giveUp_not_live_refused :
    (exec step idleWorld refusedRun).map
        (fun w => (w.db.reservations.rows.map (·.status), w.running)) = some ([.failed], []) ∧
      Along step GiveUpSafe idleWorld refusedRun :=
  ⟨by decide, giveUp_not_live ⟨rfl, rfl, rfl, rfl, rfl⟩ (by decide)⟩

/-- The start of a script that keeps running is lost; the agent refuses three
more requests because it is running. -/
def alreadyRunning : List Action :=
  attempt 0 spawns ++ [.loseStart 0] ++ attempt 1 spawns ++ attempt 2 spawns ++ attempt 3 spawns

theorem giveUp_live : ¬ ∀ (w : World) (as : List Action), Initial w → Along step GiveUpSafe w as := by
  intro h
  have halong := h idleWorld (alreadyRunning ++ [.tick (4 * 61 * secondMicros)])
    ⟨rfl, rfl, rfl, rfl, rfl⟩
  obtain ⟨w, hw, r, hr, hrow, hlive⟩ : ∃ w, exec step idleWorld alreadyRunning = some w ∧
      ∃ r, w.db.reservations.get? 7 = some r ∧
        (r.scriptStatus = some .running ∧ r.status ≠ .failed) ∧
        w.running = [{ reservationId := 7, exited := false }] :=
    ⟨_, rfl, _, rfl, by decide, rfl⟩
  obtain ⟨w', hw', r', hr', hfailed⟩ : ∃ w', step w (.tick (4 * 61 * secondMicros)) = some w' ∧
      ∃ r', w'.db.reservations.get? 7 = some r' ∧ r'.status = .failed := by
    obtain rfl := Option.some.inj hw
    exact ⟨_, rfl, _, rfl, rfl⟩
  have hsafe := halong.step_of_exec hw hw' 7 r r' hr hr' hrow.1 hrow.2 hfailed
    { reservationId := 7, exited := false }
  rw [hlive] at hsafe
  exact hsafe (List.mem_singleton_self _) rfl

end ScriptDelivery

end CoreLab
