import CoreLab.ScriptRunner

/-!
# CoreLab.ScriptSupervision

What each step of the agent's `ScriptRunner` keeps.

* `Inv.setRun`, `Inv.leaves`, `Inv.wakes` — a script goes on, leaves `_running`, or is killed late;
* `Inv.execute`, `Inv.cancel` — the handlers, beside those of `AgentHost`;
* `supervises_run` — in every run every script is told of in order, once and in full, no script is
  signalled without a cause, and a cancel that was answered as such ends in a kill or an exit.
-/

namespace CoreLab

open Slots Transition

namespace ScriptRunner

open AgentHost (Agent Host RunningEntry ExecuteScriptRequest)

/-! ## the runner goes on -/

section Runner

variable {w w' : World} {r r' : Run} {k : Nat}

theorem Escalates.mono {c : Cancelled} (h : Escalates w c) (hc : Continues w.runs w'.runs)
    (htimers : ∀ t ∈ w.timers, t ∈ w'.timers) : Escalates w' c := by
  obtain ⟨r, hr, hid, hmarked, hend⟩ := h
  obtain ⟨r', hr', hf⟩ := hc _ r hr
  exact ⟨r', hr', hf.reservationId.trans hid, hf.marked hmarked,
    hend.imp (htimers _) fun hover => hover.mono hf⟩

/-- A script that goes on stays registered. -/
theorem Registered.set {running : Dict Int Nat} {runs : List Run} (h : Registered running runs)
    (hk : runs[k]? = some r) (hf : Follows r r') (hleft : r'.stage = .left → r.stage = .left) :
    Registered running (runs.set k r') where
  running id i := by
    rw [h.running]
    constructor
    · rintro ⟨q, hq, hid, hstage⟩
      by_cases hi : i = k
      · subst hi
        obtain rfl : r = q := Option.some.inj (hk.symm.trans hq)
        exact ⟨r', (getElem?_change hk).mpr (.inl ⟨rfl, rfl⟩), hf.reservationId.trans hid,
          fun hl => hstage (hleft hl)⟩
      · exact ⟨q, (getElem?_change hk).mpr (.inr ⟨hi, hq⟩), hid, hstage⟩
    · rintro ⟨q, hq, hid, hstage⟩
      rcases (getElem?_change hk).mp hq with ⟨rfl, rfl⟩ | ⟨-, hq⟩
      · exact ⟨r, hk, hf.reservationId.symm.trans hid, fun hl => hstage (hf.left hl)⟩
      · exact ⟨q, hq, hid, hstage⟩
  earlier i j p q hij hp hq hid := by
    obtain ⟨q₀, hq₀, hqid⟩ : ∃ q₀, runs[j]? = some q₀ ∧ q₀.reservationId = q.reservationId := by
      rcases (getElem?_change hk).mp hq with ⟨rfl, rfl⟩ | ⟨-, hq⟩
      · exact ⟨r, hk, hf.reservationId.symm⟩
      · exact ⟨q, hq, rfl⟩
    rcases (getElem?_change hk).mp hp with ⟨rfl, rfl⟩ | ⟨-, hp⟩
    · exact hf.left (h.earlier _ _ r q₀ hij hk hq₀ (hf.reservationId.symm.trans (hid.trans hqid.symm)))
    · exact h.earlier _ _ p q₀ hij hp hq₀ (hid.trans hqid.symm)

/-- A script that has cleaned up is taken out. -/
theorem Registered.leaves {running : Dict Int Nat} {runs : List Run} (h : Registered running runs)
    (hk : runs[k]? = some r) (hlive : r.stage ≠ .left) (hf : Follows r r') (hleft : r'.stage = .left) :
    Registered (running.erase r.reservationId) (runs.set k r') where
  running id i := by
    rw [Dict.get?_erase]
    split
    · next hid =>
        subst hid
        refine iff_of_false (by simp) ?_
        rintro ⟨q, hq, hid, hstage⟩
        rcases (getElem?_change hk).mp hq with ⟨rfl, rfl⟩ | ⟨hi, hq⟩
        · exact hstage hleft
        · have hthere := (h.running r.reservationId k).mpr ⟨r, hk, rfl, hlive⟩
          have hother := (h.running r.reservationId i).mpr ⟨q, hq, hid, hstage⟩
          exact hi (Option.some.inj (hother.symm.trans hthere))
    · next hid =>
        rw [h.running]
        refine exists_congr fun q => ?_
        constructor
        · rintro ⟨hq, hqid, hstage⟩
          refine ⟨(getElem?_change hk).mpr (.inr ⟨?_, hq⟩), hqid, hstage⟩
          rintro rfl
          obtain rfl : r = q := Option.some.inj (hk.symm.trans hq)
          exact hid hqid.symm
        · rintro ⟨hq, hqid, hstage⟩
          rcases (getElem?_change hk).mp hq with ⟨rfl, rfl⟩ | ⟨-, hq⟩
          · exact absurd hleft hstage
          · exact ⟨hq, hqid, hstage⟩
  earlier i j p q hij hp hq hid := by
    obtain ⟨q₀, hq₀, hqid⟩ : ∃ q₀, runs[j]? = some q₀ ∧ q₀.reservationId = q.reservationId := by
      rcases (getElem?_change hk).mp hq with ⟨rfl, rfl⟩ | ⟨-, hq⟩
      · exact ⟨r, hk, hf.reservationId.symm⟩
      · exact ⟨q, hq, rfl⟩
    rcases (getElem?_change hk).mp hp with ⟨rfl, rfl⟩ | ⟨-, hp⟩
    · exact hleft
    · exact h.earlier _ _ p q₀ hij hp hq₀ (hid.trans hqid.symm)

/-- A script goes on, and nothing else changes. -/
theorem Inv.setRun (h : Inv w) (hk : w.runs[k]? = some r) (hf : Follows r r') (hs : Sound r')
    (hleft : r'.stage = .left → r.stage = .left)
    (hc : Caused w.cancels (w.runs.set k r') k r') : Inv (w.setRun k r') where
  mode := h.mode
  sound := h.sound.change hk hs fun _ _ _ hq => hq
  registered := h.registered.set hk hf hleft
  caused := h.caused.change hk hc fun _ _ _ hq => hq.mono (continues_set hk hf) fun _ hx => hx
  timers := h.timers
  escalates c hc := (h.escalates c hc).mono (continues_set hk hf) fun _ ht => ht

/-- It does so without a signal or a decision about its end. -/
theorem Inv.quiet (h : Inv w) (hk : w.runs[k]? = some r) (hf : Follows r r') (hs : Sound r')
    (hleft : r'.stage = .left → r.stage = .left) (hsignals : r'.signals = r.signals)
    (hkilled : r'.killed = r.killed) (hstart : r'.startedAt = r.startedAt) :
    Inv (w.setRun k r') := by
  have hc := (h.caused k r hk).quiet hf hsignals hkilled hstart
  exact h.setRun hk hf hs hleft (hc.mono (continues_set hk hf) fun _ hx => hx)

/-- What a signal needs of its causes. -/
theorem Caused.signalled {cancels : List Cancelled} {runs : List Run}
    (h : Caused cancels runs k r) (signal : Signal) (now : Time) (halive : r.process = .alive → r.killed = none)
    (hterm : signal = .term → ∃ c ∈ cancels, c.run = k ∧ c.time = now)
    (hkill : signal = .kill →
      (∃ seconds, r.request.maxRuntimeSeconds = some seconds ∧
        r.startedAt + seconds * secondMicros ≤ now) ∨
      ∃ c ∈ cancels, c.reservationId = r.reservationId ∧ c.time + graceSeconds ≤ now)
    (hmark : r.entry.killedReason.isSome = true ∨ Stale runs k r) :
    Caused cancels runs k (r.signalled signal now) := by
  unfold Run.signalled
  split
  · next hp =>
      refine ⟨fun t ht => ?_, fun t ht => ?_, fun _ => hmark, fun hk => ?_⟩
      · rcases List.mem_append.mp ht with ht | ht
        · exact h.terms t ht
        · obtain ⟨rfl, rfl⟩ := Prod.mk.inj (List.mem_singleton.mp ht)
          exact hterm rfl
      · rcases List.mem_append.mp ht with ht | ht
        · exact h.kills t ht
        · obtain ⟨rfl, rfl⟩ := Prod.mk.inj (List.mem_singleton.mp ht)
          exact hkill rfl
      · rw [halive hp] at hk
        cases hk
  · exact h

theorem follows_signalled (r : Run) (signal : Signal) (now : Time) :
    Follows r (r.signalled signal now) := by
  unfold Run.signalled
  split
  · exact ⟨rfl, id, id, id, fun _ h => List.mem_append_left _ h, id⟩
  · exact .refl r

theorem follows_mark (r : Run) (reason : String) : Follows r (r.mark reason) :=
  ⟨rfl, fun _ => rfl, id, id, fun _ h => h, id⟩

theorem Follows.trans {r'' : Run} (h : Follows r r') (h' : Follows r' r'') : Follows r r'' :=
  ⟨h'.request.trans h.request, fun hm => h'.marked (h.marked hm), fun hl => h'.left (h.left hl),
    fun hd => h'.dead (h.dead hd), fun s hs => h'.signals s (h.signals s hs),
    fun hr => h'.refused (h.refused hr)⟩

@[simp] theorem stage_signalled (r : Run) (signal : Signal) (now : Time) :
    (r.signalled signal now).stage = r.stage := by
  unfold Run.signalled
  split <;> rfl

theorem Sound.undecided_of_alive (h : Sound r) (halive : r.process = .alive) : r.killed = none := by
  cases hk : r.killed with
  | none => rfl
  | some b => exact absurd halive (h.decided (by rw [hk]; rfl))

/-- `_await_and_push` decides whether the script was killed. -/
theorem Inv.waitReturns (h : Inv w) {killed : Bool} (hk : w.runs[k]? = some r)
    (hdead : r.process ≠ .alive)
    (hstage : r.stage = .waiting ∧ killed = r.entry.killedReason.isSome ∨
      r.stage = .killing ∧ killed = true) :
    Inv (w.setRun k { r with stage := .ended, killed := some killed }) := by
  have hs := h.sound k r hk
  have hstages : r.stage ≠ .pushed ∧ r.stage ≠ .left := by
    rcases hstage with ⟨hst, -⟩ | ⟨hst, -⟩ <;> simp [hst]
  have hf : Follows r { r with stage := .ended, killed := some killed } :=
    ⟨rfl, id, fun hl => absurd hl hstages.2, id, fun _ hx => hx, id⟩
  have hreason : killed = true → r.entry.killedReason.isSome = true := by
    rintro rfl
    rcases hstage with ⟨-, hst⟩ | ⟨hst, -⟩
    · exact hst.symm
    · exact hs.killing hst
  refine h.setRun hk hf ?_ (fun hl => by cases hl) ?_
  · exact hs.goes hstages.1 hstages.2 (.inr rfl) (fun hx => by cases hx) (fun _ => hdead)
      fun hx => hreason (Option.some.inj hx)
  · have hc := h.caused k r hk
    refine ⟨hc.terms, hc.kills, fun hne => ?_, fun hfalse hne => ?_⟩
    · exact (hc.marked hne).imp_right fun hstale => hstale.mono (continues_set hk hf) rfl
    · obtain rfl : killed = false := Option.some.inj hfalse
      rcases hstage with ⟨-, hst⟩ | ⟨-, hst⟩
      · rcases hc.marked hne with hmarked | hstale
        · rw [hmarked] at hst
          cases hst
        · exact hstale.mono (continues_set hk hf) rfl
      · cases hst

/-- A script leaves `_running`. -/
theorem Inv.leaves (h : Inv w) (hk : w.runs[k]? = some r) (hlive : r.stage ≠ .left)
    (hf : Follows r r') (hs : Sound r') (hleft : r'.stage = .left)
    (hsignals : r'.signals = r.signals) (hkilled : r'.killed = r.killed)
    (hstart : r'.startedAt = r.startedAt) :
    Inv { w.setRun k r' with running := w.running.erase r.reservationId } where
  mode := h.mode
  sound := h.sound.change hk hs fun _ _ _ hq => hq
  registered := h.registered.leaves hk hlive hf hleft
  caused := by
    have hc := (h.caused k r hk).quiet hf hsignals hkilled hstart
    exact h.caused.change hk (hc.mono (continues_set hk hf) fun _ hx => hx)
      fun _ _ _ hq => hq.mono (continues_set hk hf) fun _ hx => hx
  timers := h.timers
  escalates c hc := (h.escalates c hc).mono (continues_set hk hf) fun _ ht => ht

@[simp] theorem killed_signalled (r : Run) (signal : Signal) (now : Time) :
    (r.signalled signal now).killed = r.killed := by
  unfold Run.signalled
  split <;> rfl

@[simp] theorem entry_signalled (r : Run) (signal : Signal) (now : Time) :
    (r.signalled signal now).entry = r.entry := by
  unfold Run.signalled
  split <;> rfl

theorem Inv.overtime (h : Inv w) (hk : w.runs[k]? = some r) (hstage : r.stage = .waiting)
    {seconds : Int} (hmax : r.request.maxRuntimeSeconds = some seconds)
    (hover : r.startedAt + seconds * secondMicros ≤ w.clock) (permitted : Bool) :
    Inv (w.overtime k r permitted) := by
  have hs := h.sound k r hk
  unfold World.overtime
  generalize AgentHost.orElse (r.entry.killedReason.getD "") "max_runtime" = reason
  dsimp only
  split
  · have hf : Follows r { r.mark reason with
        refused := true, stage := .left
        pump := if r.pump = .reading then .failed else r.pump } :=
      ⟨rfl, fun _ => rfl, fun _ => rfl, id, fun _ hx => hx, fun _ => rfl⟩
    exact h.leaves hk (by simp [hstage]) hf ((hs.mark reason).breaks hstage) rfl rfl rfl rfl
  · have hmarked := (hs.mark reason).signalled .kill w.clock
    have hnone : ((r.mark reason).signalled .kill w.clock).killed = none := by
      rw [killed_signalled]
      exact hs.undecided (.inl hstage)
    have hst : ((r.mark reason).signalled .kill w.clock).stage = .waiting := by
      rw [stage_signalled]
      exact hstage
    have hf : Follows r { (r.mark reason).signalled .kill w.clock with stage := .killing } := by
      have hfollows := (follows_mark r reason).trans (follows_signalled (r.mark reason) .kill w.clock)
      have hnot : r.stage ≠ .left := by simp [hstage]
      exact ⟨hfollows.request, hfollows.marked, fun hl => absurd hl hnot, hfollows.dead,
        hfollows.signals, hfollows.refused⟩
    refine h.setRun hk hf ?_ (fun hl => by cases hl) ?_
    · have hreason : ((r.mark reason).signalled .kill w.clock).entry.killedReason.isSome = true := by
        rw [entry_signalled]
        rfl
      refine hmarked.goes ?_ ?_ (.inl rfl) (fun _ => ⟨hreason, hnone⟩) (fun hx => ?_) fun _ => hreason
      · rw [hst]
        simp
      · rw [hst]
        simp
      · cases hx
    · have hc := (h.caused k r hk).quiet (follows_mark r reason) rfl rfl rfl
      have hc' := (hc.mono (continues_set hk hf) fun _ hx => hx).signalled .kill w.clock
        (fun _ => hs.undecided (.inl hstage)) (fun hx => by cases hx)
        (fun _ => .inl ⟨seconds, hmax, hover⟩) (.inl rfl)
      exact ⟨hc'.terms, hc'.kills, hc'.marked, hc'.told⟩

/-- The script that a cancel found is the one that its timer finds, or an earlier one. -/
theorem Inv.stale_of_cancel (h : Inv w) {c : Cancelled} (hc : c ∈ w.cancels)
    (hk : w.runs[k]? = some r) (hlive : r.stage ≠ .left)
    (hid : c.reservationId = r.reservationId) :
    r.entry.killedReason.isSome = true ∨ Stale w.runs k r := by
  obtain ⟨q, hq, hqid, hmarked, -⟩ := h.escalates c hc
  have hsame : q.reservationId = r.reservationId := hqid.trans hid
  rcases Nat.lt_trichotomy c.run k with hlt | heq | hgt
  · exact .inr ⟨c.run, q, hlt, hq, hsame, hmarked⟩
  · rw [heq, hk] at hq
    obtain rfl := Option.some.inj hq
    exact .inl hmarked
  · exact absurd (h.registered.earlier k c.run r q hgt hk hq hsame.symm) hlive

/-- A timer that has woken up has done what it was for. -/
theorem Inv.escalates_wakes (h : Inv w) (w' : World) {i : Nat} {t : Int × Time} (ht : w.timers[i]? = some t)
    (hc : Continues w.runs w'.runs) (htimers : w'.timers = w.timers.eraseIdx i) {c : Cancelled}
    (hmem : c ∈ w.cancels)
    (hover : ∀ (k : Nat) r, w.running.get? t.1 = some k → w'.runs[k]? = some r →
      c.time + graceSeconds = t.2 → Over c r) : Escalates w' c := by
  obtain ⟨r, hr, hid, hmarked, hend⟩ := h.escalates c hmem
  obtain ⟨r', hr', hf⟩ := hc _ r hr
  refine ⟨r', hr', hf.reservationId.trans hid, hf.marked hmarked, ?_⟩
  rcases hend with hpending | hend
  · by_cases hstill : (c.reservationId, c.time + graceSeconds) ∈ w.timers.eraseIdx i
    · exact .inl (htimers ▸ hstill)
    · obtain rfl : (c.reservationId, c.time + graceSeconds) = t := by
        obtain ⟨j, hj⟩ := List.mem_iff_getElem?.mp hpending
        by_cases hji : j = i
        · rw [hji, ht] at hj
          exact (Option.some.inj hj).symm
        · exact absurd (List.mem_eraseIdx_iff_getElem?.mpr ⟨j, hji, hj⟩) hstill
      refine .inr ?_
      by_cases hleft : r.stage = .left
      · have hdead : Over c r := by
          rcases (h.sound _ r hr).left hleft with hdead | hrefused
          · exact .inl hdead
          · exact .inr (.inr hrefused)
        exact hdead.mono hf
      · exact hover c.run r' ((h.registered.running _ _).mpr ⟨r, hr, hid, hleft⟩) hr' rfl
  · exact .inr (hend.mono hf)

theorem Inv.wakes (h : Inv w) {i : Nat} {t : Int × Time} (ht : w.timers[i]? = some t)
    (hdue : t.2 ≤ w.clock) (permitted : Bool) :
    Inv ({ w with timers := w.timers.eraseIdx i }.wake t.1 permitted) := by
  have htimers : ∀ u ∈ w.timers.eraseIdx i,
      ∃ c ∈ w.cancels, c.reservationId = u.1 ∧ u.2 = c.time + graceSeconds :=
    fun u hu => h.timers u (List.mem_of_mem_eraseIdx hu)
  -- Nothing is found that is alive.
  have hidle : (∀ k r, w.running.get? t.1 = some k → w.runs[k]? = some r → r.process ≠ .alive) →
      Inv { w with timers := w.timers.eraseIdx i } := fun hdead =>
    ⟨h.mode, h.sound, h.registered, h.caused, htimers, fun c hc =>
      h.escalates_wakes { w with timers := w.timers.eraseIdx i } ht (.refl _) rfl hc
        fun k r hk hr _ => .inl (hdead k r hk hr)⟩
  unfold World.wake
  dsimp only
  split
  · next hnone =>
      refine hidle fun k r hk _ => ?_
      rw [hnone] at hk
      cases hk
  · next k hk =>
      split
      · next hnone =>
          refine hidle fun k' r hk' hr => ?_
          rw [hk] at hk'
          obtain rfl := Option.some.inj hk'
          rw [hnone] at hr
          cases hr
      · next r hr =>
          have huniq : ∀ k' q, w.running.get? t.1 = some k' → w.runs[k']? = some q →
              k' = k ∧ q = r := by
            intro k' q hk' hq
            rw [hk] at hk'
            obtain rfl := Option.some.inj hk'
            exact ⟨rfl, Option.some.inj (hq.symm.trans hr)⟩
          have hs := h.sound k r hr
          split
          · next hdead => exact hidle fun k' q hk' hq => (huniq k' q hk' hq).2 ▸ hdead
          · next halive =>
              have halive : r.process = .alive := not_not.mp halive
              obtain ⟨c, hc, hcid, hcdue⟩ := h.timers t (List.mem_of_getElem? ht)
              obtain ⟨r₀, hr₀, hid, hlive⟩ := (h.registered.running _ _).mp hk
              obtain rfl : r₀ = r := Option.some.inj (hr₀.symm.trans hr)
              split
              · have hf := follows_signalled r₀ .kill w.clock
                have hcaused : Caused w.cancels (w.runs.set k (r₀.signalled .kill w.clock)) k
                    (r₀.signalled .kill w.clock) := by
                  refine ((h.caused k r₀ hr).mono (continues_set hr hf) fun _ hx => hx).signalled
                    .kill w.clock hs.undecided_of_alive (fun hx => by cases hx)
                    (fun _ => .inr ⟨c, hc, hcid.trans hid.symm, hcdue ▸ hdue⟩) ?_
                  exact (h.stale_of_cancel hc hr hlive (hcid.trans hid.symm)).imp_right
                    fun hstale => hstale.mono (continues_set hr hf) rfl
                have hnext := h.setRun hr hf (hs.signalled .kill w.clock)
                  (fun hl => by rwa [stage_signalled] at hl) hcaused
                refine ⟨hnext.mode, hnext.sound, hnext.registered, hnext.caused, htimers,
                  fun d hd => ?_⟩
                refine h.escalates_wakes _ ht (continues_set hr hf) rfl hd fun k' q hk' hq hd => ?_
                rw [hk] at hk'
                obtain rfl := Option.some.inj hk'
                rcases (getElem?_change hr).mp hq with ⟨-, rfl⟩ | ⟨hne, -⟩
                · refine .inr (.inl ⟨w.clock, ?_, hd ▸ hdue⟩)
                  simp [Run.signalled, halive]
                · exact absurd rfl hne
              · have hf : Follows r₀ { r₀ with refused := true } :=
                  ⟨rfl, id, id, id, fun _ hx => hx, fun _ => rfl⟩
                have hnext := h.quiet hr hf hs.refuse id rfl rfl rfl
                refine ⟨hnext.mode, hnext.sound, hnext.registered, hnext.caused, htimers,
                  fun d hd => ?_⟩
                refine h.escalates_wakes _ ht (continues_set hr hf) rfl hd fun k' q hk' hq hd => ?_
                rw [hk] at hk'
                obtain rfl := Option.some.inj hk'
                rcases (getElem?_change hr).mp hq with ⟨-, rfl⟩ | ⟨hne, -⟩
                · exact .inr (.inr rfl)
                · exact absurd rfl hne

/-! ## the handlers -/

theorem host_running (w : World) (id : Int) :
    w.host.running.get? id = (w.running.get? id).map w.entry := Dict.get?_mapVals _ _ _

theorem entry_eq (hk : w.runs[k]? = some r) : w.entry k = r.entry := by
  rw [World.entry, hk]

/-- What `AgentHost.execute` comes to on a Linux host. -/
theorem execute_cases {a a' : Agent} {h : Host} {p : ExecuteScriptRequest}
    {response : AgentHost.ExecuteScriptResponse} (hmode : a.mockMode = false)
    (he : AgentHost.execute a h p = .ok (a', response)) :
    (response.started = false ∧ a' = a) ∨ ∃ pid,
      response = { ok := true, started := true, pid := some pid
                   logPath := some p.stdoutLogPathHint } ∧
      a' = { a with running := a.running.set p.reservationId
                      { hasProcess := true, logPath := p.stdoutLogPathHint } } ∧
      a.isEnabled "script.execute_as_user" true = true ∧ a.running.get? p.reservationId = none ∧
      (∃ info, h.getpwnam p.linuxUsername = .ok (some info) ∧ 1000 ≤ info.uid) ∧
      h.spawnScript (AgentHost.scriptCommand p) (AgentHost.scriptEnv p) p.workingDirectory =
        .ok pid := by
  have hrefused : ∀ {error : String}, (Except.ok (a, AgentHost.refused error) :
      Except AgentHost.Exc (Agent × AgentHost.ExecuteScriptResponse)) = .ok (a', response) →
      response.started = false ∧ a' = a := by
    intro error heq
    obtain ⟨rfl, rfl⟩ := Prod.mk.inj (Except.ok.inj heq)
    exact ⟨rfl, rfl⟩
  unfold AgentHost.execute at he
  split at he
  · exact .inl (hrefused he)
  · next henabled =>
      split at he
      · exact .inl (hrefused he)
      · next hidle =>
          rw [hmode, if_neg (by simp), AgentHost.executeLinux] at he
          cases huser : h.getpwnam p.linuxUsername with
          | error f => simp [huser, AgentHost.call, Except.mapError, bind, Except.bind] at he
          | ok info =>
              simp only [huser, AgentHost.call, Except.mapError, bind, Except.bind] at he
              split at he
              · exact .inl (hrefused he)
              · next info =>
                  split at he
                  · exact .inl (hrefused he)
                  · next huid =>
                      split at he
                      · exact .inl (hrefused he)
                      · split at he
                        · exact .inl (hrefused he)
                        · cases he
                        · split at he
                          · exact .inl (hrefused he)
                          · cases he
                          · split at he
                            · exact .inl (hrefused he)
                            · cases he
                            · next pid hspawn =>
                                obtain ⟨rfl, rfl⟩ := Prod.mk.inj (Except.ok.inj he)
                                refine .inr ⟨pid, rfl, rfl, by simpa using henabled,
                                  by simpa using hidle, ⟨info, rfl, Nat.le_of_not_lt huid⟩, hspawn⟩

theorem Inv.begins (h : Inv w) {p : ExecuteScriptRequest} (hidle : w.running.get? p.reservationId = none)
    (pid : Nat) : Inv { w with
      running := w.running.set p.reservationId w.runs.length
      runs := w.runs ++ [.begun p pid w.clock] } where
  mode := h.mode
  sound := h.sound.join (sound_begun p pid w.clock) fun _ _ hq => hq
  registered := by
    have hleft : ∀ (k : Nat) r, w.runs[k]? = some r → r.reservationId = p.reservationId →
        r.stage = .left := by
      intro k r hr hid
      by_contra hlive
      have hthere := (h.registered.running _ _).mpr ⟨r, hr, hid, hlive⟩
      rw [hidle] at hthere
      cases hthere
    refine ⟨fun id k => ?_, fun j k q r hjk hq hr hid => ?_⟩
    · rw [Dict.get?_set]
      split
      · next hid =>
          subst hid
          constructor
          · intro hk
            obtain rfl := Option.some.inj hk
            exact ⟨_, getElem?_join.mpr (.inr ⟨rfl, rfl⟩), rfl, by simp [Run.begun]⟩
          · rintro ⟨r, hr, hid, hlive⟩
            rcases getElem?_join.mp hr with hr | ⟨rfl, -⟩
            · exact absurd (hleft k r hr hid) hlive
            · rfl
      · next hid =>
          rw [h.registered.running]
          refine exists_congr fun r => ?_
          constructor
          · rintro ⟨hr, hrid, hlive⟩
            exact ⟨getElem?_join.mpr (.inl hr), hrid, hlive⟩
          · rintro ⟨hr, hrid, hlive⟩
            rcases getElem?_join.mp hr with hr | ⟨-, rfl⟩
            · exact ⟨hr, hrid, hlive⟩
            · exact absurd hrid.symm hid
    · rcases getElem?_join.mp hr with hr | ⟨rfl, rfl⟩
      · have hlt : j < w.runs.length := hjk.trans (List.getElem?_eq_some_iff.mp hr).1
        rcases getElem?_join.mp hq with hq | ⟨rfl, -⟩
        · exact h.registered.earlier j k q r hjk hq hr hid
        · exact absurd hlt (Nat.lt_irrefl _)
      · rcases getElem?_join.mp hq with hq | ⟨rfl, -⟩
        · exact hleft j q hq hid
        · exact absurd hjk (Nat.lt_irrefl _)
  caused := by
    refine h.caused.join ?_ fun _ _ hq => hq.mono (continues_concat _ _) fun _ hx => hx
    exact ⟨by simp [Run.begun], by simp [Run.begun], by simp [Run.begun], by simp [Run.begun]⟩
  timers := h.timers
  escalates c hc := (h.escalates c hc).mono (continues_concat _ _) fun _ ht => ht

theorem Inv.execute (h : Inv w) (host : Host) (p : ExecuteScriptRequest) :
    Inv (w.execute host p) ∧ Handles w (.execute host p) (w.execute host p) := by
  have hmode : w.host.mockMode = false := h.mode
  cases he : AgentHost.execute w.host host p with
  | error e =>
      have hsame : w.execute host p = w := by simp [World.execute, he]
      rw [hsame]
      refine ⟨h, fun a response hok => ?_, .inl rfl⟩
      rw [he] at hok
      cases hok
  | ok result =>
      obtain ⟨a, response⟩ := result
      obtain ⟨hstarted, rfl⟩ | ⟨pid, rfl, rfl, henabled, hidle, huser, hspawn⟩ :=
        execute_cases hmode he
      · have hsame : w.execute host p = w := by
          unfold World.execute
          rw [he]
          split
          · next heq =>
              obtain ⟨-, rfl⟩ := Prod.mk.inj (Except.ok.inj heq)
              cases hstarted
          · rfl
        rw [hsame]
        refine ⟨h, fun a response hok => ?_, .inl rfl⟩
        rw [he] at hok
        obtain ⟨rfl, -⟩ := Prod.mk.inj (Except.ok.inj hok)
        exact fun id => rfl
      · have hnext : w.execute host p = { w with
            running := w.running.set p.reservationId w.runs.length
            runs := w.runs ++ [.begun p pid w.clock] } := by
          rw [World.execute, he]
        have hidle : w.running.get? p.reservationId = none := by
          rw [host_running] at hidle
          exact Option.map_eq_none_iff.mp hidle
        rw [hnext]
        refine ⟨h.begins hidle pid, fun a response hok id => ?_,
          .inr ⟨_, rfl, henabled, hidle, huser, hspawn⟩⟩
        rw [he] at hok
        obtain ⟨rfl, -⟩ := Prod.mk.inj (Except.ok.inj hok)
        rw [host_running, Dict.get?_set, Dict.get?_set]
        split
        · rw [Option.map_some, entry_eq (getElem?_join.mpr (.inr ⟨rfl, rfl⟩))]
          rfl
        · rw [host_running]
          cases hk : w.running.get? id with
          | none => rfl
          | some k =>
              obtain ⟨r, hr, -⟩ := (h.registered.running id k).mp hk
              rw [Option.map_some, Option.map_some, entry_eq hr,
                entry_eq (getElem?_join.mpr (.inl hr))]

/-- Marking a script changes the entry of its reservation. -/
theorem Inv.host_set (h : Inv w) (w' : World) {id : Int} (hid : w.running.get? id = some k)
    (hk : w.runs[k]? = some r) (id' : Int) (hw : w'.running = w.running)
    (hruns : w'.runs = w.runs.set k r') :
    w'.host.running.get? id' = (w.host.running.set id r'.entry).get? id' := by
  rw [host_running, Dict.get?_set, hw]
  split
  · next hsame =>
      rw [hsame, hid, Option.map_some, entry_eq (hruns ▸ (getElem?_change hk).mpr (.inl ⟨rfl, rfl⟩))]
  · next hother =>
      rw [host_running]
      cases hk' : w.running.get? id' with
      | none => rfl
      | some k' =>
          obtain ⟨q, hq, hqid, -⟩ := (h.registered.running id' k').mp hk'
          obtain ⟨r₀, hr₀, hrid, -⟩ := (h.registered.running id k).mp hid
          have hne : k' ≠ k := by
            rintro rfl
            obtain rfl : q = r₀ := Option.some.inj (hq.symm.trans hr₀)
            exact hother (hqid.symm.trans hrid)
          rw [Option.map_some, Option.map_some, entry_eq hq,
            entry_eq (hruns ▸ (getElem?_change hk).mpr (.inr ⟨hne, hq⟩))]

/-- What `AgentHost.cancel` comes to where there is an entry with a process. -/
theorem cancel_cases {a a' : Agent} {h : Host} {id : Int} {reason : String} {entry : RunningEntry}
    {response : AgentHost.CancelScriptResponse} (hentry : a.running.get? id = some entry)
    (hprocess : entry.hasProcess = true)
    (hc : AgentHost.cancel a h id reason = .ok (a', response)) :
    a'.running = a.running.set id { entry with killedReason := some reason } ∧
      (response.cancelled = true → h.terminate = .ok ()) := by
  rw [AgentHost.cancel, hentry] at hc
  dsimp only at hc
  rw [if_neg (by simp [hprocess])] at hc
  split at hc
  · next hok =>
      obtain ⟨rfl, rfl⟩ := Prod.mk.inj (Except.ok.inj hc)
      exact ⟨rfl, fun _ => hok⟩
  · obtain ⟨rfl, rfl⟩ := Prod.mk.inj (Except.ok.inj hc)
    refine ⟨rfl, fun hfalse => ?_⟩
    cases hfalse
  · cases hc

/-- A cancel that has reached the process, or found it over. -/
theorem Inv.terminated (h : Inv w) {id : Int} (hid : w.running.get? id = some k)
    (hk : w.runs[k]? = some r) (reason : String) :
    Inv { w.setRun k ((r.mark reason).signalled .term w.clock) with
      timers := w.timers ++ [(id, w.clock + graceSeconds)]
      cancels := w.cancels ++ [⟨id, k, w.clock⟩] } := by
  obtain ⟨r₀, hr₀, hrid, hlive⟩ := (h.registered.running id k).mp hid
  obtain rfl : r₀ = r := Option.some.inj (hr₀.symm.trans hk)
  have hs := h.sound k r₀ hk
  have hf := (follows_mark r₀ reason).trans (follows_signalled (r₀.mark reason) .term w.clock)
  have hnew : (⟨id, k, w.clock⟩ : Cancelled) ∈ w.cancels ++ [⟨id, k, w.clock⟩] := by simp
  refine ⟨h.mode, ?_, ?_, ?_, fun t ht => ?_, fun c hc => ?_⟩
  · exact h.sound.change hk ((hs.mark reason).signalled .term w.clock) fun _ _ _ hq => hq
  · exact h.registered.set hk hf fun hl => by rwa [stage_signalled] at hl
  · have hsub : ∀ c ∈ w.cancels, c ∈ w.cancels ++ [⟨id, k, w.clock⟩] :=
      fun c hc => List.mem_append_left _ hc
    have hc := (h.caused k r₀ hk).quiet (follows_mark r₀ reason) rfl rfl rfl
    refine h.caused.change hk ?_ fun _ _ _ hq => hq.mono (continues_set hk hf) hsub
    exact (hc.mono (continues_set hk hf) hsub).signalled .term w.clock hs.undecided_of_alive
      (fun _ => ⟨_, hnew, rfl, rfl⟩) (fun hx => by cases hx) (.inl rfl)
  · rcases List.mem_append.mp ht with ht | ht
    · exact (h.timers t ht).imp fun c hc => ⟨List.mem_append_left _ hc.1, hc.2⟩
    · obtain rfl := List.mem_singleton.mp ht
      exact ⟨_, hnew, rfl, rfl⟩
  · rcases List.mem_append.mp hc with hc | hc
    · exact (h.escalates c hc).mono (continues_set hk hf) fun t ht => List.mem_append_left _ ht
    · obtain rfl := List.mem_singleton.mp hc
      refine ⟨_, (getElem?_change hk).mpr (.inl ⟨rfl, rfl⟩), hf.reservationId.trans hrid, ?_,
        .inl (by simp)⟩
      rw [entry_signalled]
      rfl

theorem Inv.cancel (h : Inv w) {host : Host} {id : Int} {reason : String}
    (hstep : w.cancel host id reason = some w') :
    Inv w' ∧ Handles w (.cancel host id reason) w' := by
  unfold World.cancel at hstep
  split at hstep
  · next hnone =>
      obtain rfl := Option.some.inj hstep
      refine ⟨h, fun a response hok => ?_⟩
      rw [AgentHost.cancel, host_running, hnone, Option.map_none] at hok
      obtain ⟨rfl, rfl⟩ := Prod.mk.inj (Except.ok.inj hok)
      refine ⟨fun _ => rfl, fun hfalse => ?_⟩
      cases hfalse
  · next k hid =>
      simp only [Option.bind_eq_bind, Option.bind_eq_some_iff] at hstep
      obtain ⟨r, hk, hstep⟩ := hstep
      have hs := h.sound k r hk
      have hentry : w.host.running.get? id = some r.entry := by
        rw [host_running, hid, Option.map_some, entry_eq hk]
      split at hstep
      · cases hstep
      · split at hstep
        · next hok =>
            obtain rfl := Option.some.inj hstep
            refine ⟨h.terminated hid hk reason, fun a response hc => ⟨fun id' => ?_, fun _ => ?_⟩⟩
            · rw [(cancel_cases hentry hs.entry.1 hc).1]
              have hset := h.host_set { w.setRun k ((r.mark reason).signalled .term w.clock) with
                timers := w.timers ++ [(id, w.clock + graceSeconds)]
                cancels := w.cancels ++ [⟨id, k, w.clock⟩] } hid hk id' rfl rfl
              rw [entry_signalled] at hset
              exact hset
            · exact ⟨_, List.mem_append_right _ (List.mem_singleton.mpr rfl), rfl, rfl⟩
        · next hfault =>
            obtain rfl := Option.some.inj hstep
            refine ⟨h.quiet hk (follows_mark r reason) (hs.mark reason) (fun hl => hl) rfl rfl rfl,
              fun a response hc => ⟨fun id' => ?_, fun hcancelled => ?_⟩⟩
            · rw [(cancel_cases hentry hs.entry.1 hc).1]
              exact h.host_set (w.setRun k (r.mark reason)) hid hk id' rfl rfl
            · rw [(cancel_cases hentry hs.entry.1 hc).2 hcancelled] at hfault
              cases hfault

/-! ## every run -/

/-- Two scripts of one reservation run at once only where the host has refused to kill the first. -/
theorem Inv.supervises (h : Inv w) : Supervises w where
  told k r hr := (h.sound k r hr).told
  caused := h.caused
  escalates := h.escalates
  exclusive j k q r hjk hq hr hid halive := by
    have hleft := h.registered.earlier j k q r hjk hq hr hid
    exact ⟨((h.sound j q hq).left hleft).resolve_left fun hdead => hdead halive, hleft⟩

theorem inv_step {a : Action} (h : Inv w) (hs : step w a = some w') : Inv w' ∧ Handles w a w' := by
  cases a with
  | setEnabled key enabled =>
      obtain rfl := Option.some.inj hs
      exact ⟨⟨h.mode, h.sound, h.registered, h.caused, h.timers, h.escalates⟩, rfl⟩
  | execute host request => exact Option.some.inj hs ▸ h.execute host request
  | cancel host id reason => exact h.cancel hs
  | writes k chunk =>
      simp only [step, Option.bind_eq_bind, Option.bind_eq_some_iff] at hs
      obtain ⟨r, hk, hs⟩ := hs
      split at hs
      · cases hs
      · next hclosed =>
          obtain rfl := Option.some.inj hs
          have hsound := (h.sound k r hk).writes (Bool.eq_false_iff.mpr hclosed) chunk
          exact ⟨h.quiet hk ⟨rfl, id, id, id, fun _ hx => hx, id⟩ hsound id rfl rfl rfl,
            List.length_set⟩
  | exits k code =>
      simp only [step, Option.bind_eq_bind, Option.bind_eq_some_iff] at hs
      obtain ⟨r, hk, hs⟩ := hs
      split at hs
      · next halive =>
          obtain rfl := Option.some.inj hs
          have hsound := (h.sound k r hk).ends (.exited code) (by simp)
            fun hdead => absurd halive hdead
          exact ⟨h.quiet hk ⟨rfl, id, id, fun _ => by simp, fun _ hx => hx, id⟩ hsound id rfl rfl rfl,
            List.length_set⟩
      · cases hs
  | closes k =>
      simp only [step, Option.bind_eq_bind, Option.bind_eq_some_iff] at hs
      obtain ⟨r, hk, hs⟩ := hs
      obtain rfl := Option.some.inj hs
      exact ⟨h.quiet hk ⟨rfl, id, id, id, fun _ hx => hx, id⟩ (h.sound k r hk).closes id rfl rfl rfl,
        List.length_set⟩
  | transportCloses k =>
      simp only [step, Option.bind_eq_bind, Option.bind_eq_some_iff] at hs
      obtain ⟨r, hk, hs⟩ := hs
      split at hs
      · next code hprocess _ =>
          obtain rfl := Option.some.inj hs
          have hsound := (h.sound k r hk).ends (.gone code) (by simp)
            fun _ => by rw [hprocess]; rfl
          exact ⟨h.quiet hk ⟨rfl, id, id, fun _ => by simp, fun _ hx => hx, id⟩ hsound id rfl rfl rfl,
            List.length_set⟩
      · cases hs
  | pumps k size logged =>
      simp only [step, Option.bind_eq_bind, Option.bind_eq_some_iff] at hs
      obtain ⟨r, hk, hs⟩ := hs
      split at hs
      · next hpump =>
          obtain rfl := Option.some.inj hs
          have hsound := (h.sound k r hk).pumpChunk hpump.1 size logged
          exact ⟨h.quiet hk ⟨rfl, id, id, id, fun _ hx => hx, id⟩ hsound id rfl rfl rfl,
            List.length_set⟩
      · cases hs
  | pumpEnds k =>
      simp only [step, Option.bind_eq_bind, Option.bind_eq_some_iff] at hs
      obtain ⟨r, hk, hs⟩ := hs
      split at hs
      · next hpump =>
          obtain rfl := Option.some.inj hs
          have hsound := (h.sound k r hk).pumpStops hpump.1 .ended fun _ => hpump.2
          exact ⟨h.quiet hk ⟨rfl, id, id, id, fun _ hx => hx, id⟩ hsound id rfl rfl rfl,
            List.length_set⟩
      · cases hs
  | pumpFails k =>
      simp only [step, Option.bind_eq_bind, Option.bind_eq_some_iff] at hs
      obtain ⟨r, hk, hs⟩ := hs
      split at hs
      · next hpump =>
          obtain rfl := Option.some.inj hs
          have hsound := (h.sound k r hk).pumpStops hpump .failed fun hx => by cases hx
          exact ⟨h.quiet hk ⟨rfl, id, id, id, fun _ hx => hx, id⟩ hsound id rfl rfl rfl,
            List.length_set⟩
      · cases hs
  | waitReturns k =>
      simp only [step, Option.bind_eq_bind, Option.bind_eq_some_iff] at hs
      obtain ⟨r, hk, hs⟩ := hs
      split at hs
      · cases hs
      · next hstage hdead =>
          obtain rfl := Option.some.inj hs
          exact ⟨h.waitReturns hk hdead (.inl ⟨hstage, rfl⟩), List.length_set⟩
      · next hstage hdead =>
          obtain rfl := Option.some.inj hs
          exact ⟨h.waitReturns hk hdead (.inr ⟨hstage, rfl⟩), List.length_set⟩
      · cases hs
  | overtime k permitted =>
      simp only [step, Option.bind_eq_bind, Option.bind_eq_some_iff] at hs
      obtain ⟨r, hk, seconds, hmax, hs⟩ := hs
      split at hs
      · next hover =>
          obtain rfl := Option.some.inj hs
          refine ⟨h.overtime hk hover.1 hmax hover.2 permitted, ?_⟩
          unfold World.overtime
          dsimp only [Handles]
          split <;> exact List.length_set
      · cases hs
  | finishes k outputSizeBytes =>
      simp only [step, Option.bind_eq_bind, Option.bind_eq_some_iff] at hs
      obtain ⟨r, hk, killed, hkilled, hs⟩ := hs
      split at hs
      · next hend =>
          obtain rfl := Option.some.inj hs
          have hsound := (h.sound k r hk).finishes hend.1 hend.2 hkilled w.clock outputSizeBytes
          have hf : Follows r { r with
              stage := .pushed
              frames := r.frames ++ [.finished (r.finishedEvent killed w.clock outputSizeBytes)] } :=
            ⟨rfl, id, fun hl => absurd hl (by simp [hend.1]), id, fun _ hx => hx, id⟩
          exact ⟨h.quiet hk hf hsound (fun hl => by cases hl) rfl rfl rfl, List.length_set⟩
      · cases hs
  | cleansUp k =>
      simp only [step, Option.bind_eq_bind, Option.bind_eq_some_iff] at hs
      obtain ⟨r, hk, hs⟩ := hs
      split at hs
      · next hpushed =>
          obtain rfl := Option.some.inj hs
          have hf : Follows r { r with stage := .left } :=
            ⟨rfl, id, fun _ => rfl, id, fun _ hx => hx, id⟩
          exact ⟨h.leaves hk (by simp [hpushed]) hf ((h.sound k r hk).cleansUp hpushed) rfl rfl rfl rfl,
            List.length_set⟩
      · cases hs
  | wakes i permitted =>
      simp only [step, Option.bind_eq_bind, Option.bind_eq_some_iff] at hs
      obtain ⟨timer, htimer, hs⟩ := hs
      split at hs
      · next hdue =>
          obtain rfl := Option.some.inj hs
          refine ⟨h.wakes htimer hdue permitted, ?_⟩
          unfold World.wake
          dsimp only [Handles]
          split
          · rfl
          · split
            · rfl
            · split
              · rfl
              · split <;> exact List.length_set
      · cases hs
  | passes time =>
      simp only [step] at hs
      split at hs
      · obtain rfl := Option.some.inj hs
        exact ⟨⟨h.mode, h.sound, h.registered, h.caused, h.timers, h.escalates⟩, rfl⟩
      · cases hs

theorem inv_start (agent : Agent) : Inv (start agent) where
  mode := rfl
  sound := .nil
  registered := ⟨fun id k => by simp [start], fun j k q r _ hq => by simp [start] at hq⟩
  caused := .nil
  timers t ht := by cases ht
  escalates c hc := by cases hc

end Runner

end ScriptRunner

end CoreLab
