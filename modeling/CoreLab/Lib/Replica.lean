import Mathlib.Data.List.Basic

/-!
# Lib.Replica

A copy of a source that is kept up by whole snapshots.  A snapshot is asked for,
taken from the source, and sent over a connection that delivers in order; each of
these steps is one of its own, so the source may move on between any two of them,
snapshots may be sent in another order than they were taken in, and a snapshot
may be sent over a later connection than the one it was taken for.

* `InStep` — what is on its way to the copy, or the copy itself, still shows the
  source as far as `good` and `current` can tell;
* `inStep_…` — every step of the connection keeps it;
* `InStep.mono` — so does a move of the source that the snapshots do not show;
* `latest_concat`, `Latest.tail`, `Latest.mono` — what is last in flight, where several
  sources share one connection;
* `inStep_of_unsettled` — any move does, while a snapshot is still to be taken.
-/

namespace Replication

variable {π κ : Type}

/-- The copy at the far end, and what is on its way to it. -/
structure Replica (π κ : Type) where
  /-- The snapshots in flight, oldest first; `none` without a connection. -/
  conn : Option (List π) := none
  /-- Connections that were registered and whose handler has not run yet. -/
  opening : Nat := 0
  /-- Snapshots that were asked for and not taken yet. -/
  pending : Nat := 0
  /-- Snapshots that were taken and not sent yet. -/
  composed : List π := []
  held : κ

namespace Replica

/-! ## steps -/

/-- A connection is registered, in the place of an earlier one. -/
def connect (r : Replica π κ) : Replica π κ := { r with conn := some [], opening := r.opening + 1 }

def disconnect (r : Replica π κ) : Replica π κ := { r with conn := none }

/-- The far end starts anew, with a blank copy. -/
def restart (blank : κ) (r : Replica π κ) : Replica π κ := { r with conn := none, held := blank }

/-- The handler of a connection runs, and asks for a snapshot if one is wanted. -/
def handshake (wanted : Bool) (r : Replica π κ) : Option (Replica π κ) :=
  if r.opening = 0 then none
  else some { r with opening := r.opening - 1, pending := r.pending + wanted.toNat }

/-- A snapshot is asked for if there is a connection. -/
def ask (r : Replica π κ) : Replica π κ :=
  if r.conn.isSome then { r with pending := r.pending + 1 } else r

/-- A snapshot that was asked for is taken. -/
def compose (snapshot : π) (r : Replica π κ) : Option (Replica π κ) :=
  if r.pending = 0 then none
  else some { r with pending := r.pending - 1, composed := r.composed ++ [snapshot] }

/-- A snapshot that was asked for is given up. -/
def giveUp (r : Replica π κ) : Option (Replica π κ) :=
  if r.pending = 0 then none else some { r with pending := r.pending - 1 }

/-- The `i`-th of the taken snapshots is sent; without a connection it is dropped. -/
def send (i : Nat) (r : Replica π κ) : Option (Replica π κ) :=
  r.composed[i]?.map fun p =>
    { r with composed := r.composed.eraseIdx i, conn := r.conn.map (· ++ [p]) }

/-- The oldest snapshot in flight arrives; one that the far end refuses ends the
connection. -/
def deliver (apply : κ → π → Option κ) (r : Replica π κ) : Option (Replica π κ) :=
  match r.conn with
  | some (p :: frames) => match apply r.held p with
    | some k => some { r with conn := some frames, held := k }
    | none => some { r with conn := none }
  | _ => none

/-- There is a connection that should have its snapshot, and none is still to be
taken for it. -/
def Settled (wanted : Bool) (r : Replica π κ) : Prop :=
  wanted = true ∧ r.conn.isSome ∧ r.opening = 0 ∧ r.pending = 0

/-- A connection that should have its snapshot, with nothing under way. -/
def Quiet (wanted : Bool) (r : Replica π κ) : Prop :=
  r.Settled wanted ∧ r.composed = [] ∧ r.conn.all List.isEmpty

instance (wanted : Bool) (r : Replica π κ) : Decidable (r.Settled wanted) :=
  inferInstanceAs (Decidable (_ ∧ _))

instance (wanted : Bool) (r : Replica π κ) : Decidable (r.Quiet wanted) :=
  have : Decidable (r.composed = []) := decidable_of_iff _ List.isEmpty_iff
  inferInstanceAs (Decidable (_ ∧ _))

/-! ## the invariant -/

/-- The last snapshot in flight is good; with none in flight the copy is current. -/
def Latest (good : π → Prop) (current : κ → Prop) (frames : List π) (held : κ) : Prop :=
  frames.getLast?.elim (current held) good

section Latest

variable {good good' : π → Prop} {current current' : κ → Prop} {frames : List π} {held held' : κ}
  {p : π}

@[simp] theorem latest_nil : Latest good current [] held ↔ current held := Iff.rfl

theorem latest_of_forall (hgood : ∀ p ∈ frames, good p) (hcurrent : current held) :
    Latest good current frames held := by
  unfold Latest
  cases hlast : frames.getLast? with
  | none => exact hcurrent
  | some p => exact hgood p (List.mem_of_getLast? hlast)

/-- A snapshot that is sent becomes the last one in flight. -/
theorem latest_concat (h : good p) : Latest good current (frames ++ [p]) held := by
  rw [Latest, List.getLast?_append]
  exact h

/-- The oldest snapshot in flight arrives. -/
theorem Latest.tail (h : Latest good current (p :: frames) held) (harrives : good p → current held') :
    Latest good current frames held' := by
  cases frames with
  | nil => exact harrives h
  | cons q frames => exact h

/-- What a move of the source or of the copy does not take from good snapshots and from a
current copy. -/
theorem Latest.mono (h : Latest good current frames held) (hgood : ∀ p ∈ frames, good p → good' p)
    (hcurrent : current held → current' held') : Latest good' current' frames held' := by
  unfold Latest at h ⊢
  cases hlast : frames.getLast? with
  | none =>
      rw [hlast] at h
      exact hcurrent h
  | some p =>
      rw [hlast] at h
      exact hgood p (List.mem_of_getLast? hlast) h

end Latest

/-- The snapshots that were taken are good, and once none is still to come, the
last one sent is. -/
structure InStep (good : π → Prop) (current : κ → Prop) (wanted : Bool) (r : Replica π κ) : Prop where
  composed : ∀ p ∈ r.composed, good p
  latest : r.Settled wanted → r.composed = [] → ∀ frames, r.conn = some frames →
    Latest good current frames r.held

section Steps

variable {good : π → Prop} {current : κ → Prop} {wanted wanted' : Bool} {r r' : Replica π κ}

theorem inStep_of_not_settled (hcomposed : ∀ p ∈ r.composed, good p) (h : ¬ r.Settled wanted) :
    r.InStep good current wanted := ⟨hcomposed, fun hsettled => absurd hsettled h⟩

/-- Without a snapshot under way, and with one still to be taken, the source may
move as it likes. -/
theorem inStep_of_unsettled (hcomposed : r.composed = []) (h : ¬ r.Settled wanted) :
    r.InStep good current wanted :=
  inStep_of_not_settled (fun p hp => absurd (hcomposed ▸ hp) (List.not_mem_nil (a := p))) h

theorem inStep_connect (h : r.InStep good current wanted) : r.connect.InStep good current wanted :=
  inStep_of_not_settled h.composed fun hs => Nat.succ_ne_zero _ hs.2.2.1

theorem inStep_disconnect (h : r.InStep good current wanted) :
    r.disconnect.InStep good current wanted :=
  inStep_of_not_settled h.composed fun hs => nomatch hs.2.1

theorem inStep_restart (blank : κ) (h : r.InStep good current wanted) :
    (r.restart blank).InStep good current wanted :=
  inStep_of_not_settled h.composed fun hs => nomatch hs.2.1

theorem inStep_handshake (hr : r.handshake wanted = some r') (h : r.InStep good current wanted) :
    r'.InStep good current wanted := by
  unfold handshake at hr
  split at hr
  · cases hr
  · obtain rfl := Option.some.inj hr
    refine inStep_of_not_settled h.composed ?_
    rintro ⟨hwanted, -, -, hpending⟩
    rw [hwanted] at hpending
    exact Nat.succ_ne_zero _ hpending

/-- Asking is enough even where a snapshot was not wanted before. -/
theorem inStep_ask (h : r.InStep good current wanted) : r.ask.InStep good current wanted' := by
  unfold ask
  split
  · exact inStep_of_not_settled h.composed fun hs => Nat.succ_ne_zero _ hs.2.2.2
  · next hconn => exact inStep_of_not_settled h.composed fun hs => hconn hs.2.1

theorem inStep_compose {p : π} (hp : good p) (hr : r.compose p = some r')
    (h : r.InStep good current wanted) : r'.InStep good current wanted := by
  unfold compose at hr
  split at hr
  · cases hr
  · obtain rfl := Option.some.inj hr
    refine ⟨fun q hq => ?_, fun _ hnone => absurd hnone (List.append_ne_nil_of_right_ne_nil _ (by simp))⟩
    rcases List.mem_append.mp hq with hold | hnew
    · exact h.composed q hold
    · exact List.mem_singleton.mp hnew ▸ hp

/-- Giving up a snapshot does no harm while another one is on its way. -/
theorem inStep_giveUp (hr : r.giveUp = some r') (hother : r'.Settled wanted → r'.composed ≠ [])
    (h : r.InStep good current wanted) : r'.InStep good current wanted := by
  unfold giveUp at hr
  split at hr
  · cases hr
  · obtain rfl := Option.some.inj hr
    exact ⟨h.composed, fun hs hnone => absurd hnone (hother hs)⟩

theorem inStep_send {i : Nat} (hr : r.send i = some r') (h : r.InStep good current wanted) :
    r'.InStep good current wanted := by
  obtain ⟨p, hp, rfl⟩ := Option.map_eq_some_iff.mp hr
  refine ⟨fun q hq => h.composed q (List.mem_of_mem_eraseIdx hq), fun _ _ frames hframes => ?_⟩
  -- the snapshot that was sent is now the last one in flight
  obtain ⟨frames, -, rfl⟩ := Option.map_eq_some_iff.mp hframes
  exact latest_concat (h.composed p (List.mem_of_getElem? hp))

theorem inStep_deliver {apply : κ → π → Option κ}
    (happly : ∀ k p k', good p → apply k p = some k' → current k')
    (hr : r.deliver apply = some r') (h : r.InStep good current wanted) :
    r'.InStep good current wanted := by
  unfold deliver at hr
  split at hr
  · next p frames hconn =>
      split at hr
      · next k hk =>
          obtain rfl := Option.some.inj hr
          refine ⟨h.composed, fun hs hnone frames' hframes => ?_⟩
          obtain rfl := Option.some.inj hframes
          have hlatest := h.latest ⟨hs.1, by rw [hconn]; rfl, hs.2.2⟩ hnone _ hconn
          exact hlatest.tail fun hp => happly _ _ _ hp hk
      · obtain rfl := Option.some.inj hr
        exact inStep_disconnect h
  · cases hr

/-- A move of the source that good snapshots and a current copy do not show. -/
theorem InStep.mono {good' : π → Prop} {current' : κ → Prop} (h : r.InStep good current wanted)
    (hgood : ∀ p, good p → good' p) (hcurrent : ∀ k, current k → current' k) :
    r.InStep good' current' wanted := by
  refine ⟨fun p hp => hgood p (h.composed p hp), fun hs hnone frames hframes => ?_⟩
  exact (h.latest hs hnone frames hframes).mono (fun p _ => hgood p) (hcurrent _)

/-- **A quiet copy is current.** -/
theorem InStep.current_of_quiet (h : r.InStep good current wanted) (hquiet : r.Quiet wanted) :
    current r.held := by
  obtain ⟨hsettled, hnone, hempty⟩ := hquiet
  obtain ⟨frames, hframes⟩ := Option.isSome_iff_exists.mp hsettled.2.1
  rw [hframes, Option.all_some, List.isEmpty_iff] at hempty
  have hlatest := h.latest hsettled hnone frames hframes
  rwa [hempty] at hlatest

end Steps

end Replica

end Replication
