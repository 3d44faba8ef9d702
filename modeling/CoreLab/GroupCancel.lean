import CoreLab.Modify

/-!
# CoreLab.GroupCancel

`DELETE /reservation-groups/{group_id}`: the handler looks at one row of the
group to decide whether the caller administers it, then the service cancels
every row of the group that still occupies its window.  A batch booking puts
all rows of a group under one owner, but on any servers.

* `groupsOwned_book` — every group has one owner;
* `deleteReservationGroup_jurisdiction_iff` — whoever cancels a group has power
  over all its cancelled rows, unless the admission by the sampled row reaches
  beyond its server.
-/

namespace CoreLab

open Relational Loops

/-! ## who asks -/

/-- `ck_user_role`. -/
inductive UserRole where
  | user | labAdmin
deriving DecidableEq, Repr

/-- `AuthenticatedUser`. -/
structure AuthenticatedUser where
  id : Nat
  role : UserRole
deriving DecidableEq, Repr

/-- One delegation of a server's administration. -/
structure ServerAdminGrant where
  id : Nat
  userId : Nat
  serverId : Nat
  isActive : Bool
deriving DecidableEq, Repr

instance : Keyed ServerAdminGrant := ⟨ServerAdminGrant.id⟩

/-- The user holds an active grant for the server. -/
def holdsGrant (grants : Table ServerAdminGrant) (userId serverId : Nat) : Bool :=
  grants.rows.any fun g => g.userId = userId && g.serverId = serverId && g.isActive

/-- `_user_can_admin_server`; the store keeps active grants unique, so the query
finds at most one. -/
def userCanAdminServer (grants : Table ServerAdminGrant) (user : AuthenticatedUser)
    (serverId : Nat) : Bool :=
  decide (user.role = .labAdmin) || holdsGrant grants user.id serverId

/-! ## the handler -/

/-- What `SELECT … WHERE group_id = … LIMIT 1` may return: any row of the group,
of any status, and none only where there is none. -/
def SampleOf (db : Db) (groupId : String) : Option Reservation → Prop
  | none => ∀ r ∈ db.reservations, r.groupId ≠ some groupId
  | some r => r ∈ db.reservations ∧ r.groupId = some groupId

/-- `cancel_group` of the API, inside its request's session. -/
def deleteReservationGroup (db : Db) (grants : Table ServerAdminGrant) (groupId : String)
    (current : AuthenticatedUser) (sample : Option Reservation) (reason : Option String)
    (now : Time) : Db × Response :=
  let actorCanAdmin := sample.any fun r => userCanAdminServer grants current r.serverId
  getSession db ⟨none, cancelGroup db groupId current.id actorCanAdmin reason now⟩

/-! ## groups -/

/-- Every group has one owner. -/
def GroupsOwned (rows : List Reservation) : Prop :=
  ∀ r ∈ rows, ∀ s ∈ rows, r.groupId.isSome = true → r.groupId = s.groupId → r.userId = s.userId

/-- **A booking keeps every group under one owner**: all its rows are the
caller's, and its group id is new. -/
theorem groupsOwned_book {db db' : Db} {req : BatchRequest} {groupId : String} {now : Time}
    {created : List Reservation} (hgroups : GroupsOwned db.reservations.rows)
    (hnew : ∀ r ∈ db.reservations, r.groupId ≠ some groupId)
    (h : createReservationBatch db req groupId now = .ok (db', created)) :
    GroupsOwned db'.reservations.rows := by
  obtain ⟨hbooked, -⟩ := createReservationBatch_ok h
  have hcreated : ∀ r ∈ createdRows db req groupId, r.userId = req.userId ∧
      r.groupId = some groupId := by
    intro r hr
    obtain ⟨item, idx, id, -, rfl⟩ := mem_createdRows hr
    exact ⟨rfl, rfl⟩
  rw [hbooked.reservations]
  intro r hr s hs hsome heq
  rcases List.mem_append.mp hr with hr | hr
  · rcases List.mem_append.mp hs with hs | hs
    · exact hgroups r hr s hs hsome heq
    · exact absurd (heq.trans (hcreated s hs).2) (hnew r hr)
  · rcases List.mem_append.mp hs with hs | hs
    · exact absurd (heq.symm.trans (hcreated r hr).2) (hnew s hs)
    · rw [(hcreated r hr).1, (hcreated s hs).1]

/-! ## jurisdiction -/

/-- The caller has power over every row that the cancel takes. -/
def Jurisdiction (db : Db) (grants : Table ServerAdminGrant) (groupId : String)
    (current : AuthenticatedUser) : Prop :=
  (∀ r ∈ db.reservations, inGroup groupId r = true → r.userId = current.id) ∨
    current.role = .labAdmin ∨
      ∀ r ∈ db.reservations, inGroup groupId r = true → holdsGrant grants current.id r.serverId = true

/-- The caller is neither the owner of the group nor a lab admin, and a row that
the cancel takes is on another server than the sampled one, not granted to the caller. -/
def BeyondSample (db : Db) (grants : Table ServerAdminGrant) (groupId : String)
    (current : AuthenticatedUser) (sample : Option Reservation) : Prop :=
  ∃ s, sample = some s ∧ s.userId ≠ current.id ∧ current.role ≠ .labAdmin ∧
    ∃ r ∈ db.reservations, inGroup groupId r = true ∧ r.serverId ≠ s.serverId ∧
      holdsGrant grants current.id r.serverId = false

theorem groupId_of_inGroup {groupId : String} {r : Reservation} (h : inGroup groupId r = true) :
    r.groupId = some groupId := by
  simp only [inGroup, Bool.and_eq_true, decide_eq_true_eq] at h
  exact h.1

section Handler

variable {db db' : Db} {grants : Table ServerAdminGrant} {groupId : String}
  {current : AuthenticatedUser} {sample : Option Reservation} {reason : Option String} {now : Time}

/-- A group cancel that succeeds was admitted by the sampled row, or came from
the owner of a row it takes. -/
theorem deleteReservationGroup_done
    (h : deleteReservationGroup db grants groupId current sample reason now = (db', .done)) :
    ∃ first ∈ db.reservations, inGroup groupId first = true ∧
      ((∃ s, sample = some s ∧ userCanAdminServer grants current s.serverId = true) ∨
        first.userId = current.id) := by
  unfold deleteReservationGroup getSession at h
  dsimp only at h
  split at h
  · next db'' hok =>
      obtain ⟨first, hfirst, hin, hactor, -⟩ := cancelGroup_eq hok
      refine ⟨first, hfirst, hin, hactor.imp (fun hadmin => ?_) id⟩
      obtain ⟨s, hs, hcan⟩ := (Option.any_eq_true _ _).mp hadmin
      exact ⟨s, hs, hcan⟩
  · cases h
  · cases h

/-- **Jurisdiction of a group cancel**: a caller whose cancel succeeds has power
over every row it takes, exactly where the admission by the sampled row does
not reach beyond its server. -/
theorem deleteReservationGroup_jurisdiction_iff (hgroups : GroupsOwned db.reservations.rows)
    (hsample : SampleOf db groupId sample)
    (h : deleteReservationGroup db grants groupId current sample reason now = (db', .done)) :
    Jurisdiction db grants groupId current ↔
      ¬ BeyondSample db grants groupId current sample := by
  obtain ⟨first, hfirst, hin, hadmit⟩ := deleteReservationGroup_done h
  have hgroup := groupId_of_inGroup hin
  -- there is a sample, and its owner is the owner of every row taken
  obtain ⟨s, hs⟩ : ∃ s, sample = some s := by
    cases hs : sample with
    | some s => exact ⟨s, rfl⟩
    | none =>
        rw [hs] at hsample
        exact absurd hgroup (hsample first hfirst)
  rw [hs] at hsample
  have howner : ∀ r ∈ db.reservations, inGroup groupId r = true → r.userId = s.userId := by
    intro r hr hr'
    have hrg := groupId_of_inGroup hr'
    exact hgroups r hr s hsample.1 (by rw [hrg]; rfl) (hrg.trans hsample.2.symm)
  constructor
  · rintro hjur ⟨s', hs', hother, hrole, r, hr, hrin, -, hgrant⟩
    obtain rfl : s = s' := Option.some.inj (hs.symm.trans hs')
    rcases hjur with hown | hadmin | hgranted
    · exact hother ((howner r hr hrin).symm.trans (hown r hr hrin))
    · exact hrole hadmin
    · rw [hgranted r hr hrin] at hgrant
      cases hgrant
  · intro hwithin
    by_cases hown : s.userId = current.id
    · exact Or.inl fun r hr hrin => (howner r hr hrin).trans hown
    by_cases hrole : current.role = .labAdmin
    · exact Or.inr (Or.inl hrole)
    refine Or.inr (Or.inr fun r hr hrin => ?_)
    -- the caller was admitted by the grant on the sampled row's server
    have hsampled : holdsGrant grants current.id s.serverId = true := by
      rcases hadmit with ⟨s', hs', hcan⟩ | hfirstOwner
      · obtain rfl : s = s' := Option.some.inj (hs.symm.trans hs')
        simpa [userCanAdminServer, hrole] using hcan
      · exact absurd ((howner first hfirst hin).symm.trans hfirstOwner) hown
    by_cases hserver : r.serverId = s.serverId
    · rw [hserver]
      exact hsampled
    · by_contra hgrant
      exact hwithin ⟨s, hs, hown, hrole, r, hr, hrin, hserver, Bool.eq_false_iff.mpr hgrant⟩

end Handler

/-! ## a group on two servers -/

/-- An hour on the card, booked on the given server. -/
def cardHourOn (serverId : Nat) (startHour : Int) : ItemDraft :=
  { serverId := serverId, gpuId := some 11, startAt := .ofStored (startHour * hourMicros)
    endAt := .ofStored ((startHour + 1) * hourMicros), accountLinkId := 31 }

/-- One batch with an hour on each of two servers. -/
def twoServers : BatchRequest := { items := [cardHourOn 1 0, cardHourOn 2 2], userId := 41 }

/-- The rows of that batch. -/
def bookedHour (id serverId : Nat) (startHour : Int) : Reservation :=
  { ownedHour id startHour (startHour + 1) with serverId := serverId }

/-- A grant for the first server only. -/
def firstServerGrant : Table ServerAdminGrant :=
  .single { id := 1, userId := 50, serverId := 1, isActive := true }

/-- A group with three rows on two servers. -/
def threeHours : Db :=
  smallLab ⟨[bookedHour 1 1 0, bookedHour 2 1 1, bookedHour 3 2 2], by decide⟩

/-- The holder of a grant for the first server cancels all of them, by a sample of that server. -/
theorem deleteReservationGroup_jurisdiction_iff_threeHours :
    ∃ db', deleteReservationGroup threeHours firstServerGrant "g" ⟨50, .user⟩
        (some (bookedHour 2 1 1)) none 0 = (db', .done) ∧
      (Jurisdiction threeHours firstServerGrant "g" ⟨50, .user⟩ ↔
        ¬ BeyondSample threeHours firstServerGrant "g" ⟨50, .user⟩ (some (bookedHour 2 1 1))) := by
  have hdone : deleteReservationGroup threeHours firstServerGrant "g" ⟨50, .user⟩
      (some (bookedHour 2 1 1)) none 0 = (_, .done) := rfl
  refine ⟨_, hdone, deleteReservationGroup_jurisdiction_iff ?_ ?_ hdone⟩
  · have howner : ∀ r ∈ threeHours.reservations.rows, r.userId = 41 := by decide
    intro r hr s hs _ _
    rw [howner r hr, howner s hs]
  · exact ⟨List.mem_cons_of_mem _ List.mem_cons_self, rfl⟩

/-- The holder of a grant for the first server cancels the hour on the second
one as well. -/
theorem deleteReservationGroup_not_jurisdiction :
    ¬ ∀ (before db db' : Db) (req : BatchRequest) (created : List Reservation) (groupId : String)
        (booked now : Time) (grants : Table ServerAdminGrant) (current : AuthenticatedUser)
        (sample : Option Reservation) (reason : Option String),
        (∀ r ∈ before.reservations, r.groupId ≠ some groupId) →
        createReservationBatch before req groupId booked = .ok (db, created) →
        SampleOf db groupId sample →
        deleteReservationGroup db grants groupId current sample reason now = (db', .done) →
        Jurisdiction db grants groupId current := by
  intro h
  have hjur := h (smallLab .empty).addServer _ _ twoServers _ "g" 0 0 firstServerGrant ⟨50, .user⟩
    (some (bookedHour 1 1 0)) none (fun r hr => nomatch hr) rfl ⟨List.mem_cons_self, rfl⟩ rfl
  have hfirst : bookedHour 1 1 0 ∈ [bookedHour 1 1 0, bookedHour 2 2 2] := List.mem_cons_self
  have hsecond : bookedHour 2 2 2 ∈ [bookedHour 1 1 0, bookedHour 2 2 2] :=
    List.mem_cons_of_mem _ (List.mem_singleton_self _)
  rcases hjur with hown | hadmin | hgranted
  · exact absurd (hown _ hfirst rfl) (by decide)
  · cases hadmin
  · exact absurd (hgranted _ hsecond rfl) (by decide)

end CoreLab
