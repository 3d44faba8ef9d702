import CoreLab.CacheFrames
import CoreLab.SyncView
import Mathlib.Data.Fintype.EquivFin

/-!
# CoreLab.IncrementalSync

The second mode of the cache sync: the entries of some Linux users, and the
names to remove.  It is composed from a later database than the full sync that
the cache comes from, and has to make up for the difference.

* `get?_applied_full`, `get?_applied_incremental` — what a frame leaves under a
  name, whatever the order of its entries;
* `refines_iff` — a delta that covers every entry that changed leaves what a full
  sync leaves, exactly when both databases give frames that the agent accepts.
-/

namespace CoreLab

open Calendar Relational Loops

namespace IncrementalSync

open CacheFrames (TimesInRange GpuNamed parseSync_isSome_iff)

/-! ## the payloads -/

/-- `mode`. -/
inductive SyncMode where
  | full | incremental
deriving DecidableEq, Repr

/-- `AccountLinkCacheSyncRequest` with both modes. -/
structure LinkCacheSync (ρ : Type) extends AccountLinkCacheSync ρ where
  mode : SyncMode
  removedLinuxUsernames : List String

/-- `compose_full_payload`, with the fields of the other mode. -/
def fullPayload (db : Db) (serverId : Nat) (now : Time) : LinkCacheSync ReservationItem :=
  { composeFullPayload db serverId now with mode := .full, removedLinuxUsernames := [] }

/-- `compose_incremental_payload`. -/
def composeIncrementalPayload (db : Db) (serverId : Nat) (linuxUsernames : List String)
    (removedLinuxUsernames : Option (List String)) (now : Time) : LinkCacheSync ReservationItem :=
  { serverId := serverId, entries := entriesForLinuxUsers db serverId (some linuxUsernames) now
    mode := .incremental, removedLinuxUsernames := removedLinuxUsernames.getD [] }

/-! ## the agent -/

/-- `parse_envelope`. -/
def parsePayload (field : DatetimeField) (payload : LinkCacheSync ReservationItem) :
    Option (LinkCacheSync ActiveReservationSnapshot) :=
  (parseSync field payload.toAccountLinkCacheSync).map fun frame =>
    { frame with
      mode := payload.mode, removedLinuxUsernames := payload.removedLinuxUsernames }

/-- `apply_incremental`: upsert the entries, then remove the listed names. -/
def applyIncremental (field : DatetimeField) (cache : ReverseCache)
    (frame : LinkCacheSync ActiveReservationSnapshot) : ReverseCache :=
  let upserted := frame.entries.foldl
    (fun c e => c.set (frame.serverId, e.linuxUsername) (cacheEntry field e)) cache
  frame.removedLinuxUsernames.foldl (fun c removed => c.erase (frame.serverId, removed)) upserted

/-- The handler of `backend.account_link.cache.sync`. -/
def handleSync (field : DatetimeField) (cache : ReverseCache)
    (frame : LinkCacheSync ActiveReservationSnapshot) : ReverseCache :=
  match frame.mode with
  | .full => applyFullSnapshot field cache frame.toAccountLinkCacheSync
  | .incremental => applyIncremental field cache frame

/-- The agent receives a sync; a frame it cannot parse leaves the cache as it was. -/
def receiveSync (field : DatetimeField) (cache : ReverseCache)
    (payload : LinkCacheSync ReservationItem) : ReverseCache :=
  (parsePayload field payload).elim cache (handleSync field cache)

/-- A full sync is received as before. -/
theorem receiveSync_full (field : DatetimeField) (cache : ReverseCache) (db : Db) (serverId : Nat)
    (now : Time) : receiveSync field cache (fullPayload db serverId now) =
      receiveFullSync field cache (composeFullPayload db serverId now) := by
  unfold receiveSync parsePayload receiveFullSync
  show ((parseSync field (composeFullPayload db serverId now)).map _).elim _ _ = _
  cases parseSync field (composeFullPayload db serverId now) <;> rfl

/-! ## what is promised -/

/-- The entry that a sync has for a name. -/
def syncEntryOf (db : Db) (serverId : Nat) (now : Time) (linuxUsername : String) :
    Option (AccountLinkCacheEntry ReservationItem) :=
  (entriesForLinuxUsers db serverId none now).find? fun e => e.linuxUsername = linuxUsername

/-- The names of `linuxUsernames` that have no entry (any more). -/
def removedNames (db : Db) (serverId : Nat) (now : Time) (linuxUsernames : List String) :
    List String :=
  linuxUsernames.filter fun name => (syncEntryOf db serverId now name).isNone

/-- `p` with its entries and its removed names in another order. -/
structure Reordered {ρ : Type} (p q : LinkCacheSync ρ) : Prop where
  serverId : q.serverId = p.serverId
  mode : q.mode = p.mode
  entries : q.entries.Perm p.entries
  removed : q.removedLinuxUsernames.Perm p.removedLinuxUsernames

/-- Every lookup of the server has the same answer. -/
def SameLookups (serverId : Nat) (c c' : ReverseCache) : Prop :=
  ∀ name, lookupUserIds c serverId name = lookupUserIds c' serverId name ∧
    ∀ userId, lookupActiveReservations c serverId name userId =
      lookupActiveReservations c' serverId name userId

/-- The slices of other servers stay. -/
def OthersKept (serverId : Nat) (c c' : ReverseCache) : Prop :=
  ∀ other name, other ≠ serverId → c'.get? (other, name) = c.get? (other, name)

/-- A full sync of one database and a delta to another one have the effect of a full
sync of the latter on any cache. -/
def Refines (field : DatetimeField) (serverId : Nat) (db₁ : Db) (now₁ : Time) (db₂ : Db) (now₂ : Time)
    (linuxUsernames : List String) : Prop :=
  ∀ full₁ full₂ delta, Reordered (fullPayload db₁ serverId now₁) full₁ →
    Reordered (fullPayload db₂ serverId now₂) full₂ →
    Reordered (composeIncrementalPayload db₂ serverId linuxUsernames
      (some (removedNames db₂ serverId now₂ linuxUsernames)) now₂) delta →
    ∀ cache₁ cache₂ : ReverseCache,
      let synced := receiveSync field cache₁ full₁
      SameLookups serverId (receiveSync field synced delta) (receiveSync field cache₂ full₂) ∧
        OthersKept serverId synced (receiveSync field synced delta) ∧
        OthersKept serverId cache₂ (receiveSync field cache₂ full₂)

/-! ## what a frame leaves -/

section Frames

variable {field : DatetimeField} {serverId : Nat} {cache : ReverseCache} {name : String}
  {es : List (AccountLinkCacheEntry ReservationItem)}
  {frame : List (AccountLinkCacheEntry ActiveReservationSnapshot)}

/-- An entry as the agent caches it. -/
def cached? (field : DatetimeField) (e : AccountLinkCacheEntry ReservationItem) : Option CacheEntry :=
  (validateEntry field e).map (cacheEntry field)

/-- Validation keeps the name. -/
theorem linuxUsername_of_valid {e : AccountLinkCacheEntry ReservationItem}
    {e' : AccountLinkCacheEntry ActiveReservationSnapshot} (h : validateEntry field e = some e') :
    e'.linuxUsername = e.linuxUsername := by
  obtain ⟨m, -, rfl⟩ := Option.map_eq_some_iff.mp h
  rfl

/-- Write the entries of a frame. -/
def upsert (field : DatetimeField) (serverId : Nat) (cache : ReverseCache)
    (frame : List (AccountLinkCacheEntry ActiveReservationSnapshot)) : ReverseCache :=
  frame.foldl (fun c e => c.set (serverId, e.linuxUsername) (cacheEntry field e)) cache

theorem get?_upsert_other {other : Nat} (h : other ≠ serverId) :
    (upsert field serverId cache frame).get? (other, name) = cache.get? (other, name) :=
  Dict.get?_foldl_set_of_ne fun _ _ hkey => h (Prod.mk.inj hkey).1.symm

/-- A name that no entry has keeps what it had. -/
theorem get?_upsert_absent (hframe : es.mapM (validateEntry field) = some frame)
    (hname : ∀ e ∈ es, e.linuxUsername ≠ name) :
    (upsert field serverId cache frame).get? (serverId, name) = cache.get? (serverId, name) := by
  refine Dict.get?_foldl_set_of_ne fun e' he' hkey => ?_
  obtain ⟨frame', hframe', hmem⟩ := mapM_of_isSome (mapM_isSome_iff.mp (by rw [hframe]; rfl))
  obtain rfl := Option.some.inj (hframe.symm.trans hframe')
  obtain ⟨e, he, hvalid⟩ := (hmem e').mp he'
  exact hname e he ((linuxUsername_of_valid hvalid).symm.trans (Prod.mk.inj hkey).2)

/-- A name that one entry has gets that entry. -/
theorem get?_upsert_present (hframe : es.mapM (validateEntry field) = some frame)
    {e : AccountLinkCacheEntry ReservationItem} (he : e ∈ es) (hname : e.linuxUsername = name)
    (hunique : ∀ f ∈ es, f.linuxUsername = name → f = e) :
    (upsert field serverId cache frame).get? (serverId, name) = cached? field e := by
  have hall := mapM_isSome_iff.mp (show (es.mapM (validateEntry field)).isSome by rw [hframe]; rfl)
  obtain ⟨frame', hframe', hmem⟩ := mapM_of_isSome hall
  obtain rfl := Option.some.inj (hframe.symm.trans hframe')
  obtain ⟨e', he'⟩ := Option.isSome_iff_exists.mp (hall e he)
  have hkey := linuxUsername_of_valid he'
  rw [cached?, he', Option.map_some]
  refine Dict.get?_foldl_set ⟨e', (hmem e').mpr ⟨e, he, he'⟩, by rw [hkey, hname]⟩ fun f' hf' hf => ?_
  obtain ⟨f, hfmem, hvalid⟩ := (hmem f').mp hf'
  obtain rfl := hunique f hfmem ((linuxUsername_of_valid hvalid).symm.trans (Prod.mk.inj hf).2)
  rw [Option.some.inj (hvalid.symm.trans he')]

end Frames

/-! ## what a sync leaves -/

section Syncs

variable {field : DatetimeField} {serverId : Nat} {payload p : LinkCacheSync ReservationItem}
  {cache : ReverseCache} {db : Db} {now : Time} {name : String}

/-- A sync is received exactly when each of its entries is valid. -/
theorem parsePayload_isSome_iff : (parsePayload field payload).isSome ↔
    ∀ e ∈ payload.entries, (validateEntry field e).isSome := by
  rw [parsePayload, Option.isSome_map, parseSync, Option.isSome_map, mapM_isSome_iff]

/-- What a sync does that is received; the names to remove are removed last. -/
theorem receiveSync_eq {frame : List (AccountLinkCacheEntry ActiveReservationSnapshot)}
    (hframe : payload.entries.mapM (validateEntry field) = some frame) :
    receiveSync field cache payload =
      match payload.mode with
      | .full => upsert field payload.serverId
          (cache.dropKeys fun k => k.1 = payload.serverId) frame
      | .incremental => payload.removedLinuxUsernames.foldl
          (fun c removed => c.erase (payload.serverId, removed))
          (upsert field payload.serverId cache frame) := by
  unfold receiveSync parsePayload parseSync handleSync
  rw [hframe]
  cases hmode : payload.mode with
  | full => rfl
  | incremental => rfl

theorem receiveSync_rejected (h : ¬ (parsePayload field payload).isSome) :
    receiveSync field cache payload = cache := by
  rw [receiveSync, Option.not_isSome_iff_eq_none.mp h]
  rfl

theorem exists_frame (h : (parsePayload field payload).isSome) :
    ∃ frame, payload.entries.mapM (validateEntry field) = some frame :=
  Option.isSome_iff_exists.mp (mapM_isSome_iff.mpr (parsePayload_isSome_iff.mp h))

/-- A sync of one server leaves the others alone. -/
theorem othersKept_receiveSync (field : DatetimeField) (cache : ReverseCache)
    (payload : LinkCacheSync ReservationItem) :
    OthersKept payload.serverId cache (receiveSync field cache payload) := by
  intro other name hother
  by_cases haccepted : (parsePayload field payload).isSome
  · obtain ⟨frame, hframe⟩ := exists_frame haccepted
    rw [receiveSync_eq hframe]
    cases payload.mode with
    | full =>
        dsimp only
        rw [get?_upsert_other hother]
        exact Dict.get?_dropKeys_of_false (decide_eq_false hother)
    | incremental =>
        dsimp only
        rw [Dict.get?_foldl_erase, if_neg, get?_upsert_other hother]
        intro hmem
        obtain ⟨removed, -, hkey⟩ := List.mem_map.mp hmem
        exact hother (Prod.mk.inj hkey).1.symm
  · rw [receiveSync_rejected haccepted]

/-- The entries of some names are those of a full sync under these names. -/
theorem mem_entriesForLinuxUsers_some {linuxUsernames : List String}
    {e : AccountLinkCacheEntry ReservationItem} :
    e ∈ entriesForLinuxUsers db serverId (some linuxUsernames) now ↔
      e ∈ entriesForLinuxUsers db serverId none now ∧ e.linuxUsername ∈ linuxUsernames := by
  simp only [entriesForLinuxUsers, List.mem_filterMap, List.mem_filter, Bool.and_eq_true,
    decide_eq_true_eq, Option.all_none, Option.all_some, List.contains_iff_mem, and_true, and_assoc]
  constructor
  · rintro ⟨p, hp, hserver, hactive, hname, he⟩
    refine ⟨⟨p, hp, hserver, hactive, he⟩, ?_⟩
    split at he
    · cases he
    · exact Option.some.inj he ▸ hname
  · rintro ⟨⟨p, hp, hserver, hactive, he⟩, hname⟩
    refine ⟨p, hp, hserver, hactive, ?_, he⟩
    split at he
    · cases he
    · obtain rfl := Option.some.inj he
      exact hname

theorem syncEntryOf_eq_none_iff : syncEntryOf db serverId now name = none ↔
    ∀ e ∈ entriesForLinuxUsers db serverId none now, e.linuxUsername ≠ name := by
  simp [syncEntryOf, List.find?_eq_none]

section Delta

variable {linuxUsernames : List String} {delta : LinkCacheSync ReservationItem}
  (hdelta : Reordered (composeIncrementalPayload db serverId linuxUsernames
    (some (removedNames db serverId now linuxUsernames)) now) delta)
include hdelta

/-- A delta has the entries of its names. -/
theorem mem_entries_delta {e : AccountLinkCacheEntry ReservationItem} :
    e ∈ delta.entries ↔
      e ∈ entriesForLinuxUsers db serverId none now ∧ e.linuxUsername ∈ linuxUsernames :=
  hdelta.entries.mem_iff.trans mem_entriesForLinuxUsers_some

/-- A delta removes its names without an entry. -/
theorem mem_removed_delta :
    (serverId, name) ∈ delta.removedLinuxUsernames.map (fun removed => (serverId, removed)) ↔
      name ∈ linuxUsernames ∧ syncEntryOf db serverId now name = none := by
  have hperm : name ∈ delta.removedLinuxUsernames ↔
      name ∈ removedNames db serverId now linuxUsernames := hdelta.removed.mem_iff
  rw [List.mem_map_of_injective (Prod.mk_right_injective serverId), hperm, removedNames,
    List.mem_filter, Option.isNone_iff_eq_none]

/-- A delta that is accepted upserts its entries and then removes its names. -/
theorem get?_delta {frame : List (AccountLinkCacheEntry ActiveReservationSnapshot)}
    (hframe : delta.entries.mapM (validateEntry field) = some frame) :
    (receiveSync field cache delta).get? (serverId, name) =
      if name ∈ linuxUsernames ∧ syncEntryOf db serverId now name = none then none
      else (upsert field serverId cache frame).get? (serverId, name) := by
  rw [receiveSync_eq hframe, show delta.mode = .incremental from hdelta.mode,
    show delta.serverId = serverId from hdelta.serverId]
  dsimp only
  rw [Dict.get?_foldl_erase]
  split
  · next h => rw [if_pos ((mem_removed_delta hdelta).mp h)]
  · next h => rw [if_neg fun hremoved => h ((mem_removed_delta hdelta).mpr hremoved)]

/-- A delta leaves the names that it does not cover, whether it is accepted or not. -/
theorem get?_delta_uncovered (hname : name ∉ linuxUsernames) :
    (receiveSync field cache delta).get? (serverId, name) = cache.get? (serverId, name) := by
  by_cases haccepted : (parsePayload field delta).isSome
  · obtain ⟨frame, hframe⟩ := exists_frame haccepted
    rw [get?_delta hdelta hframe, if_neg fun h => hname h.1]
    exact get?_upsert_absent hframe fun e he heq =>
      hname (heq ▸ ((mem_entries_delta hdelta).mp he).2)
  · rw [receiveSync_rejected haccepted]

end Delta

variable (hunique : AccountsUnique db)
include hunique

/-- A name has at most one entry. -/
theorem entry_unique {e f : AccountLinkCacheEntry ReservationItem}
    (he : e ∈ entriesForLinuxUsers db serverId none now)
    (hf : f ∈ entriesForLinuxUsers db serverId none now) (h : f.linuxUsername = e.linuxUsername) :
    f = e := by
  obtain ⟨p, l, hp, rfl⟩ := mem_entriesForLinuxUsers.mp he
  obtain ⟨q, k, hq, rfl⟩ := mem_entriesForLinuxUsers.mp hf
  obtain rfl : q = p := hunique.account_eq
    ⟨hq.account, hq.server, hq.username.trans h, hq.active, hq.link⟩ hp
  rfl

theorem syncEntryOf_eq_some_iff {e : AccountLinkCacheEntry ReservationItem} :
    syncEntryOf db serverId now name = some e ↔
      e ∈ entriesForLinuxUsers db serverId none now ∧ e.linuxUsername = name := by
  constructor
  · intro h
    exact ⟨List.mem_of_find?_eq_some h, by simpa using List.find?_some h⟩
  · rintro ⟨he, rfl⟩
    cases hfind : syncEntryOf db serverId now e.linuxUsername with
    | none => exact absurd rfl (syncEntryOf_eq_none_iff.mp hfind e he)
    | some f =>
        have hname : f.linuxUsername = e.linuxUsername := by simpa using List.find?_some hfind
        rw [entry_unique hunique he (List.mem_of_find?_eq_some hfind) hname]

/-- Upserting entries of the payload, where `es` has the one of the name if there is one. -/
theorem get?_upsert {es : List (AccountLinkCacheEntry ReservationItem)}
    {frame : List (AccountLinkCacheEntry ActiveReservationSnapshot)}
    (hframe : es.mapM (validateEntry field) = some frame)
    (hes : ∀ e, e.linuxUsername = name → (e ∈ es ↔ e ∈ entriesForLinuxUsers db serverId none now)) :
    (upsert field serverId cache frame).get? (serverId, name) =
      match syncEntryOf db serverId now name with
      | some e => cached? field e
      | none => cache.get? (serverId, name) := by
  cases hentry : syncEntryOf db serverId now name with
  | some e =>
      obtain ⟨he, hname⟩ := (syncEntryOf_eq_some_iff hunique).mp hentry
      refine get?_upsert_present hframe ((hes e hname).mpr he) hname fun f hf hfname => ?_
      exact entry_unique hunique he ((hes f hfname).mp hf) (hfname.trans hname.symm)
  | none =>
      refine get?_upsert_absent hframe fun e he hname => ?_
      exact syncEntryOf_eq_none_iff.mp hentry e ((hes e hname).mp he) hname

/-- **A full sync that is accepted**, in any order, leaves the server's entries. -/
theorem get?_applied_full {full : LinkCacheSync ReservationItem}
    (hfull : Reordered (fullPayload db serverId now) full)
    (haccepted : (parsePayload field full).isSome) :
    (receiveSync field cache full).get? (serverId, name) =
      (syncEntryOf db serverId now name).bind (cached? field) := by
  obtain ⟨frame, hframe⟩ := exists_frame haccepted
  rw [receiveSync_eq hframe, show full.mode = .full from hfull.mode,
    show full.serverId = serverId from hfull.serverId]
  dsimp only
  rw [get?_upsert hunique hframe fun e _ => hfull.entries.mem_iff]
  cases syncEntryOf db serverId now name with
  | some e => rfl
  | none => exact Dict.get?_dropKeys (decide_eq_true rfl)

/-- **A delta that is accepted**, in any order, leaves the entries of its names and
everything else as it was. -/
theorem get?_applied_incremental {linuxUsernames : List String} {delta : LinkCacheSync ReservationItem}
    (hdelta : Reordered (composeIncrementalPayload db serverId linuxUsernames
      (some (removedNames db serverId now linuxUsernames)) now) delta)
    (haccepted : (parsePayload field delta).isSome) :
    (receiveSync field cache delta).get? (serverId, name) =
      if name ∈ linuxUsernames then (syncEntryOf db serverId now name).bind (cached? field)
      else cache.get? (serverId, name) := by
  split
  · next hname =>
      obtain ⟨frame, hframe⟩ := exists_frame haccepted
      have hes : ∀ e, e.linuxUsername = name →
          (e ∈ delta.entries ↔ e ∈ entriesForLinuxUsers db serverId none now) := fun e he => by
        rw [mem_entries_delta hdelta, he]
        exact and_iff_left hname
      rw [get?_delta hdelta hframe, get?_upsert hunique hframe hes]
      cases hentry : syncEntryOf db serverId now name with
      | some e =>
          rw [if_neg fun h => by cases h.2]
          rfl
      | none =>
          rw [if_pos ⟨hname, rfl⟩]
          rfl
  · next hname => exact get?_delta_uncovered hdelta hname

end Syncs

/-! ## the two ways to a cache -/

section Refinement

variable {field : DatetimeField} {serverId : Nat} {db db₁ db₂ : Db} {now now₁ now₂ : Time}
  {linuxUsernames : List String}

theorem reordered_refl {ρ : Type} (p : LinkCacheSync ρ) : Reordered p p :=
  ⟨rfl, rfl, List.Perm.refl _, List.Perm.refl _⟩

/-- A full sync is accepted exactly when its live reservations name their GPUs. -/
theorem full_accepted_iff (hfield : field.Lawful) (htimes : TimesInRange db)
    {full : LinkCacheSync ReservationItem} (hfull : Reordered (fullPayload db serverId now) full) :
    (parsePayload field full).isSome ↔ GpuNamed db serverId now := by
  rw [← parseSync_isSome_iff hfield htimes serverId now, parsePayload_isSome_iff, parseSync,
    Option.isSome_map, mapM_isSome_iff]
  exact forall_congr' fun e => imp_congr_left hfull.entries.mem_iff

/-- Where a full sync of the later database is accepted, so is a delta of it. -/
theorem delta_accepted {delta : LinkCacheSync ReservationItem}
    (hdelta : Reordered (composeIncrementalPayload db serverId linuxUsernames
      (some (removedNames db serverId now linuxUsernames)) now) delta)
    (haccepted : (parsePayload field (fullPayload db serverId now)).isSome) :
    (parsePayload field delta).isSome := by
  rw [parsePayload_isSome_iff] at haccepted ⊢
  intro e he
  exact haccepted e (mem_entriesForLinuxUsers_some.mp (hdelta.entries.mem_iff.mp he)).1

/-- Equal entries give equal lookups. -/
theorem sameLookups_of_get? {c c' : ReverseCache}
    (h : ∀ name, c.get? (serverId, name) = c'.get? (serverId, name)) : SameLookups serverId c c' := by
  intro name
  unfold lookupUserIds lookupActiveReservations
  rw [h name]
  exact ⟨rfl, fun _ => rfl⟩

/-- **A delta that covers the differences** has the effect of a full sync. -/
theorem refines_of_gpuNamed (hfield : field.Lawful) (htimes₁ : TimesInRange db₁)
    (htimes₂ : TimesInRange db₂) (hunique₁ : AccountsUnique db₁) (hunique₂ : AccountsUnique db₂)
    (hcover : ∀ name, syncEntryOf db₁ serverId now₁ name ≠ syncEntryOf db₂ serverId now₂ name →
      name ∈ linuxUsernames)
    (hnamed₁ : GpuNamed db₁ serverId now₁) (hnamed₂ : GpuNamed db₂ serverId now₂) :
    Refines field serverId db₁ now₁ db₂ now₂ linuxUsernames := by
  intro full₁ full₂ delta hfull₁ hfull₂ hdelta cache₁ cache₂
  have haccepted₁ := (full_accepted_iff hfield htimes₁ hfull₁).mpr hnamed₁
  have haccepted₂ := (full_accepted_iff hfield htimes₂ hfull₂).mpr hnamed₂
  have haccepted := delta_accepted hdelta
    ((full_accepted_iff hfield htimes₂ (reordered_refl _)).mpr hnamed₂)
  refine ⟨sameLookups_of_get? fun name => ?_, ?_, ?_⟩
  · rw [get?_applied_incremental hunique₂ hdelta haccepted, get?_applied_full hunique₂ hfull₂ haccepted₂]
    by_cases hname : name ∈ linuxUsernames
    · rw [if_pos hname]
    · have hsame : syncEntryOf db₁ serverId now₁ name = syncEntryOf db₂ serverId now₂ name :=
        not_not.mp fun h => hname (hcover name h)
      rw [if_neg hname, get?_applied_full hunique₁ hfull₁ haccepted₁, hsame]
  · rw [show serverId = delta.serverId from hdelta.serverId.symm]
    exact othersKept_receiveSync field _ delta
  · rw [show serverId = full₂.serverId from hfull₂.serverId.symm]
    exact othersKept_receiveSync field _ full₂

/-- A cache that answers otherwise for a name. -/
def otherwise (serverId : Nat) (name : String) (c : ReverseCache) : ReverseCache :=
  c.set (serverId, name) ⟨0 :: lookupUserIds c serverId name, .empty⟩

theorem lookupUserIds_otherwise (name : String) (c : ReverseCache) :
    lookupUserIds (otherwise serverId name c) serverId name ≠ lookupUserIds c serverId name := by
  rw [lookupUserIds, otherwise, Dict.get?_set, if_pos rfl]
  exact List.cons_ne_self _ _

/-- A full sync of the later database that is rejected leaves any cache as it was. -/
theorem gpuNamed_later (hfield : field.Lawful) (htimes₂ : TimesInRange db₂)
    (h : Refines field serverId db₁ now₁ db₂ now₂ linuxUsernames) : GpuNamed db₂ serverId now₂ := by
  by_contra hnamed
  have hrejected : ¬ (parsePayload field (fullPayload db₂ serverId now₂)).isSome := fun haccepted =>
    hnamed ((full_accepted_iff hfield htimes₂ (reordered_refl _)).mp haccepted)
  have hsame := fun cache₁ cache₂ => (h _ _ _ (reordered_refl _) (reordered_refl _) (reordered_refl _)
    cache₁ cache₂).1 ""
  simp only [receiveSync_rejected hrejected] at hsame
  exact lookupUserIds_otherwise "" _ (hsame .empty (otherwise serverId "" _)).1.symm

/-- A full sync of the earlier database that is rejected leaves any name as it was that the
delta does not cover. -/
theorem gpuNamed_earlier (hfield : field.Lawful) (htimes₁ : TimesInRange db₁)
    (h : Refines field serverId db₁ now₁ db₂ now₂ linuxUsernames) : GpuNamed db₁ serverId now₁ := by
  by_contra hnamed
  have hrejected : ¬ (parsePayload field (fullPayload db₁ serverId now₁)).isSome := fun haccepted =>
    hnamed ((full_accepted_iff hfield htimes₁ (reordered_refl _)).mp haccepted)
  obtain ⟨name, hname⟩ := Infinite.exists_notMem_finset linuxUsernames.toFinset
  rw [List.mem_toFinset] at hname
  have hkept : ∀ cache, lookupUserIds (receiveSync field cache (composeIncrementalPayload db₂ serverId
      linuxUsernames (some (removedNames db₂ serverId now₂ linuxUsernames)) now₂)) serverId name =
        lookupUserIds cache serverId name := fun cache => by
    rw [lookupUserIds, get?_delta_uncovered (reordered_refl _) hname]
    rfl
  have hsame := fun cache₁ => (h _ _ _ (reordered_refl _) (reordered_refl _) (reordered_refl _)
    cache₁ .empty).1 name
  simp only [receiveSync_rejected hrejected, hkept] at hsame
  exact lookupUserIds_otherwise name _ (hsame (otherwise serverId name _)).1

/-- **Incremental sync**: for every two databases with unique names of active accounts, a
delta that covers every name whose entry differs leaves the lookups that a full sync of
the later one leaves, in any order of the entries and on any caches, exactly when in both
databases every live reservation that a sync carries names a GPU. -/
theorem refines_iff (hfield : field.Lawful) (htimes₁ : TimesInRange db₁)
    (htimes₂ : TimesInRange db₂) (hunique₁ : AccountsUnique db₁) (hunique₂ : AccountsUnique db₂)
    (hcover : ∀ name, syncEntryOf db₁ serverId now₁ name ≠ syncEntryOf db₂ serverId now₂ name →
      name ∈ linuxUsernames) :
    Refines field serverId db₁ now₁ db₂ now₂ linuxUsernames ↔
      GpuNamed db₁ serverId now₁ ∧ GpuNamed db₂ serverId now₂ := by
  constructor
  · exact fun h => ⟨gpuNamed_earlier hfield htimes₁ h, gpuNamed_later hfield htimes₂ h⟩
  · rintro ⟨hnamed₁, hnamed₂⟩
    exact refines_of_gpuNamed hfield htimes₁ htimes₂ hunique₁ hunique₂ hcover hnamed₁ hnamed₂

end Refinement

/-- The only link was revoked. -/
def unlinked : Db :=
  { smallLab (.single dueScript) with
    accountLinks := .single { id := 31, userId := 41, physicalAccountId := 21, source := .sshChallenge
                              isActive := false, revokedByUserId := some 41, revokedAt := some 0
                              revokeReason := some .self } }

theorem refines_iff_unlinked :
    Refines zuluField 1 (smallLab (.single dueScript)) 0 unlinked 0 ["alice"] ↔
      GpuNamed (smallLab (.single dueScript)) 1 0 ∧ GpuNamed unlinked 1 0 := by
  have htimes : ∀ db : Db, db.reservations = .single dueScript → TimesInRange db := by
    intro db hdb r hr
    rw [hdb] at hr
    obtain rfl : r = dueScript := List.mem_singleton.mp hr
    decide
  refine refines_iff lawful_zuluField (htimes _ rfl) (htimes _ rfl) (by decide) (by decide)
    fun name hdiffers => ?_
  by_contra hname
  have hother : name ≠ "alice" := fun h => hname (h ▸ List.mem_singleton_self _)
  have hnone₁ : syncEntryOf (smallLab (.single dueScript)) 1 0 name = none :=
    syncEntryOf_eq_none_iff.mpr fun e he h => hother <| h.symm.trans <| by
      obtain ⟨p, l, hlinked, -⟩ := mem_entriesForLinuxUsers.mp he
      obtain rfl := List.mem_singleton.mp hlinked.account
      exact hlinked.username.symm
  have hnone₂ : syncEntryOf unlinked 1 0 name = none := rfl
  exact hdiffers (hnone₁.trans hnone₂.symm)

/-- A task without a GPU keeps both databases from the agent. -/
theorem not_refines :
    ¬ ∀ (field : DatetimeField) (serverId : Nat) (db₁ db₂ : Db) (now₁ now₂ : Time)
        (linuxUsernames : List String), field.Lawful → TimesInRange db₁ → TimesInRange db₂ →
      AccountsUnique db₁ → AccountsUnique db₂ →
      (∀ name, syncEntryOf db₁ serverId now₁ name ≠ syncEntryOf db₂ serverId now₂ name →
        name ∈ linuxUsernames) →
      Refines field serverId db₁ now₁ db₂ now₂ linuxUsernames := by
  intro h
  have htimes : TimesInRange (smallLab (.single CacheFrames.cronRow)) := by
    intro r hr
    obtain rfl : r = CacheFrames.cronRow := List.mem_singleton.mp hr
    decide
  have hnamed := gpuNamed_later lawful_zuluField htimes
    (h zuluField 1 _ (smallLab (.single CacheFrames.cronRow)) 0 0 [] lawful_zuluField htimes htimes
      (by decide) (by decide) fun name hdiffers => absurd rfl hdiffers)
  have hlinked : Linked (smallLab (.single CacheFrames.cronRow)) 1 "alice" ⟨21, 1, "alice", true⟩
      ⟨31, 41, 21, .sshChallenge, true, none, none, none⟩ :=
    ⟨List.mem_singleton_self _, rfl, rfl, rfl, mem_linksOf.mpr ⟨List.mem_singleton_self _, rfl, rfl⟩⟩
  exact absurd (hnamed ⟨21, 1, "alice", true⟩ _ CacheFrames.cronRow hlinked
    (mem_liveReservations.mpr ⟨List.mem_singleton_self _, rfl, rfl, by decide⟩)) (by decide)

end IncrementalSync

end CoreLab
