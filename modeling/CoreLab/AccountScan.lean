import CoreLab.Lib.Dict
import CoreLab.Models
import Mathlib.Data.List.Induction

/-!
# CoreLab.AccountScan

An agent reports the human accounts of its host, and `sync_discovered` folds the report into
the accounts that the lab knows: it loads the rows of the server, works on the loaded objects
and on new ones, entry by entry, and the session writes them all at the end.

* `get?_active_foldl` — the loop treats each name by itself;
* `mem_accounts_iff` — the rows after a report;
* `synced` — what a report does to the rows, and what it leaves alone;
* `settled` — the same report again only stamps the rows that it names.
-/

namespace CoreLab

open Relational

namespace AccountScan

/-! ## rows and reports -/

/-- `ck_pa_source`. -/
inductive AccountSource where
  | agentCreated | discoveredScan | adminManualRegister
deriving DecidableEq, Repr

/-- The four fields that a scan reports, of a row or of an entry.  The numbers have the 32 bits of
`INTEGER UNSIGNED`, as in `/etc/passwd`. -/
structure PasswdFields where
  uid : Option UInt32 := none
  gid : Option UInt32 := none
  homeDirectory : Option String := none
  defaultShell : Option String := none
deriving DecidableEq, Repr

/-- Each field as it is reported; a field that is not reported stays. -/
def PasswdFields.fill (reported old : PasswdFields) : PasswdFields where
  uid := reported.uid.or old.uid
  gid := reported.gid.or old.gid
  homeDirectory := reported.homeDirectory.or old.homeDirectory
  defaultShell := reported.defaultShell.or old.defaultShell

/-- A row of `physical_account`. -/
structure AccountRow extends PhysicalAccount where
  fields : PasswdFields
  source : AccountSource
  createdByUserId : Option Nat
  lastSeenAt : Option Time
deriving DecidableEq, Repr

instance : Keyed AccountRow := ⟨fun r => r.id⟩

/-- `AccountScanEntry`. -/
structure AccountScanEntry where
  linuxUsername : String
  fields : PasswdFields := {}
  minLength : linuxUsername ≠ "" := by decide
  maxLength : linuxUsername.length ≤ 32 ∧ fields.homeDirectory.all (·.length ≤ 255) ∧
    fields.defaultShell.all (·.length ≤ 100) := by decide
deriving DecidableEq

/-! ## the loop -/

/-- An object of the session: a loaded row, or a new one that has no key yet. -/
structure Loaded where
  id : Option Nat
  fields : PasswdFields
  lastSeenAt : Option Time
deriving DecidableEq, Repr

/-- The variables of the loop. -/
structure Scan where
  active : Dict String Loaded
  created : List String := []
  backfilled : Nat := 0
  skippedInactive : Nat := 0

/-- The body of the loop. -/
def syncEntry (now : Time) (inactiveNames : List String) (m : Scan) (entry : AccountScanEntry) :
    Scan :=
  let name := entry.linuxUsername
  if name = "" then m
  else match m.active.get? name with
    | some pa =>
      let fields := entry.fields.fill pa.fields
      { m with
        active := m.active.set name { pa with fields := fields, lastSeenAt := some now }
        backfilled := if fields = pa.fields then m.backfilled else m.backfilled + 1 }
    | none =>
      -- an admin has soft-deleted it
      if name ∈ inactiveNames then { m with skippedInactive := m.skippedInactive + 1 }
      else
        { m with
          active := m.active.set name ⟨none, entry.fields, some now⟩
          created := m.created ++ [name] }

/-- The rows of a server. -/
def existing (accounts : Table AccountRow) (serverId : Nat) : List AccountRow :=
  accounts.rows.filter (·.serverId = serverId)

/-- The loaded objects of the active rows, by name. -/
def activeObjects (existing : List AccountRow) : Dict String Loaded :=
  (existing.filter (·.isActive)).foldl
    (fun active r => active.set r.linuxUsername ⟨some r.id, r.fields, r.lastSeenAt⟩) .empty

/-- The names of the inactive rows. -/
def inactiveNames (existing : List AccountRow) : List String :=
  (existing.filter (!·.isActive)).map (·.linuxUsername)

/-- The `UPDATE` of a row, if the session has its object. -/
def Scan.update (m : Scan) (r : AccountRow) : AccountRow :=
  match (m.active.get? r.linuxUsername).filter (·.id = some r.id) with
  | some pa => { r with fields := pa.fields, lastSeenAt := pa.lastSeenAt }
  | none => r

/-- The `INSERT` of a new object. -/
def newAccount (serverId : Nat) (name : String) (pa : Loaded) : Table.Insertion AccountRow :=
  ⟨fun id =>
    { id := id, serverId := serverId, linuxUsername := name, isActive := true, fields := pa.fields
      source := .discoveredScan, createdByUserId := none, lastSeenAt := pa.lastSeenAt },
    fun _ => rfl⟩

/-- The new rows, in the order they were added in. -/
def Scan.inserts (m : Scan) (serverId : Nat) : List (Table.Insertion AccountRow) :=
  m.created.filterMap fun name => (m.active.get? name).map (newAccount serverId name)

theorem Scan.id_update (m : Scan) (r : AccountRow) : (m.update r).id = r.id := by
  unfold Scan.update
  split <;> rfl

/-- `session.flush`. -/
def Scan.flush (m : Scan) (serverId : Nat) (accounts : Table AccountRow) : Table AccountRow :=
  (accounts.mapRows m.update m.id_update).appendAll (m.inserts serverId)

/-- The counters that `sync_discovered` returns. -/
structure Stats where
  created : Nat
  backfilled : Nat
  skippedInactive : Nat
  scanned : Nat
deriving DecidableEq, Repr

/-- The rows after a report, its counters, and the payload of its audit row. -/
structure SyncResult where
  accounts : Table AccountRow
  stats : Stats
  audit : Option (List String × Stats)

/-- The loop over a report. -/
def scan (accounts : Table AccountRow) (serverId : Nat) (now : Time)
    (entries : List AccountScanEntry) : Scan :=
  entries.foldl (syncEntry now (inactiveNames (existing accounts serverId)))
    { active := activeObjects (existing accounts serverId) }

/-- `sync_discovered`. -/
def syncDiscovered (accounts : Table AccountRow) (serverId : Nat) (now : Time)
    (entries : List AccountScanEntry) : SyncResult :=
  let m := scan accounts serverId now entries
  let stats : Stats := ⟨m.created.length, m.backfilled, m.skippedInactive, entries.length⟩
  { accounts := m.flush serverId accounts
    stats := stats
    audit := if m.created = [] then none else some (m.created, stats) }

/-! ## what a report does -/

/-- An active row of a server and a name. -/
def IsActive (serverId : Nat) (name : String) (r : AccountRow) : Prop :=
  r.serverId = serverId ∧ r.linuxUsername = name ∧ r.isActive = true

instance (serverId : Nat) (name : String) (r : AccountRow) : Decidable (IsActive serverId name r) :=
  inferInstanceAs (Decidable (_ ∧ _))

/-- `uq_pa_server_user_active`. -/
def UniqueActive (accounts : Table AccountRow) : Prop :=
  ∀ r ∈ accounts.rows, ∀ s ∈ accounts.rows, r.isActive = true →
    IsActive r.serverId r.linuxUsername s → r = s

instance (accounts : Table AccountRow) : Decidable (UniqueActive accounts) :=
  inferInstanceAs (Decidable (∀ r ∈ accounts.rows, ∀ s ∈ accounts.rows, _ → _))

/-- The names that a report mentions. -/
def reported (entries : List AccountScanEntry) : List String := entries.map (·.linuxUsername)

/-- The entries of a name, in order. -/
def entriesOf (entries : List AccountScanEntry) (name : String) : List AccountScanEntry :=
  entries.filter (·.linuxUsername = name)

/-- The last value of a field that is not null. -/
def lastReported {α : Type} (get : PasswdFields → Option α) (entries : List AccountScanEntry) :
    Option α :=
  (entries.filterMap fun e => get e.fields).getLast?

/-- The fields of a name after a report, from those before. -/
def fieldsAfter (entries : List AccountScanEntry) (old : PasswdFields) : PasswdFields where
  uid := (lastReported (·.uid) entries).or old.uid
  gid := (lastReported (·.gid) entries).or old.gid
  homeDirectory := (lastReported (·.homeDirectory) entries).or old.homeDirectory
  defaultShell := (lastReported (·.defaultShell) entries).or old.defaultShell

/-- What a report of a server may do to the accounts. -/
structure Synced (serverId : Nat) (entries : List AccountScanEntry)
    (before after : Table AccountRow) : Prop where
  unique : UniqueActive after
  /-- Inactive rows, rows of other servers and rows of unreported names stay, and none is new. -/
  others : ∀ r, (r.isActive = false ∨ r.serverId ≠ serverId ∨ r.linuxUsername ∉ reported entries) →
    (r ∈ after.rows ↔ r ∈ before.rows)
  /-- Every active row of a reported name stays, under its key. -/
  stays : ∀ r ∈ before.rows, r.isActive = true → ∃ s ∈ after.rows, s.id = r.id ∧
    IsActive r.serverId r.linuxUsername s ∧ s.source = r.source ∧
    s.createdByUserId = r.createdByUserId
  /-- Every reported name has an active row, unless it has inactive ones only. -/
  exists_active : ∀ name ∈ reported entries, (∃ s ∈ after.rows, IsActive serverId name s) ∨
    (∃ r ∈ before.rows, r.serverId = serverId ∧ r.linuxUsername = name) ∧
      ∀ r ∈ before.rows, ¬ IsActive serverId name r
  /-- Such a name gets no row. -/
  skipped : ∀ name, (∃ r ∈ before.rows, r.serverId = serverId ∧ r.linuxUsername = name) →
    (∀ r ∈ before.rows, ¬ IsActive serverId name r) → ∀ s ∈ after.rows, ¬ IsActive serverId name s
  /-- Its fields are as they were last reported; those that were not stay, or are null. -/
  fields : ∀ name ∈ reported entries, ∀ s ∈ after.rows, IsActive serverId name s →
    (∃ r ∈ before.rows, r.id = s.id ∧ s.fields = fieldsAfter (entriesOf entries name) r.fields) ∨
      (∀ r ∈ before.rows, r.id ≠ s.id) ∧ s.fields = fieldsAfter (entriesOf entries name) {}

/-- The row apart from its stamp. -/
def AccountRow.unstamped (r : AccountRow) : AccountRow := { r with lastSeenAt := none }

/-- The same rows, apart from stamps. -/
def SameButStamps (before after : Table AccountRow) : Prop :=
  after.rows.map AccountRow.unstamped = before.rows.map AccountRow.unstamped

/-! ## fields -/

section Fields

variable {entries : List AccountScanEntry} {entry : AccountScanEntry} {old : PasswdFields}

theorem lastReported_concat {α : Type} (get : PasswdFields → Option α) :
    lastReported get (entries ++ [entry]) = (get entry.fields).or (lastReported get entries) := by
  rw [lastReported, List.filterMap_append, List.getLast?_append]
  cases h : get entry.fields <;> simp [h, lastReported]

@[simp] theorem fieldsAfter_nil : fieldsAfter [] old = old := by
  simp [fieldsAfter, lastReported]

/-- One more entry of the name. -/
theorem fieldsAfter_concat :
    fieldsAfter (entries ++ [entry]) old = entry.fields.fill (fieldsAfter entries old) := by
  simp [fieldsAfter, lastReported_concat, PasswdFields.fill, Option.or_assoc]

/-- The same entries again change nothing. -/
theorem fieldsAfter_fieldsAfter : fieldsAfter entries (fieldsAfter entries old) =
    fieldsAfter entries old := by
  have hidem : ∀ {α : Type} (x y : Option α), x.or (x.or y) = x.or y := by
    intro α x y
    cases x <;> rfl
  simp [fieldsAfter, hidem]

theorem fill_empty (reported : PasswdFields) : reported.fill {} = reported := by
  simp [PasswdFields.fill]

end Fields

/-! ## one name -/

section Loop

variable {now : Time} {names : List String} {m : Scan} {entries : List AccountScanEntry}

/-- What one entry makes of the object of its name. -/
def stepObject (now : Time) (inactive : Prop) [Decidable inactive] (pa? : Option Loaded)
    (entry : AccountScanEntry) : Option Loaded :=
  match pa? with
  | some pa => some { pa with fields := entry.fields.fill pa.fields, lastSeenAt := some now }
  | none => if inactive then none else some ⟨none, entry.fields, some now⟩

theorem get?_active_syncEntry (entry : AccountScanEntry) (name : String) :
    (syncEntry now names m entry).active.get? name =
      if entry.linuxUsername = name then
        stepObject now (name ∈ names) (m.active.get? name) entry
      else m.active.get? name := by
  rw [syncEntry, if_neg entry.minLength]
  by_cases hname : entry.linuxUsername = name
  · subst hname
    rw [if_pos rfl]
    cases hpa : m.active.get? entry.linuxUsername with
    | some pa => simp [stepObject, Dict.get?_set]
    | none =>
        by_cases hinactive : entry.linuxUsername ∈ names
        · simp [stepObject, hinactive, hpa]
        · simp [stepObject, hinactive, Dict.get?_set]
  · rw [if_neg hname]
    cases hpa : m.active.get? entry.linuxUsername with
    | some pa => simp [Dict.get?_set, Ne.symm hname]
    | none =>
        by_cases hinactive : entry.linuxUsername ∈ names
        · simp [hinactive]
        · simp [hinactive, Dict.get?_set, Ne.symm hname]

/-- **The loop treats each name by itself.** -/
theorem get?_active_foldl (m : Scan) (name : String) :
    (entries.foldl (syncEntry now names) m).active.get? name =
      (entriesOf entries name).foldl (stepObject now (name ∈ names)) (m.active.get? name) := by
  induction entries generalizing m with
  | nil => rfl
  | cons entry entries ih =>
      rw [List.foldl_cons, ih, get?_active_syncEntry, entriesOf, entriesOf, List.filter_cons]
      by_cases hname : entry.linuxUsername = name
      · rw [if_pos hname, if_pos (decide_eq_true hname), List.foldl_cons]
      · rw [if_neg hname, if_neg (by simpa using hname)]

/-- The object of a name that has one. -/
theorem foldl_stepObject_some (inactive : Prop) [Decidable inactive] (pa : Loaded)
    (entries : List AccountScanEntry) :
    entries.foldl (stepObject now inactive) (some pa) =
      some ⟨pa.id, fieldsAfter entries pa.fields,
        if entries = [] then pa.lastSeenAt else some now⟩ := by
  induction entries using List.reverseRecOn with
  | nil => simp
  | append_singleton entries entry ih =>
      rw [List.foldl_append, ih, fieldsAfter_concat]
      simp [stepObject]

/-- The object of a name that had none: there is one if it is reported, and has no inactive row. -/
theorem foldl_stepObject_none (inactive : Prop) [Decidable inactive]
    (entries : List AccountScanEntry) :
    entries.foldl (stepObject now inactive) none =
      if inactive ∨ entries = [] then none else some ⟨none, fieldsAfter entries {}, some now⟩ := by
  by_cases hinactive : inactive
  · rw [if_pos (Or.inl hinactive)]
    induction entries with
    | nil => rfl
    | cons entry entries ih => rw [List.foldl_cons, stepObject, if_pos hinactive, ih]
  · cases entries with
    | nil => simp
    | cons entry entries =>
        have hfields : fieldsAfter (entry :: entries) {} = fieldsAfter entries entry.fields := by
          induction entries using List.reverseRecOn with
          | nil => rw [show [entry] = [] ++ [entry] from rfl, fieldsAfter_concat, fieldsAfter_nil,
              fill_empty, fieldsAfter_nil]
          | append_singleton entries last ih =>
              rw [← List.cons_append, fieldsAfter_concat, ih, fieldsAfter_concat]
        rw [List.foldl_cons, stepObject, if_neg hinactive, foldl_stepObject_some, hfields,
          if_neg (not_or.mpr ⟨hinactive, List.cons_ne_nil entry entries⟩)]
        split <;> rfl

/-- The new objects are those without a key, each under a name of its own. -/
structure Tracks (m : Scan) : Prop where
  nodup : m.created.Nodup
  mem_iff : ∀ name, name ∈ m.created ↔ ∃ pa, m.active.get? name = some pa ∧ pa.id = none

theorem tracks_syncEntry (h : Tracks m) (entry : AccountScanEntry) :
    Tracks (syncEntry now names m entry) := by
  rw [syncEntry, if_neg entry.minLength]
  dsimp only
  cases hpa : m.active.get? entry.linuxUsername with
  | some pa =>
      -- the object keeps its key, or that it has none
      refine ⟨h.nodup, fun name => (h.mem_iff name).trans ?_⟩
      simp only [Dict.get?_set]
      split
      · next hname => simp [hname, hpa]
      · rfl
  | none =>
      dsimp only
      split
      · exact ⟨h.nodup, h.mem_iff⟩
      · have hnew : entry.linuxUsername ∉ m.created := fun hmem => by
          obtain ⟨pa, hget, -⟩ := (h.mem_iff _).mp hmem
          rw [hpa] at hget
          cases hget
        refine ⟨List.nodup_append.mpr ⟨h.nodup, List.nodup_singleton _, ?_⟩, fun name => ?_⟩
        · rintro a ha b hb rfl
          exact hnew (List.mem_singleton.mp hb ▸ ha)
        · rw [List.mem_append, h.mem_iff, List.mem_singleton]
          simp only [Dict.get?_set]
          split
          · next hname => simp [hname]
          · next hname => simp [hname]

theorem tracks_foldl (h : Tracks m) : Tracks (entries.foldl (syncEntry now names) m) := by
  induction entries generalizing m with
  | nil => exact h
  | cons entry entries ih => exact ih (tracks_syncEntry h entry)

end Loop

/-! ## the rows after a report -/

section Rows

variable {accounts : Table AccountRow} {serverId : Nat} {now : Time}
  {entries : List AccountScanEntry} {name : String} {r : AccountRow}

/-- The object that a row is loaded as. -/
def AccountRow.object (r : AccountRow) : Loaded := ⟨some r.id, r.fields, r.lastSeenAt⟩

theorem mem_inactiveNames : name ∈ inactiveNames (existing accounts serverId) ↔
    ∃ r ∈ accounts.rows, r.serverId = serverId ∧ r.linuxUsername = name ∧ r.isActive = false := by
  simp only [inactiveNames, existing, List.mem_map, List.mem_filter, decide_eq_true_eq,
    Bool.not_eq_true']
  grind

/-- The object under a name is that of its active row. -/
theorem get?_activeObjects (hunique : UniqueActive accounts) (hr : r ∈ accounts.rows)
    (hactive : IsActive serverId name r) :
    (activeObjects (existing accounts serverId)).get? name = some r.object := by
  refine Dict.get?_foldl_set ⟨r, ?_, hactive.2.1⟩ fun s hs hname => ?_
  · simp [existing, hr, hactive.1, hactive.2.2]
  · simp only [existing, List.mem_filter, decide_eq_true_eq] at hs
    obtain ⟨⟨hs, hserver⟩, hsactive⟩ := hs
    rw [hunique s hs r hr hsactive ⟨hactive.1.trans hserver.symm, hactive.2.1.trans hname.symm,
      hactive.2.2⟩]
    rfl

theorem get?_activeObjects_none (hnone : ∀ r ∈ accounts.rows, ¬ IsActive serverId name r) :
    (activeObjects (existing accounts serverId)).get? name = none := by
  refine Dict.get?_foldl_set_of_ne fun s hs hname => ?_
  simp only [existing, List.mem_filter, decide_eq_true_eq] at hs
  exact hnone s hs.1.1 ⟨hs.1.2, hname, hs.2⟩

/-- The object of an active row's name, after the loop. -/
theorem get?_scan_active (hunique : UniqueActive accounts) (hr : r ∈ accounts.rows)
    (hactive : IsActive serverId name r) :
    (scan accounts serverId now entries).active.get? name =
      some ⟨some r.id, fieldsAfter (entriesOf entries name) r.fields,
        if entriesOf entries name = [] then r.lastSeenAt else some now⟩ := by
  rw [scan, get?_active_foldl]
  dsimp only
  rw [get?_activeObjects hunique hr hactive, foldl_stepObject_some]
  rfl

/-- The object of a name without an active row. -/
theorem get?_scan_none (hnone : ∀ r ∈ accounts.rows, ¬ IsActive serverId name r) :
    (scan accounts serverId now entries).active.get? name =
      if name ∈ inactiveNames (existing accounts serverId) ∨ entriesOf entries name = [] then none
      else some ⟨none, fieldsAfter (entriesOf entries name) {}, some now⟩ := by
  rw [scan, get?_active_foldl]
  dsimp only
  rw [get?_activeObjects_none hnone, foldl_stepObject_none]

theorem tracks_scan (hunique : UniqueActive accounts) :
    Tracks (scan accounts serverId now entries) := by
  refine tracks_foldl ⟨List.nodup_nil, fun name => ⟨fun h => absurd h List.not_mem_nil, ?_⟩⟩
  rintro ⟨pa, hget, hnew⟩
  dsimp only at hget
  by_cases hactive : ∃ r ∈ accounts.rows, IsActive serverId name r
  · obtain ⟨r, hr, hactive⟩ := hactive
    rw [get?_activeObjects hunique hr hactive] at hget
    cases hget
    cases hnew
  · simp only [not_exists, not_and] at hactive
    rw [get?_activeObjects_none hactive] at hget
    cases hget

/-- A server's name without an active row has an inactive one, or none. -/
theorem not_mem_inactiveNames_iff (hnone : ∀ r ∈ accounts.rows, ¬ IsActive serverId name r) :
    name ∉ inactiveNames (existing accounts serverId) ↔
      ∀ r ∈ accounts.rows, ¬ (r.serverId = serverId ∧ r.linuxUsername = name) := by
  rw [mem_inactiveNames]
  constructor
  · rintro hinactive r hr ⟨hserver, hname⟩
    cases hactive : r.isActive with
    | true => exact hnone r hr ⟨hserver, hname, hactive⟩
    | false => exact hinactive ⟨r, hr, hserver, hname, hactive⟩
  · rintro hnorow ⟨r, hr, hserver, hname, -⟩
    exact hnorow r hr ⟨hserver, hname⟩

/-- A name gets a new row where it is reported and the server has no row of it. -/
theorem mem_created_iff (hunique : UniqueActive accounts) (now : Time) :
    name ∈ (scan accounts serverId now entries).created ↔ entriesOf entries name ≠ [] ∧
      ∀ r ∈ accounts.rows, ¬ (r.serverId = serverId ∧ r.linuxUsername = name) := by
  rw [(tracks_scan hunique).mem_iff]
  by_cases hactive : ∃ r ∈ accounts.rows, IsActive serverId name r
  · obtain ⟨r, hr, hactive⟩ := hactive
    rw [get?_scan_active hunique hr hactive]
    constructor
    · rintro ⟨pa, hpa, hnew⟩
      obtain rfl := Option.some.inj hpa
      cases hnew
    · exact fun h => absurd ⟨hactive.1, hactive.2.1⟩ (h.2 r hr)
  · simp only [not_exists, not_and] at hactive
    rw [get?_scan_none hactive, ← not_mem_inactiveNames_iff hactive]
    simp only [Option.ite_none_left_eq_some, Option.some.injEq]
    constructor
    · rintro ⟨pa, ⟨hnot, -⟩, -⟩
      exact (not_or.mp hnot).symm
    · rintro ⟨hreported, hinactive⟩
      exact ⟨_, ⟨not_or.mpr ⟨hinactive, hreported⟩, rfl⟩, rfl⟩

theorem mem_entriesOf_iff : entriesOf entries name ≠ [] ↔ name ∈ reported entries := by
  simp [entriesOf, reported, List.filter_eq_nil_iff]

/-- What a report makes of a row that was there. -/
theorem update_scan (hunique : UniqueActive accounts) (hr : r ∈ accounts.rows) :
    (scan accounts serverId now entries).update r =
      if IsActive serverId r.linuxUsername r ∧ r.linuxUsername ∈ reported entries then
        { r with
          fields := fieldsAfter (entriesOf entries r.linuxUsername) r.fields
          lastSeenAt := some now }
      else r := by
  unfold Scan.update
  by_cases hactive : ∃ s ∈ accounts.rows, IsActive serverId r.linuxUsername s
  · obtain ⟨s, hs, hsactive⟩ := hactive
    rw [get?_scan_active hunique hs hsactive]
    by_cases hid : s.id = r.id
    · obtain rfl : s = r := Table.eq_of_key_eq hs hr hid
      rw [Option.filter_some, if_pos (decide_eq_true rfl)]
      by_cases hreported : s.linuxUsername ∈ reported entries
      · simp [hsactive, hreported, mem_entriesOf_iff.mpr hreported]
      · have hnone : entriesOf entries s.linuxUsername = [] :=
          not_not.mp fun h => hreported (mem_entriesOf_iff.mp h)
        simp [hreported, hnone]
    · have hother : ¬ IsActive serverId r.linuxUsername r := fun hr' =>
        hid (congrArg (·.id) (hunique s hs r hr hsactive.2.2
          ⟨hr'.1.trans hsactive.1.symm, hsactive.2.1.symm, hr'.2.2⟩))
      rw [Option.filter_some, if_neg (by simpa using hid), if_neg fun h => hother h.1]
  · simp only [not_exists, not_and] at hactive
    rw [if_neg fun h => hactive r hr h.1, get?_scan_none hactive]
    split
    · next pa hpa =>
        obtain ⟨hpa, hid⟩ := Option.filter_eq_some_iff.mp hpa
        rw [Option.ite_none_left_eq_some, Option.some.injEq] at hpa
        obtain ⟨-, rfl⟩ := hpa
        simp at hid
    · rfl

/-- The new rows of a report. -/
def newRows (accounts : Table AccountRow) (serverId : Nat) (now : Time)
    (entries : List AccountScanEntry) : List AccountRow :=
  let m := scan accounts serverId now entries
  Table.freshRows (accounts.mapRows m.update m.id_update).nextKey (m.inserts serverId)

theorem rows_syncDiscovered :
    (syncDiscovered accounts serverId now entries).accounts.rows =
      accounts.rows.map (scan accounts serverId now entries).update ++
        newRows accounts serverId now entries :=
  Table.rows_appendAll ..

theorem inserts_scan (hunique : UniqueActive accounts) :
    (scan accounts serverId now entries).inserts serverId =
      (scan accounts serverId now entries).created.map fun name =>
        newAccount serverId name ⟨none, fieldsAfter (entriesOf entries name) {}, some now⟩ := by
  rw [Scan.inserts, ← List.filterMap_eq_map]
  refine List.filterMap_congr fun name hname => ?_
  obtain ⟨hreported, hnorow⟩ := (mem_created_iff hunique now).mp hname
  have hnone : ∀ r ∈ accounts.rows, ¬ IsActive serverId name r := fun r hr hactive =>
    hnorow r hr ⟨hactive.1, hactive.2.1⟩
  rw [get?_scan_none hnone, if_neg (not_or.mpr
    ⟨(not_mem_inactiveNames_iff hnone).mpr hnorow, hreported⟩)]
  rfl

/-- Each is that of a reported name which the server had no row of. -/
theorem of_mem_newRows (hunique : UniqueActive accounts) {s : AccountRow}
    (hs : s ∈ newRows accounts serverId now entries) :
    IsActive serverId s.linuxUsername s ∧ s.linuxUsername ∈ reported entries ∧
      s.fields = fieldsAfter (entriesOf entries s.linuxUsername) {} ∧
      (∀ r ∈ accounts.rows, ¬ (r.serverId = serverId ∧ r.linuxUsername = s.linuxUsername)) ∧
      ∀ r ∈ accounts.rows, r.id ≠ s.id := by
  obtain ⟨b, hb, j, hj, rfl⟩ := Table.mem_freshRows hs
  rw [inserts_scan hunique] at hb
  obtain ⟨name, hname, rfl⟩ := List.mem_map.mp hb
  obtain ⟨hreported, hnorow⟩ := (mem_created_iff hunique now).mp hname
  refine ⟨⟨rfl, rfl, rfl⟩, mem_entriesOf_iff.mp hreported, rfl, hnorow, fun r hr hid => ?_⟩
  have hlt := Table.key_lt_nextKey (Table.mem_mapRows.mpr
    ⟨r, hr, rfl⟩ : _ ∈ accounts.mapRows _ (scan accounts serverId now entries).id_update)
  have hkey : ((scan accounts serverId now entries).update r).id = r.id := Scan.id_update _ r
  change ((scan accounts serverId now entries).update r).id < _ at hlt
  rw [hkey, hid] at hlt
  exact absurd hlt (Nat.not_lt.mpr hj)

/-- Two of them have different names. -/
theorem eq_of_mem_newRows (hunique : UniqueActive accounts) {s s' : AccountRow}
    (hs : s ∈ newRows accounts serverId now entries)
    (hs' : s' ∈ newRows accounts serverId now entries)
    (hname : s.linuxUsername = s'.linuxUsername) : s = s' := by
  have hnames : (newRows accounts serverId now entries).map (·.linuxUsername) =
      (scan accounts serverId now entries).created := by
    rw [newRows, Table.map_freshRows, inserts_scan hunique, List.map_map]
    · exact List.map_id _
    · intro b hb i j
      rw [inserts_scan hunique] at hb
      obtain ⟨name, -, rfl⟩ := List.mem_map.mp hb
      rfl
  have hnodup : ((newRows accounts serverId now entries).map (·.linuxUsername)).Nodup :=
    hnames ▸ (tracks_scan hunique).nodup
  exact List.inj_on_of_nodup_map hnodup hs hs' hname

theorem exists_mem_newRows (hunique : UniqueActive accounts) (now : Time)
    (hreported : name ∈ reported entries)
    (hnorow : ∀ r ∈ accounts.rows, ¬ (r.serverId = serverId ∧ r.linuxUsername = name)) :
    ∃ s ∈ newRows accounts serverId now entries, s.linuxUsername = name := by
  have hcreated := (mem_created_iff hunique now).mpr
    ⟨mem_entriesOf_iff.mpr hreported, hnorow⟩
  obtain ⟨j, hj⟩ := Table.exists_mem_freshRows
    (accounts.mapRows _ (scan accounts serverId now entries).id_update).nextKey
    ((inserts_scan hunique).symm ▸ List.mem_map.mpr ⟨name, hcreated, rfl⟩)
  exact ⟨_, hj, rfl⟩

/-- **The rows after a report**: those that were there, filled in, and the new ones. -/
theorem mem_accounts_iff {s : AccountRow} :
    s ∈ (syncDiscovered accounts serverId now entries).accounts.rows ↔
      (∃ r ∈ accounts.rows, (scan accounts serverId now entries).update r = s) ∨
        s ∈ newRows accounts serverId now entries := by
  rw [rows_syncDiscovered, List.mem_append, List.mem_map]

/-- What a row keeps. -/
theorem update_keeps (m : Scan) (r : AccountRow) :
    (m.update r).toPhysicalAccount = r.toPhysicalAccount ∧ (m.update r).source = r.source ∧
      (m.update r).createdByUserId = r.createdByUserId := by
  unfold Scan.update
  split <;> exact ⟨rfl, rfl, rfl⟩

theorem uniqueActive_sync (hunique : UniqueActive accounts) :
    UniqueActive (syncDiscovered accounts serverId now entries).accounts := by
  have hold : ∀ r : AccountRow, ∀ serverId' name,
      IsActive serverId' name ((scan accounts serverId now entries).update r) ↔
        IsActive serverId' name r := by
    intro r serverId' name
    rw [IsActive, IsActive, (update_keeps _ r).1]
  intro s hs t ht hactive hst
  rcases mem_accounts_iff.mp hs with ⟨r, hr, rfl⟩ | hs
  · have hr' : IsActive r.serverId r.linuxUsername r := ⟨rfl, rfl, by
      rw [← (update_keeps _ r).1]
      exact hactive⟩
    rw [(update_keeps _ r).1] at hst
    rcases mem_accounts_iff.mp ht with ⟨q, hq, rfl⟩ | ht
    · rw [hunique r hr q hq hr'.2.2 ((hold q _ _).mp hst)]
    · obtain ⟨hnew, -, -, hnorow, -⟩ := of_mem_newRows hunique ht
      exact absurd ⟨hst.1.symm.trans hnew.1, hst.2.1.symm⟩ (hnorow r hr)
  · obtain ⟨hnew, -, -, hnorow, -⟩ := of_mem_newRows hunique hs
    rcases mem_accounts_iff.mp ht with ⟨q, hq, rfl⟩ | ht
    · have hq' := (hold q _ _).mp hst
      exact absurd ⟨hq'.1.trans hnew.1, hq'.2.1⟩ (hnorow q hq)
    · exact eq_of_mem_newRows hunique hs ht hst.2.1.symm

/-- Inactive rows, rows of other servers and rows of unreported names stay. -/
theorem others_sync (hunique : UniqueActive accounts) {s : AccountRow}
    (hnot : ¬ (IsActive serverId s.linuxUsername s ∧ s.linuxUsername ∈ reported entries)) :
    s ∈ (syncDiscovered accounts serverId now entries).accounts.rows ↔ s ∈ accounts.rows := by
  rw [mem_accounts_iff]
  constructor
  · rintro (⟨r, hr, rfl⟩ | hnew)
    · rw [update_scan hunique hr] at hnot ⊢
      split at hnot
      · next h => exact absurd h hnot
      · next h => rwa [if_neg h]
    · obtain ⟨hactive, hreported, -⟩ := of_mem_newRows hunique hnew
      exact absurd ⟨hactive, hreported⟩ hnot
  · exact fun hs => Or.inl ⟨s, hs, by rw [update_scan hunique hs, if_neg hnot]⟩

/-- An active row stays, under its key. -/
theorem exists_sync (serverId : Nat) (now : Time) (entries : List AccountScanEntry)
    (hr : r ∈ accounts.rows) :
    ∃ s ∈ (syncDiscovered accounts serverId now entries).accounts.rows,
      s.toPhysicalAccount = r.toPhysicalAccount ∧ s.source = r.source ∧
        s.createdByUserId = r.createdByUserId :=
  ⟨_, mem_accounts_iff.mpr (Or.inl ⟨r, hr, rfl⟩), update_keeps _ r⟩

/-- A reported name has an active row, unless it has inactive ones only. -/
theorem exists_active_sync (hunique : UniqueActive accounts) (now : Time) (hname : name ∈ reported entries) :
    (∃ s ∈ (syncDiscovered accounts serverId now entries).accounts.rows, IsActive serverId name s) ∨
      (∃ r ∈ accounts.rows, r.serverId = serverId ∧ r.linuxUsername = name) ∧
        ∀ r ∈ accounts.rows, ¬ IsActive serverId name r := by
  by_cases hactive : ∃ r ∈ accounts.rows, IsActive serverId name r
  · obtain ⟨r, hr, hactive⟩ := hactive
    obtain ⟨s, hs, hsame, -⟩ := exists_sync serverId now entries hr
    refine Or.inl ⟨s, hs, ?_⟩
    rw [IsActive, hsame]
    exact hactive
  · simp only [not_exists, not_and] at hactive
    by_cases hrow : ∃ r ∈ accounts.rows, r.serverId = serverId ∧ r.linuxUsername = name
    · exact Or.inr ⟨hrow, hactive⟩
    · simp only [not_exists, not_and] at hrow
      obtain ⟨s, hs, rfl⟩ := exists_mem_newRows hunique now hname
        fun r hr h => hrow r hr h.1 h.2
      exact Or.inl ⟨s, mem_accounts_iff.mpr (Or.inr hs), (of_mem_newRows hunique hs).1⟩

/-- A name that has inactive rows only gets no row. -/
theorem not_isActive_sync (hunique : UniqueActive accounts)
    (hrow : ∃ r ∈ accounts.rows, r.serverId = serverId ∧ r.linuxUsername = name)
    (hnone : ∀ r ∈ accounts.rows, ¬ IsActive serverId name r) {s : AccountRow}
    (hs : s ∈ (syncDiscovered accounts serverId now entries).accounts.rows) :
    ¬ IsActive serverId name s := by
  intro hactive
  rcases mem_accounts_iff.mp hs with ⟨r, hr, rfl⟩ | hnew
  · rw [IsActive, (update_keeps _ r).1] at hactive
    exact hnone r hr hactive
  · obtain ⟨r, hr, hserver, hname⟩ := hrow
    obtain ⟨-, -, -, hnorow, -⟩ := of_mem_newRows hunique hnew
    exact hnorow r hr ⟨hserver, hname.trans hactive.2.1.symm⟩

/-- The fields of an active row of a reported name. -/
theorem fields_sync (hunique : UniqueActive accounts) (hname : name ∈ reported entries)
    {s : AccountRow} (hs : s ∈ (syncDiscovered accounts serverId now entries).accounts.rows)
    (hactive : IsActive serverId name s) :
    (∃ r ∈ accounts.rows, r.id = s.id ∧ s.fields = fieldsAfter (entriesOf entries name) r.fields) ∨
      (∀ r ∈ accounts.rows, r.id ≠ s.id) ∧ s.fields = fieldsAfter (entriesOf entries name) {} := by
  rcases mem_accounts_iff.mp hs with ⟨r, hr, rfl⟩ | hnew
  · refine Or.inl ⟨r, hr, (Scan.id_update _ r).symm, ?_⟩
    rw [IsActive, (update_keeps _ r).1] at hactive
    obtain ⟨hserver, rfl, hactive⟩ := hactive
    rw [update_scan hunique hr, if_pos ⟨⟨hserver, rfl, hactive⟩, hname⟩]
  · obtain ⟨-, -, hfields, -, hids⟩ := of_mem_newRows hunique hnew
    obtain ⟨-, rfl, -⟩ := hactive
    exact Or.inr ⟨hids, hfields⟩

/-- **What a report does**, to accounts with at most one active row for each name. -/
theorem synced (hunique : UniqueActive accounts) (serverId : Nat) (now : Time)
    (entries : List AccountScanEntry) :
    Synced serverId entries accounts (syncDiscovered accounts serverId now entries).accounts where
  unique := uniqueActive_sync hunique
  others s hother := by
    refine others_sync hunique ?_
    rintro ⟨⟨hserver, -, hactive⟩, hreported⟩
    rcases hother with hinactive | hserver' | hunreported
    · rw [hinactive] at hactive
      cases hactive
    · exact hserver' hserver
    · exact hunreported hreported
  stays r hr hactive := by
    obtain ⟨s, hs, hsame, hrest⟩ := exists_sync serverId now entries hr
    refine ⟨s, hs, congrArg (·.id) hsame, ?_, hrest⟩
    rw [IsActive, hsame]
    exact ⟨rfl, rfl, hactive⟩
  exists_active _ hname := exists_active_sync hunique now hname
  skipped _ hrow hnone _ hs := not_isActive_sync hunique hrow hnone hs
  fields _ hname _ hs hactive := fields_sync hunique hname hs hactive

/-! ## the same report again -/

/-- A report that was applied before creates no row. -/
theorem created_again (hunique : UniqueActive accounts) (later : Time) :
    (scan (syncDiscovered accounts serverId now entries).accounts serverId later entries).created =
      [] := by
  rw [List.eq_nil_iff_forall_not_mem]
  intro name hname
  obtain ⟨hreported, hnorow⟩ := (mem_created_iff (uniqueActive_sync hunique) later).mp hname
  rcases exists_active_sync hunique now (mem_entriesOf_iff.mp hreported) with
    ⟨s, hs, hactive⟩ | ⟨⟨r, hr, hserver, hname⟩, -⟩
  · exact hnorow s hs ⟨hactive.1, hactive.2.1⟩
  · obtain ⟨s, hs, hsame, -⟩ := exists_sync serverId now entries hr
    refine hnorow s hs ?_
    rw [hsame]
    exact ⟨hserver, hname⟩

/-- And leaves each row but for its stamp. -/
theorem unstamped_again (hunique : UniqueActive accounts) (later : Time) {s : AccountRow}
    (hs : s ∈ (syncDiscovered accounts serverId now entries).accounts.rows) :
    ((scan (syncDiscovered accounts serverId now entries).accounts serverId later entries).update
      s).unstamped = s.unstamped := by
  rw [update_scan (uniqueActive_sync hunique) hs]
  split
  · next h =>
      have hfields : fieldsAfter (entriesOf entries s.linuxUsername) s.fields = s.fields := by
        rcases fields_sync hunique h.2 hs h.1 with ⟨r, -, -, hfields⟩ | ⟨-, hfields⟩
        · rw [hfields, fieldsAfter_fieldsAfter]
        · rw [hfields, fieldsAfter_fieldsAfter]
      rw [AccountRow.unstamped, hfields, AccountRow.unstamped]
  · rfl

/-- **The same report again** changes stamps only. -/
theorem settled (hunique : UniqueActive accounts) (serverId : Nat) (now later : Time)
    (entries : List AccountScanEntry) :
    SameButStamps (syncDiscovered accounts serverId now entries).accounts
      (syncDiscovered (syncDiscovered accounts serverId now entries).accounts serverId later
        entries).accounts := by
  have hnone : newRows (syncDiscovered accounts serverId now entries).accounts serverId later
      entries = [] := by
    rw [newRows, Scan.inserts, created_again hunique]
    rfl
  rw [SameButStamps, rows_syncDiscovered, hnone, List.append_nil, List.map_map]
  exact List.map_congr_left fun s hs => unstamped_again hunique later hs

/-- **Account discovery**: what a report does to accounts with at most one active row for each
name, and that it does so once. -/
theorem syncDiscovered_laws (hunique : UniqueActive accounts) (serverId : Nat) (now later : Time)
    (entries : List AccountScanEntry) :
    Synced serverId entries accounts (syncDiscovered accounts serverId now entries).accounts ∧
      SameButStamps (syncDiscovered accounts serverId now entries).accounts
        (syncDiscovered (syncDiscovered accounts serverId now entries).accounts serverId later
          entries).accounts :=
  ⟨synced hunique serverId now entries, settled hunique serverId now later entries⟩

/-- Alice has an active row, and Bob has one that an admin has deleted. -/
def known : Table AccountRow :=
  ⟨[⟨⟨1, 7, "alice", true⟩, { uid := some 1000 }, .agentCreated, some 1, none⟩,
    ⟨⟨2, 7, "bob", false⟩, {}, .discoveredScan, none, none⟩], by decide⟩

/-- A report that names Carol twice. -/
def carolTwice : List AccountScanEntry :=
  [{ linuxUsername := "carol", fields := { uid := some 1002, gid := some 100 } },
   { linuxUsername := "bob" }, { linuxUsername := "alice", fields := { gid := some 100 } },
   { linuxUsername := "carol", fields := { uid := some 1003 } }]

example : (syncDiscovered known 7 0 carolTwice).accounts.rows.map (·.fields) =
    [{ uid := some 1000, gid := some 100 }, {}, { uid := some 1003, gid := some 100 }] := by decide

theorem syncDiscovered_carolTwice : UniqueActive known ∧
    Synced 7 carolTwice known (syncDiscovered known 7 0 carolTwice).accounts ∧
      SameButStamps (syncDiscovered known 7 0 carolTwice).accounts
        (syncDiscovered (syncDiscovered known 7 0 carolTwice).accounts 7 60 carolTwice).accounts :=
  ⟨by decide, syncDiscovered_laws (by decide) 7 0 60 carolTwice⟩

end Rows

end AccountScan

end CoreLab
