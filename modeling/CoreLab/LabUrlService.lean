import CoreLab.Lib.Loops
import CoreLab.Lib.Transition
import CoreLab.SetupService

/-!
# CoreLab.LabUrlService

The JSON column `public_urls` of a lab.  Five operations load the entries, change them and write
the whole list back: the seed of the setup wizard, the two edits of an admin, and the two updates
of the reachability.

* `loadEntries_persist` — what is written is what is read back;
* `shaped_add`, `primary_add` — the edit that keeps URLs distinct and one of them primary;
* `shaped_load_iff` — the seed keeps them so only if `install.sh` staged them so;
* `along_served_iff` — over a sequence of operations.
-/

namespace CoreLab

open Loops Transition
open SetupService (UrlEntry validKinds validSources markPrimary fallbackSeedUrl replaceable)

namespace LabUrlService

/-! ## the column -/

/-- A value in a JSON object; of a float, a list or an object, what `str` and `bool` make. -/
inductive Value where
  | null
  | bool (b : Bool)
  | int (n : Int)
  | str (s : String)
  | other (text : String) (truthy : Bool)
deriving DecidableEq, Repr

/-- `str(value)`. -/
def Value.text : Value → String
  | null => "None"
  | bool b => if b then "True" else "False"
  | int n => toString n
  | str s => s
  | other text _ => text

/-- `bool(value)`. -/
def Value.truthy : Value → Bool
  | null => false
  | bool b => b
  | int n => n ≠ 0
  | str s => s ≠ ""
  | other _ truthy => truthy

/-- A stamp, of which only `None` is told apart. -/
def Value.stamp : Value → Option String
  | null => none
  | v => some v.text

/-- An element of a JSON list; `none` if it is not an object. -/
abbrev Item := Option (Dict String Value)

/-- `from_dict`, if the object has a `url`. -/
def fromDict (data : Dict String Value) : Option UrlEntry :=
  (data.get? "url").map fun url =>
    { url := url.text
      kind := ((data.get? "kind").map Value.text).getD "lan"
      source := ((data.get? "source").map Value.text).getD "manual_admin"
      verifiedAt := (data.get? "verified_at").bind Value.stamp
      lastReachableAt := (data.get? "last_reachable_at").bind Value.stamp
      primary := ((data.get? "primary").map Value.truthy).getD false }

/-- `to_dict`. -/
def toDict (e : UrlEntry) : Dict String Value where
  entries :=
    [("url", .str e.url), ("kind", .str e.kind), ("source", .str e.source),
     ("verified_at", e.verifiedAt.elim .null .str),
     ("last_reachable_at", e.lastReachableAt.elim .null .str), ("primary", .bool e.primary)]
  nodup := by simp

/-- `load_entries`. -/
def loadEntries (publicUrls : List Item) : List UrlEntry :=
  publicUrls.filterMap fun item => item.bind fromDict

/-- `_persist`. -/
def persist (entries : List UrlEntry) : List Item := entries.map fun e => some (toDict e)

theorem fromDict_toDict (e : UrlEntry) : fromDict (toDict e) = some e := by
  have hstamp : ∀ stamp : Option String, (stamp.elim .null Value.str).stamp = stamp := by
    intro stamp
    cases stamp <;> rfl
  simp [fromDict, toDict, Dict.get?, Value.text, Value.truthy, hstamp]

/-- **Round trip**: the entries that an operation wrote are the ones that the next loads. -/
@[simp] theorem loadEntries_persist (entries : List UrlEntry) :
    loadEntries (persist entries) = entries := by
  simp [loadEntries, persist, List.filterMap_map, fromDict_toDict]

/-! ## operations -/

structure LabUrlError where
  message : String
deriving DecidableEq, Repr

/-- The checks of a kind and a source. -/
def checkKindAndSource (kind source : String) : Except LabUrlError Unit :=
  if kind ∉ validKinds then .error ⟨"invalid kind: " ++ kind⟩
  else if source ∉ validSources then .error ⟨"invalid source: " ++ source⟩
  else .ok ()

def replaceAll (entries : List UrlEntry) : Except LabUrlError (List Item) := do
  entries.forM fun e => checkKindAndSource e.kind e.source
  return persist entries

/-- Change the first entry of a URL. -/
def touch (url : String) (f : UrlEntry → UrlEntry) : List UrlEntry → List UrlEntry
  | [] => []
  | e :: es => if e.url = url then f e :: es else e :: touch url f es

/-- The entries with a URL added to them. -/
def add (entries : List UrlEntry) (url kind source : String) (makePrimary : Bool) :
    List UrlEntry :=
  let others := if makePrimary then entries.map fun e => { e with primary := false } else entries
  if entries.any (·.url = url) then
    others |> touch url fun e =>
      { e with kind := kind, source := source, primary := e.primary || makePrimary }
  else others ++ [{ url := url, kind := kind, source := source, primary := makePrimary }]

def addUrl (publicUrls : List Item) (url kind source : String) (makePrimary : Bool) :
    Except LabUrlError (List Item) := do
  checkKindAndSource kind source
  if url = "" then .error ⟨"url must not be empty"⟩
  else return persist (add (loadEntries publicUrls) url kind source makePrimary)

def removeUrl (publicUrls : List Item) (url : String) : List Item :=
  persist ((loadEntries publicUrls).filter (·.url ≠ url))

/-- The stamps of a URL that answered. -/
def reached (now : String) (e : UrlEntry) : UrlEntry :=
  { e with lastReachableAt := some now, verifiedAt := e.verifiedAt.or (some now) }

def markReachable (publicUrls : List Item) (url : String) (reachable : Bool) (now : String) :
    List Item :=
  let entries := loadEntries publicUrls
  if entries.any (·.url = url) then
    persist (if reachable then touch url (reached now) entries else entries)
  else publicUrls

/-- The entries after their probes. -/
def stamped (now : String) (entries : List UrlEntry) (answers : List Bool) : List UrlEntry :=
  List.zipWith (fun e ok => if ok then reached now e else e) entries answers

/-- `probe_lab`, with what `gather` returns: one answer for each entry, or `none` if a probe
raises. -/
def probeLab (publicUrls : List Item) (answers : Option (List Bool)) (now : String) :
    Option (List Item) :=
  let entries := loadEntries publicUrls
  if entries = [] then some publicUrls
  else (answers.filter (·.length = entries.length)).map fun answers =>
    persist (stamped now entries answers)

/-! ## seeds -/

/-- What Redis has under `corelab:install:seed_urls`. -/
inductive SeedRead where
  | unavailable | absent | invalid | notAList
  | list (data : List Item)

/-- `_load_seed_urls`. -/
def loadSeedUrls : SeedRead → List UrlEntry
  | .unavailable | .absent | .invalid | .notAList => []
  | .list data => markPrimary (loadEntries data)

/-- The part of `initialize` that seeds the URLs. -/
def seedUrls (publicUrls : List Item) (read : SeedRead) (backendPublicUrl : String) :
    Except LabUrlError (List Item) :=
  let seeds := loadSeedUrls read
  let seeds := if seeds.isEmpty then fallbackSeedUrl backendPublicUrl else seeds
  if seeds.isEmpty then .ok publicUrls else replaceAll seeds

/-! ## distinct URLs, one primary -/

/-- The URLs are pairwise distinct, and at most one entry is primary. -/
structure Shaped (entries : List UrlEntry) : Prop where
  distinct : (entries.map (·.url)).Nodup
  primary : (entries.filter (·.primary)).length ≤ 1

instance (entries : List UrlEntry) : Decidable (Shaped entries) :=
  decidable_of_iff ((entries.map (·.url)).Nodup ∧ (entries.filter (·.primary)).length ≤ 1)
    ⟨fun h => ⟨h.1, h.2⟩, fun h => ⟨h.distinct, h.primary⟩⟩

variable {entries entries' : List UrlEntry} {url kind source now : String}
  {f : UrlEntry → UrlEntry} {makePrimary : Bool}

theorem shaped_nil : Shaped (loadEntries []) := ⟨List.nodup_nil, Nat.zero_le 1⟩

/-- The shape is that of the URLs and the flags. -/
theorem Shaped.congr (h : Shaped entries)
    (hsame : entries'.map (fun e => (e.url, e.primary)) = entries.map fun e => (e.url, e.primary)) :
    Shaped entries' := by
  have hurl : entries'.map (·.url) = entries.map (·.url) := by
    simpa [Function.comp_def] using congrArg (List.map Prod.fst) hsame
  have hprimary : entries'.map (·.primary) = entries.map (·.primary) := by
    simpa [Function.comp_def] using congrArg (List.map Prod.snd) hsame
  have hcount : ∀ l : List UrlEntry, (l.filter (·.primary)).length = (l.map (·.primary)).count true := by
    intro l
    rw [← List.countP_eq_length_filter, List.count, List.countP_map]
    exact List.countP_congr fun e _ => by simp
  exact ⟨hurl ▸ h.distinct, by rw [hcount, hprimary, ← hcount]; exact h.primary⟩

theorem Shaped.sublist (h : Shaped entries) (hsub : entries'.Sublist entries) : Shaped entries' :=
  ⟨h.distinct.sublist (hsub.map _), (hsub.filter _).length_le.trans h.primary⟩

/-- A column that the change of an entry leaves as it is. -/
theorem map_touch {β : Type} {column : UrlEntry → β} (hf : ∀ e, column (f e) = column e) :
    (touch url f entries).map column = entries.map column := by
  induction entries with
  | nil => rfl
  | cons e es ih =>
      rw [touch]
      split
      · rw [List.map_cons, List.map_cons, hf]
      · rw [List.map_cons, List.map_cons, ih]

/-- The entry that is made primary among others that are not. -/
theorem filter_touch (hnone : ∀ e ∈ entries, e.primary = false) (hmem : url ∈ entries.map (·.url))
    (hf : ∀ e, (f e).primary = true ∧ (f e).url = e.url) :
    ((touch url f entries).filter (·.primary)).map (·.url) = [url] := by
  induction entries with
  | nil => cases hmem
  | cons e es ih =>
      have hrest : es.filter (·.primary) = [] := by
        simpa using fun e he => hnone e (List.mem_cons_of_mem _ he)
      rw [touch]
      split
      · next hurl => simp [hf e, hrest, hurl]
      · next hurl =>
          rw [List.filter_cons_of_neg (by simp [hnone e List.mem_cons_self])]
          apply ih fun e he => hnone e (List.mem_cons_of_mem _ he)
          exact (List.mem_cons.mp hmem).resolve_left fun h => hurl h.symm

theorem Shaped.touch (h : Shaped entries) (hf : ∀ e, (f e).url = e.url ∧ (f e).primary = e.primary) :
    Shaped (touch url f entries) :=
  h.congr (map_touch fun e => by rw [(hf e).1, (hf e).2])

theorem mem_urls_iff : entries.any (·.url = url) = true ↔ url ∈ entries.map (·.url) := by
  simp

/-- **The added URL** is the primary one, if the request says so. -/
theorem primary_add (entries : List UrlEntry) (url kind source : String) :
    ((add entries url kind source true).filter (·.primary)).map (·.url) = [url] := by
  have hnone : ∀ e ∈ entries.map fun e => { e with primary := false }, e.primary = false := by
    intro e he
    obtain ⟨e, -, rfl⟩ := List.mem_map.mp he
    rfl
  rw [add, if_pos rfl]
  split
  · next hany =>
      apply filter_touch hnone
      · simpa using hany
      · exact fun e => ⟨Bool.or_true _, rfl⟩
  · rw [List.filter_append, List.filter_eq_nil_iff.mpr fun e he => by simp [hnone e he]]
    rfl

theorem urls_add (h : (entries.map (·.url)).Nodup) :
    ((add entries url kind source makePrimary).map (·.url)).Nodup := by
  have hothers : (if makePrimary then entries.map fun e => { e with primary := false }
      else entries).map (·.url) = entries.map (·.url) := by
    split
    · rw [List.map_map]; rfl
    · rfl
  rw [add]
  split
  · rw [map_touch, hothers]
    · exact h
    · exact fun _ => rfl
  · next hany =>
      rw [List.map_append, hothers]
      have hnew : url ∉ entries.map (·.url) := fun hmem => hany (mem_urls_iff.mpr hmem)
      exact h.append (List.nodup_singleton _) (by simpa using hnew)

theorem shaped_add (h : Shaped entries) (url kind source : String) (makePrimary : Bool) :
    Shaped (add entries url kind source makePrimary) := by
  refine ⟨urls_add h.distinct, ?_⟩
  cases makePrimary with
  | true =>
      have hlength := congrArg List.length (primary_add entries url kind source)
      rw [List.length_map] at hlength
      exact hlength.le
  | false =>
      rw [add]
      split
      · exact (h.touch fun e => by simp).primary
      · rw [List.filter_append]
        simpa using h.primary

/-- A column that the probes leave as it is. -/
theorem map_stamped {β : Type} {column : UrlEntry → β} {answers : List Bool}
    (hcolumn : ∀ e, column (reached now e) = column e) (hlength : answers.length = entries.length) :
    (stamped now entries answers).map column = entries.map column := by
  have hzip : (entries.zip answers).map Prod.fst = entries := List.map_fst_zip hlength.ge
  rw [stamped, ← List.map_uncurry_zip_eq_zipWith, List.map_map]
  conv_rhs => rw [← hzip, List.map_map]
  apply List.map_congr_left
  rintro ⟨e, ok⟩ _
  cases ok <;> simp [hcolumn]

/-! ## staged seeds -/

/-- The objects of a staged list that have a `url`. -/
def named (data : List Item) : List (Dict String Value) :=
  data.filterMap fun item => item.filter fun d => (d.get? "url").isSome

/-- The URL of an object. -/
def urlText (d : Dict String Value) : Option String := (d.get? "url").map Value.text

/-- An object that asks to be primary. -/
def flagged (d : Dict String Value) : Bool := (d.get? "primary").any Value.truthy

/-- An object whose kind and source are valid. -/
def known (d : Dict String Value) : Bool :=
  ((d.get? "kind").all fun v => v.text ∈ validKinds) &&
    (d.get? "source").all fun v => v.text ∈ validSources

/-- A column of the entries, read from their objects. -/
theorem map_loadEntries {β : Type} {column : UrlEntry → β} {field : Dict String Value → β}
    (h : ∀ d e, fromDict d = some e → column e = field d) (data : List Item) :
    (loadEntries data).map column = (named data).map field := by
  induction data with
  | nil => rfl
  | cons item data ih =>
      rw [loadEntries, named, List.filterMap_cons, List.filterMap_cons, ← loadEntries, ← named]
      cases item with
      | none => exact ih
      | some d =>
          cases hurl : d.get? "url" with
          | none => simp [fromDict, Option.filter_some, hurl, ih]
          | some url =>
              obtain ⟨e, he⟩ : ∃ e, fromDict d = some e := ⟨_, by rw [fromDict, hurl]; rfl⟩
              simp [he, Option.filter_some, hurl, ih, h d e he]

theorem fromDict_columns {d : Dict String Value} {e : UrlEntry} (h : fromDict d = some e) :
    some e.url = urlText d ∧ e.primary = flagged d ∧
      (decide (e.kind ∈ validKinds) && decide (e.source ∈ validSources)) = known d := by
  obtain ⟨url, hurl, rfl⟩ := Option.map_eq_some_iff.mp h
  refine ⟨by rw [urlText, hurl]; rfl, ?_, ?_⟩
  · rw [flagged]
    cases d.get? "primary" <;> rfl
  · rw [known]
    cases d.get? "kind" <;> cases d.get? "source" <;> simp [validKinds, validSources]

/-- The entries have distinct URLs and one primary if their objects have. -/
theorem shaped_load_iff (data : List Item) :
    Shaped (loadEntries data) ↔
      ((named data).map urlText).Nodup ∧ ((named data).filter flagged).length ≤ 1 := by
  have hurl : (loadEntries data).map (fun e => some e.url) = (named data).map urlText :=
    map_loadEntries (fun _ _ h => (fromDict_columns h).1) data
  have hprimary : (loadEntries data).map (·.primary) = (named data).map flagged :=
    map_loadEntries (fun _ _ h => (fromDict_columns h).2.1) data
  have hcount : ((loadEntries data).filter (·.primary)).length =
      ((named data).filter flagged).length := by
    rw [← List.countP_eq_length_filter, ← List.countP_eq_length_filter]
    simpa [List.countP_map, Function.comp_def] using congrArg (List.countP id) hprimary
  have hnodup : ((loadEntries data).map (·.url)).Nodup ↔ ((named data).map urlText).Nodup := by
    rw [← hurl, ← List.nodup_map_iff (Option.some_injective String), List.map_map]
    rfl
  exact ⟨fun h => ⟨hnodup.mp h.distinct, hcount ▸ h.primary⟩,
    fun h => ⟨hnodup.mpr h.1, hcount ▸ h.2⟩⟩

theorem replaceable_load (data : List Item) :
    replaceable (loadEntries data) = (named data).all known := by
  have hknown := map_loadEntries (fun _ _ h => (fromDict_columns h).2.2) data
  simpa [replaceable, List.all_map, Function.comp_def] using congrArg (List.all · id) hknown

theorem urls_markPrimary (entries : List UrlEntry) :
    (markPrimary entries).map (·.url) = entries.map (·.url) := by
  cases entries with
  | nil => rfl
  | cons e es =>
      rw [markPrimary]
      split <;> rfl

theorem replaceable_markPrimary (entries : List UrlEntry) :
    replaceable (markPrimary entries) = replaceable entries := by
  cases entries with
  | nil => rfl
  | cons e es =>
      rw [markPrimary]
      split <;> rfl

theorem markPrimary_eq_nil {entries : List UrlEntry} : markPrimary entries = [] ↔ entries = [] := by
  cases entries with
  | nil => simp [markPrimary]
  | cons e es =>
      rw [markPrimary]
      split <;> simp

/-- The flag that is set where none was is the only one. -/
theorem shaped_markPrimary_iff : Shaped (markPrimary entries) ↔ Shaped entries := by
  have hprimary : ((markPrimary entries).filter (·.primary)).length ≤ 1 ↔
      (entries.filter (·.primary)).length ≤ 1 := by
    cases entries with
    | nil => rfl
    | cons e es =>
        rw [markPrimary]
        split
        · rfl
        · next hany =>
            have hnone : ∀ x ∈ e :: es, ¬ x.primary = true := by simpa using hany
            rw [List.filter_eq_nil_iff.mpr hnone, List.filter_cons_of_pos rfl,
              List.filter_eq_nil_iff.mpr fun x hx => hnone x (List.mem_cons_of_mem _ hx)]
            simp
  constructor
  · exact fun h => ⟨urls_markPrimary entries ▸ h.distinct, hprimary.mp h.primary⟩
  · exact fun h => ⟨(urls_markPrimary entries).symm ▸ h.distinct, hprimary.mpr h.primary⟩

/-! ## sequences of operations -/

inductive Request where
  | replaceAll (read : SeedRead) (backendPublicUrl : String)
  | addUrl (url kind source : String) (makePrimary : Bool)
  | removeUrl (url : String)
  | markReachable (url : String) (reachable : Bool) (now : String)
  | probeLab (answers : Option (List Bool)) (now : String)

/-- What an operation raises. -/
inductive Raised where
  | labUrlError (e : LabUrlError)
  | probe
deriving DecidableEq, Repr

/-- The column that an operation writes. -/
def serve (publicUrls : List Item) : Request → Except Raised (List Item)
  | .replaceAll read backendPublicUrl =>
    (seedUrls publicUrls read backendPublicUrl).mapError .labUrlError
  | .addUrl url kind source makePrimary =>
    (addUrl publicUrls url kind source makePrimary).mapError .labUrlError
  | .removeUrl url => .ok (removeUrl publicUrls url)
  | .markReachable url reachable now => .ok (markReachable publicUrls url reachable now)
  | .probeLab answers now => (probeLab publicUrls answers now).elim (.error .probe) .ok

/-- The column after an operation: one that raises writes nothing. -/
def step (publicUrls : List Item) (req : Request) : Option (List Item) :=
  some ((serve publicUrls req).toOption.getD publicUrls)

/-- The shape of the column after an operation, and the primary URL after an edit that sets it. -/
structure Served (publicUrls : List Item) (req : Request) (publicUrls' : List Item) : Prop where
  shaped : Shaped (loadEntries publicUrls')
  primary : ∀ url kind source, req = .addUrl url kind source true →
    serve publicUrls req = .ok publicUrls' →
    ((loadEntries publicUrls').filter (·.primary)).map (·.url) = [url]

/-- A staged list that is accepted names no URL twice, and flags at most one. -/
def StagedOnce : Request → Prop
  | .replaceAll (.list data) _ =>
    (∀ d ∈ named data, known d = true) →
      ((named data).map urlText).Nodup ∧ ((named data).filter flagged).length ≤ 1
  | _ => True

variable {publicUrls publicUrls' : List Item} {req : Request}

theorem replaceAll_eq (entries : List UrlEntry) :
    (replaceAll entries).toOption = if replaceable entries then some (persist entries) else none := by
  have hcheck : ∀ e : UrlEntry, checkKindAndSource e.kind e.source = .ok () ↔
      (decide (e.kind ∈ validKinds) && decide (e.source ∈ validSources)) = true := by
    intro e
    by_cases hkind : e.kind ∈ validKinds <;> by_cases hsource : e.source ∈ validSources <;>
      simp [checkKindAndSource, hkind, hsource]
  apply Option.ext
  intro items
  rw [toOption_eq_some_iff, replaceAll, check_bind_eq_ok_iff, forM_eq_ok_iff]
  simp only [hcheck, replaceable, Option.ite_none_right_eq_some, List.all_eq_true, Option.some.injEq]
  exact and_congr_right fun _ => ⟨Except.ok.inj, congrArg _⟩

/-- The fallback is one entry that is accepted. -/
theorem fallbackSeedUrl_cases (backendPublicUrl : String) :
    fallbackSeedUrl backendPublicUrl = [] ∨
      replaceable (fallbackSeedUrl backendPublicUrl) ∧ Shaped (fallbackSeedUrl backendPublicUrl) := by
  rw [fallbackSeedUrl]
  split
  · exact .inl rfl
  · refine .inr ⟨?_, List.nodup_singleton _, List.length_filter_le ..⟩
    simp only [replaceable, List.all_cons, List.all_nil]
    split <;> simp [validKinds, validSources]

/-- A seed keeps the shape exactly if it was staged so. -/
theorem shaped_seed_iff (h : Shaped (loadEntries publicUrls)) (read : SeedRead)
    (backendPublicUrl : String) :
    Shaped (loadEntries ((seedUrls publicUrls read backendPublicUrl).toOption.getD publicUrls)) ↔
      StagedOnce (.replaceAll read backendPublicUrl) := by
  have hfallback : loadSeedUrls read = [] →
      Shaped (loadEntries ((seedUrls publicUrls read backendPublicUrl).toOption.getD publicUrls)) := by
    intro hnil
    simp only [seedUrls, hnil, List.isEmpty_nil, if_true]
    rcases fallbackSeedUrl_cases backendPublicUrl with hurl | ⟨haccepted, hshaped⟩
    · simpa [hurl, Except.toOption] using h
    · split
      · exact h
      · rw [replaceAll_eq, if_pos haccepted, Option.getD_some, loadEntries_persist]
        exact hshaped
  cases read with
  | list data =>
      by_cases hnil : loadEntries data = []
      · have hunits : (loadEntries data).map (fun _ => ()) = (named data).map fun _ => () :=
          map_loadEntries (fun _ _ _ => rfl) data
        have hnone : named data = [] := by simpa [hnil] using hunits.symm
        simp only [StagedOnce, hnone]
        exact iff_of_true (hfallback (markPrimary_eq_nil.mpr hnil)) (by simp)
      · have hseeds : markPrimary (loadEntries data) ≠ [] := mt markPrimary_eq_nil.mp hnil
        have hreplace : replaceable (markPrimary (loadEntries data)) = (named data).all known := by
          rw [replaceable_markPrimary, replaceable_load]
        simp only [seedUrls, loadSeedUrls, List.isEmpty_iff, hseeds, if_false, replaceAll_eq,
          hreplace, StagedOnce, ← List.all_eq_true, ← shaped_load_iff]
        split
        · next haccepted => simp [haccepted, shaped_markPrimary_iff]
        · next hrefused => simp [hrefused, h]
  | unavailable | absent | invalid | notAList => exact iff_of_true (hfallback rfl) True.intro

theorem toOption_mapError {ε ε' α : Type} (f : ε → ε') (x : Except ε α) :
    (x.mapError f).toOption = x.toOption := by
  cases x <;> rfl

theorem addUrl_eq_ok {url kind source : String} {makePrimary : Bool} {items : List Item}
    (h : addUrl publicUrls url kind source makePrimary = .ok items) :
    items = persist (add (loadEntries publicUrls) url kind source makePrimary) := by
  obtain ⟨-, h⟩ := check_bind_eq_ok_iff.mp h
  split_ifs at h
  exact (Except.ok.inj h).symm

theorem shaped_markReachable (h : Shaped (loadEntries publicUrls)) (url : String) (reachable : Bool)
    (now : String) : Shaped (loadEntries (markReachable publicUrls url reachable now)) := by
  simp only [markReachable]
  split
  · rw [loadEntries_persist]
    split
    · exact h.touch fun _ => ⟨rfl, rfl⟩
    · exact h
  · exact h

theorem shaped_probeLab (h : Shaped (loadEntries publicUrls)) {answers : Option (List Bool)}
    {now : String} {items : List Item} (hprobe : probeLab publicUrls answers now = some items) :
    Shaped (loadEntries items) := by
  simp only [probeLab] at hprobe
  split at hprobe
  · exact Option.some.inj hprobe ▸ h
  · obtain ⟨answers, hanswers, rfl⟩ := Option.map_eq_some_iff.mp hprobe
    rw [loadEntries_persist]
    have hlength : answers.length = (loadEntries publicUrls).length := by
      simpa using (Option.filter_eq_some_iff.mp hanswers).2
    exact h.congr (map_stamped (fun _ => rfl) hlength)

/-- **One operation** keeps the shape exactly if it is no seed that was staged otherwise. -/
theorem served_iff (h : Shaped (loadEntries publicUrls))
    (hstep : step publicUrls req = some publicUrls') :
    Served publicUrls req publicUrls' ↔ StagedOnce req := by
  obtain rfl := Option.some.inj hstep
  cases req with
  | replaceAll read backendPublicUrl =>
      rw [← shaped_seed_iff h]
      simp only [serve, toOption_mapError]
      exact ⟨Served.shaped, fun hshaped => ⟨hshaped, fun _ _ _ hreq => (nomatch hreq)⟩⟩
  | addUrl url kind source makePrimary =>
      refine iff_of_true ⟨?_, fun u k s hreq hok => ?_⟩ True.intro
      · simp only [serve, toOption_mapError]
        cases hadd : addUrl publicUrls url kind source makePrimary with
        | error e => exact h
        | ok items =>
            rw [addUrl_eq_ok hadd]
            simpa [Except.toOption] using shaped_add h url kind source makePrimary
      · obtain ⟨rfl, rfl, rfl, rfl⟩ := Request.addUrl.inj hreq
        have hadd := congrArg Except.toOption hok
        rw [serve, toOption_mapError] at hadd ⊢
        rw [addUrl_eq_ok (toOption_eq_some_iff.mp hadd), loadEntries_persist]
        exact primary_add (loadEntries publicUrls) url kind source
  | removeUrl url =>
      refine iff_of_true ⟨?_, fun _ _ _ hreq => (nomatch hreq)⟩ True.intro
      simpa [serve, Except.toOption, removeUrl] using h.sublist List.filter_sublist
  | markReachable url reachable now =>
      exact iff_of_true
        ⟨shaped_markReachable h url reachable now, fun _ _ _ hreq => (nomatch hreq)⟩ True.intro
  | probeLab answers now =>
      refine iff_of_true ⟨?_, fun _ _ _ hreq => (nomatch hreq)⟩ True.intro
      cases hprobe : probeLab publicUrls answers now with
      | none => simpa [serve, hprobe, Except.toOption] using h
      | some items => simpa [serve, hprobe, Except.toOption] using shaped_probeLab h hprobe

/-- **The URL list** has distinct URLs and at most one primary after every operation, exactly
if no seed was staged otherwise. -/
theorem along_served_iff (reqs : List Request) :
    Along step Served [] reqs ↔ ∀ req ∈ reqs, StagedOnce req := by
  have htotal : ∀ publicUrls req, ∃ publicUrls', step publicUrls req = some publicUrls' :=
    fun _ _ => ⟨_, rfl⟩
  rw [← meets_iff_forall htotal]
  exact along_iff_meets_of_keeps (fun _ _ _ => served_iff) (fun _ _ _ _ _ => Served.shaped)
    (fun _ _ hnone => nomatch hnone) shaped_nil

/-- An object of a staged list. -/
def staged (url : String) (primary : Bool) : Item :=
  some ⟨[("url", .str url), ("kind", .str "lan"), ("source", .str "install_sh_probe"),
    ("primary", .bool primary)], by simp⟩

/-- One URL is staged twice. -/
def stagedTwice : Request :=
  .replaceAll (.list [staged "http://10.0.0.5:8080" false, staged "http://10.0.0.5:8080" false]) ""

/-- Two URLs are staged as primary. -/
def stagedPrimaries : Request :=
  .replaceAll (.list [staged "http://10.0.0.5:8080" true, staged "http://10.0.0.6:8080" true]) ""

theorem not_along_served : ¬ Along step Served [] [stagedTwice] ∧
    ¬ Along step Served [] [stagedPrimaries] := by
  constructor
  · intro h
    exact absurd (h _ rfl).1.shaped.distinct (by decide)
  · intro h
    exact absurd (h _ rfl).1.shaped.primary (by decide)

end LabUrlService

end CoreLab
