import Mathlib.Data.List.DropRight

/-!
# Lib.TomlDocument

The data of a TOML document, put together statement by statement as Python's `tomllib`
does: a nest of tables, and flags for the names that later statements may not open again.

* `apply`, `run` — one statement, and all of them;
* `apply_drop` — a statement about other names does not depend on a set of names;
* `run_drop`, `run_of_drop` — so assignments to these names at the top can be left out of a
  document, or put in;
* `run_of_reassigned` — or be replaced by one;
* `clear_or_isNest` — unless one of the names is that of a table.
-/

namespace Toml

/-- A part of a key. -/
abbrev Key := List Char

inductive Value
  | string (s : List Char)
  | boolean (b : Bool)
  /-- A number, a date or a time, as it is written. -/
  | scalar (text : List Char)
  | array (items : List Value)
  | table (entries : List (Key × Value))

abbrev Table := List (Key × Value)

/-! ## tables -/

/-- The value of a key. -/
def find : Table → Key → Option Value
  | [], _ => none
  | e :: t, k => if e.1 = k then some e.2 else find t k

/-- Assign, in place where the key is there. -/
def put : Table → Key → Value → Table
  | [], k, v => [(k, v)]
  | e :: t, k, v => if e.1 = k then (k, v) :: t else e :: put t k v

/-- A key that is not there yet. -/
def add (k : Key) (v : Value) (t : Table) : Option Table :=
  if (find t k).isSome then none else some (t ++ [(k, v)])

/-- `get_or_create_nest`, and what is done to the nest. -/
def updateNest (accessLists : Bool) : List Key → (Table → Option Table) → Table → Option Table
  | [], f, t => f t
  | k :: ks, f, t =>
      match find t k with
      | none => (updateNest accessLists ks f []).map fun u => put t k (.table u)
      | some (.table u) => (updateNest accessLists ks f u).map fun u' => put t k (.table u')
      | some (.array items) =>
          match accessLists, items.getLast? with
          | true, some (.table u) => (updateNest accessLists ks f u).map fun u' =>
              put t k (.array (items.dropLast ++ [.table u']))
          | _, _ => none
      | some _ => none

/-- The end of `append_nest_to_list`. -/
def appendNest (k : Key) (t : Table) : Option Table :=
  match find t k with
  | none => some (put t k (.array [.table []]))
  | some (.array items) => some (put t k (.array (items ++ [.table []])))
  | some _ => none

/-! ## flags -/

inductive FlagKind
  | frozen | explicitNest
deriving DecidableEq

/-- A flag on a name, and on what is below it if recursive. -/
structure Flag where
  path : List Key
  kind : FlagKind
  recursive : Bool
deriving DecidableEq

/-- `Flags.is_`. -/
def isSet (flags : List Flag) (key : List Key) (kind : FlagKind) : Bool :=
  key ≠ [] && flags.any fun f =>
    f.kind = kind && (f.path = key || f.recursive && f.path.isPrefixOf key)

/-- `Flags.unset_all`. -/
def unsetAll (flags : List Flag) (key : List Key) : List Flag :=
  flags.filter fun f => !key.isPrefixOf f.path

def isContainer : Value → Bool
  | .array _ | .table _ => true
  | _ => false

/-- An array or an inline table cannot be changed later. -/
def freeze (flags : List Flag) (key : List Key) (v : Value) : List Flag :=
  if isContainer v then ⟨key, .frozen, true⟩ :: flags else flags

/-- One pair of an inline table. -/
def inlinePair (acc : Table × List Flag) (pair : List Key × Value) : Option (Table × List Flag) :=
  if isSet acc.2 pair.1 .frozen then none
  else (updateNest false pair.1.dropLast (add (pair.1.getLastD []) pair.2) acc.1).map fun t =>
    (t, freeze acc.2 pair.1 pair.2)

/-- The pairs of an inline table. -/
def inlineTable (pairs : List (List Key × Value)) : Option Table :=
  (pairs.foldlM inlinePair ([], [])).map Prod.fst

/-! ## statements -/

inductive Statement
  | keyValue (key : List Key) (v : Value)
  | table (key : List Key)
  | arrayTable (key : List Key)

structure Document where
  data : Table
  flags : List Flag
  /-- Names that are closed at the next header. -/
  pending : List (List Key)
  header : List Key

namespace Document

def empty : Document := ⟨[], [], [], []⟩

end Document

/-- The names that a dotted key opens. -/
def openedKeys (header key : List Key) : List (List Key) :=
  (List.range' 1 (key.length - 1)).map fun i => header ++ key.take i

/-- `Flags.finalize_pending`. -/
def finalizePending (d : Document) : List Flag :=
  d.pending.map (⟨·, .explicitNest, false⟩) ++ d.flags

/-- `key_value_rule`, after parsing. -/
def keyValueRule (d : Document) (key : List Key) (v : Value) : Option Document :=
  if (openedKeys d.header key).any (isSet d.flags · .explicitNest) ||
      isSet d.flags (d.header ++ key.dropLast) .frozen then none
  else (updateNest true (d.header ++ key.dropLast) (add (key.getLastD []) v) d.data).map fun t =>
    ⟨t, freeze d.flags (d.header ++ key) v, openedKeys d.header key ++ d.pending, d.header⟩

/-- `create_dict_rule`, after parsing. -/
def createDictRule (d : Document) (key : List Key) : Option Document :=
  if isSet (finalizePending d) key .explicitNest || isSet (finalizePending d) key .frozen then none
  else (updateNest true key some d.data).map fun t =>
    ⟨t, ⟨key, .explicitNest, false⟩ :: finalizePending d, [], key⟩

/-- `create_list_rule`, after parsing. -/
def createListRule (d : Document) (key : List Key) : Option Document :=
  if isSet (finalizePending d) key .frozen then none
  else (updateNest true key.dropLast (appendNest (key.getLastD [])) d.data).map fun t =>
    ⟨t, ⟨key, .explicitNest, false⟩ :: unsetAll (finalizePending d) key, [], key⟩

/-- One statement. -/
def apply (d : Document) : Statement → Option Document
  | .keyValue key v => keyValueRule d key v
  | .table key => createDictRule d key
  | .arrayTable key => createListRule d key

/-- All statements. -/
def run (d : Document) (sts : List Statement) : Option Document := sts.foldlM apply d

/-! ## without some names -/

section Drop

variable (p : Key → Bool)

/-- The name is below one of them. -/
def below (path : List Key) : Bool := path.head?.any p

/-- The table without them. -/
def dropKeys (t : Table) : Table := t.filter fun e => !p e.1

def dropFlags (flags : List Flag) : List Flag := flags.filter fun f => !below p f.path

/-- The document without them. -/
def drop (d : Document) : Document :=
  { d with
    data := dropKeys p d.data
    flags := dropFlags p d.flags
    pending := d.pending.filter (!below p ·) }

variable {p}

theorem find_dropKeys {k : Key} (hk : p k = false) (t : Table) :
    find (dropKeys p t) k = find t k := by
  induction t with
  | nil => rfl
  | cons e t ih =>
      rw [dropKeys, List.filter_cons, find]
      split
      · rw [find]
        split
        · rfl
        · exact ih
      · next he =>
          have hne : e.1 ≠ k := by
            intro heq
            rw [heq, hk] at he
            exact he rfl
          rw [if_neg hne]
          exact ih

theorem dropKeys_put {k : Key} (hk : p k = false) (t : Table) (v : Value) :
    dropKeys p (put t k v) = put (dropKeys p t) k v := by
  induction t with
  | nil => simp [put, dropKeys, hk]
  | cons e t ih =>
      rw [put]
      by_cases he : e.1 = k
      · rw [if_pos he]
        simp [dropKeys, hk, he, put]
      · rw [if_neg he]
        have hcons : ∀ t, dropKeys p (e :: t) =
            if p e.1 then dropKeys p t else e :: dropKeys p t := by
          intro t
          simp only [dropKeys, List.filter_cons]
          cases p e.1 <;> rfl
        rw [hcons, hcons, ih]
        split
        · rfl
        · rw [put, if_neg he]

/-- What is done to the nest does not depend on the names. -/
def Blind (p : Key → Bool) (f : Table → Option Table) : Prop :=
  ∀ t, f (dropKeys p t) = (f t).map (dropKeys p)

theorem blind_some : Blind p some := fun _ => rfl

theorem blind_add {k : Key} (hk : p k = false) (v : Value) : Blind p (add k v) := by
  intro t
  rw [add, add, find_dropKeys hk]
  split
  · rfl
  · simp [dropKeys, hk]

theorem blind_appendNest {k : Key} (hk : p k = false) : Blind p (appendNest k) := by
  intro t
  rw [appendNest, appendNest, find_dropKeys hk]
  split
  · rw [Option.map_some, dropKeys_put hk]
  · rw [Option.map_some, dropKeys_put hk]
  · rfl

/-- A nest that is below none of the names, or at the top. -/
theorem updateNest_dropKeys {lists : Bool} {path : List Key} {f : Table → Option Table}
    (hpath : below p path = false) (hf : path = [] → Blind p f) (t : Table) :
    updateNest lists path f (dropKeys p t) = (updateNest lists path f t).map (dropKeys p) := by
  cases path with
  | nil => exact hf rfl t
  | cons k ks =>
      have hk : p k = false := hpath
      rw [updateNest, updateNest, find_dropKeys hk]
      split
      · simp [Option.map_map, Function.comp_def, dropKeys_put hk]
      · simp [Option.map_map, Function.comp_def, dropKeys_put hk]
      · split
        · simp [Option.map_map, Function.comp_def, dropKeys_put hk]
        · rfl
      · rfl

/-- A prefix of a name is below the same. -/
theorem below_of_isPrefix {path key : List Key} (hpre : path <+: key)
    (h : below p key = false) : below p path = false := by
  obtain ⟨rest, rfl⟩ := hpre
  cases path with
  | nil => rfl
  | cons k ks => exact h

theorem isSet_dropFlags {flags : List Flag} {key : List Key} (kind : FlagKind)
    (h : below p key = false) : isSet (dropFlags p flags) key kind = isSet flags key kind := by
  rw [isSet, isSet, dropFlags, List.any_filter]
  congr 1
  refine List.any_congr rfl fun f => ?_
  by_cases hf : f.path <+: key
  · rw [below_of_isPrefix hf h]
    rfl
  · have hne : f.path ≠ key := fun he => hf (he ▸ List.prefix_refl _)
    have hfalse : f.path.isPrefixOf key = false :=
      Bool.eq_false_iff.mpr fun he => hf (List.isPrefixOf_iff_prefix.mp he)
    simp [hne, hfalse]

theorem unsetAll_dropFlags (flags : List Flag) (key : List Key) :
    unsetAll (dropFlags p flags) key = dropFlags p (unsetAll flags key) := by
  rw [unsetAll, dropFlags, List.filter_filter, unsetAll, dropFlags, List.filter_filter]
  refine List.filter_congr fun f _ => ?_
  exact Bool.and_comm _ _

theorem dropFlags_freeze {flags : List Flag} {key : List Key} (v : Value)
    (h : below p key = false) :
    dropFlags p (freeze flags key v) = freeze (dropFlags p flags) key v := by
  rw [freeze, freeze]
  split
  · rw [dropFlags, List.filter_cons_of_pos (by simpa using h), dropFlags]
  · rfl

theorem finalizePending_drop (d : Document) :
    finalizePending (drop p d) = dropFlags p (finalizePending d) := by
  rw [finalizePending, finalizePending, dropFlags, List.filter_append, List.filter_map]
  rfl

/-- The name that a statement is about. -/
def subject (header : List Key) : Statement → List Key
  | .keyValue key _ => header ++ key
  | .table key | .arrayTable key => key

theorem below_openedKeys {header key path : List Key} (h : below p (header ++ key) = false)
    (hpath : path ∈ openedKeys header key) : below p path = false := by
  obtain ⟨i, -, rfl⟩ := List.mem_map.mp hpath
  exact below_of_isPrefix ((List.prefix_append_right_inj header).mpr (List.take_prefix i key)) h

theorem dropLast_eq_nil {key : List Key} (hp : p [] = false) (h : below p key = false)
    (hlast : key.dropLast = []) : p (key.getLastD []) = false := by
  match key, hlast with
  | [], _ => exact hp
  | [k], _ => exact h

theorem keyValueRule_drop (hp : p [] = false) {d : Document} {key : List Key} (v : Value)
    (h : below p (d.header ++ key) = false) :
    keyValueRule (drop p d) key v = (keyValueRule d key v).map (drop p) := by
  have hparent : below p (d.header ++ key.dropLast) = false := below_of_isPrefix
    ((List.prefix_append_right_inj d.header).mpr (List.dropLast_prefix key)) h
  have hopened : (openedKeys d.header key).any (isSet (dropFlags p d.flags) · .explicitNest) =
      (openedKeys d.header key).any (isSet d.flags · .explicitNest) := by
    rw [Bool.eq_iff_iff, List.any_eq_true, List.any_eq_true]
    refine exists_congr fun path => and_congr_right fun hpath => ?_
    rw [isSet_dropFlags _ (below_openedKeys h hpath)]
  have hnest : updateNest true (d.header ++ key.dropLast) (add (key.getLastD []) v)
      (dropKeys p d.data) = (updateNest true (d.header ++ key.dropLast) (add (key.getLastD []) v)
        d.data).map (dropKeys p) := by
    refine updateNest_dropKeys hparent (fun hnil => blind_add ?_ v) d.data
    obtain ⟨hheader, hlast⟩ := List.append_eq_nil_iff.mp hnil
    rw [hheader] at h
    exact dropLast_eq_nil hp h hlast
  have hpending : (openedKeys d.header key).filter (!below p ·) = openedKeys d.header key :=
    List.filter_eq_self.mpr fun path hpath => by rw [below_openedKeys h hpath]; rfl
  have hfrozen : isSet (dropFlags p d.flags) (d.header ++ key.dropLast) .frozen =
      isSet d.flags (d.header ++ key.dropLast) .frozen := isSet_dropFlags _ hparent
  simp only [keyValueRule, drop, hopened, hfrozen, hnest]
  split
  · rfl
  · simp only [Option.map_map, Function.comp_def, drop, List.filter_append, hpending,
      dropFlags_freeze v h]

theorem createDictRule_drop {d : Document} {key : List Key} (h : below p key = false) :
    createDictRule (drop p d) key = (createDictRule d key).map (drop p) := by
  have hnest : updateNest true key some (dropKeys p d.data) =
      (updateNest true key some d.data).map (dropKeys p) :=
    updateNest_dropKeys h (fun _ => blind_some) d.data
  have hdata : (drop p d).data = dropKeys p d.data := rfl
  simp only [createDictRule, finalizePending_drop, isSet_dropFlags _ h, hdata, hnest]
  split
  · rfl
  · simp [Option.map_map, Function.comp_def, drop, dropFlags, h]

theorem createListRule_drop (hp : p [] = false) {d : Document} {key : List Key}
    (h : below p key = false) :
    createListRule (drop p d) key = (createListRule d key).map (drop p) := by
  have hparent : below p key.dropLast = false := below_of_isPrefix (List.dropLast_prefix key) h
  have hnest : updateNest true key.dropLast (appendNest (key.getLastD [])) (dropKeys p d.data) =
      (updateNest true key.dropLast (appendNest (key.getLastD [])) d.data).map (dropKeys p) :=
    updateNest_dropKeys hparent
      (fun hnil => blind_appendNest (dropLast_eq_nil hp h hnil)) d.data
  have hdata : (drop p d).data = dropKeys p d.data := rfl
  simp only [createListRule, finalizePending_drop, isSet_dropFlags _ h, unsetAll_dropFlags, hdata,
    hnest]
  split
  · rfl
  · simp [Option.map_map, Function.comp_def, drop, dropFlags, h]

/-- **A statement about other names** does the same to the document without some. -/
theorem apply_drop (hp : p [] = false) {d : Document} {st : Statement}
    (h : below p (subject d.header st) = false) :
    apply (drop p d) st = (apply d st).map (drop p) := by
  cases st with
  | keyValue key v => exact keyValueRule_drop hp v h
  | table key => exact createDictRule_drop h
  | arrayTable key => exact createListRule_drop hp h

/-! ## the values of the names -/

theorem find_put (t : Table) (k j : Key) (v : Value) :
    find (put t k v) j = if j = k then some v else find t j := by
  induction t with
  | nil =>
      rw [put, find]
      simp only [find, eq_comm]
  | cons e t ih =>
      rw [put]
      by_cases he : e.1 = k
      · rw [if_pos he, find, find, he]
        grind
      · rw [if_neg he, find, ih, find]
        grind

theorem find_concat (t : Table) (k j : Key) (v : Value) :
    find (t ++ [(k, v)]) j = (find t j).or (if j = k then some v else none) := by
  induction t with
  | nil =>
      rw [List.nil_append, find, find]
      simp [find, eq_comm]
  | cons e t ih =>
      rw [List.cons_append, find, find]
      split
      · rfl
      · exact ih

/-- A nest elsewhere leaves a value alone. -/
theorem find_updateNest {lists : Bool} {path : List Key} {f : Table → Option Table} {t t' : Table}
    {j : Key} (hpath : ∀ k, path.head? = some k → j ≠ k)
    (hf : path = [] → ∀ u u', f u = some u' → find u' j = find u j)
    (h : updateNest lists path f t = some t') : find t' j = find t j := by
  cases path with
  | nil => exact hf rfl t t' h
  | cons k ks =>
      have hput : ∀ v, find (put t k v) j = find t j := fun v => by
        rw [find_put, if_neg (hpath k rfl)]
      rw [updateNest] at h
      split at h
      · obtain ⟨u, -, rfl⟩ := Option.map_eq_some_iff.mp h
        exact hput _
      · obtain ⟨u, -, rfl⟩ := Option.map_eq_some_iff.mp h
        exact hput _
      · split at h
        · obtain ⟨u, -, rfl⟩ := Option.map_eq_some_iff.mp h
          exact hput _
        · cases h
      · cases h

theorem find_add {k j : Key} {v : Value} {t t' : Table} (h : add k v t = some t') (hne : j ≠ k) :
    find t' j = find t j := by
  unfold add at h
  split at h
  · cases h
  · obtain rfl := Option.some.inj h
    rw [find_concat, if_neg hne, Option.or_none]

theorem find_appendNest {k j : Key} {t t' : Table} (h : appendNest k t = some t') (hne : j ≠ k) :
    find t' j = find t j := by
  unfold appendNest at h
  split at h
  · obtain rfl := Option.some.inj h
    rw [find_put, if_neg hne]
  · obtain rfl := Option.some.inj h
    rw [find_put, if_neg hne]
  · cases h

/-- A statement about other names leaves the values of some alone. -/
theorem find_apply (hp : p [] = false) {d d' : Document} {st : Statement} {j : Key}
    (hj : p j = true) (h : below p (subject d.header st) = false) (happly : apply d st = some d') :
    find d'.data j = find d.data j := by
  have hhead : ∀ {path : List Key}, below p path = false → ∀ k, path.head? = some k → j ≠ k := by
    intro path hpath k hk he
    rw [below, hk, ← he, Option.any_some, hj] at hpath
    cases hpath
  have hlast : ∀ {key : List Key}, below p key = false → key.dropLast = [] →
      j ≠ key.getLastD [] := by
    intro key hkey hnil he
    rw [he, dropLast_eq_nil hp hkey hnil] at hj
    cases hj
  cases st with
  | keyValue key v =>
      simp only [apply, keyValueRule] at happly
      split at happly
      · cases happly
      · obtain ⟨t, ht, rfl⟩ := Option.map_eq_some_iff.mp happly
        have hparent : below p (d.header ++ key.dropLast) = false := below_of_isPrefix
          ((List.prefix_append_right_inj d.header).mpr (List.dropLast_prefix key)) h
        refine find_updateNest (hhead hparent) (fun hnil u u' hu => find_add hu ?_) ht
        obtain ⟨hheader, hkey⟩ := List.append_eq_nil_iff.mp hnil
        rw [subject, hheader] at h
        exact hlast h hkey
  | table key =>
      simp only [apply, createDictRule] at happly
      split at happly
      · cases happly
      · obtain ⟨t, ht, rfl⟩ := Option.map_eq_some_iff.mp happly
        refine find_updateNest (hhead h) (fun _ u u' hu => ?_) ht
        rw [Option.some.inj hu]
  | arrayTable key =>
      simp only [apply, createListRule] at happly
      split at happly
      · cases happly
      · obtain ⟨t, ht, rfl⟩ := Option.map_eq_some_iff.mp happly
        exact find_updateNest (hhead (below_of_isPrefix (List.dropLast_prefix key) h))
          (fun hnil u u' hu => find_appendNest hu (hlast h hnil)) ht

/-! ## nests -/

/-- A table, or an array that a header can add to. -/
def IsNest (v : Option Value) : Prop :=
  (∃ t, v = some (.table t)) ∨ ∃ items t, v = some (.array (items ++ [.table t]))

/-- A path leads through a nest. -/
theorem isNest_updateNest {lists : Bool} {k : Key} {ks : List Key} {f : Table → Option Table}
    {t t' : Table} (h : updateNest lists (k :: ks) f t = some t') : IsNest (find t' k) := by
  have hput : ∀ v, find (put t k v) k = some v := fun v => by rw [find_put, if_pos rfl]
  rw [updateNest] at h
  split at h
  · obtain ⟨u, -, rfl⟩ := Option.map_eq_some_iff.mp h
    exact Or.inl ⟨u, hput _⟩
  · obtain ⟨u, -, rfl⟩ := Option.map_eq_some_iff.mp h
    exact Or.inl ⟨u, hput _⟩
  · split at h
    · obtain ⟨u, -, rfl⟩ := Option.map_eq_some_iff.mp h
      exact Or.inr ⟨_, u, hput _⟩
    · cases h
  · cases h

theorem isNest_updateNest_of_isNest {lists : Bool} {path : List Key} {f : Table → Option Table}
    {t t' : Table} {j : Key} (hf : ∀ u u', f u = some u' → IsNest (find u j) → IsNest (find u' j))
    (h : updateNest lists path f t = some t') (hnest : IsNest (find t j)) :
    IsNest (find t' j) := by
  cases path with
  | nil => exact hf t t' h hnest
  | cons k ks =>
      by_cases hjk : j = k
      · exact hjk ▸ isNest_updateNest h
      · have hsame : find t' j = find t j := by
          refine find_updateNest (fun k' hk' => ?_) (fun hnil => ?_) h
          · exact Option.some.inj hk' ▸ hjk
          · cases hnil
        rwa [hsame]

theorem isNest_add {k j : Key} {v : Value} {t t' : Table} (h : add k v t = some t')
    (hnest : IsNest (find t j)) : IsNest (find t' j) := by
  unfold add at h
  split at h
  · cases h
  · obtain rfl := Option.some.inj h
    rw [find_concat]
    rcases hnest with ⟨u, hu⟩ | ⟨items, u, hu⟩
    · exact Or.inl ⟨u, by rw [hu, Option.some_or]⟩
    · exact Or.inr ⟨items, u, by rw [hu, Option.some_or]⟩

theorem isNest_appendNest {k : Key} {t t' : Table} (h : appendNest k t = some t') :
    IsNest (find t' k) := by
  unfold appendNest at h
  split at h
  · obtain rfl := Option.some.inj h
    exact Or.inr ⟨[], [], by rw [find_put, if_pos rfl, List.nil_append]⟩
  · obtain rfl := Option.some.inj h
    exact Or.inr ⟨_, [], by rw [find_put, if_pos rfl]⟩
  · cases h

theorem isNest_appendNest_of_isNest {k j : Key} {t t' : Table} (h : appendNest k t = some t')
    (hnest : IsNest (find t j)) : IsNest (find t' j) := by
  by_cases hjk : j = k
  · exact hjk ▸ isNest_appendNest h
  · rwa [find_appendNest h hjk]

/-- No statement takes a nest away. -/
theorem isNest_apply {d d' : Document} {st : Statement} {j : Key} (h : apply d st = some d')
    (hnest : IsNest (find d.data j)) : IsNest (find d'.data j) := by
  cases st with
  | keyValue key v =>
      simp only [apply, keyValueRule] at h
      split at h
      · cases h
      · obtain ⟨t, ht, rfl⟩ := Option.map_eq_some_iff.mp h
        exact isNest_updateNest_of_isNest (fun _ _ => isNest_add) ht hnest
  | table key =>
      simp only [apply, createDictRule] at h
      split at h
      · cases h
      · obtain ⟨t, ht, rfl⟩ := Option.map_eq_some_iff.mp h
        exact isNest_updateNest_of_isNest
          (fun _ _ hu hnest => Option.some.inj hu ▸ hnest) ht hnest
  | arrayTable key =>
      simp only [apply, createListRule] at h
      split at h
      · cases h
      · obtain ⟨t, ht, rfl⟩ := Option.map_eq_some_iff.mp h
        exact isNest_updateNest_of_isNest (fun _ _ => isNest_appendNest_of_isNest) ht hnest

theorem isNest_run {d e : Document} {sts : List Statement} {j : Key} (h : run d sts = some e)
    (hnest : IsNest (find d.data j)) : IsNest (find e.data j) := by
  induction sts generalizing d with
  | nil => exact Option.some.inj h ▸ hnest
  | cons st sts ih =>
      obtain ⟨next, happly, hrest⟩ := Option.bind_eq_some_iff.mp h
      exact ih hrest (isNest_apply happly hnest)

/-- A value stays, unless the name becomes a nest. -/
theorem find_updateNest_or_isNest {lists : Bool} {path : List Key} {f : Table → Option Table}
    {t t' : Table} {j : Key} {v : Value}
    (hf : ∀ u u', f u = some u' → find u j = some v → find u' j = some v ∨ IsNest (find u' j))
    (h : updateNest lists path f t = some t') (hv : find t j = some v) :
    find t' j = some v ∨ IsNest (find t' j) := by
  cases path with
  | nil => exact hf t t' h hv
  | cons k ks =>
      by_cases hjk : j = k
      · exact Or.inr (hjk ▸ isNest_updateNest h)
      · refine Or.inl (hv ▸ find_updateNest (fun k' hk' => ?_) (fun hnil => ?_) h)
        · exact Option.some.inj hk' ▸ hjk
        · cases hnil

theorem find_apply_or_isNest {d d' : Document} {st : Statement} {j : Key} {v : Value}
    (h : apply d st = some d') (hv : find d.data j = some v) :
    find d'.data j = some v ∨ IsNest (find d'.data j) := by
  cases st with
  | keyValue key w =>
      simp only [apply, keyValueRule] at h
      split at h
      · cases h
      · obtain ⟨t, ht, rfl⟩ := Option.map_eq_some_iff.mp h
        refine find_updateNest_or_isNest (fun u u' hu hfind => Or.inl ?_) ht hv
        unfold add at hu
        split at hu
        · cases hu
        · obtain rfl := Option.some.inj hu
          rw [find_concat, hfind, Option.some_or]
  | table key =>
      simp only [apply, createDictRule] at h
      split at h
      · cases h
      · obtain ⟨t, ht, rfl⟩ := Option.map_eq_some_iff.mp h
        exact find_updateNest_or_isNest
          (fun _ _ hu hfind => Or.inl (Option.some.inj hu ▸ hfind)) ht hv
  | arrayTable key =>
      simp only [apply, createListRule] at h
      split at h
      · cases h
      · obtain ⟨t, ht, rfl⟩ := Option.map_eq_some_iff.mp h
        refine find_updateNest_or_isNest (fun u u' hu hfind => ?_) ht hv
        by_cases hj : j = key.getLastD []
        · exact Or.inr (hj ▸ isNest_appendNest hu)
        · exact Or.inl ((find_appendNest hu hj).trans hfind)

/-- **A value stays**: what a name has once it has at the end, unless it is a nest then. -/
theorem find_run_or_isNest {d e : Document} {sts : List Statement} {j : Key} {v : Value}
    (h : run d sts = some e) (hv : find d.data j = some v) :
    find e.data j = some v ∨ IsNest (find e.data j) := by
  induction sts generalizing d with
  | nil => exact Or.inl (Option.some.inj h ▸ hv)
  | cons st sts ih =>
      obtain ⟨next, happly, hrest⟩ := Option.bind_eq_some_iff.mp h
      rcases find_apply_or_isNest happly hv with hnext | hnest
      · exact ih hrest hnext
      · exact Or.inr (isNest_run hrest hnest)

/-! ## assignments -/

/-- The header that follows a statement. -/
def headerAfter (header : List Key) : Statement → List Key
  | .keyValue _ _ => header
  | .table key | .arrayTable key => key

theorem header_apply {d d' : Document} {st : Statement} (h : apply d st = some d') :
    d'.header = headerAfter d.header st := by
  cases st with
  | keyValue key v =>
      simp only [apply, keyValueRule] at h
      split at h
      · cases h
      · obtain ⟨t, -, rfl⟩ := Option.map_eq_some_iff.mp h
        rfl
  | table key =>
      simp only [apply, createDictRule] at h
      split at h
      · cases h
      · obtain ⟨t, -, rfl⟩ := Option.map_eq_some_iff.mp h
        rfl
  | arrayTable key =>
      simp only [apply, createListRule] at h
      split at h
      · cases h
      · obtain ⟨t, -, rfl⟩ := Option.map_eq_some_iff.mp h
        rfl

variable (p)

/-- An assignment to one of the names, at the top of the document. -/
def assignment (header : List Key) : Statement → Option (Key × Value)
  | .keyValue [k] v => if header = [] ∧ p k = true then some (k, v) else none
  | _ => none

/-- The assignments to the names. -/
def assignments : List Key → List Statement → Table
  | _, [] => []
  | header, st :: sts =>
      (assignment p header st).toList ++ assignments (headerAfter header st) sts

/-- The other statements. -/
def others : List Key → List Statement → List Statement
  | _, [] => []
  | header, st :: sts =>
      if (assignment p header st).isSome then others (headerAfter header st) sts
      else st :: others (headerAfter header st) sts

/-- The other statements are about other names. -/
def Clear : List Key → List Statement → Prop
  | _, [] => True
  | header, st :: sts =>
      (assignment p header st = none → below p (subject header st) = false) ∧
        Clear (headerAfter header st) sts

variable {p}

theorem assignment_eq_some_iff {header : List Key} {st : Statement} {e : Key × Value} :
    assignment p header st = some e ↔
      st = .keyValue [e.1] e.2 ∧ header = [] ∧ p e.1 = true := by
  unfold assignment
  split
  · rw [Option.ite_none_right_eq_some]
    grind
  · grind

theorem assignment_top {k : Key} (hk : p k = true) (v : Value) :
    assignment p [] (.keyValue [k] v) = some (k, v) :=
  assignment_eq_some_iff.mpr ⟨rfl, rfl, hk⟩

/-- A statement about one of the names that is no assignment makes it a nest. -/
theorem isNest_of_below {d d' : Document} {st : Statement} (h : apply d st = some d')
    (hassign : assignment p d.header st = none) (hbelow : below p (subject d.header st) = true) :
    ∃ k, p k = true ∧ IsNest (find d'.data k) := by
  have hhead : ∀ {path : List Key}, below p path = true → ∃ k ks, path = k :: ks ∧ p k = true := by
    intro path hpath
    cases path with
    | nil => cases hpath
    | cons k ks => exact ⟨k, ks, rfl, hpath⟩
  obtain ⟨k, ks, hsubject, hk⟩ := hhead hbelow
  refine ⟨k, hk, ?_⟩
  cases st with
  | keyValue key v =>
      simp only [apply, keyValueRule] at h
      split at h
      · cases h
      · obtain ⟨t, ht, rfl⟩ := Option.map_eq_some_iff.mp h
        have hpath : ∃ ks', d.header ++ key.dropLast = k :: ks' := by
          rw [subject] at hsubject
          cases hheader : d.header with
          | cons c cs =>
              rw [hheader, List.cons_append] at hsubject
              exact ⟨cs ++ key.dropLast, by rw [(List.cons.inj hsubject).1]; rfl⟩
          | nil =>
              rw [hheader, List.nil_append] at hsubject
              subst hsubject
              cases ks with
              | cons c cs => exact ⟨_, rfl⟩
              | nil =>
                  rw [hheader, assignment_top hk] at hassign
                  cases hassign
        obtain ⟨ks', hpath⟩ := hpath
        rw [hpath] at ht
        exact isNest_updateNest ht
  | table key =>
      simp only [apply, createDictRule] at h
      split at h
      · cases h
      · obtain ⟨t, ht, rfl⟩ := Option.map_eq_some_iff.mp h
        rw [subject] at hsubject
        rw [hsubject] at ht
        exact isNest_updateNest ht
  | arrayTable key =>
      simp only [apply, createListRule] at h
      split at h
      · cases h
      · obtain ⟨t, ht, rfl⟩ := Option.map_eq_some_iff.mp h
        rw [subject] at hsubject
        rw [hsubject] at ht
        cases ks with
        | nil => exact isNest_appendNest ht
        | cons c cs => exact isNest_updateNest ht

/-- A document is clear of the names unless one of them is a nest. -/
theorem clear_or_isNest {d e : Document} {sts : List Statement} (h : run d sts = some e) :
    Clear p d.header sts ∨ ∃ k, p k = true ∧ IsNest (find e.data k) := by
  induction sts generalizing d with
  | nil => exact Or.inl trivial
  | cons st sts ih =>
      obtain ⟨next, happly, hrest⟩ := Option.bind_eq_some_iff.mp h
      by_cases hst : assignment p d.header st = none ∧ below p (subject d.header st) = true
      · obtain ⟨k, hk, hnest⟩ := isNest_of_below happly hst.1 hst.2
        exact Or.inr ⟨k, hk, isNest_run hrest hnest⟩
      · refine (ih hrest).imp_left fun hclear => ⟨fun hnone => ?_, ?_⟩
        · exact Bool.eq_false_iff.mpr fun htrue => hst ⟨hnone, htrue⟩
        · rwa [← header_apply happly]

/-- What an assignment does. -/
theorem apply_assignment {d : Document} {k : Key} (v : Value) (hheader : d.header = [])
    (hk : p k = true) :
    ∃ d', apply d (.keyValue [k] v) = (if (find d.data k).isSome then none else some d') ∧
      drop p d' = drop p d ∧ d'.data = d.data ++ [(k, v)] ∧ d'.header = [] := by
  refine ⟨⟨d.data ++ [(k, v)], freeze d.flags [k] v, d.pending, []⟩, ?_, ?_, rfl, rfl⟩
  · have hopened : openedKeys [] [k] = [] := rfl
    have hnotSet : isSet d.flags [] .frozen = false := rfl
    simp only [apply, keyValueRule, hheader, hopened, List.dropLast_singleton, List.append_nil,
      List.nil_append, hnotSet, List.any_nil, Bool.or_self, updateNest, add, List.getLastD_cons,
      List.getLastD_nil, Bool.false_eq_true, if_false]
    split <;> rfl
  · have hdata : dropKeys p (d.data ++ [(k, v)]) = dropKeys p d.data := by
      simp [dropKeys, hk]
    have hflags : dropFlags p (freeze d.flags [k] v) = dropFlags p d.flags := by
      rw [freeze]
      split
      · simp [dropFlags, below, hk]
      · rfl
    simp only [drop, hdata, hflags, hheader]

theorem mem_assignments {header : List Key} {sts : List Statement} {a : Key × Value}
    (h : a ∈ assignments p header sts) : p a.1 = true := by
  induction sts generalizing header with
  | nil => cases h
  | cons st sts ih =>
      rw [assignments] at h
      rcases List.mem_append.mp h with h | h
      · exact (assignment_eq_some_iff.mp (Option.mem_toList.mp h)).2.2
      · exact ih h

theorem headerAfter_ne_nil {header : List Key} {st : Statement} (hheader : header ≠ [])
    (hst : subject [] st ≠ []) : headerAfter header st ≠ [] := by
  cases st with
  | keyValue key v => exact hheader
  | table key => exact hst
  | arrayTable key => exact hst

/-- Below a header nothing is assigned at the top. -/
theorem assignments_of_header_ne_nil {header : List Key} {sts : List Statement}
    (hheader : header ≠ []) (h : ∀ st ∈ sts, subject [] st ≠ []) :
    assignments p header sts = [] := by
  induction sts generalizing header with
  | nil => rfl
  | cons st sts ih =>
      obtain ⟨hst, hsts⟩ := List.forall_mem_cons.mp h
      have hnone : assignment p header st = none := by
        cases ha : assignment p header st with
        | none => rfl
        | some a => exact absurd (assignment_eq_some_iff.mp ha).2.1 hheader
      rw [assignments, hnone, ih (headerAfter_ne_nil hheader hst) hsts]
      rfl

/-- An assignment that is made finds the name free. -/
theorem apply_assignment_eq_some {d next : Document} {a : Key × Value}
    (hheader : d.header = []) (hk : p a.1 = true)
    (h : apply d (.keyValue [a.1] a.2) = some next) :
    find d.data a.1 = none ∧ drop p next = drop p d ∧ next.data = d.data ++ [a] ∧
      next.header = [] := by
  obtain ⟨d', happly, hrest⟩ := apply_assignment a.2 hheader hk
  rw [happly] at h
  split at h
  · cases h
  · next hfree =>
      obtain rfl := Option.some.inj h
      exact ⟨Option.not_isSome_iff_eq_none.mp hfree, hrest⟩

/-- Statements that open no table keep to the top. -/
theorem header_run {sts : List Statement} {d e : Document}
    (h : ∀ st ∈ sts, headerAfter [] st = []) (hheader : d.header = [])
    (hrun : run d sts = some e) : e.header = [] := by
  induction sts generalizing d with
  | nil => exact Option.some.inj hrun ▸ hheader
  | cons st sts ih =>
      obtain ⟨hst, hsts⟩ := List.forall_mem_cons.mp h
      obtain ⟨next, happly, hrest⟩ := Option.bind_eq_some_iff.mp hrun
      exact ih hsts (by rw [header_apply happly, hheader, hst]) hrest

/-- What is assigned at the top stays, unless it is a nest then. -/
theorem find_of_run_assigned {k : Key} (hk : p k = true) {v : Value} {l rest : List Statement}
    (hl : ∀ st ∈ l, headerAfter [] st = []) {e : Document}
    (h : run .empty (l ++ .keyValue [k] v :: rest) = some e) :
    find e.data k = some v ∨ IsNest (find e.data k) := by
  rw [run, List.foldlM_append] at h
  obtain ⟨d, hrun, h⟩ := Option.bind_eq_some_iff.mp h
  obtain ⟨d', happly, hrest⟩ := Option.bind_eq_some_iff.mp h
  obtain ⟨hfree, -, hdata, -⟩ := apply_assignment_eq_some (a := (k, v))
    (header_run hl rfl hrun) hk happly
  refine find_run_or_isNest hrest ?_
  rw [hdata, find_concat, hfree, if_pos rfl]
  rfl

/-- **No name is assigned twice** at the top. -/
theorem not_run_assigned_twice {k : Key} (hk : p k = true) {v w : Value} {l m r : List Statement}
    (hl : ∀ st ∈ l, headerAfter [] st = []) (hm : ∀ st ∈ m, headerAfter [] st = []) {e : Document} :
    run .empty (l ++ .keyValue [k] v :: (m ++ .keyValue [k] w :: r)) ≠ some e := by
  intro h
  have hsplit : run .empty ((l ++ .keyValue [k] v :: m) ++ .keyValue [k] w :: r) = some e := by
    rw [← h]
    simp
  rw [run, List.foldlM_append] at hsplit
  obtain ⟨d, hrun, h⟩ := Option.bind_eq_some_iff.mp hsplit
  obtain ⟨d', happly, -⟩ := Option.bind_eq_some_iff.mp h
  have hheader : ∀ st ∈ l ++ .keyValue [k] v :: m, headerAfter [] st = [] :=
    List.forall_mem_append.mpr ⟨hl, List.forall_mem_cons.mpr ⟨rfl, hm⟩⟩
  have hfree := (apply_assignment_eq_some (a := (k, w)) (header_run hheader rfl hrun) hk happly).1
  rcases find_of_run_assigned hk hl hrun with hset | hnest
  · rw [hfree] at hset
    cases hset
  · rw [hfree] at hnest
    rcases hnest with ⟨t, ht⟩ | ⟨vs, t, ht⟩ <;> cases ht

/-- **Left out**: without the assignments the document is the same but for the names, which have
been assigned once each. -/
theorem run_drop (hp : p [] = false) {sts : List Statement} {d e : Document}
    (hclear : Clear p d.header sts) (h : run d sts = some e) :
    run (drop p d) (others p d.header sts) = some (drop p e) ∧
      ((assignments p d.header sts).map Prod.fst).Nodup ∧
      (∀ a ∈ assignments p d.header sts, find d.data a.1 = none) ∧
      ∀ k, p k = true →
        find e.data k = (find d.data k).or (find (assignments p d.header sts) k) := by
  induction sts generalizing d with
  | nil =>
      obtain rfl := Option.some.inj h
      exact ⟨rfl, List.nodup_nil, fun a ha => (nomatch ha), fun k _ => (Option.or_none).symm⟩
  | cons st sts ih =>
      obtain ⟨next, happly, hrest⟩ := Option.bind_eq_some_iff.mp h
      obtain ⟨hst, hclear⟩ := hclear
      rw [← header_apply happly] at hclear
      obtain ⟨hrun, hnodup, habsent, hfind⟩ := ih hclear hrest
      rw [others, assignments, ← header_apply happly]
      cases hassign : assignment p d.header st with
      | none =>
          have hdrop : apply (drop p d) st = some (drop p next) := by
            rw [apply_drop hp (hst hassign), happly, Option.map_some]
          have hsame : ∀ k, p k = true → find next.data k = find d.data k := fun k hk =>
            find_apply hp hk (hst hassign) happly
          refine ⟨?_, hnodup, fun a ha => ?_, fun k hk => ?_⟩
          · rw [if_neg (by simp), run, List.foldlM_cons, hdrop]
            exact hrun
          · rw [← hsame a.1 (mem_assignments ha)]
            exact habsent a ha
          · rw [hfind k hk, hsame k hk]
            rfl
      | some a =>
          obtain ⟨rfl, hheader, hk⟩ := assignment_eq_some_iff.mp hassign
          obtain ⟨hfree, hdrop, hdata, -⟩ := apply_assignment_eq_some hheader hk happly
          have hrestAbsent : ∀ b ∈ assignments p next.header sts,
              b.1 ≠ a.1 ∧ find d.data b.1 = none := by
            intro b hb
            have hb := habsent b hb
            rw [hdata, find_concat, Option.or_eq_none_iff] at hb
            refine ⟨fun he => ?_, hb.1⟩
            rw [if_pos he] at hb
            cases hb.2
          refine ⟨?_, ?_, ?_, fun k hk => ?_⟩
          · rw [if_pos (by simp), ← hdrop]
            exact hrun
          · rw [Option.toList_some, List.singleton_append, List.map_cons, List.nodup_cons]
            refine ⟨fun hmem => ?_, hnodup⟩
            obtain ⟨b, hb, he⟩ := List.mem_map.mp hmem
            exact (hrestAbsent b hb).1 he
          · rw [Option.toList_some, List.singleton_append, List.forall_mem_cons]
            exact ⟨hfree, fun b hb => (hrestAbsent b hb).2⟩
          · rw [hfind k hk, hdata, find_concat, Option.toList_some, List.singleton_append, find,
              Option.or_assoc]
            congr 1
            by_cases he : k = a.1
            · rw [if_pos he, if_pos he.symm]
              rfl
            · rw [if_neg he, if_neg (Ne.symm he), Option.none_or]

/-- **Put in**: names that are free are assigned once each in a document that is well formed
without the assignments. -/
theorem run_of_drop (hp : p [] = false) {sts : List Statement} {d e : Document}
    (hclear : Clear p d.header sts)
    (hnodup : ((assignments p d.header sts).map Prod.fst).Nodup)
    (habsent : ∀ a ∈ assignments p d.header sts, find d.data a.1 = none)
    (h : run (drop p d) (others p d.header sts) = some e) : ∃ d', run d sts = some d' := by
  induction sts generalizing d with
  | nil => exact ⟨d, rfl⟩
  | cons st sts ih =>
      obtain ⟨hst, hclear⟩ := hclear
      rw [assignments] at hnodup habsent
      rw [others] at h
      cases hassign : assignment p d.header st with
      | none =>
          rw [hassign] at hnodup habsent h
          rw [if_neg (by simp)] at h
          obtain ⟨dropped, hdropped, hrest⟩ := Option.bind_eq_some_iff.mp h
          rw [apply_drop hp (hst hassign)] at hdropped
          obtain ⟨next, happly, rfl⟩ := Option.map_eq_some_iff.mp hdropped
          rw [← header_apply happly] at hclear hnodup habsent hrest
          have hsame : ∀ k, p k = true → find next.data k = find d.data k := fun k hk =>
            find_apply hp hk (hst hassign) happly
          obtain ⟨d', hd'⟩ := ih hclear hnodup
            (fun a ha => (hsame a.1 (mem_assignments ha)).trans (habsent a ha)) hrest
          exact ⟨d', Option.bind_eq_some_iff.mpr ⟨next, happly, hd'⟩⟩
      | some a =>
          obtain ⟨rfl, hheader, hk⟩ := assignment_eq_some_iff.mp hassign
          rw [hassign, Option.toList_some, List.singleton_append] at hnodup habsent
          rw [hassign, if_pos (by simp)] at h
          obtain ⟨next, happly, hdrop, hdata, hnext⟩ := apply_assignment a.2 hheader hk
          rw [habsent a List.mem_cons_self] at happly
          simp only [Option.isSome_none, Bool.false_eq_true, if_false] at happly
          rw [← header_apply happly] at hclear hnodup habsent h
          rw [List.map_cons, List.nodup_cons] at hnodup
          have hfree : ∀ b ∈ assignments p next.header sts, find next.data b.1 = none := by
            intro b hb
            have hne : b.1 ≠ a.1 := fun he => hnodup.1 (he ▸ List.mem_map_of_mem hb)
            rw [hdata, find_concat, if_neg hne, Option.or_none]
            exact habsent b (List.mem_cons_of_mem _ hb)
          obtain ⟨d', hd'⟩ := ih hclear hnodup.2 hfree (by rw [hdrop]; exact h)
          exact ⟨d', Option.bind_eq_some_iff.mpr ⟨next, happly, hd'⟩⟩

/-! ## one assignment for all -/

variable (p)

/-- The first assignment to one of the names is replaced, or one is made at the end, and the others
are left out; `written` says that the first has come already. -/
inductive Reassigned (a : Key × Value) : Bool → List Statement → List Statement → Prop
  | rest {sts : List Statement} (h : ∀ b ∈ assignments p [] sts, b.1 ≠ a.1) :
      Reassigned a true sts sts
  | last : Reassigned a false [] [.keyValue [a.1] a.2]
  | again {k : Key} {v : Value} {sts sts' : List Statement} (hk : p k = true)
      (h : Reassigned a true sts sts') : Reassigned a true (.keyValue [k] v :: sts) sts'
  | first {k : Key} {v : Value} {sts sts' : List Statement} (hk : p k = true)
      (h : Reassigned a true sts sts') :
      Reassigned a false (.keyValue [k] v :: sts) (.keyValue [a.1] a.2 :: sts')
  | other {written : Bool} {key : List Key} {v : Value} {sts sts' : List Statement}
      (hkey : key ≠ [a.1]) (h : Reassigned a written sts sts') :
      Reassigned a written (.keyValue key v :: sts) (.keyValue key v :: sts')

variable {p} {a : Key × Value} {written : Bool} {sts sts' : List Statement}

theorem others_of_reassigned (ha : p a.1 = true) (h : Reassigned p a written sts sts') :
    others p [] sts' = others p [] sts := by
  induction h with
  | rest _ => rfl
  | last => simp [others, assignment_top ha]
  | again hk _ ih => simpa [others, headerAfter, assignment_top hk] using ih
  | first hk _ ih => simpa [others, headerAfter, assignment_top ha, assignment_top hk] using ih
  | other _ _ ih =>
      rw [others, others, headerAfter, ih]

theorem clear_of_reassigned (ha : p a.1 = true) (h : Reassigned p a written sts sts')
    (hclear : Clear p [] sts) : Clear p [] sts' := by
  induction h with
  | rest _ => exact hclear
  | last => simp [Clear, assignment_top ha]
  | again _ _ ih => exact ih hclear.2
  | first _ _ ih => exact ⟨by simp [assignment_top ha], ih hclear.2⟩
  | other _ _ ih => exact ⟨hclear.1, ih hclear.2⟩

/-- What is assigned then: the new value once, and else what was. -/
theorem assignments_of_reassigned (ha : p a.1 = true) (h : Reassigned p a written sts sts') :
    ∃ l r, assignments p [] sts' = l ++ ((if written then [] else [a]) ++ r) ∧
      (l ++ r).Sublist (assignments p [] sts) ∧ ∀ b ∈ l ++ r, b.1 ≠ a.1 := by
  induction h with
  | @rest sts hno =>
      exact ⟨assignments p [] sts, [], by simp, by simp, by simpa using hno⟩
  | last => exact ⟨[], [], by simp [assignments, assignment_top ha], by simp, by simp⟩
  | again hk _ ih =>
      obtain ⟨l, r, hl, hsub, hne⟩ := ih
      refine ⟨l, r, hl, ?_, hne⟩
      rw [assignments, assignment_top hk]
      exact hsub.cons _
  | first hk _ ih =>
      obtain ⟨l, r, hl, hsub, hne⟩ := ih
      refine ⟨[], l ++ r, ?_, ?_, hne⟩
      · rw [assignments, assignment_top ha, headerAfter, hl]
        simp
      · rw [assignments, assignment_top hk]
        exact hsub.cons _
  | @other _ key v _ _ hkey _ ih =>
      obtain ⟨l, r, hl, hsub, hne⟩ := ih
      refine ⟨(assignment p [] (.keyValue key v)).toList ++ l, r, ?_, ?_, ?_⟩
      · rw [assignments, headerAfter, hl, List.append_assoc]
      · rw [assignments, headerAfter, List.append_assoc]
        exact hsub.append_left _
      · intro b hb he
        rw [List.append_assoc] at hb
        rcases List.mem_append.mp hb with hb | hb
        · obtain ⟨hst, -⟩ := assignment_eq_some_iff.mp (Option.mem_toList.mp hb)
          injection hst with hst
          exact hkey (he ▸ hst)
        · exact hne b hb he

theorem mem_of_find {t : Table} {k : Key} {v : Value} (h : find t k = some v) : (k, v) ∈ t := by
  induction t with
  | nil => cases h
  | cons e t ih =>
      rw [find] at h
      by_cases he : e.1 = k
      · rw [if_pos he] at h
        obtain rfl := Option.some.inj h
        exact he ▸ List.mem_cons_self
      · rw [if_neg he] at h
        exact List.mem_cons_of_mem e (ih h)

theorem find_of_mem {t : Table} {k : Key} {v : Value} (hnodup : (t.map Prod.fst).Nodup)
    (h : (k, v) ∈ t) : find t k = some v := by
  induction t with
  | nil => cases h
  | cons e t ih =>
      rw [List.map_cons, List.nodup_cons] at hnodup
      rw [find]
      rcases List.mem_cons.mp h with rfl | h
      · simp
      · have hne : e.1 ≠ k := fun he => hnodup.1 (he ▸ List.mem_map_of_mem (f := Prod.fst) h)
        rw [if_neg hne, ih hnodup.2 h]

/-- **One assignment for all**: the document stays well formed, the name has the new value, the
others of the names their old value or none, and all that is beside them stays. -/
theorem run_of_reassigned (hp : p [] = false) (ha : p a.1 = true) {d : Document}
    (hclear : Clear p [] sts) (hrun : run .empty sts = some d)
    (h : Reassigned p a false sts sts') : ∃ d', run .empty sts' = some d' ∧
      dropKeys p d'.data = dropKeys p d.data ∧ find d'.data a.1 = some a.2 ∧
      ∀ k, p k = true → k ≠ a.1 → find d'.data k = none ∨ find d'.data k = find d.data k := by
  obtain ⟨hothers, hnodup, -, hfind⟩ := run_drop hp hclear hrun
  obtain ⟨l, r, hassign, hsub, hne⟩ := assignments_of_reassigned ha h
  rw [if_neg (by simp), List.singleton_append] at hassign
  have hkeys : ((assignments p [] sts').map Prod.fst).Nodup := by
    have hperm : (assignments p [] sts').Perm (a :: (l ++ r)) := hassign ▸ List.perm_middle
    rw [(hperm.map Prod.fst).nodup_iff, List.map_cons, List.nodup_cons]
    refine ⟨fun hmem => ?_, (hsub.map Prod.fst).nodup hnodup⟩
    obtain ⟨b, hb, he⟩ := List.mem_map.mp hmem
    exact hne b hb he
  have hclear' := clear_of_reassigned ha h hclear
  have hsame : others p Document.empty.header sts' = others p Document.empty.header sts :=
    others_of_reassigned ha h
  obtain ⟨d', hd'⟩ := run_of_drop (d := .empty) hp hclear' hkeys (fun _ _ => rfl)
    (by rw [hsame]; exact hothers)
  obtain ⟨hothers', -, -, hfind'⟩ := run_drop hp hclear' hd'
  rw [hsame, hothers] at hothers'
  have hold : ∀ k, p k = true → find d.data k = find (assignments p [] sts) k := hfind
  have hnew : ∀ k, p k = true → find d'.data k = find (assignments p [] sts') k := hfind'
  refine ⟨d', hd', ?_, ?_, fun k hk hka => ?_⟩
  · exact (congrArg Document.data (Option.some.inj hothers')).symm
  · rw [hnew _ ha]
    exact find_of_mem hkeys (hassign ▸ List.mem_append_right l List.mem_cons_self)
  · rw [hnew k hk, hold k hk]
    cases hv : find (assignments p [] sts') k with
    | none => exact Or.inl rfl
    | some v =>
        have hmem : (k, v) ∈ a :: (l ++ r) := by
          have hmem := mem_of_find hv
          rw [hassign] at hmem
          exact List.perm_middle.mem_iff.mp hmem
        rcases List.mem_cons.mp hmem with he | hmem
        · exact absurd (congrArg Prod.fst he) hka
        · exact Or.inr (find_of_mem hnodup (hsub.subset hmem)).symm

end Drop

end Toml
