import CoreLab.Lib.Csv
import CoreLab.Lib.Dict
import Mathlib.Algebra.Order.Field.Rat
import Mathlib.Data.List.Infix

/-!
# CoreLab.GpuCollector

What the agent reports of its cards from the two queries of `nvidia-smi`.  The process query
may fail with an `NvidiaSmiError`; its answer is parsed outside of that guard, with a row of
other than four cells, a number beyond the floats and a uid without a name all raised.

* `reported_iff` — the lines and lookups with which every card is reported with its
  processes, in an answer that quotes no field.

A process line is printed without quotes, whatever the name contains.
-/

namespace CoreLab

open Lines Csv Loops

namespace GpuCollector

/-! ## numbers -/

/-- The zeros of the scripts that `\d` knows, each before its nine other digits. -/
def decimalZeros : List Nat :=
  [0x30, 0x660, 0x6f0, 0x7c0, 0x966, 0x9e6, 0xa66, 0xae6, 0xb66, 0xbe6, 0xc66, 0xce6, 0xd66, 0xde6,
    0xe50, 0xed0, 0xf20, 0x1040, 0x1090, 0x17e0, 0x1810, 0x1946, 0x19d0, 0x1a80, 0x1a90, 0x1b50,
    0x1bb0, 0x1c40, 0x1c50, 0xa620, 0xa8d0, 0xa900, 0xa9d0, 0xa9f0, 0xaa50, 0xabf0, 0xff10, 0x104a0,
    0x10d30, 0x11066, 0x110f0, 0x11136, 0x111d0, 0x112f0, 0x11450, 0x114d0, 0x11650, 0x116c0,
    0x11730, 0x118e0, 0x11950, 0x11c50, 0x11d50, 0x11da0, 0x16a60, 0x16ac0, 0x16b50, 0x1d7ce,
    0x1d7d8, 0x1d7e2, 0x1d7ec, 0x1d7f6, 0x1e140, 0x1e2f0, 0x1e950, 0x1fbf0]

/-- The value of a digit. -/
def digit (c : Char) : Option Nat :=
  (decimalZeros.find? fun first => first ≤ c.toNat && c.toNat < first + 10).map (c.toNat - ·)

/-- The digits at the front, and what follows them. -/
def digits : List Char → List Nat × List Char
  | [] => ([], [])
  | c :: cs =>
      match digit c with
      | some d => (d :: (digits cs).1, (digits cs).2)
      | none => ([], c :: cs)

def ofDigits (ds : List Nat) : Nat := ds.foldl (fun n d => 10 * n + d) 0

/-- `\d+(?:\.\d+)?` at the front. -/
def unsigned (text : List Char) : Option Rat :=
  match digits text with
  | ([], _) => none
  | (ds, '.' :: rest) => some (ofDigits (ds ++ (digits rest).1) / 10 ^ (digits rest).1.length)
  | (ds, _) => some (ofDigits ds)

/-- `-?\d+(?:\.\d+)?` at the front. -/
def signed : List Char → Option Rat
  | '-' :: cs => (unsigned cs).map (- ·)
  | cs => unsigned cs

/-- `_NUMBER_RE.search`: the first number in the text. -/
def search : List Char → Option Rat
  | [] => none
  | c :: cs => (signed (c :: cs)).or (search cs)

/-- A `float`. -/
inductive Double
  | finite (q : Rat)
  | infinite
deriving DecidableEq

/-- `round`: to the nearest integer, of two the even one. -/
def roundHalfEven (q : Rat) : Int :=
  if q - q.floor < 1 / 2 then q.floor
  else if 1 / 2 < q - q.floor then q.floor + 1
  else if q.floor % 2 = 0 then q.floor else q.floor + 1

/-- `q * 2 ^ e`. -/
def scale (q : Rat) (e : Int) : Rat := if 0 ≤ e then q * 2 ^ e.toNat else q / 2 ^ (-e).toNat

/-- The exponent with which a positive number has 53 bits, or the least. -/
def exponent (q : Rat) : Int :=
  let e : Int := Nat.log2 q.num.natAbs - Nat.log2 q.den - 53
  max (-1074) (if scale q (-e) < 2 ^ 53 then e else e + 1)

/-- `float`: the nearest binary64 number. -/
def float (q : Rat) : Double :=
  let rounded := scale (roundHalfEven (scale |q| (-exponent |q|))) (exponent |q|)
  if rounded < 2 ^ 1024 then .finite (if q < 0 then -rounded else rounded) else .infinite

/-- `_MISSING_VALUES`. -/
def missingValues : List String :=
  ["", "n/a", "na", "[not supported]", "not supported", "none"]

/-- `_parse_number`; beyond ASCII no letter is the capital of one in `missingValues`. -/
def parseNumber (value : Field) : Option Double :=
  if String.ofList ((strip value).map Char.toLower) ∈ missingValues then none
  else (search value).map float

/-- What `collect` raises. -/
inductive Failure
  /-- `NvidiaSmiError`. -/
  | nvidiaSmi (message : String)
  /-- `csv.Error`. -/
  | csv (e : Csv.Error)
  /-- `NvidiaSmiParseError`: "expected {n} gpu fields, got …", "invalid gpu index: …" and
  "expected 4 process fields, got …". -/
  | gpuFields (expected : Nat) (row : Record)
  | gpuIndex (cell : Field)
  | processFields (row : Record)
  /-- `OverflowError`, of `round`. -/
  | overflow
  /-- `KeyError`, of `pwd.getpwuid`. -/
  | unknownUid
  /-- pydantic's `ValidationError`. -/
  | validation
deriving DecidableEq

/-- `_parse_int`, without its default. -/
def parseInt (value : Field) : Except Failure (Option Int) :=
  match parseNumber value with
  | none => .ok none
  | some (.finite q) => .ok (some (roundHalfEven q))
  | some .infinite => .error .overflow

/-! ## frames -/

structure GpuProcessSnapshot where
  pid : Int
  linuxUsername : String
  memoryMb : Int
deriving DecidableEq

/-- The values of one card in a `GpuTelemetryEntry`. -/
structure GpuValues where
  gpuIndex : Int
  uuid : Option Field
  model : Option Field
  memoryTotalMb : Option Int
  computeCapability : Option Field
  utilPct : Int
  memoryUsedMb : Option Int
  temperatureC : Option Int
  powerW : Option Int
  gpuIndex_nonneg : 0 ≤ gpuIndex
  utilPct_range : 0 ≤ utilPct ∧ utilPct ≤ 100
deriving DecidableEq

structure GpuTelemetryEntry extends GpuValues where
  processes : List GpuProcessSnapshot
deriving DecidableEq

/-! ## the queries -/

/-- `_GPU_FIELDS_WITH_COMPUTE`. -/
def gpuFieldsWithCompute : List String :=
  ["index", "uuid", "name", "memory.total", "memory.used", "utilization.gpu", "temperature.gpu",
    "power.draw", "compute_cap"]

/-- `_GPU_FIELDS_BASE`. -/
def gpuFieldsBase : List String := gpuFieldsWithCompute.dropLast

/-- `_PROCESS_FIELDS`. -/
def processFields : List String := ["gpu_uuid", "pid", "process_name", "used_memory"]

/-- `nvidia-smi`, by its arguments. -/
abbrev Runner := List String → Except Failure (List Char)

/-- `_run_query`. -/
def runQuery (run : Runner) (target : String) (fields : List String) : Except Failure (List Char) :=
  run ["--query-" ++ target ++ "=" ++ ",".intercalate fields, "--format=csv,noheader,nounits"]

/-- `_query_gpus`, with whether the answer has `compute_cap`. -/
def queryGpus (run : Runner) : Except Failure (List Char × Bool) :=
  match runQuery run "gpu" gpuFieldsWithCompute with
  | .ok text => .ok (text, true)
  | .error (.nvidiaSmi message) =>
      if "compute_cap".toList <:+: message.toList ∨ "Invalid query".toList <:+: message.toList then
        (runQuery run "gpu" gpuFieldsBase).map fun text => (text, false)
      else .error (.nvidiaSmi message)
  | .error e => .error e

/-- What `username_for_pid` raises: the process is gone, or its uid has no name. -/
inductive LookupError
  | osError | keyError
deriving DecidableEq

abbrev Lookup := Int → Except LookupError String

/-- `_linux_username_for_pid`, over `/proc` and the password file. -/
def linuxUsernameForPid (statUid : Int → Option Nat) (passwd : Nat → Option String) : Lookup :=
  fun pid =>
    match statUid pid with
    | none => .error .osError
    | some uid =>
        match passwd uid with
        | none => .error .keyError
        | some name => .ok name

/-! ## parsing -/

/-- The text, where there is one. -/
def orNone (cell : Field) : Option Field := if cell = [] then none else some cell

/-- The cells of a card's row, as values. -/
def gpuValues (hasComputeCap : Bool) (row : Record) : Except Failure GpuValues :=
  let expectedLen := if hasComputeCap then 9 else 8
  match row with
  | indexS :: uuid :: name :: memTotal :: memUsed :: util :: temp :: power :: rest =>
      if row.length ≠ expectedLen then .error (.gpuFields expectedLen row)
      else do
        match ← parseInt indexS with
        | none => .error (.gpuIndex indexS)
        | some gpuIndex =>
            let memoryTotalMb ← parseInt memTotal
            let utilPct ← parseInt util
            let memoryUsedMb ← parseInt memUsed
            let temperatureC ← parseInt temp
            let powerW ← parseInt power
            if h : 0 ≤ gpuIndex ∧ 0 ≤ utilPct.getD 0 ∧ utilPct.getD 0 ≤ 100 then
              .ok ⟨gpuIndex, orNone uuid, orNone name, memoryTotalMb, rest.head?.bind orNone,
                utilPct.getD 0, memoryUsedMb, temperatureC, powerW, h.1, h.2⟩
            else .error .validation
  | _ => .error (.gpuFields expectedLen row)

/-- The cell of a card's row with its uuid. -/
def uuidCell (row : Record) : Field := row.getD 1 []

abbrev Processes := Dict Field (List GpuProcessSnapshot)

/-- The body of the loop of `_parse_gpu_rows`. -/
def gpuEntry (hasComputeCap : Bool) (processesByUuid : Processes) (row : Record) :
    Except Failure GpuTelemetryEntry :=
  (gpuValues hasComputeCap row).map fun values =>
    { values with processes := (processesByUuid.get? (uuidCell row)).getD [] }

/-- `_parse_gpu_rows`. -/
def parseGpuRows (text : List Char) (hasComputeCap : Bool) (processesByUuid : Processes) :
    Except Failure (List GpuTelemetryEntry) := do
  let rows ← (csvRows text).mapError Failure.csv
  rows.mapM (gpuEntry hasComputeCap processesByUuid)

/-- The body of the loop of `_parse_process_rows`. -/
def processRow (lookup : Lookup) (processesByUuid : Processes) (row : Record) :
    Except Failure Processes :=
  match row with
  | [gpuUuid, pidS, _, usedMemory] => do
      match ← parseInt pidS with
      | none => return processesByUuid
      | some pid =>
          let linuxUsername ←
            match lookup pid with
            | .ok name => .ok name
            | .error .osError => .ok "unknown"
            | .error .keyError => .error .unknownUid
          let memoryMb ← parseInt usedMemory
          return processesByUuid.push gpuUuid ⟨pid, linuxUsername, memoryMb.getD 0⟩
  | _ => .error (.processFields row)

/-- `_parse_process_rows`. -/
def parseProcessRows (text : List Char) (lookup : Lookup) : Except Failure Processes := do
  let rows ← (csvRows text).mapError Failure.csv
  rows.foldlM (processRow lookup) .empty

/-- `_query_processes`. -/
def queryProcesses (run : Runner) (lookup : Lookup) : Except Failure Processes :=
  match runQuery run "compute-apps" processFields with
  | .ok text => parseProcessRows text lookup
  | .error (.nvidiaSmi _) => .ok .empty
  | .error e => .error e

/-- `NvidiaSmiCollector.collect`. -/
def collect (run : Runner) (lookup : Lookup) : Except Failure (List GpuTelemetryEntry) := do
  let (gpuText, hasComputeCap) ← queryGpus run
  let processesByUuid ← queryProcesses run lookup
  parseGpuRows gpuText hasComputeCap processesByUuid

/-! ## what is promised -/

/-- A process of the answer. -/
structure ProcessRecord where
  uuid : Field
  pid : Int
  memoryMb : Int
deriving DecidableEq

/-- Three fields as a process, if the pid and the memory are numbers or nothing. -/
def record (uuid pid memory : Field) : Option ProcessRecord :=
  match parseInt pid, parseInt memory with
  | .ok (some n), .ok mb => some ⟨uuid, n, mb.getD 0⟩
  | _, _ => none

/-- The process of a line: the uuid and the pid are before the name, the memory is after it. -/
def lineRecord (line : Line) : Option ProcessRecord :=
  match cells line with
  | uuid :: pid :: _ :: memory :: rest =>
      record (strip uuid) (strip pid) (strip ((memory :: rest).getLast (List.cons_ne_nil _ _)))
  | _ => none

/-- The processes of an answer. -/
def records (text : List Char) : List ProcessRecord := (readlines text).filterMap lineRecord

/-- A process as it is reported; the owner is unknown where the lookup fails. -/
def snapshot (lookup : Lookup) (r : ProcessRecord) : GpuProcessSnapshot :=
  ⟨r.pid, (lookup r.pid).toOption.getD "unknown", r.memoryMb⟩

/-- The answer of the process query. -/
def processAnswer (run : Runner) : Except Failure (List Char) :=
  runQuery run "compute-apps" processFields

/-- What is reported of the processes of a card. -/
def attached (run : Runner) (lookup : Lookup) (uuid : Field) : List GpuProcessSnapshot :=
  match processAnswer run with
  | .ok text => ((records text).filter fun r => r.uuid = uuid).map (snapshot lookup)
  | .error _ => []

/-- A well-formed answer of the card query. -/
structure GpuAnswer (run : Runner) where
  text : List Char
  hasComputeCap : Bool
  rows : List Record
  values : Record → GpuValues
  query : queryGpus run = .ok (text, hasComputeCap)
  read : csvRows text = .ok rows
  value : ∀ row ∈ rows, gpuValues hasComputeCap row = .ok (values row)

/-- One entry for each row of the card query, with its values and its processes. -/
def Reported (run : Runner) (lookup : Lookup) (gpus : GpuAnswer run) : Prop :=
  collect run lookup = .ok (gpus.rows.map fun row =>
    { gpus.values row with processes := attached run lookup (uuidCell row) })

/-- A row of the process query that is parsed: four cells, no number beyond the floats, and not
the uid of a user without a name. -/
structure Parsed (lookup : Lookup) (row : Record) : Prop where
  length : row.length = 4
  pid : Returns (parseInt (row.getD 1 []))
  owner : ∀ pid, parseInt (row.getD 1 []) = .ok (some pid) → lookup pid ≠ .error .keyError
  memory : ∀ pid, parseInt (row.getD 1 []) = .ok (some pid) → Returns (parseInt (row.getD 3 []))

/-- The process of a row. -/
def rowRecord (row : Record) : Option ProcessRecord :=
  record (row.getD 0 []) (row.getD 1 []) (row.getD 3 [])

/-- The row of a line. -/
def rowOfLine (line : Line) : Record := (cells line).map strip

/-- A line that the reader takes and that is blank or parsed. -/
structure Taken (lookup : Lookup) (line : Line) : Prop where
  readable : Readable line
  parsed : notBlank (rowOfLine line) = true → Parsed lookup (rowOfLine line)

/-! ## the process query -/

section Processes

variable {lookup : Lookup}

/-- One process is added to the dictionary. -/
def addRecord (lookup : Lookup) (d : Processes) (r : ProcessRecord) : Processes :=
  d.push r.uuid (snapshot lookup r)

theorem parsed_iff {uuid pid name memory : Field} :
    Parsed lookup [uuid, pid, name, memory] ↔ Returns (parseInt pid) ∧
      ∀ n, parseInt pid = .ok (some n) → lookup n ≠ .error .keyError ∧ Returns (parseInt memory) :=
  ⟨fun h => ⟨h.pid, fun n hn => ⟨h.owner n hn, h.memory n hn⟩⟩,
    fun h => ⟨rfl, h.1, fun n hn => (h.2 n hn).1, fun n hn => (h.2 n hn).2⟩⟩

/-- A row of four cells is parsed unless a number is beyond the floats or the owner has no name. -/
theorem processRow_four {d d' : Processes} {uuid pid name memory : Field} :
    processRow lookup d [uuid, pid, name, memory] = .ok d' ↔
      Parsed lookup [uuid, pid, name, memory] ∧
        d' = (record uuid pid memory).elim d (addRecord lookup d) := by
  rw [parsed_iff]
  cases hpid : parseInt pid with
  | error e => simp [processRow, hpid, bind, Except.bind]
  | ok n? =>
      cases n? with
      | none => simp [processRow, record, hpid, bind, Except.bind, pure, Except.pure, eq_comm]
      | some n =>
          cases hmemory : parseInt memory with
          | error e =>
              cases howner : lookup n with
              | error e' => cases e' <;> simp [processRow, hpid, hmemory, howner, bind, Except.bind]
              | ok name => simp [processRow, hpid, hmemory, howner, bind, Except.bind]
          | ok mb =>
              cases howner : lookup n with
              | error e' =>
                  cases e' <;> simp [processRow, record, addRecord, snapshot, hpid, hmemory, howner,
                    bind, Except.bind, pure, Except.pure, Except.toOption, eq_comm]
              | ok name =>
                  simp [processRow, record, addRecord, snapshot, hpid, hmemory, howner,
                    bind, Except.bind, pure, Except.pure, Except.toOption, eq_comm]

/-- What one row comes to. -/
theorem processRow_eq_ok_iff {d d' : Processes} {row : Record} :
    processRow lookup d row = .ok d' ↔
      Parsed lookup row ∧ d' = (rowRecord row).elim d (addRecord lookup d) := by
  by_cases hlength : row.length = 4
  · obtain ⟨uuid, pid, name, memory, rfl⟩ := List.length_eq_four.mp hlength
    exact processRow_four
  · have hraise : processRow lookup d row = .error (.processFields row) := by
      unfold processRow
      split
      · exact absurd rfl hlength
      · rfl
    rw [hraise]
    exact ⟨fun h => (nomatch h), fun h => absurd h.1.length hlength⟩

/-- A loop over rows that are all parsed adds their processes, in order. -/
theorem foldlM_processRow_eq_ok_iff {d d' : Processes} {rows : List Record} :
    rows.foldlM (processRow lookup) d = .ok d' ↔
      (∀ row ∈ rows, Parsed lookup row) ∧
        d' = (rows.filterMap rowRecord).foldl (addRecord lookup) d := by
  induction rows generalizing d with
  | nil => simp [pure, Except.pure, eq_comm]
  | cons row rows ih =>
      rw [List.foldlM_cons, bind_eq_ok_iff, List.forall_mem_cons]
      constructor
      · rintro ⟨next, hnext, hd'⟩
        obtain ⟨hrow, rfl⟩ := processRow_eq_ok_iff.mp hnext
        obtain ⟨hrows, rfl⟩ := ih.mp hd'
        refine ⟨⟨hrow, hrows⟩, ?_⟩
        cases hr : rowRecord row with
        | none => rw [List.filterMap_cons_none hr, Option.elim_none]
        | some r => rw [List.filterMap_cons_some hr, Option.elim_some, List.foldl_cons]
      · rintro ⟨⟨hrow, hrows⟩, rfl⟩
        refine ⟨_, processRow_eq_ok_iff.mpr ⟨hrow, rfl⟩, ih.mpr ⟨hrows, ?_⟩⟩
        cases hr : rowRecord row with
        | none => rw [List.filterMap_cons_none hr, Option.elim_none]
        | some r => rw [List.filterMap_cons_some hr, Option.elim_some, List.foldl_cons]

/-- The processes of a uuid are those of its rows. -/
theorem getD_foldl_addRecord (rs : List ProcessRecord) (uuid : Field) :
    ((rs.foldl (addRecord lookup) .empty).get? uuid).getD [] =
      (rs.filter fun r => r.uuid = uuid).map (snapshot lookup) := by
  have hpush := Dict.getD_foldl_push rs (·.uuid) (snapshot lookup) .empty uuid
  rwa [Dict.get?_empty, Option.getD_none, List.nil_append] at hpush

theorem parseProcessRows_eq_ok_iff {text : List Char} {d : Processes} :
    parseProcessRows text lookup = .ok d ↔ ∃ rows, csvRows text = .ok rows ∧
      (∀ row ∈ rows, Parsed lookup row) ∧
        d = (rows.filterMap rowRecord).foldl (addRecord lookup) .empty := by
  rw [parseProcessRows, bind_eq_ok_iff]
  exact exists_congr fun rows => by rw [mapError_eq_ok_iff, foldlM_processRow_eq_ok_iff]

/-- A blank line has no process. -/
theorem lineRecord_of_blank {line : Line} (h : notBlank (rowOfLine line) = false) :
    lineRecord line = none := by
  have hblank : ∀ cell ∈ cells line, strip cell = [] := by
    simpa [notBlank, rowOfLine] using h
  unfold lineRecord
  split
  · next uuid pid name memory rest hcells =>
      rw [hcells] at hblank
      have hpid : parseInt (strip pid) = .ok none := by
        rw [hblank pid (by simp)]
        decide +kernel
      rw [record, hpid]
  · rfl

/-- A line of four cells and its row are the same process. -/
theorem lineRecord_eq_rowRecord {line : Line} (h : (rowOfLine line).length = 4) :
    lineRecord line = rowRecord (rowOfLine line) := by
  rw [rowOfLine, List.length_map] at h
  obtain ⟨uuid, pid, name, memory, hcells⟩ := List.length_eq_four.mp h
  unfold lineRecord
  rw [rowOfLine, hcells]
  rfl

/-- The rows of lines that are taken have the processes of the lines. -/
theorem filterMap_rowRecord {lines : List Line} (h : ∀ line ∈ lines, Taken lookup line) :
    ((lines.map rowOfLine).filter notBlank).filterMap rowRecord = lines.filterMap lineRecord := by
  induction lines with
  | nil => rfl
  | cons line lines ih =>
      rw [List.forall_mem_cons] at h
      rw [List.map_cons]
      cases hblank : notBlank (rowOfLine line) with
      | true =>
          have hlength := (h.1.parsed hblank).length
          rw [List.filter_cons_of_pos hblank, List.filterMap_cons, List.filterMap_cons, ih h.2,
            lineRecord_eq_rowRecord hlength]
      | false =>
          rw [List.filter_cons_of_neg (by simp [hblank]), ih h.2,
            List.filterMap_cons_none (lineRecord_of_blank hblank)]

/-- **The process rows** of an answer that quotes no field come to the processes of its lines,
if each of them is taken, and to nothing otherwise. -/
theorem parseProcessRows_iff {text : List Char} (h : ∀ line ∈ readlines text, Unquoted line)
    {d : Processes} :
    parseProcessRows text lookup = .ok d ↔ (∀ line ∈ readlines text, Taken lookup line) ∧
      d = (records text).foldl (addRecord lookup) .empty := by
  rw [parseProcessRows_eq_ok_iff]
  constructor
  · rintro ⟨rows, hrows, hparsed, rfl⟩
    obtain ⟨hreadable, rfl⟩ := (csvRows_eq_ok_iff h).mp hrows
    have htaken : ∀ line ∈ readlines text, Taken lookup line := fun line hline =>
      ⟨hreadable line hline, fun hblank =>
        hparsed _ (List.mem_filter.mpr ⟨List.mem_map_of_mem hline, hblank⟩)⟩
    refine ⟨htaken, ?_⟩
    rw [records, ← filterMap_rowRecord htaken]
    rfl
  · rintro ⟨htaken, rfl⟩
    refine ⟨_, (csvRows_eq_ok_iff h).mpr ⟨fun line hline => (htaken line hline).readable, rfl⟩, ?_, ?_⟩
    · intro row hrow
      obtain ⟨hmem, hblank⟩ := List.mem_filter.mp hrow
      obtain ⟨line, hline, rfl⟩ := List.mem_map.mp hmem
      exact (htaken line hline).parsed hblank
    · rw [records, ← filterMap_rowRecord htaken]
      rfl

end Processes

/-! ## the report -/

section Report

variable {run : Runner} {lookup : Lookup} (gpus : GpuAnswer run)

/-- What the cards are reported with, if the processes come to a dictionary. -/
theorem collect_of_queryProcesses {d : Processes} (h : queryProcesses run lookup = .ok d) :
    collect run lookup = .ok (gpus.rows.map fun row =>
      { gpus.values row with processes := (d.get? (uuidCell row)).getD [] }) := by
  have hrows : ∀ rows ⊆ gpus.rows, rows.mapM (gpuEntry gpus.hasComputeCap d) =
      .ok (rows.map fun row =>
        { gpus.values row with processes := (d.get? (uuidCell row)).getD [] }) := by
    intro rows hrows
    induction rows with
    | nil => rfl
    | cons row rows ih =>
        rw [List.mapM_cons, ih fun r hr => hrows (List.mem_cons_of_mem row hr), gpuEntry,
          gpus.value row (hrows List.mem_cons_self)]
        rfl
  rw [collect, gpus.query, h]
  simp only [bind, Except.bind, parseGpuRows, gpus.read, mapError_ok]
  exact hrows gpus.rows (List.Subset.refl _)

/-- The report is as promised exactly if the processes come to a dictionary that has those of
every card. -/
theorem reported_iff_queryProcesses : Reported run lookup gpus ↔
    ∃ d, queryProcesses run lookup = .ok d ∧
      ∀ row ∈ gpus.rows, (d.get? (uuidCell row)).getD [] = attached run lookup (uuidCell row) := by
  cases h : queryProcesses run lookup with
  | error e =>
      have hcollect : collect run lookup = .error e := by
        rw [collect, gpus.query, h]
        rfl
      rw [Reported, hcollect]
      simp
  | ok d =>
      rw [Reported, collect_of_queryProcesses gpus h, Except.ok.injEq, List.map_inj_left]
      simp

/-- **The report** has one entry for each card, with its values and its processes, exactly where
the process query fails with an `NvidiaSmiError` or every line of its answer is taken; an answer
that quotes a field apart. -/
theorem reported_iff
    (hquery : ∀ e, processAnswer run = .error e → ∃ message, e = .nvidiaSmi message)
    (hquotes : ∀ text, processAnswer run = .ok text → ∀ line ∈ readlines text, Unquoted line) :
    Reported run lookup gpus ↔ ∀ text, processAnswer run = .ok text →
      ∀ line ∈ readlines text, Taken lookup line := by
  rw [reported_iff_queryProcesses]
  cases h : processAnswer run with
  | error e =>
      obtain ⟨message, rfl⟩ := hquery e h
      have hempty : queryProcesses run lookup = .ok .empty := by
        unfold queryProcesses
        rw [← processAnswer, h]
      simp only [hempty, Except.ok.injEq, exists_eq_left', attached, h, Dict.get?_empty,
        Option.getD_none, implies_true, reduceCtorEq, false_implies]
  | ok text =>
      have hquery : queryProcesses run lookup = parseProcessRows text lookup := by
        unfold queryProcesses
        rw [← processAnswer, h]
      rw [hquery]
      constructor
      · rintro ⟨d, hd, -⟩ text' htext
        obtain rfl := Except.ok.inj htext
        exact ((parseProcessRows_iff (hquotes text h)).mp hd).1
      · intro htaken
        refine ⟨_, (parseProcessRows_iff (hquotes text h)).mpr ⟨htaken text rfl, rfl⟩, ?_⟩
        intro row _
        rw [getD_foldl_addRecord, attached, h]

end Report

/-! ## one card -/

/-- `nvidia-smi` with one card, and this answer to the process query. -/
def oneCard (processes : String) : Runner
  | arg :: _ =>
      if "--query-gpu".toList <+: arg.toList then
        .ok "0, GPU-aaaa, NVIDIA A100, 40960, 2048, 37, 55, 123.4, 8.0\n".toList
      else .ok processes.toList
  | [] => .ok []

def oneCardAnswer (processes : String) : GpuAnswer (oneCard processes) where
  text := "0, GPU-aaaa, NVIDIA A100, 40960, 2048, 37, 55, 123.4, 8.0\n".toList
  hasComputeCap := true
  rows := [["0", "GPU-aaaa", "NVIDIA A100", "40960", "2048", "37", "55", "123.4", "8.0"].map
    String.toList]
  values := fun _ => ⟨0, some "GPU-aaaa".toList, some "NVIDIA A100".toList, some 40960,
    some "8.0".toList, 37, some 2048, some 55, some 123, by decide, by decide⟩
  query := rfl
  read := by decide +kernel
  value := by
    intro row hrow
    obtain rfl := List.mem_singleton.mp hrow
    decide +kernel

/-- A host on which every process is alice's. -/
def aliceOnly : Lookup := linuxUsernameForPid (fun _ => some 1000) fun _ => some "alice"

/-- Two processes, of which one is on another card, and a blank line. -/
def twoProcesses : String := "GPU-aaaa, 2222, python, 1024\n\nGPU-bbbb, 7, Xorg, [N/A]\n"

theorem reported_oneCard :
    Reported (oneCard twoProcesses) aliceOnly (oneCardAnswer twoProcesses) := by
  have hanswer : processAnswer (oneCard twoProcesses) = .ok twoProcesses.toList := rfl
  refine (reported_iff _ (fun e he => ?_) fun text htext => ?_).mpr fun text htext line hline => ?_
  · rw [hanswer] at he
    cases he
  · obtain rfl := Except.ok.inj (hanswer.symm.trans htext)
    decide +kernel
  · obtain rfl := Except.ok.inj (hanswer.symm.trans htext)
    have hlines : readlines twoProcesses.toList = ["GPU-aaaa, 2222, python, 1024\n".toList,
      "\n".toList, "GPU-bbbb, 7, Xorg, [N/A]\n".toList] := by decide +kernel
    rw [hlines] at hline
    simp only [List.mem_cons, List.not_mem_nil, or_false] at hline
    have howner : ∀ pid, aliceOnly pid ≠ .error .keyError := fun pid h => nomatch h
    rcases hline with rfl | rfl | rfl
    · exact ⟨by decide +kernel, fun _ => ⟨by decide +kernel,
        ⟨some 2222, by decide +kernel⟩, fun _ _ => howner _, fun _ _ => ⟨some 1024, by decide +kernel⟩⟩⟩
    · exact ⟨by decide +kernel, fun hblank => absurd hblank (by decide +kernel)⟩
    · exact ⟨by decide +kernel, fun _ => ⟨by decide +kernel,
        ⟨some 7, by decide +kernel⟩, fun _ _ => howner _, fun _ _ => ⟨none, by decide +kernel⟩⟩⟩

/-- A process with a comma in its name: the card is not reported. -/
theorem not_reported :
    collect (oneCard "GPU-aaaa, 2222, python, train.py, 1024\n") aliceOnly =
        .error (.processFields
          (["GPU-aaaa", "2222", "python", "train.py", "1024"].map String.toList)) ∧
      ¬ Reported (oneCard "GPU-aaaa, 2222, python, train.py, 1024\n") aliceOnly
        (oneCardAnswer "GPU-aaaa, 2222, python, train.py, 1024\n") := by
  have hcollect : collect (oneCard "GPU-aaaa, 2222, python, train.py, 1024\n")
      aliceOnly = .error (.processFields
        (["GPU-aaaa", "2222", "python", "train.py", "1024"].map String.toList)) := by
    decide +kernel
  refine ⟨hcollect, fun h => ?_⟩
  rw [Reported, hcollect] at h
  cases h

end GpuCollector

end CoreLab
